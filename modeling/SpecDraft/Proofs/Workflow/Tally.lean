import SpecDraft.Proofs.Workflow.Success

/-!
# What becomes of every artifact

A stage that makes artifacts by a recipe tries each of them once, in order: either the artifact is
written and reported by one entry, or one note of an error tells why not (`run_collect`). The tally of
a stage lists its inputs, each with the failure if there was one.
-/
set_option autoImplicit false

namespace SpecDraft.Workflow

/-- The inputs of a stage in order, each with the failure to make its artifact, if it failed. -/
abbrev Tally (α : Type) := List (α × Option Failure)

namespace Tally

variable {α : Type}

/-- The inputs whose artifacts were made. -/
def made (tally : Tally α) : List α := tally.filterMap fun (x, failure) =>
  match failure with
  | none => some x
  | some _ => none

/-- The inputs whose artifacts were not made, with the failures. -/
def missed (tally : Tally α) : List (α × Failure) := tally.filterMap fun (x, failure) =>
  failure.map (x, ·)

/-- Every input is in one of the two lists. -/
theorem length_eq (tally : Tally α) : tally.length = tally.made.length + tally.missed.length := by
  induction tally with
  | nil => rfl
  | cons pair rest ih =>
    obtain ⟨x, _ | failure⟩ := pair
    · exact (congrArg (· + 1) ih).trans (Nat.add_right_comm _ _ _)
    · exact congrArg (· + 1) ih

theorem made_sublist (tally : Tally α) : tally.made.Sublist (tally.map Prod.fst) := by
  induction tally with
  | nil => exact .slnil
  | cons pair rest ih =>
    obtain ⟨x, _ | failure⟩ := pair
    · exact ih.cons_cons x
    · exact ih.cons x

/-- Where nothing was missed, everything was made. -/
theorem made_of_missed {tally : Tally α} (h : tally.missed = []) :
    tally.made = tally.map Prod.fst := by
  refine tally.made_sublist.eq_of_length ?_
  rw [List.length_map, tally.length_eq, h]
  rfl

end Tally

namespace Project

section Put
variable {project : Project} {target : FilePath} {text : Action String}
  {question : Disk → Outcome String} {before after : Session}
  {result : Except Failure Output.Written}

/-- What putting a text at a path comes to: files change at most at the path, and only when the text
is written there. -/
structure Puts (target : FilePath) (question : Disk → Outcome String) (before : Session)
    (result : Except Failure Output.Written) (after : Session) : Prop where
  now : after.now = before.now
  grows : Disk.Grows target.anchor {target.parts} before.disk after.disk
  unasked : (∀ content, question before.disk ≠ .ok content) → after.disk = before.disk
  written : ∀ written, result = .ok written → written.path = target.text ∧
    (∃ content, question before.disk = .ok content ∧
      after.disk.status target = .ok (.file content.toUTF8 before.now)) ∧
    ∀ spot, spot ≠ target.parts → Disk.SameFile spot before.disk after.disk
  failed : ∀ failure, result = .error failure → ∀ spot, Disk.SameFile spot before.disk after.disk

theorem run_put (hplain : target.Plain) (hasks : text.Asks question)
    (h : (project.put target text).run before = (result, after)) :
    Puts target question before result after := by
  obtain ⟨mid, hasked, hmid⟩ := hasks before
  unfold put at h
  cases hanswer : question before.disk with
  | error failure =>
    rw [hanswer] at hasked
    rw [Action.run_bind_of_error hasked] at h
    cases h
    have hdisk := hmid.disk
    refine ⟨hmid.now, hdisk ▸ .refl _ _ _, fun _ => hdisk, fun _ h => (by cases h), fun _ _ spot => ?_⟩
    rw [hdisk]
    exact Entry.SameFile.refl spot before.disk.root
  | ok content =>
    rw [hanswer] at hasked
    rw [Action.run_bind_of_ok hasked] at h
    have hwrite : (project.writer.write target.text content before.now).run before.disk =
        (result, after.disk) := by
      rw [← hmid.now, ← hmid.disk]
      cases h
      rfl
    have hnow : after.now = before.now := by
      rw [← hmid.now]
      cases h
      rfl
    have hrun := project.writer.write_run target.text content before.now before.disk
    have hgrows := project.writer.write_grows hplain content before.now before.disk
    rw [hwrite] at hrun hgrows
    refine ⟨hnow, hgrows, fun hnone => absurd hanswer (hnone content), ?_, ?_⟩
    · rintro written rfl
      obtain ⟨goal, haccepts, hstatus, rfl, -, hothers⟩ := hrun
      obtain rfl := Output.eq_of_checked hplain haccepts.path
      exact ⟨rfl, ⟨content, hanswer, hstatus⟩, hothers⟩
    · rintro failure rfl
      exact hrun.1

/-- What operations do not see does not matter. -/
theorem Puts.of_alike {start finish : Session} (h : Puts target question start result finish)
    (hstart : before.Alike start) (hfinish : finish.Alike after) :
    Puts target question before result after := by
  obtain ⟨hnow, hgrows, hunasked, hwritten, hfailed⟩ := h
  rw [hstart.now, ← hfinish.now] at hnow
  rw [hstart.disk, ← hfinish.disk] at hgrows hunasked hfailed
  rw [hstart.disk, hstart.now, ← hfinish.disk] at hwritten
  exact ⟨hnow, hgrows, hunasked, hwritten, hfailed⟩

end Put

/-! ## One artifact -/

namespace Recipe

section Make
variable {α β : Type} {recipe : Recipe α β} {project : Project} {question : α → Disk → Outcome String}
  {xs : List α} {x : α} {trace later : Trace} {before after : Session}

/-- The entry that reports an artifact. -/
def report (recipe : Recipe α β) (project : Project) (x : α) : β :=
  recipe.entry x (recipe.target project x).text

/-- The note that tells why an artifact was not made. -/
def note (recipe : Recipe α β) (pair : α × Failure) : Progress :=
  ⟨recipe.phase, "error", recipe.prelude pair.1 ++ ": " ++ pair.2.message, []⟩

/-- **An artifact is made or missed.** It is reported by its entry if the text could be put at its
path, else by a note of an error. -/
theorem run_make {made : Option β}
    (h : (recipe.make project x).Gives trace before made later after)
    (hplain : (recipe.target project x).Plain) (hasks : (recipe.text x).Asks (question x)) :
    (∃ written, Puts (recipe.target project x) (question x) before (.ok written) after ∧
        made = some (recipe.report project x) ∧ later.progress = trace.progress) ∨
      ∃ failure, Puts (recipe.target project x) (question x) before (.error failure) after ∧
        made = none ∧ later.progress = trace.progress ++ [recipe.note (x, failure)] := by
  obtain ⟨result, between, mid, ⟨start, finish, hstart, hrun, hfinish⟩, hrest⟩ := h.bind
  rcases hput : (project.put (recipe.target project x) (recipe.text x)).run start with
    ⟨given, put⟩
  have hattempt : ((liftM (attempt (project.put (recipe.target project x) (recipe.text x))) :
      Job (Except Failure Output.Written)).run.run trace).run start =
        ((.ok given, trace), put) := Job.run_effect hput trace
  cases hrun.symm.trans hattempt
  have hputs := run_put hplain hasks hput
  cases result with
  | ok written =>
    obtain ⟨rfl, rfl, halike⟩ := (hrest.after_quiet (Event.report_quiet _ _)).pure
    have hpath : written.path = (recipe.target project x).text := (hputs.written written rfl).1
    exact .inl ⟨written, hputs.of_alike hstart (hfinish.trans halike), by rw [hpath]; rfl, rfl⟩
  | error failure =>
    obtain ⟨_, skipped, mid', hskip, hpure⟩ := hrest.bind
    obtain ⟨rfl, rfl, halike⟩ := hpure.pure
    unfold skip at hskip
    split at hskip
    · obtain ⟨start', end', hstart', hrun', hend'⟩ := hskip.after_quiet (Event.failed_quiet _ _ _)
      cases hrun'
      exact .inr ⟨failure, hputs.of_alike hstart
        (hfinish.trans (hstart'.trans (hend'.trans halike))), rfl, rfl⟩
    · obtain ⟨_, _, _, ⟨_, _, _, hthrow, _⟩, _⟩ := hskip.bind
      cases hthrow

end Make

/-! ## All artifacts -/

/-- What the disk holds after the artifacts of a tally were tried: the texts of those that were made,
and every other file as it was. -/
structure Leaves {α β : Type} (recipe : Recipe α β) (project : Project)
    (question : α → Disk → Outcome String) (asked : Disk) (now : Moment) (tally : Tally α)
    (before after : Disk) : Prop where
  grows : Disk.Grows project.root.anchor project.artifacts before after
  files : ∀ x ∈ tally.made, ∃ content, question x asked = .ok content ∧
    after.status (recipe.target project x) = .ok (.file content.toUTF8 now)
  others : ∀ spot, (∀ x ∈ tally.made, spot ≠ (recipe.target project x).parts) →
    Disk.SameFile spot before after

/-- Whether the texts of a recipe are the same while artifacts are written, from a disk on where one
of them can be given. -/
def Steady {α : Type} (project : Project) (question : α → Disk → Outcome String) (asked : Disk) :
    Prop :=
  (∃ x content, question x asked = .ok content) → ∀ disk,
    Disk.Grows project.root.anchor project.artifacts asked disk → ∀ x,
      question x disk = question x asked

section Leaves
variable {α β : Type} {recipe : Recipe α β} {project : Project} {question : α → Disk → Outcome String}
  {asked before mid after : Disk} {now : Moment} {tally : Tally α} {x : α}

/-- Where no artifact is tried, the disk is left as it is. -/
theorem leaves_nil (recipe : Recipe α β) (project : Project) (question : α → Disk → Outcome String)
    (asked : Disk) (now : Moment) (disk : Disk) :
    recipe.Leaves project question asked now [] disk disk where
  grows := .refl _ _ _
  files _ hmem := absurd hmem List.not_mem_nil
  others spot _ := Entry.SameFile.refl spot disk.root

/-- An artifact that was made stays while others are made elsewhere. -/
theorem Leaves.made {content : String}
    (h : recipe.Leaves project question asked now tally mid after)
    (hplain : (recipe.target project x).Plain)
    (hapart : ∀ y ∈ tally.made, (recipe.target project x).parts ≠ (recipe.target project y).parts)
    (hgrows : Disk.Grows project.root.anchor project.artifacts before mid)
    (hcontent : question x asked = .ok content)
    (hstatus : mid.status (recipe.target project x) = .ok (.file content.toUTF8 now))
    (hothers : ∀ spot, spot ≠ (recipe.target project x).parts → Disk.SameFile spot before mid) :
    recipe.Leaves project question asked now ((x, none) :: tally) before after where
  grows := hgrows.trans h.grows
  files := by
    have hkept := h.others (recipe.target project x).parts hapart
    exact List.forall_mem_cons.mpr ⟨⟨content, hcontent,
      Disk.status_of_sameFile hplain.no_dots (Entry.SameFile.symm hkept) hstatus⟩, h.files⟩
  others spot hspot := by
    obtain ⟨hfirst, hrest⟩ := List.forall_mem_cons.mp hspot
    exact (hothers spot hfirst).trans (h.others spot hrest)

/-- An artifact that was missed leaves no trace. -/
theorem Leaves.missed {failure : Failure}
    (h : recipe.Leaves project question asked now tally mid after)
    (hgrows : Disk.Grows project.root.anchor project.artifacts before mid)
    (hsame : ∀ spot, Disk.SameFile spot before mid) :
    recipe.Leaves project question asked now ((x, some failure) :: tally) before after where
  grows := hgrows.trans h.grows
  files := h.files
  others spot hspot := Entry.SameFile.trans (hsame spot) (h.others spot hspot)

end Leaves

section Collect
variable {α β : Type} {recipe : Recipe α β} {project : Project} {question : α → Disk → Outcome String}
  {asked : Disk} {xs : List α} {trace later : Trace} {before after : Session} {entries : List β}

/-- After an artifact was tried, some text could be given, or the disk is still the first one. -/
theorem given_of_puts {target : FilePath} {x : α} {result : Except Failure Output.Written}
    (hputs : Puts target (question x) before result after)
    (hquestion : question x before.disk = question x asked)
    (hgiven : before.disk = asked ∨ ∃ y content, question y asked = .ok content) :
    after.disk = asked ∨ ∃ y content, question y asked = .ok content := by
  by_cases hany : ∃ content, question x asked = .ok content
  · exact .inr ⟨x, hany⟩
  · have hsame := hputs.unasked fun content hcontent => hany ⟨content, hquestion ▸ hcontent⟩
    exact hgiven.imp_left hsame.trans

/-- **Each artifact is tried once, in order**, by induction on the inputs. While no text can be given
nothing is written, and so all texts are those that the first disk gives. -/
theorem run_collect (hfits : recipe.Fits xs) (hroot : project.root.Plain)
    (hasks : ∀ x ∈ xs, (recipe.text x).Asks (question x)) (hsteady : Steady project question asked)
    (hbefore : Disk.Grows project.root.anchor project.artifacts asked before.disk)
    (hgiven : before.disk = asked ∨ ∃ x content, question x asked = .ok content)
    (h : (Job.collect (recipe.make project) xs).Gives trace before entries later after) :
    ∃ tally : Tally α, tally.map Prod.fst = xs ∧ entries = tally.made.map (recipe.report project) ∧
      later.progress = trace.progress ++ tally.missed.map recipe.note ∧ after.now = before.now ∧
      recipe.Leaves project question asked before.now tally before.disk after.disk := by
  induction xs generalizing trace before entries with
  | nil =>
    obtain ⟨rfl, rfl, halike⟩ := h.pure
    refine ⟨[], rfl, rfl, (List.append_nil _).symm, halike.now, ?_⟩
    rw [halike.disk]
    exact recipe.leaves_nil project question asked _ _
  | cons x rest ih =>
    obtain ⟨made, between, mid, hmake, hrest⟩ := h.bind
    obtain ⟨others, between', mid', hcollect, hpure⟩ := hrest.bind
    obtain ⟨rfl, rfl, halike⟩ := hpure.pure
    have hquestion : question x before.disk = question x asked := by
      rcases hgiven with heq | hgiven
      · rw [heq]
      · exact hsteady hgiven _ hbefore x
    have hplain := hfits.plain hroot List.mem_cons_self
    have hgrows {result : Except Failure Output.Written}
        (hputs : Puts (recipe.target project x) (question x) before result mid) :
        Disk.Grows project.root.anchor project.artifacts before.disk mid.disk :=
      hputs.grows.mono (Set.singleton_subset_iff.mpr (hfits.mem_artifacts List.mem_cons_self))
    have hrestOf {result : Except Failure Output.Written}
        (hputs : Puts (recipe.target project x) (question x) before result mid) :=
      ih hfits.tail (fun y hy => hasks y (List.mem_cons_of_mem _ hy))
        (hbefore.trans (hgrows hputs)) (given_of_puts hputs hquestion hgiven)
        (hcollect.alike halike)
    rcases run_make hmake hplain (hasks x List.mem_cons_self) with
      ⟨written, hputs, rfl, hprogress⟩ | ⟨failure, hputs, rfl, hprogress⟩
    all_goals
      obtain ⟨tally, hxs, rfl, hlater, hnow, hleaves⟩ := hrestOf hputs
      rw [hputs.now] at hleaves
    · obtain ⟨-, ⟨content, hcontent, hstatus⟩, hothers⟩ := hputs.written written rfl
      -- The other artifacts are put elsewhere.
      have hapart : ∀ y ∈ tally.made,
          (recipe.target project x).parts ≠ (recipe.target project y).parts :=
        fun y hy heq => hfits.ne_first (hxs ▸ tally.made_sublist.subset hy) heq.symm
      exact ⟨(x, none) :: tally, congrArg (x :: ·) hxs, rfl, by rw [hlater, hprogress]; rfl,
        hnow.trans hputs.now, hleaves.made hplain hapart (hgrows hputs) (hquestion ▸ hcontent)
          hstatus hothers⟩
    · refine ⟨(x, some failure) :: tally, congrArg (x :: ·) hxs, rfl, ?_, hnow.trans hputs.now,
        hleaves.missed (hgrows hputs) (hputs.failed failure rfl)⟩
      rw [hlater, hprogress, List.append_assoc]
      rfl

end Collect
end Recipe
end Project
end SpecDraft.Workflow
