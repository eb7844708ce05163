import SpecDraft.Proofs.File.Rewriting
import SpecDraft.Proofs.State.Completion
import SpecDraft.Proofs.State.Untouched

/-!
# Completing a step once more

A step that is completed once more with the same words about it changes the state in two places: the
time of the last change, and the time of the completion (`complete_again`). The order of the members
and everything else stay as they are, and at the same moment so does all of it. Where the file could
be written before, it is written again (`completeStep_again`).
-/
set_option autoImplicit false

namespace SpecDraft

/-! ## Putting what is there -/

theorem Assoc.put_eq_self {α : Type} {items : List (String × α)} {name : String} {item : α}
    (h : items.lookup name = some item) : put items name item = items := by
  induction items with
  | nil => cases h
  | cons pair items ih =>
    obtain ⟨other, old⟩ := pair
    rw [put]
    split
    · rename_i hother
      subst hother
      rw [lookup_cons_self] at h
      rw [Option.some.inj h]
    · rename_i hother
      rw [lookup_cons_ne hother] at h
      rw [ih h]

/-- Merging in what is there changes nothing. -/
theorem Members.merge_eq_self {members updates : Members}
    (h : ∀ pair ∈ updates, members.get? pair.1 = some pair.2) : members.merge updates = members := by
  induction updates with
  | nil => rfl
  | cons pair updates ih =>
    obtain ⟨hfirst, hrest⟩ := List.forall_mem_cons.mp h
    change (members.put pair.1 pair.2).merge updates = members
    rw [show members.put pair.1 pair.2 = members from Assoc.put_eq_self hfirst, ih hrest]

/-! ## Limits on values -/

namespace Json

variable {limits : Limits} {level : Nat} {members : Members}

theorem membersExcess?_iff : membersExcess? limits level members = none ↔
    ∀ pair ∈ members, excess? limits level pair.2 = none := by
  induction members with
  | nil => exact iff_of_true rfl fun _ hmem => absurd hmem List.not_mem_nil
  | cons pair members ih =>
    rw [membersExcess?, Option.or_eq_none_iff, ih, List.forall_mem_cons]

theorem excess?_obj_iff : excess? limits level (.obj members) = none ↔
    limits.isTooDeep level = false ∧ ∀ pair ∈ members, excess? limits (level + 1) pair.2 = none := by
  rw [← membersExcess?_iff]
  refine ⟨Reader.excess?_obj, fun ⟨hlevel, hmembers⟩ => ?_⟩
  rw [excess?, hlevel]
  exact hmembers

end Json

namespace State

variable {state old : State} {step : Step} {said : Members} {now later : Moment}

/-- A state with another moment as the time of its last change and of the completion of a step. -/
def retimed (state : State) (step : Step) (now : Moment) : State where
  version := state.version
  created := state.created
  updated := .str now.stamp
  route := state.route
  currentStep := state.currentStep
  completed := state.completed
  metadata := state.metadata
  details := Assoc.put state.details step.id ((state.detailsOf step).put "completed" (.str now.stamp))
  extra := state.extra

/-- What is known of a step that was completed. -/
theorem detailsOf_complete (old : State) (step : Step) (said : Members) (now : Moment) :
    (old.complete step said now).detailsOf step =
      ((old.detailsOf step).merge
        [("completed", .str now.stamp), ("status", .str "completed")]).merge said := by
  rw [detailsOf, complete, Assoc.lookup_put_self]
  rfl

theorem mem_details_complete (old : State) (step : Step) (said : Members) (now : Moment) :
    (step.id, (old.complete step said now).detailsOf step) ∈ (old.complete step said now).details := by
  rw [detailsOf_complete]
  exact Assoc.mem_of_lookup (Assoc.lookup_put_self _ _ _)

theorem isCompleted_complete (old : State) (step : Step) (said : Members) (now : Moment) :
    (old.complete step said now).isCompleted step = true := by
  unfold complete isCompleted
  dsimp only
  split
  · assumption
  · rw [List.any_append, Bool.or_eq_true]
    exact .inr (by simp [Json.text?])

/-- Words about a step, each said once, that do not speak of its completion. -/
structure Plainly (said : Members) : Prop where
  distinct : said.keys.Nodup
  completed : "completed" ∉ said.keys
  status : "status" ∉ said.keys

/-- What is noted of a completion, and what was said, is what is known then. -/
theorem get?_detailsOf_complete (h : Plainly said) (old : State) (step : Step) (now : Moment) :
    ((old.complete step said now).detailsOf step).get? "completed" = some (.str now.stamp) ∧
      ((old.complete step said now).detailsOf step).get? "status" = some (.str "completed") ∧
      ∀ pair ∈ said, ((old.complete step said now).detailsOf step).get? pair.1 = some pair.2 := by
  have hnoted : Members.keys [("completed", .str now.stamp), ("status", .str "completed")] |>.Nodup :=
    (by decide : ["completed", "status"].Nodup)
  rw [detailsOf_complete]
  refine ⟨?_, ?_, fun pair hpair => ?_⟩
  · rw [Members.get?_merge_of_not_mem h.completed, Members.get?_merge _ hnoted]
    rfl
  · rw [Members.get?_merge_of_not_mem h.status, Members.get?_merge _ hnoted]
    rfl
  · rw [Members.get?_merge _ h.distinct, Members.get?, Assoc.lookup_of_mem h.distinct hpair]
    rfl

/-- **A step that is completed once more**, with the same words, changes two times and no more. -/
theorem complete_again (h : Plainly said) (old : State) (step : Step) (now later : Moment) :
    (((old.complete step said now).stamped now).complete step said later).stamped later =
      ((old.complete step said now).stamped now).retimed step later := by
  obtain ⟨-, hstatus, hsaid⟩ := get?_detailsOf_complete h old step now
  have hdone := isCompleted_complete old step said now
  have hknown : (((old.complete step said now).detailsOf step).merge
      [("completed", .str later.stamp), ("status", .str "completed")]).merge said =
        ((old.complete step said now).detailsOf step).put "completed" (.str later.stamp) := by
    have hmerged : ((old.complete step said now).detailsOf step).merge
        [("completed", .str later.stamp), ("status", .str "completed")] =
          ((old.complete step said now).detailsOf step).put "completed" (.str later.stamp) :=
      Assoc.put_eq_self ((Members.get?_put_ne (by decide) _ _).trans hstatus)
    rw [hmerged]
    refine Members.merge_eq_self fun pair hpair => ?_
    have hne : pair.1 ≠ "completed" := fun heq =>
      h.completed (heq ▸ List.mem_map_of_mem hpair)
    rw [Members.get?_put_ne hne, hsaid pair hpair]
  exact congrArg₂ (fun completed details => { (old.complete step said now) with
    updated := .str later.stamp, completed, details }) (if_pos hdone)
    (congrArg (Assoc.put _ step.id) hknown)

/-- At the moment of the completion nothing changes. -/
theorem retimed_self (h : Plainly said) (old : State) (step : Step) (now : Moment) :
    ((old.complete step said now).stamped now).retimed step now =
      (old.complete step said now).stamped now := by
  obtain ⟨hcompleted, -, -⟩ := get?_detailsOf_complete h old step now
  have hput : ((old.complete step said now).detailsOf step).put "completed" (.str now.stamp) =
      (old.complete step said now).detailsOf step := Assoc.put_eq_self hcompleted
  have hdetails : Assoc.put (old.complete step said now).details step.id
      (((old.complete step said now).detailsOf step).put "completed" (.str now.stamp)) =
        (old.complete step said now).details := by
    rw [hput, detailsOf_complete]
    exact Assoc.put_eq_self (Assoc.lookup_put_self _ _ _)
  exact congrArg (fun details => { (old.complete step said now).stamped now with details }) hdetails

theorem retimed_proper (h : state.Proper) (step : Step) (now : Moment) :
    (state.retimed step now).Proper :=
  { h with
    updated := trivial
    steps := Assoc.nodup_names_put h.steps step.id _
    records := fun pair hpair => by
      rcases Assoc.mem_put hpair with rfl | hpair
      · exact (h.detailsOf step).put (show Json.WellFormed (.str now.stamp) from trivial) "completed"
      · exact h.records pair hpair }

/-- Other times are no excess. -/
theorem excess?_retimed {limits : Json.Limits} (hproper : state.Proper)
    (hknown : (step.id, state.detailsOf step) ∈ state.details)
    (h : state.toJson.excess? limits 0 = none) (now : Moment) :
    (state.retimed step now).toJson.excess? limits 0 = none := by
  rw [toJson, Json.excess?_obj_iff, hproper.members_eq, List.forall_mem_append] at h
  rw [toJson, Json.excess?_obj_iff, (retimed_proper hproper step now).members_eq,
    List.forall_mem_append]
  obtain ⟨hlevel, hown, hextra⟩ := h
  refine ⟨hlevel, ?_, hextra⟩
  unfold ownMembers at hown ⊢
  simp only [List.forall_mem_cons] at hown ⊢
  obtain ⟨hversion, hcreated, -, hroute, hcurrent, hcompleted, hmetadata, hdetails, hnil⟩ := hown
  refine ⟨hversion, hcreated, rfl, hroute, hcurrent, hcompleted, hmetadata, ?_, hnil⟩
  rw [Json.excess?_obj_iff] at hdetails ⊢
  refine ⟨hdetails.1, fun pair hpair => ?_⟩
  obtain ⟨⟨name, record⟩, hrecord, rfl⟩ := List.mem_map.mp hpair
  rcases Assoc.mem_put hrecord with heq | hold
  · obtain ⟨-, rfl⟩ := Prod.mk.inj heq
    have hbefore := hdetails.2 _ (List.mem_map_of_mem hknown)
    dsimp only at hbefore ⊢
    rw [Json.excess?_obj_iff] at hbefore ⊢
    refine ⟨hbefore.1, fun member hmember => ?_⟩
    rcases Assoc.mem_put hmember with rfl | hmember
    · rfl
    · exact hbefore.2 member hmember
  · exact hdetails.2 _ (List.mem_map_of_mem hold)

end State
namespace Store

section Again
variable {store : Store} {old state : State} {step : Step} {said : Json} {record : Members}
  {session after later : Session} {places : Set Location}

theorem parent_file (store : Store) : store.file.parent = store.directory := by
  rw [file_eq, FilePath.parent, List.dropLast_concat]

theorem writeText_eq (store : Store) (text : String) (now : Moment) :
    store.writeText text now = Disk.install store.file (fileName ++ ".") text.toUTF8 now := by
  rw [Disk.install, parent_file]
  rfl

/-- Completing a step of a state that can be read ends as the write of its text does. -/
theorem run_completeStep (hload : store.load.run session = (.ok old, session))
    (hrecord : saidOf said = .ok record)
    (hstate : (old.complete step record session.now).stamped session.now = state)
    (hvalid : State.violations state.toJson = [])
    (hexcess : state.toJson.excess? store.limits 0 = none) {result : Except Failure Unit}
    {disk : Disk}
    (hwrite : (store.writeText state.toJson.pretty session.now).run session.disk = (result, disk)) :
    ∃ after, after.disk = disk ∧
      (store.completeStep (.str step.id) said).run session = (result.map fun _ => state, after) := by
  subst hstate
  have hsave : (store.save ((old.complete step record session.now).stamped session.now)).run
      session = (result, { session with disk }) := by
    rw [run_save hexcess, hwrite]
  have hchanged : (liftM (do return old.complete step (← saidOf said) session.now : Outcome State) :
      Action State).run session = (.ok (old.complete step record session.now), session) := by
    rw [Action.run_lift, hrecord]
    rfl
  have hupdate : (store.update fun state => do
      return state.complete step (← saidOf said) session.now).run session =
        (result.map fun _ => (old.complete step record session.now).stamped session.now,
          { session with disk }) := by
    unfold update
    rw [Action.run_bind_of_ok hload, Action.run_bind_of_ok hchanged,
      Action.run_bind_of_ok (Action.run_get session)]
    dsimp only
    rw [hvalid]
    cases result with
    | error failure => exact Action.run_bind_of_error hsave
    | ok _ => exact Action.run_bind_of_ok hsave
  unfold completeStep
  rw [Step.ofId?_text_id]
  dsimp only
  rw [Action.run_bind_of_ok (Action.run_get session)]
  cases result with
  | error failure => exact ⟨{ session with disk }, rfl, Action.run_bind_of_error hupdate⟩
  | ok _ =>
    rw [Action.run_bind_of_ok hupdate]
    refine ⟨_, ?_, rfl⟩
    rfl

/-- Completing a step wrote the text of the state that was returned, and nothing else. -/
theorem completeStep_written (hrecord : saidOf said = .ok record)
    (h : (store.completeStep (.str step.id) said).run session = (.ok state, after)) :
    ∃ old, store.load.run session = (.ok old, session) ∧
      state = (old.complete step record session.now).stamped session.now ∧
      State.violations state.toJson = [] ∧ store.Stores after.disk state ∧
      (store.writeText state.toJson.pretty session.now).run session.disk = (.ok (), after.disk) := by
  obtain ⟨step', old, record', hstep, hload, hrecord', hstate, hvalid, hstores⟩ := completeStep_ok h
  cases (Step.ofId?_text_id step).symm.trans hstep
  cases hrecord.symm.trans hrecord'
  refine ⟨old, hload, hstate, hvalid, hstores, ?_⟩
  rcases hwrite : (store.writeText state.toJson.pretty session.now).run session.disk with
    ⟨result, disk⟩
  obtain ⟨after', rfl, hrun⟩ :=
    run_completeStep hload hrecord hstate.symm hvalid hstores.within hwrite
  rw [h] at hrun
  obtain ⟨hresult, rfl⟩ := Prod.mk.inj hrun
  cases result with
  | error failure => cases hresult
  | ok _ => rfl

/-- **A step is completed once more**, after a first time and after files were written elsewhere,
if the file may be read. The state that is written then differs in the two times alone. -/
theorem completeStep_again (hdots : ".." ∉ store.directory.parts)
    (hrecord : saidOf said = .ok record) (hwf : said.WellFormed) (hplainly : State.Plainly record)
    (h : (store.completeStep (.str step.id) said).run session = (.ok state, after))
    (hlater : Disk.Grows store.file.anchor places after.disk later.disk)
    (hspares : Disk.Spares store.file (fileName ++ ".") places)
    (hsize : state.toJson.pretty.toUTF8.size ≤ store.limit) :
    ∃ last, (store.completeStep (.str step.id) said).run later =
        (.ok (state.retimed step later.now), last) ∧
      Disk.Replaces store.file (state.retimed step later.now).toJson.pretty.toUTF8 later.now (.ok ())
        later.disk last.disk ∧
      state.retimed step session.now = state := by
  obtain ⟨old, hload, hstate, hvalid, hstores, hwrite⟩ := completeStep_written hrecord h
  have hfileDots : ".." ∉ store.file.parts := by
    rw [parts_file, List.mem_append, List.mem_singleton]
    exact fun hmem => hmem.elim hdots (by decide)
  have hproper : state.Proper := by
    rw [hstate]
    exact State.stamped_proper (State.complete_proper (proper_of_load hload) step
      (saidOf_wellFormed hwf hrecord) _) _
  -- The file as it is read later.
  have huntouched : store.Untouched after.disk later.disk := untouched_of_sameFile hdots
    (Entry.sameFile_of_sight (hlater.beside hspares.goal.1 hspares.goal.2))
  have hload' : store.load.run later = (.ok state, later) :=
    huntouched.load ((load_of_stores hstores hproper).mpr ⟨hvalid, hsize⟩)
  obtain ⟨-, members, -, hmembers, hreads⟩ := load_ok.mp hload'
  have hretimed : (state.complete step record later.now).stamped later.now =
      state.retimed step later.now := by
    rw [hstate, State.complete_again hplainly]
  have hvalid' : State.violations (state.retimed step later.now).toJson = [] := by
    rw [← hretimed]
    exact State.complete_valid hmembers hreads hproper step (saidOf_wellFormed hwf hrecord)
  have hdetails : (step.id, state.detailsOf step) ∈ state.details := by
    rw [hstate]
    exact State.mem_details_complete old step record session.now
  rw [writeText_eq] at hwrite
  obtain ⟨-, again, hagain, hreplaces⟩ := Disk.install_again store.file_replaceable hfileDots hwrite
    (.inl rfl) hlater hspares (state.retimed step later.now).toJson.pretty.toUTF8 later.now
  rw [← writeText_eq] at hagain
  obtain ⟨last, rfl, hlast⟩ := run_completeStep hload' hrecord hretimed hvalid'
    (State.excess?_retimed hproper hdetails hstores.within later.now) hagain
  refine ⟨last, hlast, hreplaces, ?_⟩
  rw [hstate, State.retimed_self hplainly]

end Again
end Store
end SpecDraft
