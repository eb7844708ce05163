import SpecDraft.Proofs.File.Growth
import SpecDraft.Template.Source

/-!
# Reading from a disk that has grown

What is read under a path depends on what a disk shows there: a file, a directory whatever it holds,
or why there is neither (`Disk.shown`). What was shown stays, unless it was written over
(`Grows.shown_of_ok`); in a directory that was there, what was missing is still missing, unless it
was put there (`Grows.shown_below`).
-/
set_option autoImplicit false

namespace SpecDraft.Disk

/-- What a disk shows under a path. -/
def shown (disk : Disk) (path : FilePath) : Except SystemCause Entry :=
  (disk.entry? path).map Entry.bare

section Shown
variable {old new : Disk} {path : FilePath}

theorem shown_ok {disk : Disk} {entry : Entry} : disk.shown path = .ok entry ↔
    ∃ place, disk.locate path = .ok place ∧ disk.sight place = some entry := by
  unfold shown
  constructor
  · intro h
    cases hentry : disk.entry? path with
    | error cause => rw [hentry] at h; cases h
    | ok found =>
      rw [hentry] at h
      obtain ⟨place, hlocate, hfound⟩ := entry?_ok.mp hentry
      refine ⟨place, hlocate, ?_⟩
      rw [sight, Entry.sight, hfound]
      exact congrArg some (Except.ok.inj h)
  · rintro ⟨place, hlocate, hsight⟩
    obtain ⟨found, hfound, rfl⟩ := Option.map_eq_some_iff.mp hsight
    rw [entry?_ok.mpr ⟨place, hlocate, hfound⟩]
    rfl

/-- Where the same is shown, the same is found, or a directory both times. -/
theorem entry?_cases (h : new.shown path = old.shown path) : new.entry? path = old.entry? path ∨
    ∃ entries others, new.entry? path = .ok (.directory entries) ∧
      old.entry? path = .ok (.directory others) := by
  unfold shown at h
  cases hnew : new.entry? path with
  | error cause =>
    cases hold : old.entry? path with
    | error cause' => rw [hnew, hold] at h; cases h; exact .inl rfl
    | ok entry => rw [hnew, hold] at h; cases h
  | ok entry =>
    cases hold : old.entry? path with
    | error cause => rw [hnew, hold] at h; cases h
    | ok entry' =>
      rw [hnew, hold] at h
      cases entry with
      | file content modified =>
        cases entry' with
        | file content' modified' => cases h; exact .inl rfl
        | directory others => cases h
      | directory entries =>
        cases entry' with
        | file content' modified' => cases h
        | directory others => exact .inr ⟨entries, others, rfl, rfl⟩

/-! ## Questions -/

theorem check_congr (h : new.shown path = old.shown path) {test : Entry → Bool}
    (htest : ∀ entries others, test (.directory entries) = test (.directory others)) :
    new.check path test = old.check path test := by
  unfold check
  rcases entry?_cases h with heq | ⟨entries, others, hnew, hold⟩
  · rw [heq]
  · rw [hnew, hold]
    dsimp only
    rw [htest entries others]

theorem pathExists_congr (h : new.shown path = old.shown path) :
    new.pathExists path = old.pathExists path :=
  check_congr h fun _ _ => rfl

theorem isReadable_congr (h : new.shown path = old.shown path) :
    new.isReadable path = old.isReadable path := by
  unfold isReadable
  rcases entry?_cases h with heq | ⟨entries, others, hnew, hold⟩
  · rw [heq]
  · rw [hnew, hold]

theorem status_cases (h : new.shown path = old.shown path) : new.status path = old.status path ∨
    ∃ entries others, new.status path = .ok (.directory entries) ∧
      old.status path = .ok (.directory others) := by
  unfold status
  split
  · exact .inl rfl
  · rcases entry?_cases h with heq | ⟨entries, others, hnew, hold⟩
    · rw [heq]
      exact .inl rfl
    · rw [hnew, hold]
      exact .inr ⟨entries, others, rfl, rfl⟩

theorem readText_congr (h : new.shown path = old.shown path) (limit : Int) :
    new.readText path limit = old.readText path limit := by
  unfold readText
  rcases status_cases h with heq | ⟨entries, others, hnew, hold⟩
  · rw [heq]
  · rw [hnew, hold]
    rfl

theorem modifiedAt_congr (h : new.shown path = old.shown path) :
    new.modifiedAt path = old.modifiedAt path := by
  unfold modifiedAt
  rcases status_cases h with heq | ⟨entries, others, hnew, hold⟩
  · rw [heq]
  · rw [hnew, hold]
    rfl

theorem inDirectory_congr {name : String}
    (h : new.shown (path.child (name ++ ".md")) = old.shown (path.child (name ++ ".md"))) :
    Template.Source.inDirectory new path name = Template.Source.inDirectory old path name := by
  unfold Template.Source.inDirectory
  rcases status_cases h with heq | ⟨entries, others, hnew, hold⟩
  · rw [heq]
  · rw [hnew, hold]

/-- Above what is found there is a directory. -/
theorem sight_parent_of_status {disk : Disk} {entry : Entry} (hdots : ".." ∉ path.parts)
    (hnamed : path.parts ≠ []) (h : disk.status path = .ok entry) :
    disk.sight path.parent.parts = some (.directory []) := by
  obtain ⟨place, hleads, -⟩ := status_ok.mp h
  exact hleads.above hdots hnamed

end Shown

/-! ## Growing -/

section Grows
variable {anchor : String} {places : Set Location} {old new : Disk} {path : FilePath}

/-- **What was shown is shown still**, unless it was written over. -/
theorem Grows.shown_of_ok (h : Grows anchor places old new) {entry : Entry}
    (hshown : old.shown path = .ok entry)
    (hplace : ∀ place, old.locate path = .ok place → place ∉ places) :
    new.shown path = .ok entry := by
  obtain ⟨place, hlocate, hsight⟩ := shown_ok.mp hshown
  refine shown_ok.mpr ⟨place, ?_, h.kept (hplace place hlocate) hsight⟩
  unfold locate at hlocate ⊢
  split at hlocate
  · cases hlocate
  · rw [if_neg ‹_›]
    exact h.follow hlocate

/-- The same is shown where the path leads to the same place and the same is seen there. -/
theorem shown_congr (hlocate : new.locate path = old.locate path)
    (hsight : ∀ place, old.locate path = .ok place → new.sight place = old.sight place) :
    new.shown path = old.shown path := by
  unfold shown entry?
  rw [hlocate]
  cases hplace : old.locate path with
  | error cause => rfl
  | ok place =>
    have hsame := hsight place hplace
    unfold sight Entry.sight at hsame
    dsimp only [bind, Except.bind]
    cases hnew : new.root.at? place with
    | none =>
      rw [hnew] at hsame
      rw [Option.map_eq_none_iff.mp hsame.symm]
    | some entry =>
      rw [hnew] at hsame
      obtain ⟨entry', hold, hbare⟩ := Option.map_eq_some_iff.mp hsame.symm
      rw [hold]
      exact congrArg Except.ok hbare.symm

/-- **Below a directory that was there** the same is shown as before under a name under which
nothing was put. -/
theorem Grows.shown_below (h : Grows anchor places old new) {names : List String} {here : Location}
    {name : String} (hparts : path.parts = names ++ [name]) (hname : name ≠ "..")
    (hfollow : old.root.follow [] names = .ok here) (hhere : old.sight here = some (.directory []))
    (hplace : here ++ [name] ∉ places)
    (hway : here ++ [name] ∈ wayTo places → old.sight (here ++ [name]) ≠ none) :
    new.shown path = old.shown path := by
  have hlast (disk : Disk) (hdirectory : disk.sight here = some (.directory [])) :
      disk.root.follow here [name] =
        if 255 < name.utf8ByteSize then .error .nameTooLong else .ok (here ++ [name]) := by
    obtain ⟨entries, hentries⟩ := Entry.sight_eq_directory.mp hdirectory
    rw [Entry.follow, hentries]
    dsimp only
    rw [if_neg hname]
    rfl
  refine shown_congr ?_ fun goal hgoal => ?_
  · unfold locate
    rw [hparts, Entry.follow_append, Entry.follow_append, hfollow, h.follow hfollow]
    dsimp only [Except.bind]
    rw [hlast new (h.directory hhere), hlast old hhere]
  · -- The path leads to the name in the directory.
    have hspot : goal = here ++ [name] := by
      unfold locate at hgoal
      split at hgoal
      · cases hgoal
      rw [hparts, Entry.follow_append, hfollow] at hgoal
      dsimp only [Except.bind] at hgoal
      rw [hlast old hhere] at hgoal
      split at hgoal
      · cases hgoal
      · exact (Except.ok.inj hgoal).symm
    rw [hspot]
    exact h.settled hplace hway

/-- Under names without double dots, below a directory that was there, the same is shown as before
if nothing was put there. -/
theorem Grows.shown_under (h : Grows anchor places old new) (hdots : ".." ∉ path.parts)
    (habove : old.sight path.parent.parts = some (.directory [])) (hplace : path.parts ∉ places)
    (hway : path.parts ∈ wayTo places → old.sight path.parts ≠ none) :
    new.shown path = old.shown path := by
  refine shown_congr (locate_congr hdots fun place hstarts hne => ?_) fun goal hgoal => ?_
  · have hparent := prefix_parent hstarts hne
    rw [sight_above habove hparent, sight_above (h.directory habove) hparent]
  · unfold locate at hgoal
    split at hgoal
    · cases hgoal
    obtain rfl : goal = path.parts := Entry.follow_of_no_dots hdots hgoal
    exact h.settled hplace hway

end Grows
end SpecDraft.Disk
