import SpecDraft.Proofs.File.Sight

/-!
# Which files change

Whether two disks have the same file at a place, or both none (`SameFile`). Making directories
changes no file. A replacement that fails changes no file either, and so leaves no temporary one
behind (`replaceFile_error_sameFile`); one that succeeds changes the file under the path and no
other (`replaceFile_ok_sameFile`).
-/
set_option autoImplicit false

namespace SpecDraft.Entry

/-- Whether two trees have the same file at a place, or both have no file there. -/
def SameFile (place : Location) (old new : Entry) : Prop :=
  ∀ content modified,
    new.at? place = some (.file content modified) ↔ old.at? place = some (.file content modified)

section SameFile
variable {place other : Location} {a b c old new written : Entry}

theorem SameFile.refl (place : Location) (a : Entry) : SameFile place a a := fun _ _ => Iff.rfl

theorem SameFile.symm (h : SameFile place a b) : SameFile place b a :=
  fun content modified => (h content modified).symm

theorem SameFile.trans (hab : SameFile place a b) (hbc : SameFile place b c) :
    SameFile place a c :=
  fun content modified => (hbc content modified).trans (hab content modified)

/-- Where neither tree has anything, they have the same file. -/
theorem sameFile_of_none (hold : old.at? place = none) (hnew : new.at? place = none) :
    SameFile place old new := by
  intro content modified
  rw [hold, hnew]

/-- What looks the same is the same file, or no file. -/
theorem sameFile_of_sight (h : new.sight place = old.sight place) : SameFile place old new := by
  intro content modified
  rw [← sight_eq_file, h, sight_eq_file]

/-- A local change alters no file that is neither at its place nor below it. -/
theorem sameFile_of_local {change : Entry → Location → Entry} (hlocal : Local change)
    (h : ¬ place <+: other) (old : Entry) : SameFile other old (change old place) :=
  sameFile_of_sight (sight_local hlocal h old)

/-- A new directory is no file. -/
theorem sameFile_put_directory (hnone : old.at? place = none) (other : Location) :
    SameFile other old (old.put place (.directory [])) := by
  by_cases hbelow : place <+: other
  · obtain ⟨rest, rfl⟩ := hbelow
    intro content modified
    constructor
    · intro hfound
      have hempty := at?_put_below hfound
      cases rest with
      | nil => cases hempty
      | cons name rest => cases hempty
    · intro hfound
      rw [at?_append, hnone] at hfound
      cases hfound
  · exact sameFile_of_local (local_put _) hbelow old

/-- A file that is put where no directory was changes no other file. -/
theorem sameFile_put_file {content : ByteArray} {modified : Moment}
    (hfile : ∀ found, old.at? place = some found → found.isFile) (hne : other ≠ place) :
    SameFile other old (old.put place (.file content modified)) := by
  by_cases hbelow : place <+: other
  · intro content' modified'
    constructor
    · intro hfound
      obtain ⟨rest, rfl⟩ := hbelow
      obtain rfl := at?_of_isFile rfl (at?_put_below hfound)
      exact absurd (List.append_nil place) hne
    · intro hfound
      exact absurd (eq_of_prefix_of_file hfile hbelow hfound) hne
  · exact sameFile_of_local (local_put _) hbelow old

/-- What was put where nothing was, and removed again, changes no file. -/
theorem sameFile_remove (hplace : place ≠ []) (hfree : old.at? place = none)
    (hbeside : ∀ other, ¬ place <+: other → SameFile other old written) (other : Location) :
    SameFile other old (written.remove place) := by
  by_cases hbelow : place <+: other
  · obtain ⟨rest, rfl⟩ := hbelow
    refine sameFile_of_none ?_ (at?_remove_below hplace written rest)
    rw [at?_append, hfree]
    rfl
  · exact (hbeside other hbelow).trans (sameFile_of_local local_remove hbelow written)

end SameFile

/-! ## Places without double dots -/

section Follow
variable {old new : Entry} {here place : Location} {names : List String}

/-- Names that lead somewhere in one tree lead there in every tree that has an entry there. -/
theorem follow_of_at? (hdots : ".." ∉ names) (h : new.follow here names = .ok place)
    {entry : Entry} (hentry : old.at? (here ++ names) = some entry) :
    old.follow here names = .ok place := by
  induction names generalizing here with
  | nil => exact h
  | cons name names ih =>
    obtain ⟨hname, hnames⟩ := not_or.mp (List.mem_cons.not.mp hdots)
    obtain ⟨entries, hnew⟩ := follow_cons_ok h
    rw [follow, hnew] at h
    simp only [if_neg (Ne.symm hname)] at h
    -- The entry lies below what is here, and so that is a directory.
    have hbelow := hentry
    rw [at?_append] at hbelow
    obtain ⟨above, habove, hrest⟩ := Option.bind_eq_some_iff.mp hbelow
    cases above with
    | file content modified => cases hrest
    | directory entries' =>
      rw [follow, habove]
      simp only [if_neg (Ne.symm hname)]
      split at h
      · cases h
      · rw [if_neg ‹_›]
        refine ih hnames h ?_
        rwa [List.append_assoc, List.singleton_append]

end Follow

end SpecDraft.Entry

namespace SpecDraft.Disk

/-- Whether two disks have the same file at a place, or both have no file there. -/
def SameFile (place : Location) (old new : Disk) : Prop := Entry.SameFile place old.root new.root

section SameFile
variable {place : Location} {old new : Disk} {path : FilePath}

/-- A file under a path without double dots is there on another disk that has the same file at the
place that the names of the path lead to. -/
theorem status_of_sameFile (hdots : ".." ∉ path.parts) (hsame : SameFile path.parts old new)
    {content : ByteArray} {modified : Moment}
    (h : new.status path = .ok (.file content modified)) :
    old.status path = .ok (.file content modified) := by
  obtain ⟨place, hleads, hfound⟩ := status_ok.mp h
  have hlocate := hleads.locate
  unfold locate at hlocate
  split at hlocate
  · cases hlocate
  rename_i hsize
  obtain rfl : place = path.parts := Entry.follow_of_no_dots hdots hlocate
  have hold := (hsame content modified).mp hfound
  refine status_ok.mpr ⟨path.parts, ⟨hleads.no_null, ?_⟩, hold⟩
  rw [locate, if_neg hsize]
  exact Entry.follow_of_at? hdots hlocate hold

/-- Two disks of which one keeps what the other has, and which have the same files, have the same
file under a path without double dots. -/
theorem status_iff_of_sameFile (hkeeps : ∀ place, Keeps place old new)
    (hsame : ∀ place, SameFile place old new) (hdots : ".." ∉ path.parts)
    (content : ByteArray) (modified : Moment) :
    new.status path = .ok (.file content modified) ↔
      old.status path = .ok (.file content modified) :=
  ⟨status_of_sameFile hdots (hsame path.parts), status_of_keeps hkeeps⟩

/-- Making directories changes no file. -/
theorem makeDirectories_sameFile (path : FilePath) (place : Location) :
    Action.Keeps (SameFile place) (makeDirectories path) :=
  makeDirectories_related (R := SameFile place) (fun disk => Entry.SameFile.refl place disk.root)
    (fun _ _ _ hab hbc => Entry.SameFile.trans hab hbc) path
    fun _ _ _ _ hmake => Entry.sameFile_put_directory hmake.free place

end SameFile

section Replace
variable {target : FilePath} {start : String} {content : ByteArray} {now : Moment}
  {disk disk' : Disk}

/-- A temporary file, empty or filled, that is removed again leaves every file as it was. -/
theorem sameFile_without_temporary {here : Location} {name : String} {written : Disk}
    (hfree : disk.root.at? (here ++ [name]) = none)
    (hwritten : written = disk.put (here ++ [name]) (.file .empty now) ∨
      written = (disk.put (here ++ [name]) (.file .empty now)).put (here ++ [name])
        (.file content now)) (other : Location) :
    SameFile other disk (written.remove (here ++ [name])) := by
  refine Entry.sameFile_remove (by simp) hfree (fun beside hbeside => ?_) other
  have hcreated := Entry.sameFile_of_local (Entry.local_put (.file .empty now)) hbeside disk.root
  rcases hwritten with rfl | rfl
  · exact hcreated
  · exact hcreated.trans (Entry.sameFile_of_local (Entry.local_put _) hbeside _)

/-- **A replacement that fails changes no file**, and leaves no temporary one behind. -/
theorem replaceFile_error_sameFile (h : Replaceable target start) {failure : Failure}
    (hrun : (replaceFile target start content now).run disk = (.error failure, disk'))
    (other : Location) : SameFile other disk disk' := by
  rcases run_replaceFile target start content now disk with
    ⟨failure', hrun'⟩ | ⟨place, created, hplace, rfl, ⟨failure', written, hwritten, hrun'⟩ |
      ⟨written, goal, entry, -, -, -, -, hrun'⟩⟩
  · rw [hrun'] at hrun
    cases hrun
    exact Entry.SameFile.refl other disk.root
  · rw [hrun'] at hrun
    cases hrun
    obtain ⟨here, entries, tail, -, -, rfl, hfree⟩ := temporary_spec h hplace
    exact sameFile_without_temporary hfree hwritten other
  · rw [hrun'] at hrun
    cases hrun

/-- **A replacement that succeeds changes no file but the one under the path.** -/
theorem replaceFile_ok_sameFile (h : Replaceable target start)
    (hrun : (replaceFile target start content now).run disk = (.ok (), disk')) :
    ∃ goal, disk'.Leads target goal ∧ ∀ other, other ≠ goal → SameFile other disk disk' := by
  obtain ⟨goal', hleads, hwritten⟩ := replaceFile_ok h hrun
  refine ⟨goal', hleads, fun other hne => ?_⟩
  rcases run_replaceFile target start content now disk with
    ⟨failure', hrun'⟩ | ⟨place, created, hplace, rfl, ⟨failure', written, -, hrun'⟩ |
      ⟨written, goal, entry, rfl, hgoal, hentry, hfile, hrun'⟩⟩
  · rw [hrun'] at hrun
    cases hrun
  · rw [hrun'] at hrun
    cases hrun
  · rw [hrun'] at hrun
    cases hrun
    obtain ⟨here, entries, tail, hfollow, hhere, rfl, hfree⟩ := temporary_spec h hplace
    obtain ⟨-, hfilled⟩ := temporary_written hhere hfree content now
    rw [hfilled.found] at hentry
    cases hentry
    obtain rfl := goal_eq h (hfilled.keeps.follow hfollow) hgoal
    obtain rfl := goal_eq h (hwritten.keeps.follow hfollow) hleads
    -- The temporary file is gone again, and the target is put where no directory was.
    refine (sameFile_without_temporary hfree (.inr rfl) other).trans
      (Entry.sameFile_put_file (fun found hfound => hfile found ?_) hne)
    rwa [← Entry.local_remove.at?_beside (Ne.symm (h.temporary tail).2)]

end Replace

end SpecDraft.Disk
