import SpecDraft.File.Replace
import SpecDraft.Proofs.Action
import SpecDraft.Proofs.File.Tree
import SpecDraft.Proofs.Json.Numeral

/-!
# Replacing files

Making directories and replacing a file keep everything else on the disk. A replacement that
succeeds leaves the new content under the path (`replaceFile_ok`), and one that fails leaves the
file as it was (`replaceFile_error`): the content goes to a name that no entry beside the file
has, and the rename comes last.
-/
set_option autoImplicit false

namespace SpecDraft.Disk

/-- Another disk has what this one has, except perhaps a file at some place. -/
def Keeps (place : Location) (old new : Disk) : Prop := Entry.Keeps place old.root new.root

theorem Keeps.refl (place : Location) (disk : Disk) : Keeps place disk disk :=
  Entry.Keeps.refl place disk.root

theorem Keeps.trans {place : Location} (a b c : Disk) (hab : Keeps place a b)
    (hbc : Keeps place b c) : Keeps place a c :=
  Entry.Keeps.trans hab hbc

/-- Whether a path can be used and leads to a place. -/
structure Leads (disk : Disk) (path : FilePath) (place : Location) : Prop where
  no_null : holdsNull path = false
  locate : disk.locate path = .ok place

theorem entry?_ok {disk : Disk} {path : FilePath} {entry : Entry} :
    disk.entry? path = .ok entry ↔
      ∃ place, disk.locate path = .ok place ∧ disk.root.at? place = some entry := by
  unfold entry?
  cases disk.locate path with
  | error cause => exact ⟨fun h => (by cases h), fun ⟨_, h, _⟩ => (by cases h)⟩
  | ok place =>
    dsimp only [bind, Except.bind]
    constructor
    · intro h
      cases hfound : disk.root.at? place with
      | none => rw [hfound] at h; cases h
      | some found =>
        rw [hfound] at h
        cases h
        exact ⟨place, rfl, hfound⟩
    · rintro ⟨_, ⟨⟩, hfound⟩
      rw [hfound]
      rfl

theorem status_ok {disk : Disk} {path : FilePath} {entry : Entry} :
    disk.status path = .ok entry ↔
      ∃ place, disk.Leads path place ∧ disk.root.at? place = some entry := by
  unfold status
  split
  · rename_i hnull
    exact ⟨fun h => (by cases h), fun ⟨_, ⟨h, _⟩, _⟩ => (by rw [h] at hnull; cases hnull)⟩
  · rename_i hnull
    rw [Action.mapError_ok, entry?_ok]
    constructor
    · rintro ⟨place, hlocate, hfound⟩
      exact ⟨place, ⟨Bool.eq_false_iff.mpr hnull, hlocate⟩, hfound⟩
    · rintro ⟨place, hleads, hfound⟩
      exact ⟨place, hleads.locate, hfound⟩

theorem check_of_status {disk : Disk} {path : FilePath} {entry : Entry}
    (h : disk.status path = .ok entry) (test : Entry → Bool) :
    disk.check path test = .ok (test entry) := by
  unfold status at h
  unfold check
  split at h
  · cases h
  · rw [if_neg ‹_›, Action.mapError_ok.mp h]

theorem Keeps.leads {place goal : Location} {old new : Disk} (h : Keeps place old new)
    {path : FilePath} (hgoal : old.Leads path goal) : new.Leads path goal := by
  refine ⟨hgoal.no_null, ?_⟩
  have hlocate := hgoal.locate
  unfold Disk.locate at hlocate ⊢
  split at hlocate
  · cases hlocate
  · rw [if_neg ‹_›]
    exact Entry.Keeps.follow h hlocate

/-- A file stays where nothing was excepted. -/
theorem status_of_keeps {old new : Disk} (h : ∀ place, Keeps place old new) {path : FilePath}
    {content : ByteArray} {modified : Moment}
    (hstatus : old.status path = .ok (.file content modified)) :
    new.status path = .ok (.file content modified) := by
  obtain ⟨place, hleads, hfound⟩ := status_ok.mp hstatus
  have hkeeps := h (place ++ [""])
  refine status_ok.mpr ⟨place, hkeeps.leads hleads, hkeeps.file ?_ hfound⟩
  intro heq
  have hlength := congrArg List.length heq
  simp at hlength

/-! ## Steps -/

theorem run_attempt (step : WriteStep) (path : FilePath) (disk : Disk) :
    (attempt step path).run disk =
      (match disk.refuses step path with
        | some cause => .error (systemFailure path cause)
        | none => .ok (), disk) := by
  unfold attempt
  rw [Action.run_bind_of_ok (Action.run_get disk)]
  cases disk.refuses step path <;> rfl

theorem attempt_unchanged (step : WriteStep) (path : FilePath) :
    Action.Keeps Eq (attempt step path) := by
  intro disk
  rw [run_attempt]

/-- Finding the place for a change changes nothing. -/
theorem run_locateForWriting (path : FilePath) (disk : Disk) :
    (locateForWriting path).run disk =
      (if holdsNull path then .error nullInPath
        else (disk.locate path).mapError (systemFailure path), disk) := by
  unfold locateForWriting
  split
  · rfl
  · rw [Action.run_bind_of_ok (Action.run_get disk)]
    cases disk.locate path <;> rfl

theorem locateForWriting_unchanged (path : FilePath) :
    Action.Keeps Eq (locateForWriting path) := by
  intro disk
  rw [run_locateForWriting]

theorem leads_of_locateForWriting {path : FilePath} {disk disk' : Disk} {place : Location}
    (h : (locateForWriting path).run disk = (.ok place, disk')) : disk.Leads path place := by
  rw [run_locateForWriting] at h
  have hresult := congrArg Prod.fst h
  dsimp only at hresult
  split at hresult
  · cases hresult
  · exact ⟨Bool.eq_false_iff.mpr ‹_›, Action.mapError_ok.mp hresult⟩

/-! ## Making directories -/

/-- Whether a directory can be made under a path, at the place that it leads to. -/
structure CanMake (disk : Disk) (path : FilePath) (place : Location) : Prop where
  leads : disk.Leads path place
  free : disk.root.at? place = none
  allowed : disk.refuses .makeDirectory path = none

section MakeDirectories
variable {R : Disk → Disk → Prop}

/-- A relation that holds as long as nothing changes, and when an empty directory is put where
nothing was under the path, holds between the disks before and after a directory is made. -/
theorem makeDirectory_related (hrefl : ∀ disk, R disk disk) (path : FilePath)
    (hput : ∀ disk place, CanMake disk path place → R disk (disk.put place (.directory []))) :
    Action.Keeps R (makeDirectory path) := by
  intro disk
  unfold makeDirectory
  rcases hlocate : (locateForWriting path).run disk with ⟨failure | place, mid⟩ <;>
    obtain rfl := (locateForWriting_unchanged path).of_run hlocate
  · rw [Action.run_bind_of_error hlocate]
    exact hrefl disk
  rw [Action.run_bind_of_ok hlocate, Action.run_bind_of_ok (Action.run_get disk)]
  cases hplace : disk.root.at? place with
  | some entry => exact hrefl disk
  | none =>
    dsimp only
    have hattempt := run_attempt .makeDirectory path disk
    cases hallowed : disk.refuses .makeDirectory path with
    | some cause =>
      rw [hallowed] at hattempt
      rw [Action.run_bind_of_error hattempt]
      exact hrefl disk
    | none =>
      rw [hallowed] at hattempt
      rw [Action.run_bind_of_ok hattempt]
      exact hput disk place ⟨leads_of_locateForWriting hlocate, hplace, hallowed⟩

theorem unlessPresent_related (hrefl : ∀ disk, R disk disk) (path : FilePath)
    (failure : Failure) : Action.Keeps R (unlessPresent path failure) := by
  intro disk
  unfold unlessPresent
  rw [Action.run_bind_of_ok (Action.run_get disk)]
  split <;> exact hrefl disk

theorem makeDirectoriesWithin_related (hrefl : ∀ disk, R disk disk)
    (htrans : ∀ a b c, R a b → R b c → R a c) (depth : Nat) (path : FilePath)
    (hput : ∀ disk parts place, parts <+: path.parts → CanMake disk ⟨path.anchor, parts⟩ place →
      R disk (disk.put place (.directory []))) :
    Action.Keeps R (makeDirectoriesWithin depth path) := by
  induction depth generalizing path with
  | zero =>
    have hmake := makeDirectory_related hrefl path fun disk place =>
      hput disk path.parts place List.prefix_rfl
    exact hmake.tryCatch htrans fun failure => unlessPresent_related hrefl path failure
  | succ depth ih =>
    have hmake := makeDirectory_related hrefl path fun disk place =>
      hput disk path.parts place List.prefix_rfl
    refine hmake.tryCatch htrans fun failure => ?_
    split
    · split
      · exact fun disk => hrefl disk
      · refine Action.Keeps.bind htrans (ih path.parent fun disk parts place habove => ?_) fun _ => ?_
        · exact hput disk parts place (habove.trans (List.dropLast_prefix _))
        refine hmake.tryCatch htrans fun failure => ?_
        split
        · exact fun disk => hrefl disk
        · exact unlessPresent_related hrefl path _
    · exact unlessPresent_related hrefl path _

/-- What every new directory keeps, the making of directories keeps. -/
theorem makeDirectories_related (hrefl : ∀ disk, R disk disk)
    (htrans : ∀ a b c, R a b → R b c → R a c) (path : FilePath)
    (hput : ∀ disk parts place, parts <+: path.parts → CanMake disk ⟨path.anchor, parts⟩ place →
      R disk (disk.put place (.directory []))) :
    Action.Keeps R (makeDirectories path) :=
  makeDirectoriesWithin_related hrefl htrans path.parts.length path hput

end MakeDirectories

/-- Making directories keeps every file and every directory. -/
theorem makeDirectories_keeps (path : FilePath) (place : Location) :
    Action.Keeps (Keeps place) (makeDirectories path) :=
  makeDirectories_related (Keeps.refl place) Keeps.trans path
    fun _ _ _ _ hmake => Entry.keeps_put_of_none (.directory []) hmake.free place

/-! ## The temporary file -/

/-- There are more candidates than entries, so that one of them is not taken. -/
theorem find?_unused (start finish : String) (entries : List (String × Entry)) : ∃ n,
    ((List.range (entries.length + 1)).map fun n => start ++ temporaryTag n ++ finish).find?
      (fun name => !entries.any (·.1 == name)) = some (start ++ temporaryTag n ++ finish) := by
  let candidate (n : Nat) : String := start ++ temporaryTag n ++ finish
  have hinjective : Function.Injective candidate := by
    intro m n h
    have htag : temporaryTag m = temporaryTag n := by
      simpa [candidate, String.append_left_inj] using h
    exact Moment.padded_injective 8 htag
  have hnodup : ((List.range (entries.length + 1)).map candidate).Nodup :=
    List.nodup_range.map hinjective
  cases hfind : ((List.range (entries.length + 1)).map candidate).find?
      fun name => !entries.any (·.1 == name) with
  | none =>
    -- Were no candidate free, there would be more names than entries.
    have htaken : (List.range (entries.length + 1)).map candidate ⊆ Assoc.names entries := by
      intro name hname
      have hany := List.find?_eq_none.mp hfind name hname
      simpa [Assoc.names] using hany
    have hlength := (hnodup.subperm htaken).length_le
    rw [List.length_map, List.length_range, Assoc.names, List.length_map] at hlength
    omega
  | some name =>
    obtain ⟨n, -, rfl⟩ := List.mem_map.mp (List.mem_of_find?_eq_some hfind)
    exact ⟨n, rfl⟩

theorem unusedName_spec (start finish : String) (entries : List (String × Entry)) :
    ∃ tail, unusedName start finish entries = start ++ tail ∧
      start ++ tail ∉ Assoc.names entries := by
  obtain ⟨n, hfind⟩ := find?_unused start finish entries
  have hfree := List.find?_some hfind
  simp only [Bool.not_eq_true', List.any_eq_false, beq_iff_eq] at hfree
  refine ⟨temporaryTag n ++ finish, ?_, ?_⟩
  · rw [unusedName, hfind, Option.getD_some, ← String.append_assoc]
  · rw [← String.append_assoc]
    intro htaken
    obtain ⟨pair, hpair, hname⟩ := List.mem_map.mp htaken
    exact hfree pair hpair hname

/-! ## Replacing -/

theorem run_createFile (path : FilePath) (now : Moment) (disk : Disk) :
    (∃ failure, (createFile path now).run disk = (.error failure, disk)) ∨
      ∃ place, disk.Leads path place ∧
        (createFile path now).run disk = (.ok place, disk.put place (.file .empty now)) := by
  unfold createFile
  rcases hlocate : (locateForWriting path).run disk with ⟨failure | place, mid⟩ <;>
    obtain rfl := (locateForWriting_unchanged path).of_run hlocate
  · exact .inl ⟨failure, Action.run_bind_of_error hlocate⟩
  rw [Action.run_bind_of_ok hlocate]
  rcases hattempt : (attempt .createFile path).run disk with ⟨failure | _, mid⟩ <;>
    obtain rfl := (attempt_unchanged .createFile path).of_run hattempt
  · exact .inl ⟨failure, Action.run_bind_of_error hattempt⟩
  · rw [Action.run_bind_of_ok hattempt]
    exact .inr ⟨place, leads_of_locateForWriting hlocate, rfl⟩

theorem run_rename (source target : FilePath) (place : Location) (disk : Disk) :
    (∃ failure, (rename source target place).run disk = (.error failure, disk)) ∨
      ∃ goal entry, disk.Leads target goal ∧ disk.root.at? place = some entry ∧
        (∀ found, disk.root.at? goal = some found → found.isFile) ∧
        (rename source target place).run disk = (.ok (), (disk.remove place).put goal entry) := by
  unfold rename
  rcases hlocate : (locateForWriting target).run disk with ⟨failure | goal, mid⟩ <;>
    obtain rfl := (locateForWriting_unchanged target).of_run hlocate
  · exact .inl ⟨failure, Action.run_bind_of_error hlocate⟩
  rw [Action.run_bind_of_ok hlocate]
  rcases hattempt : (attempt .rename target).run disk with ⟨failure | _, mid⟩ <;>
    obtain rfl := (attempt_unchanged .rename target).of_run hattempt
  · exact .inl ⟨failure, Action.run_bind_of_error hattempt⟩
  rw [Action.run_bind_of_ok hattempt, Action.run_bind_of_ok (Action.run_get disk),
    Action.run_bind_of_ok (Action.run_get disk)]
  split
  · exact .inl ⟨_, rfl⟩
  · exact .inl ⟨_, rfl⟩
  · rename_i entry hentry hgoal
    refine .inr ⟨goal, entry, leads_of_locateForWriting hlocate, hentry, ?_, rfl⟩
    intro found hfound
    cases found with
    | file content modified => rfl
    | directory entries => exact absurd hfound (hgoal entries)

theorem run_fillAndRename (temporary target : FilePath) (place : Location) (content : ByteArray)
    (now : Moment) (disk : Disk) :
    (∃ failure written, (written = disk ∨ written = disk.put place (.file content now)) ∧
        (fillAndRename temporary target place content now).run disk = (.error failure, written)) ∨
      ∃ written goal entry, written = disk.put place (.file content now) ∧
        written.Leads target goal ∧ written.root.at? place = some entry ∧
        (∀ found, written.root.at? goal = some found → found.isFile) ∧
        (fillAndRename temporary target place content now).run disk =
          (.ok (), (written.remove place).put goal entry) := by
  unfold fillAndRename
  rcases hwrite : (attempt .writeBytes temporary).run disk with ⟨failure | _, mid⟩ <;>
    obtain rfl := (attempt_unchanged .writeBytes temporary).of_run hwrite
  · exact .inl ⟨failure, disk, .inl rfl, Action.run_bind_of_error hwrite⟩
  rw [Action.run_bind_of_ok hwrite, Action.run_bind_of_ok (Action.run_modify _ _)]
  generalize hwritten : disk.put place (.file content now) = written
  rcases hsync : (attempt .synchronise temporary).run written with ⟨failure | _, mid⟩ <;>
    obtain rfl := (attempt_unchanged .synchronise temporary).of_run hsync
  · exact .inl ⟨failure, written, .inr rfl, Action.run_bind_of_error hsync⟩
  rw [Action.run_bind_of_ok hsync]
  rcases run_rename temporary target place written with
    ⟨failure, hrename⟩ | ⟨goal, entry, hgoal, hentry, hfile, hrename⟩
  · exact .inl ⟨failure, written, .inr rfl, hrename⟩
  · exact .inr ⟨written, goal, entry, rfl, hgoal, hentry, hfile, hrename⟩

/-- How a replacement ends: before the temporary file is there, with the temporary file removed
again, or with it renamed. -/
theorem run_replaceFile (target : FilePath) (start : String) (content : ByteArray) (now : Moment)
    (disk : Disk) :
    (∃ failure, (replaceFile target start content now).run disk = (.error failure, disk)) ∨
      ∃ place created, disk.Leads (disk.temporaryBeside target start) place ∧
        created = disk.put place (.file .empty now) ∧
        ((∃ failure written, (written = created ∨ written = created.put place (.file content now)) ∧
            (replaceFile target start content now).run disk =
              (.error failure, written.remove place)) ∨
          ∃ written goal entry, written = created.put place (.file content now) ∧
            written.Leads target goal ∧ written.root.at? place = some entry ∧
            (∀ found, written.root.at? goal = some found → found.isFile) ∧
            (replaceFile target start content now).run disk =
              (.ok (), (written.remove place).put goal entry)) := by
  unfold replaceFile
  rw [Action.run_bind_of_ok (Action.run_get disk)]
  dsimp only
  rcases run_createFile (disk.temporaryBeside target start) now disk with
    ⟨failure, hcreate⟩ | ⟨place, hplace, hcreate⟩
  · exact .inl ⟨failure, Action.run_bind_of_error hcreate⟩
  refine .inr ⟨place, _, hplace, rfl, ?_⟩
  rw [Action.run_bind_of_ok hcreate, Action.run_tryCatch]
  rcases run_fillAndRename (disk.temporaryBeside target start) target place content now
      (disk.put place (.file .empty now)) with
    ⟨failure, written, hwritten, hrun⟩ |
      ⟨written, goal, entry, hwritten, hgoal, hentry, hfile, hrun⟩
  · rw [hrun]
    exact .inl ⟨failure, written, hwritten, rfl⟩
  · rw [hrun]
    exact .inr ⟨written, goal, entry, hwritten, hgoal, hentry, hfile, rfl⟩

/-- A path to a file, and the start of names that are no names of it. -/
structure Replaceable (target : FilePath) (start : String) : Prop where
  named : target.parts ≠ []
  no_dots : target.name ≠ ".."
  temporary : ∀ tail, start ++ tail ≠ ".." ∧ start ++ tail ≠ target.name

theorem parts_eq {path : FilePath} (h : path.parts ≠ []) :
    path.parts = path.parent.parts ++ [path.name] := by
  rw [FilePath.parent, FilePath.name, List.getLast?_eq_some_getLast h, Option.getD_some,
    List.dropLast_append_getLast h]

/-- A joined text has at least the bytes of its last part and of what is joined before it. -/
theorem size_join_le (separator : String) (parts : List String) (last : String) :
    (Text.join separator parts).utf8ByteSize + last.utf8ByteSize ≤
      (Text.join separator (parts ++ [last])).utf8ByteSize := by
  unfold Text.join
  induction parts with
  | nil => simp
  | cons part parts ih =>
    cases parts with
    | nil =>
      rw [List.singleton_append, String.intercalate_singleton, String.intercalate_cons_cons]
      simp only [String.utf8ByteSize_append, String.intercalate_singleton]
      omega
    | cons next parts =>
      rw [List.cons_append, List.cons_append, String.intercalate_cons_cons,
        String.intercalate_cons_cons]
      simp only [String.utf8ByteSize_append, List.cons_append] at ih ⊢
      omega

/-- A path is not too long if the path with another name is not. -/
theorem locate_parent {disk : Disk} {path : FilePath} {name : String} {here place : Location}
    (h : disk.locate { path with parts := path.parts ++ [name] } = .ok place)
    (hhere : disk.root.follow [] path.parts = .ok here) : disk.locate path = .ok here := by
  unfold locate at h ⊢
  split at h
  · cases h
  · rename_i hsize
    rw [if_neg, hhere]
    have hle := size_join_le "/" path.parts name
    simp only [FilePath.text, List.append_eq_nil_iff, List.isEmpty_iff, reduceCtorEq, and_false,
      if_false, String.utf8ByteSize_append] at hsize ⊢
    split
    · decide
    · rw [String.utf8ByteSize_append]
      omega

/-- The temporary file is put beside the target, under a name that is free. -/
theorem temporary_spec {target : FilePath} {start : String} (h : Replaceable target start)
    {disk : Disk} {place : Location}
    (hleads : disk.Leads (disk.temporaryBeside target start) place) :
    ∃ here entries tail, disk.root.follow [] target.parent.parts = .ok here ∧
      disk.root.at? here = some (.directory entries) ∧ place = here ++ [start ++ tail] ∧
      disk.root.at? place = none := by
  have hplace := hleads.locate
  have hfollow : disk.root.follow [] (disk.temporaryBeside target start).parts = .ok place := by
    unfold locate at hplace
    split at hplace
    · cases hplace
    · exact hplace
  unfold temporaryBeside at hplace hfollow
  obtain ⟨tail, hname, hfree⟩ := unusedName_spec start ".tmp" (disk.entriesAt target.parent)
  rw [hname] at hplace hfollow
  rw [Entry.follow_append] at hfollow
  cases hhere : disk.root.follow [] target.parent.parts with
  | error cause => rw [hhere] at hfollow; cases hfollow
  | ok here =>
    rw [hhere] at hfollow
    obtain ⟨rfl, entries, hentries⟩ := Entry.follow_singleton (h.temporary tail).1 hfollow
    -- The name is free among the entries that were listed, and these are the directory's.
    have hlisted : disk.entriesAt target.parent = entries := by
      rw [entriesAt, entry?_ok.mpr ⟨here, locate_parent hplace hhere, hentries⟩]
      rfl
    rw [hlisted] at hfree
    refine ⟨here, entries, tail, rfl, hentries, rfl, ?_⟩
    rw [Entry.at?_append, hentries, Option.bind_some, Entry.at?_directory,
      Assoc.lookup_eq_none_iff.mpr hfree]
    rfl

/-- A disk that has what another one has, and a file with some content at a place. -/
structure Written (place : Location) (content : ByteArray) (now : Moment) (old new : Disk) :
    Prop where
  keeps : Keeps place old new
  found : new.root.at? place = some (.file content now)

theorem Written.isFile {place : Location} {content : ByteArray} {now : Moment} {old new : Disk}
    (h : Written place content now old new) {entry : Entry}
    (hentry : new.root.at? place = some entry) : entry.isFile := by
  rw [h.found] at hentry
  cases hentry
  rfl

/-- Putting a file into a directory, where no directory is in its way. -/
theorem written_put {here : Location} {above : Entry} {name : String} {old : Disk}
    (hhere : old.root.at? here = some above) (hdir : above.isDirectory)
    (hfile : ∀ found, old.root.at? (here ++ [name]) = some found → found.isFile)
    (content : ByteArray) (now : Moment) :
    Written (here ++ [name]) content now old (old.put (here ++ [name]) (.file content now)) :=
  ⟨Entry.keeps_put _ hfile, Entry.at?_put_self name _ hhere hdir⟩

theorem Written.trans {place : Location} {content content' : ByteArray} {now now' : Moment}
    {a b c : Disk} (hab : Written place content now a b) (hbc : Written place content' now' b c) :
    Written place content' now' a c :=
  ⟨Keeps.trans a b c hab.keeps hbc.keeps, hbc.found⟩

/-- Removing the file again loses nothing. -/
theorem Written.remove {place : Location} {content : ByteArray} {now : Moment} {old new : Disk}
    (h : Written place content now old new) : Keeps place new (new.remove place) :=
  Entry.keeps_remove fun _ => h.isFile

section Replace
variable {target : FilePath} {start : String} {content : ByteArray} {now : Moment}
  {disk disk' : Disk}

/-- The disk with the temporary file, empty and then filled. -/
theorem temporary_written {here : Location} {entries : List (String × Entry)} {name : String}
    (hhere : disk.root.at? here = some (.directory entries))
    (hfree : disk.root.at? (here ++ [name]) = none) (content : ByteArray) (now : Moment) :
    Written (here ++ [name]) .empty now disk (disk.put (here ++ [name]) (.file .empty now)) ∧
      Written (here ++ [name]) content now disk
        ((disk.put (here ++ [name]) (.file .empty now)).put (here ++ [name])
          (.file content now)) := by
  have hcreated := written_put hhere rfl (fun found h => by rw [hfree] at h; cases h) .empty now
  obtain ⟨above, habove, hdir⟩ := hcreated.keeps.directory rfl hhere
  exact ⟨hcreated, hcreated.trans (written_put habove hdir (fun _ => hcreated.isFile) content now)⟩

/-- **A replacement that fails loses nothing.** -/
theorem replaceFile_error (h : Replaceable target start) {failure : Failure}
    (hrun : (replaceFile target start content now).run disk = (.error failure, disk'))
    (other : Location) : Keeps other disk disk' := by
  rcases run_replaceFile target start content now disk with
    ⟨failure', hrun'⟩ | ⟨place, created, hplace, rfl, ⟨failure', written, hwritten, hrun'⟩ |
      ⟨written, goal, entry, -, -, -, -, hrun'⟩⟩
  · rw [hrun'] at hrun
    cases hrun
    exact Keeps.refl other disk
  · rw [hrun'] at hrun
    cases hrun
    obtain ⟨here, entries, tail, -, hhere, rfl, hfree⟩ := temporary_spec h hplace
    obtain ⟨hempty, hfilled⟩ := temporary_written hhere hfree content now
    refine Entry.Keeps.of_none ?_ hfree other
    rcases hwritten with rfl | rfl
    · exact hempty.keeps.trans _ _ _ hempty.remove
    · exact hfilled.keeps.trans _ _ _ hfilled.remove
  · rw [hrun'] at hrun
    cases hrun

/-- Where the target is, given where the directory is. -/
theorem goal_eq (h : Replaceable target start) {here goal : Location}
    (hhere : disk.root.follow [] target.parent.parts = .ok here)
    (hleads : disk.Leads target goal) : goal = here ++ [target.name] := by
  have hgoal := hleads.locate
  unfold locate at hgoal
  split at hgoal
  · cases hgoal
  · rw [parts_eq h.named, Entry.follow_append, hhere] at hgoal
    exact (Entry.follow_singleton h.no_dots hgoal).1

/-- **A replacement that succeeds leaves the content under the path**, and loses nothing else. -/
theorem replaceFile_ok (h : Replaceable target start)
    (hrun : (replaceFile target start content now).run disk = (.ok (), disk')) :
    ∃ goal, disk'.Leads target goal ∧ Written goal content now disk disk' := by
  rcases run_replaceFile target start content now disk with
    ⟨failure', hrun'⟩ | ⟨place, created, hplace, rfl, ⟨failure', written, -, hrun'⟩ |
      ⟨written, goal, entry, rfl, hgoal, hentry, hfile, hrun'⟩⟩
  · rw [hrun'] at hrun
    cases hrun
  · rw [hrun'] at hrun
    cases hrun
  · rw [hrun'] at hrun
    cases hrun
    obtain ⟨here, entries, tail, hfollow, hhere, rfl, hfree⟩ := temporary_spec h hplace
    obtain ⟨-, hfilled⟩ := temporary_written hhere hfree content now
    rw [hfilled.found] at hentry
    cases hentry
    -- The target is in the directory of the temporary file, under another name.
    obtain rfl := goal_eq h (hfilled.keeps.follow hfollow) hgoal
    have hremoved := hfilled.keeps.trans _ _ _ hfilled.remove
    obtain ⟨above, habove, hdir⟩ := Entry.Keeps.directory hremoved rfl hhere
    have hput := written_put habove hdir (fun found hfound => hfile found (by
      rwa [← Entry.local_remove.at?_beside (Ne.symm (h.temporary tail).2)])) content now
    exact ⟨_, hput.keeps.leads (hfilled.remove.leads hgoal),
      (Entry.Keeps.of_none hremoved hfree _).trans hput.keeps, hput.found⟩

end Replace

/-! ## Nothing in the way -/

/-- The operating system refuses nothing, and a file can be put in the place of the target. -/
structure Ready (target : FilePath) (start : String) (disk : Disk) : Prop where
  refuses : ∀ step path, disk.refuses step path = none
  temporary : ∃ place, disk.Leads (disk.temporaryBeside target start) place
  target : ∃ goal, disk.Leads target goal ∧
    ∀ found, disk.root.at? goal = some found → found.isFile

section Ready
variable {target path : FilePath} {start : String} {content : ByteArray} {now : Moment}
  {disk : Disk} {place : Location}

theorem attempt_of_allowed (h : ∀ step path, disk.refuses step path = none) (step : WriteStep)
    (path : FilePath) : (attempt step path).run disk = (.ok (), disk) := by
  rw [run_attempt, h]

theorem locateForWriting_of_leads (h : disk.Leads path place) :
    (locateForWriting path).run disk = (.ok place, disk) := by
  rw [run_locateForWriting, h.no_null, h.locate]
  rfl

theorem createFile_of_leads (h : ∀ step path, disk.refuses step path = none)
    (hplace : disk.Leads path place) (now : Moment) :
    (createFile path now).run disk = (.ok place, disk.put place (.file .empty now)) := by
  unfold createFile
  rw [Action.run_bind_of_ok (locateForWriting_of_leads hplace),
    Action.run_bind_of_ok (attempt_of_allowed h .createFile path)]
  rfl

theorem rename_of_leads (h : ∀ step path, disk.refuses step path = none) {goal : Location}
    {entry : Entry} (hentry : disk.root.at? place = some entry) (hgoal : disk.Leads target goal)
    (hfile : ∀ found, disk.root.at? goal = some found → found.isFile) (source : FilePath) :
    ∃ disk', (rename source target place).run disk = (.ok (), disk') := by
  unfold rename
  rw [Action.run_bind_of_ok (locateForWriting_of_leads hgoal),
    Action.run_bind_of_ok (attempt_of_allowed h .rename target),
    Action.run_bind_of_ok (Action.run_get disk), Action.run_bind_of_ok (Action.run_get disk),
    hentry]
  cases hfound : disk.root.at? goal with
  | none => exact ⟨_, rfl⟩
  | some found =>
    cases found with
    | file content modified => exact ⟨_, rfl⟩
    | directory entries => exact absurd (hfile _ hfound) Bool.false_ne_true

theorem fillAndRename_of_allowed {temporary : FilePath} {disk' : Disk}
    (h : ∀ step path, disk.refuses step path = none)
    (hrename : (rename temporary target place).run (disk.put place (.file content now)) =
      (.ok (), disk')) :
    (fillAndRename temporary target place content now).run disk = (.ok (), disk') := by
  have hput (step : WriteStep) (path : FilePath) :
      (disk.put place (.file content now)).refuses step path = none := h step path
  unfold fillAndRename
  rw [Action.run_bind_of_ok (attempt_of_allowed h .writeBytes temporary),
    Action.run_bind_of_ok (Action.run_modify _ disk),
    Action.run_bind_of_ok (attempt_of_allowed hput .synchronise temporary), hrename]

/-- **A replacement succeeds when nothing is in the way.** -/
theorem replaceFile_of_ready (hreplaceable : Replaceable target start)
    (h : Ready target start disk) (content : ByteArray) (now : Moment) :
    ∃ disk', (replaceFile target start content now).run disk = (.ok (), disk') := by
  obtain ⟨place, hplace⟩ := h.temporary
  obtain ⟨goal, hgoal, hfile⟩ := h.target
  obtain ⟨here, entries, tail, hfollow, hhere, rfl, hfree⟩ := temporary_spec hreplaceable hplace
  obtain ⟨-, hfilled⟩ := temporary_written hhere hfree content now
  obtain rfl := goal_eq hreplaceable hfollow hgoal
  have hbeside (old : Disk) (entry : Entry) :
      (old.put (here ++ [start ++ tail]) entry).root.at? (here ++ [target.name]) =
        old.root.at? (here ++ [target.name]) :=
    (Entry.local_put entry).at?_beside (Ne.symm (hreplaceable.temporary tail).2) old.root here
  have hrefuses (step : WriteStep) (path : FilePath) :
      ((disk.put (here ++ [start ++ tail]) (.file .empty now)).put (here ++ [start ++ tail])
        (.file content now)).refuses step path = none := h.refuses step path
  obtain ⟨disk', hrename⟩ := rename_of_leads hrefuses hfilled.found (hfilled.keeps.leads hgoal)
    (by rwa [hbeside, hbeside]) (disk.temporaryBeside target start)
  have hcreated (step : WriteStep) (path : FilePath) :
      (disk.put (here ++ [start ++ tail]) (.file .empty now)).refuses step path = none :=
    h.refuses step path
  refine ⟨disk', ?_⟩
  unfold replaceFile
  rw [Action.run_bind_of_ok (Action.run_get disk)]
  dsimp only
  rw [Action.run_bind_of_ok (createFile_of_leads h.refuses hplace now), Action.run_tryCatch,
    fillAndRename_of_allowed hcreated hrename]

end Ready

theorem makeDirectory_of_present {path : FilePath} {entry : Entry} {disk : Disk}
    (h : disk.status path = .ok entry) :
    (makeDirectory path).run disk = (.error (systemFailure path .alreadyExists), disk) := by
  obtain ⟨place, hleads, hfound⟩ := status_ok.mp h
  unfold makeDirectory
  rw [Action.run_bind_of_ok (locateForWriting_of_leads hleads),
    Action.run_bind_of_ok (Action.run_get disk), hfound]
  rfl

theorem unlessPresent_of_present {path : FilePath} {entries : List (String × Entry)}
    {disk : Disk} (h : disk.status path = .ok (.directory entries)) (error : SystemError) :
    (unlessPresent path (.system error)).run disk = (.ok (), disk) := by
  have hdirectory : disk.isDirectory path = .ok true := check_of_status h Entry.isDirectory
  unfold unlessPresent
  rw [Action.run_bind_of_ok (Action.run_get disk), hdirectory]
  rfl

/-- A directory that is there is not made again. -/
theorem makeDirectoriesWithin_of_present {path : FilePath} {entries : List (String × Entry)}
    {disk : Disk} (h : disk.status path = .ok (.directory entries)) (depth : Nat) :
    (makeDirectoriesWithin depth path).run disk = (.ok (), disk) := by
  cases depth with
  | zero =>
    unfold makeDirectoriesWithin
    rw [Action.run_tryCatch, makeDirectory_of_present h]
    exact unlessPresent_of_present h _
  | succ depth =>
    unfold makeDirectoriesWithin
    rw [Action.run_tryCatch, makeDirectory_of_present h]
    exact unlessPresent_of_present h _

theorem makeDirectories_of_present {path : FilePath} {entries : List (String × Entry)}
    {disk : Disk} (h : disk.status path = .ok (.directory entries)) :
    (makeDirectories path).run disk = (.ok (), disk) :=
  makeDirectoriesWithin_of_present h path.parts.length

end SpecDraft.Disk
