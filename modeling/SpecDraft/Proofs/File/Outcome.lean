import SpecDraft.Proofs.File.Sight
import SpecDraft.Proofs.Text.Cutting

/-!
# How a replacement ends

Whether a replacement succeeds, and why it fails, depends on what the operating system refuses, on
where the paths lead, and on whether a directory is in the way (`Disk.replacement`). When it
succeeds, the content is seen at the place of the target, and nothing else has changed; when it
fails, nothing has (`replaceFile_run`).
-/
set_option autoImplicit false

namespace SpecDraft.Disk

/-- The place that a path names, for a change. -/
def located (disk : Disk) (path : FilePath) : Outcome Location :=
  if holdsNull path then .error nullInPath else (disk.locate path).mapError (systemFailure path)

/-- Whether the operating system lets a step pass. -/
def allowed (disk : Disk) (step : WriteStep) (path : FilePath) : Outcome Unit :=
  match disk.refuses step path with
  | some cause => .error (systemFailure path cause)
  | none => .ok ()

/-- Whether a file can be renamed to a path. -/
def renamed (disk : Disk) (target : FilePath) : Outcome Unit := do
  let goal ← disk.located target
  disk.allowed .rename target
  match disk.root.at? goal with
  | some (.directory _) => throw (systemFailure target .isADirectory)
  | _ => return

/-- Whether a file can be replaced with the help of a temporary one. -/
def replacement (disk : Disk) (target temporary : FilePath) : Outcome Unit := do
  let _ ← disk.located temporary
  disk.allowed .createFile temporary
  disk.allowed .writeBytes temporary
  disk.allowed .synchronise temporary
  disk.renamed target

section Steps
variable {disk : Disk} {path target : FilePath} {place : Location} {now : Moment}

theorem located_ok : disk.located path = .ok place ↔ disk.Leads path place := by
  unfold located
  constructor
  · intro h
    split at h
    · cases h
    · exact ⟨Bool.eq_false_iff.mpr ‹_›, Action.mapError_ok.mp h⟩
  · intro h
    rw [h.no_null, h.locate]
    rfl

theorem allowed_ok {step : WriteStep} : disk.allowed step path = .ok () ↔ disk.refuses step path = none := by
  unfold allowed
  cases disk.refuses step path with
  | some cause => exact ⟨fun h => (by cases h), fun h => (by cases h)⟩
  | none => exact ⟨fun _ => rfl, fun _ => rfl⟩

theorem run_located (path : FilePath) (disk : Disk) :
    (locateForWriting path).run disk = (disk.located path, disk) :=
  run_locateForWriting path disk

theorem run_allowed (step : WriteStep) (path : FilePath) (disk : Disk) :
    (attempt step path).run disk = (disk.allowed step path, disk) := by
  rw [run_attempt]
  rfl

/-- A file is created where its path leads, if that is allowed. -/
theorem createFile_run (path : FilePath) (now : Moment) (disk : Disk) :
    (createFile path now).run disk =
      match disk.located path, disk.allowed .createFile path with
      | .ok place, .ok _ => (.ok place, disk.put place (.file .empty now))
      | .error failure, _ => (.error failure, disk)
      | .ok _, .error failure => (.error failure, disk) := by
  unfold createFile
  cases hlocated : disk.located path with
  | error failure => rw [Action.run_bind_of_error (hlocated ▸ run_located path disk)]
  | ok place =>
    rw [Action.run_bind_of_ok (hlocated ▸ run_located path disk)]
    cases hallowed : disk.allowed .createFile path with
    | error failure => rw [Action.run_bind_of_error (hallowed ▸ run_allowed _ path disk)]
    | ok _ =>
      rw [Action.run_bind_of_ok (hallowed ▸ run_allowed _ path disk)]
      rfl

/-- A file is renamed if nothing is in the way. -/
theorem rename_run {source : FilePath} {entry : Entry} (hentry : disk.root.at? place = some entry) :
    (rename source target place).run disk =
      match disk.renamed target with
      | .error failure => (.error failure, disk)
      | .ok _ => (.ok (), match disk.located target with
        | .ok goal => (disk.remove place).put goal entry
        | .error _ => disk) := by
  unfold rename renamed
  cases hlocated : disk.located target with
  | error failure => rw [Action.run_bind_of_error (hlocated ▸ run_located target disk)]; rfl
  | ok goal =>
    rw [Action.run_bind_of_ok (hlocated ▸ run_located target disk)]
    cases hallowed : disk.allowed .rename target with
    | error failure => rw [Action.run_bind_of_error (hallowed ▸ run_allowed _ target disk)]; rfl
    | ok _ =>
      rw [Action.run_bind_of_ok (hallowed ▸ run_allowed _ target disk),
        Action.run_bind_of_ok (Action.run_get disk), Action.run_bind_of_ok (Action.run_get disk),
        hentry]
      dsimp only [bind, Except.bind]
      rcases disk.root.at? goal with _ | ⟨_, _⟩ | _ <;> rfl

/-- A directory is made where its path leads, if nothing is there and that is allowed. -/
theorem makeDirectory_run (path : FilePath) (disk : Disk) :
    (makeDirectory path).run disk =
      match disk.located path with
      | .error failure => (.error failure, disk)
      | .ok place => match disk.root.at? place, disk.allowed .makeDirectory path with
        | some _, _ => (.error (systemFailure path .alreadyExists), disk)
        | none, .error failure => (.error failure, disk)
        | none, .ok _ => (.ok (), disk.put place (.directory [])) := by
  unfold makeDirectory
  cases hlocated : disk.located path with
  | error failure => rw [Action.run_bind_of_error (hlocated ▸ run_located path disk)]
  | ok place =>
    rw [Action.run_bind_of_ok (hlocated ▸ run_located path disk),
      Action.run_bind_of_ok (Action.run_get disk)]
    dsimp only
    cases hfound : disk.root.at? place with
    | some entry => rfl
    | none =>
      dsimp only
      cases hallowed : disk.allowed .makeDirectory path with
      | error failure => rw [Action.run_bind_of_error (hallowed ▸ run_allowed _ path disk)]
      | ok _ =>
        rw [Action.run_bind_of_ok (hallowed ▸ run_allowed _ path disk)]
        rfl

end Steps

/-! ## Making a directory below one that is there -/

/-- Whether there is, or can be made, a directory under a path. -/
def making (disk : Disk) (path : FilePath) : Outcome Unit := do
  let place ← disk.located path
  match disk.root.at? place with
  | some (.directory _) => return
  | some (.file ..) => throw (systemFailure path .alreadyExists)
  | none => disk.allowed .makeDirectory path

section Make
variable {disk : Disk} {path : FilePath}

/-- Names along directories lead on, if none of them is too long. -/
theorem follow_of_directories {root : Entry} {here : Location} {names : List String}
    (hdots : ".." ∉ names)
    (h : ∀ place, here <+: place → place <+: here ++ names → place ≠ here ++ names →
      root.sight place = some (.directory [])) :
    root.follow here names = .ok (here ++ names) ∨
      root.follow here names = .error .nameTooLong := by
  induction names generalizing here with
  | nil => exact .inl (by rw [List.append_nil]; rfl)
  | cons name names ih =>
    obtain ⟨hname, hnames⟩ := not_or.mp (List.mem_cons.not.mp hdots)
    obtain ⟨entries, hhere⟩ := Entry.sight_eq_directory.mp
      (h here List.prefix_rfl (List.prefix_append _ _) (by simp))
    have hrest := @ih (here ++ [name]) hnames fun place hfirst hlast hne => by
      rw [List.append_assoc, List.singleton_append] at hlast hne
      exact h place ((List.prefix_append _ _).trans hfirst) hlast hne
    rw [List.append_assoc, List.singleton_append] at hrest
    rw [Entry.follow, hhere]
    dsimp only
    rw [if_neg (Ne.symm hname)]
    split
    · exact .inr rfl
    · exact hrest

/-- A path below a directory leads to its place, or it is too long. -/
theorem located_cases (hdots : ".." ∉ path.parts)
    (habove : path.parts ≠ [] → disk.sight path.parent.parts = some (.directory [])) :
    disk.located path = .ok path.parts ∨
      (holdsNull path = true ∧ disk.located path = .error nullInPath) ∨
      (holdsNull path = false ∧ disk.locate path = .error .nameTooLong) := by
  have hfollow := @follow_of_directories disk.root [] path.parts hdots fun place _ hplace hne => by
    have hnamed : path.parts ≠ [] := by
      intro hnone
      rw [List.nil_append, hnone, List.prefix_nil] at hplace
      exact hne (hplace.trans (by rw [hnone]; rfl))
    exact sight_above (habove hnamed) (prefix_parent hplace hne)
  unfold located locate
  by_cases hnull : holdsNull path = true
  · exact .inr (.inl ⟨hnull, if_pos hnull⟩)
  rw [if_neg hnull]
  by_cases hlong : 4095 < path.text.utf8ByteSize
  · rw [if_pos hlong]
    exact .inr (.inr ⟨Bool.eq_false_iff.mpr hnull, rfl⟩)
  rw [if_neg hlong]
  rcases hfollow with hfollow | hfollow
  · rw [hfollow]
    exact .inl rfl
  · rw [hfollow]
    exact .inr (.inr ⟨Bool.eq_false_iff.mpr hnull, rfl⟩)

/-- A failure to make a directory is passed on where there is none. -/
theorem unlessPresent_run {failure : Failure}
    (h : disk.isDirectory path = .ok false ∨ disk.isDirectory path = .error failure) :
    (unlessPresent path failure).run disk = (.error failure, disk) := by
  unfold unlessPresent
  rw [Action.run_bind_of_ok (Action.run_get disk)]
  rcases h with h | h <;> rw [h] <;> cases failure <;> rfl

/-- A failure to make a directory that is not for a missing one above it is final. -/
theorem makeDirectoriesWithin_of_error {failure : Failure}
    (hmake : (makeDirectory path).run disk = (.error failure, disk))
    (hfinal : ∀ text, failure ≠ .system ⟨.notFound, text⟩)
    (habsent : disk.isDirectory path = .ok false ∨ disk.isDirectory path = .error failure)
    (depth : Nat) : (makeDirectoriesWithin depth path).run disk = (.error failure, disk) := by
  cases depth with
  | zero =>
    unfold makeDirectoriesWithin
    rw [Action.run_tryCatch, hmake]
    exact unlessPresent_run habsent
  | succ depth =>
    unfold makeDirectoriesWithin
    rw [Action.run_tryCatch, hmake]
    dsimp only
    split
    · exact absurd rfl (hfinal _)
    · exact unlessPresent_run habsent

theorem makeDirectoriesWithin_of_ok {after : Disk}
    (hmake : (makeDirectory path).run disk = (.ok (), after)) (depth : Nat) :
    (makeDirectoriesWithin depth path).run disk = (.ok (), after) := by
  cases depth <;>
  · unfold makeDirectoriesWithin
    rw [Action.run_tryCatch, hmake]

/-- Where the directory above is there, a directory that cannot be made for a missing one is tried
once more. -/
theorem makeDirectoriesWithin_of_missing {text : String} {entries : List (String × Entry)}
    (hmake : (makeDirectory path).run disk = (.error (.system ⟨.notFound, text⟩), disk))
    (hparent : disk.status path.parent = .ok (.directory entries)) (hnamed : path.parts ≠ []) :
    (makeDirectoriesWithin path.parts.length path).run disk =
      (.error (.system ⟨.notFound, text⟩), disk) := by
  cases hlength : path.parts.length with
  | zero => exact absurd (List.eq_nil_of_length_eq_zero hlength) hnamed
  | succ depth =>
    unfold makeDirectoriesWithin
    rw [Action.run_tryCatch, hmake]
    dsimp only
    rw [if_neg (by simpa using hnamed),
      Action.run_bind_of_ok (makeDirectoriesWithin_of_present hparent depth),
      Action.run_tryCatch, hmake]
    rfl

/-- A path above one that can be used can be used. -/
theorem holdsNull_parent (h : holdsNull path = false) : holdsNull path.parent = false := by
  by_cases hnamed : path.parts = []
  · have hparent : path.parent = path := by
      obtain ⟨anchor, parts⟩ := path
      cases hnamed
      rfl
    rwa [hparent]
  have hnull : '\x00' ∉ path.text.toList := by simpa [holdsNull] using h
  suffices '\x00' ∉ path.parent.text.toList by simpa [holdsNull] using this
  intro hmem
  apply hnull
  have htext : path.text = path.anchor ++ Text.join "/" path.parts :=
    if_neg fun hempty => hnamed (List.isEmpty_iff.mp hempty.2)
  rw [htext, String.toList_append, List.mem_append, Text.toList_join, parts_eq hnamed]
  unfold FilePath.text at hmem
  split at hmem
  · exact absurd hmem (by decide)
  rw [String.toList_append, List.mem_append, Text.toList_join] at hmem
  rw [List.map_append, List.map_singleton]
  exact hmem.imp_right Text.mem_intercalate_concat

theorem parent_status (h : disk.Leads path path.parts) (hdots : ".." ∉ path.parts)
    (hnamed : path.parts ≠ []) :
    ∃ entries, disk.status path.parent = .ok (.directory entries) := by
  have hpath : { path.parent with parts := path.parent.parts ++ [path.name] } = path := by
    rw [← parts_eq hnamed]
    rfl
  obtain ⟨hfollow, entries, hentries⟩ := h.follow_parent hdots hnamed
  have hlocate := h.locate
  rw [← hpath] at hlocate
  exact ⟨entries, status_ok.mpr
    ⟨path.parent.parts, ⟨holdsNull_parent h.no_null, locate_parent hlocate hfollow⟩, hentries⟩⟩

/-- What is seen after a directory was made, for how that ended. -/
structure Makes (path : FilePath) (result : Except Failure Unit) (old new : Disk) : Prop where
  refuses : new.refuses = old.refuses
  sight : ∀ place, new.sight place = match result with
    | .ok _ => if place = path.parts then some (.directory []) else old.sight place
    | .error _ => old.sight place

/-- A directory that could not be made leaves no trace. -/
theorem makes_error (path : FilePath) (failure : Failure) (disk : Disk) :
    Makes path (.error failure) disk disk := ⟨rfl, fun _ => rfl⟩

/-- What is under the path already stays: a directory passes, a file is in the way. -/
theorem makeDirectories_of_found {entry : Entry} (hleads : disk.Leads path path.parts)
    (hfound : disk.root.at? path.parts = some entry) :
    ∃ after, (makeDirectories path).run disk = (disk.making path, after) ∧
      Makes path (disk.making path) disk after := by
  have hlocated := located_ok.mpr hleads
  have hstatus : disk.status path = .ok entry := status_ok.mpr ⟨_, hleads, hfound⟩
  unfold makeDirectories making
  rw [hlocated]
  dsimp only [bind, Except.bind]
  rw [hfound]
  cases entry with
  | directory entries =>
    refine ⟨disk, makeDirectoriesWithin_of_present hstatus _, rfl, fun place => ?_⟩
    dsimp only [pure, Except.pure]
    split
    · rename_i hplace
      rw [hplace]
      exact Entry.sight_eq_directory.mpr ⟨entries, hfound⟩
    · rfl
  | file content modified =>
    refine ⟨disk, makeDirectoriesWithin_of_error ?_ (by rintro text ⟨⟩)
      (.inl (check_of_status hstatus _)) _, makes_error ..⟩
    rw [makeDirectory_run, hlocated]
    dsimp only
    rw [hfound]

/-- Where nothing is under the path, the directory is made if that is allowed. -/
theorem makeDirectories_of_free (hdots : ".." ∉ path.parts) (hleads : disk.Leads path path.parts)
    (hfree : disk.root.at? path.parts = none) :
    ∃ after, (makeDirectories path).run disk = (disk.making path, after) ∧
      Makes path (disk.making path) disk after := by
  have hlocated := located_ok.mpr hleads
  have hnamed : path.parts ≠ [] := by
    intro hroot
    rw [hroot, Entry.at?_nil] at hfree
    cases hfree
  have habsent : disk.isDirectory path = .ok false := by
    unfold isDirectory check entry?
    rw [hleads.no_null, hleads.locate]
    dsimp only [bind, Except.bind]
    rw [hfree]
    rfl
  have hmake := makeDirectory_run path disk
  rw [hlocated] at hmake
  dsimp only at hmake
  rw [hfree] at hmake
  have hmaking : disk.making path = disk.allowed .makeDirectory path := by
    rw [making, hlocated]
    dsimp only [bind, Except.bind]
    rw [hfree]
  rw [hmaking]
  cases hallowed : disk.allowed .makeDirectory path with
  | ok _ =>
    rw [hallowed] at hmake
    refine ⟨_, makeDirectoriesWithin_of_ok hmake _, rfl, fun place => ?_⟩
    exact CanMake.sight ⟨hleads, hfree, allowed_ok.mp hallowed⟩ hdots place
  | error failure =>
    rw [hallowed] at hmake
    refine ⟨disk, ?_, makes_error ..⟩
    by_cases hfinal : ∃ text, failure = .system ⟨.notFound, text⟩
    · -- The directory above is there, and so the second attempt is refused as the first one.
      obtain ⟨text, rfl⟩ := hfinal
      obtain ⟨entries, hparent⟩ := parent_status hleads hdots hnamed
      exact makeDirectoriesWithin_of_missing hmake hparent hnamed
    · exact makeDirectoriesWithin_of_error hmake (not_exists.mp hfinal) (.inl habsent) _

/-- A path that leads nowhere is refused, and with it every attempt to make a directory there. -/
theorem makeDirectories_of_astray {failure : Failure} (hlocated : disk.located path = .error failure)
    (hfinal : ∀ text, failure ≠ .system ⟨.notFound, text⟩)
    (habsent : disk.isDirectory path = .ok false ∨ disk.isDirectory path = .error failure) :
    ∃ after, (makeDirectories path).run disk = (disk.making path, after) ∧
      Makes path (disk.making path) disk after := by
  have hmaking : disk.making path = .error failure := by
    rw [making, hlocated]
    rfl
  rw [hmaking]
  refine ⟨disk, makeDirectoriesWithin_of_error ?_ hfinal habsent _, makes_error ..⟩
  rw [makeDirectory_run, hlocated]

/-- **Making a directory below one that is there** makes that one, unless it is there already. -/
theorem makeDirectories_run (hdots : ".." ∉ path.parts)
    (habove : path.parts ≠ [] → disk.sight path.parent.parts = some (.directory [])) :
    ∃ after, (makeDirectories path).run disk = (disk.making path, after) ∧
      Makes path (disk.making path) disk after := by
  rcases located_cases hdots habove with hlocated | ⟨hnull, hlocated⟩ | ⟨hnull, hlong⟩
  · have hleads := located_ok.mp hlocated
    cases hfound : disk.root.at? path.parts with
    | some entry => exact makeDirectories_of_found hleads hfound
    | none => exact makeDirectories_of_free hdots hleads hfound
  · exact makeDirectories_of_astray hlocated (by rintro text ⟨⟩) (.inl (if_pos hnull))
  · have hlocated : disk.located path = .error (systemFailure path .nameTooLong) := by
      rw [located, hnull, hlong]
      rfl
    refine makeDirectories_of_astray hlocated (by rintro text ⟨⟩) (.inr ?_)
    unfold isDirectory check entry?
    rw [hnull, hlong]
    rfl

end Make

/-! ## The whole replacement -/

section Replace
variable {target : FilePath} {start : String} {content : ByteArray} {now : Moment} {disk : Disk}

/-- What is seen after a replacement, for how it ended. -/
structure Replaces (target : FilePath) (content : ByteArray) (now : Moment)
    (result : Except Failure Unit) (old new : Disk) : Prop where
  refuses : new.refuses = old.refuses
  sight : ∀ place, new.sight place = match result with
    | .ok _ => if place = target.parts then some (.file content now) else old.sight place
    | .error _ => old.sight place

/-- A file can be renamed on a disk on which the way and the target look as they do here. -/
theorem renamed_congr {other : Disk} (hdots : ".." ∉ target.parts)
    (hrefuses : other.refuses = disk.refuses)
    (hway : ∀ place, place <+: target.parts → place ≠ target.parts →
      other.sight place = disk.sight place)
    (hgoal : other.sight target.parts = some (.directory []) ↔
      disk.sight target.parts = some (.directory [])) :
    other.renamed target = disk.renamed target := by
  have hlocated : other.located target = disk.located target := by
    unfold located
    rw [locate_congr hdots hway]
  have hallowed : other.allowed .rename target = disk.allowed .rename target := by
    unfold allowed
    rw [hrefuses]
  unfold renamed
  rw [hlocated, hallowed]
  cases hplace : disk.located target with
  | error failure => rfl
  | ok goal =>
    obtain rfl := (located_ok.mp hplace).eq_parts hdots
    dsimp only [bind, Except.bind]
    cases disk.allowed .rename target with
    | error failure => rfl
    | ok _ =>
      unfold sight Entry.sight at hgoal
      rcases hother : other.root.at? target.parts with _ | ⟨_, _⟩ | _ <;>
      rcases hdisk : disk.root.at? target.parts with _ | ⟨_, _⟩ | _ <;>
      simp [hother, hdisk, Entry.bare] at hgoal ⊢

/-- A file is renamed to a place where no directory is. -/
theorem renamed_ok (h : disk.renamed target = .ok ()) : ∃ goal, disk.located target = .ok goal ∧
    ∀ found, disk.root.at? goal = some found → found.isFile := by
  unfold renamed at h
  obtain ⟨goal, hgoal, h⟩ := Action.bind_ok.mp h
  obtain ⟨_, -, h⟩ := Action.bind_ok.mp h
  refine ⟨goal, hgoal, fun found hfound => ?_⟩
  cases found with
  | file content modified => rfl
  | directory entries =>
    rw [hfound] at h
    cases h

/-- Whether a disk differs from an earlier one in a file at a place, and in nothing else. -/
structure Holding (place : Location) (content : ByteArray) (now : Moment) (old new : Disk) :
    Prop where
  refuses : new.refuses = old.refuses
  sight : ∀ other, new.sight other =
    if other = place then some (.file content now) else old.sight other

section Holding
variable {here place : Location} {name : String} {content' : ByteArray} {now' : Moment}
  {a b c : Disk}

theorem Holding.put (hhere : a.sight here = some (.directory []))
    (hfile : ∀ found, a.root.at? (here ++ [name]) = some found → found.isFile)
    (content : ByteArray) (now : Moment) :
    Holding (here ++ [name]) content now a (a.put (here ++ [name]) (.file content now)) :=
  ⟨rfl, Entry.sight_put hhere hfile fun _ _ => Entry.at?_of_file⟩

theorem Holding.trans (hab : Holding place content now a b)
    (hbc : Holding place content' now' b c) : Holding place content' now' a c := by
  refine ⟨hbc.refuses.trans hab.refuses, fun other => ?_⟩
  rw [hbc.sight, hab.sight]
  split <;> rfl

theorem Holding.isFile (h : Holding place content now a b) {found : Entry}
    (hfound : b.root.at? place = some found) : found.isFile := by
  have hplace := h.sight place
  rw [if_pos rfl] at hplace
  rw [Entry.sight_eq_file.mp hplace] at hfound
  cases hfound
  rfl

theorem Holding.beside (h : Holding place content now a b) {other : Location}
    (hother : other ≠ place) : b.sight other = a.sight other := by
  rw [h.sight, if_neg hother]

/-- A file at a place where nothing was is removed again without a trace. -/
theorem Holding.remove (h : Holding place content now a b) (hplace : place ≠ [])
    (hnone : a.sight place = none) (other : Location) :
    (b.remove place).sight other = a.sight other := by
  have hremoved : (b.remove place).sight other = if other = place then none else b.sight other :=
    Entry.sight_remove hplace (fun _ => h.isFile) other
  rw [hremoved, h.sight]
  split
  · rename_i hother
    rw [hother, hnone]
  · rfl

end Holding

/-- What is left to be passed once the temporary file is there. -/
def filling (disk : Disk) (target temporary : FilePath) : Outcome Unit := do
  disk.allowed .writeBytes temporary
  disk.allowed .synchronise temporary
  disk.renamed target

section Temporary
variable {name : String}

/-- The place of a target is not that of a temporary file of another name. -/
theorem parts_ne_temporary (hnamed : target.parts ≠ []) (hname : name ≠ target.name) :
    target.parts ≠ target.parent.parts ++ [name] := by
  rw [parts_eq hnamed]
  intro heq
  exact hname (List.singleton_inj.mp (List.append_cancel_left heq)).symm

/-- A temporary file does not decide whether the target can be replaced: it is neither on the way to
the target nor at its place. -/
theorem Holding.renamed {filled : Disk} (hdots : ".." ∉ target.parts) (hnamed : target.parts ≠ [])
    (hname : name ≠ target.name)
    (hfilled : Holding (target.parent.parts ++ [name]) content now disk filled) :
    filled.renamed target = disk.renamed target := by
  refine renamed_congr hdots hfilled.refuses (fun place hplace hne => hfilled.beside ?_) ?_
  · rintro rfl
    rw [parts_eq hnamed, List.prefix_append_right_inj] at hplace
    exact hne (by rw [parts_eq hnamed, List.IsPrefix.eq_of_length hplace rfl])
  · rw [hfilled.beside (parts_ne_temporary hnamed hname)]

/-- A temporary file that is moved over the target leaves nothing behind. -/
theorem Holding.move {filled : Disk} (hnamed : target.parts ≠ []) (hname : name ≠ target.name)
    (hhere : disk.sight target.parent.parts = some (.directory []))
    (hnone : disk.sight (target.parent.parts ++ [name]) = none)
    (hfilled : Holding (target.parent.parts ++ [name]) content now disk filled)
    (hfile : ∀ found, filled.root.at? target.parts = some found → found.isFile) :
    Replaces target content now (.ok ()) disk
      ((filled.remove (target.parent.parts ++ [name])).put target.parts (.file content now)) := by
  have hremoved := hfilled.remove (List.append_ne_nil_of_right_ne_nil _ (by simp)) hnone
  have hput : Holding (target.parent.parts ++ [target.name]) content now
      (filled.remove (target.parent.parts ++ [name])) _ :=
    Holding.put ((hremoved _).trans hhere) (fun found hfound => ?_) content now
  · rw [← parts_eq hnamed] at hput
    refine ⟨hfilled.refuses, fun place => (hput.sight place).trans ?_⟩
    rw [hremoved]
  · have hbefore : filled.root.at? (target.parent.parts ++ [target.name]) = some found :=
      (Entry.local_remove.at?_beside (Ne.symm hname) filled.root _).symm.trans hfound
    rw [← parts_eq hnamed] at hbefore
    exact hfile found hbefore

/-- A filled temporary file is renamed if the target can be replaced; otherwise it stays. -/
theorem Holding.rename_run {filled : Disk} (temporary : FilePath)
    (hdots : ".." ∉ target.parts) (hnamed : target.parts ≠ []) (hname : name ≠ target.name)
    (hhere : disk.sight target.parent.parts = some (.directory []))
    (hnone : disk.sight (target.parent.parts ++ [name]) = none)
    (hfilled : Holding (target.parent.parts ++ [name]) content now disk filled) :
    match (rename temporary target (target.parent.parts ++ [name])).run filled with
    | (.ok _, after) => disk.renamed target = .ok () ∧
        Replaces target content now (.ok ()) disk after
    | (.error failure, after) => disk.renamed target = .error failure ∧ after = filled := by
  have hentry := hfilled.sight (target.parent.parts ++ [name])
  rw [if_pos rfl] at hentry
  have hrenamed := hfilled.renamed hdots hnamed hname
  rw [Disk.rename_run (Entry.sight_eq_file.mp hentry), hrenamed]
  cases hpass : disk.renamed target with
  | error failure => exact ⟨rfl, rfl⟩
  | ok _ =>
    rw [← hrenamed] at hpass
    obtain ⟨goal, hgoal, hfile⟩ := renamed_ok hpass
    obtain rfl := (located_ok.mp hgoal).eq_parts hdots
    rw [hgoal]
    exact ⟨rfl, hfilled.move hnamed hname hhere hnone hfile⟩

/-- A temporary file that is filled and renamed is gone from its place and seen at that of the
target; otherwise it stays. -/
theorem fillAndRename_run {temporary : FilePath} {created : Disk}
    (hdots : ".." ∉ target.parts) (hnamed : target.parts ≠ []) (hname : name ≠ target.name)
    (hhere : disk.sight target.parent.parts = some (.directory []))
    (hnone : disk.sight (target.parent.parts ++ [name]) = none)
    (hcreated : Holding (target.parent.parts ++ [name]) .empty now disk created) :
    match (fillAndRename temporary target (target.parent.parts ++ [name]) content now).run
      created with
    | (.ok _, after) => disk.filling target temporary = .ok () ∧
        Replaces target content now (.ok ()) disk after
    | (.error failure, after) => disk.filling target temporary = .error failure ∧
        ∃ content', Holding (target.parent.parts ++ [name]) content' now disk after := by
  have hallowed (step : WriteStep) {other : Disk} (hrefuses : other.refuses = disk.refuses) :
      other.allowed step temporary = disk.allowed step temporary := by
    unfold allowed
    rw [hrefuses]
  unfold fillAndRename filling
  have hwrites := run_allowed .writeBytes temporary created
  rw [hallowed .writeBytes hcreated.refuses] at hwrites
  cases hwrite : disk.allowed .writeBytes temporary with
  | error failure =>
    rw [hwrite] at hwrites
    rw [Action.run_bind_of_error hwrites]
    exact ⟨rfl, _, hcreated⟩
  | ok _ =>
  rw [hwrite] at hwrites
  rw [Action.run_bind_of_ok hwrites, Action.run_bind_of_ok (Action.run_modify _ _)]
  have hparent : created.sight target.parent.parts = some (.directory []) := by
    rw [hcreated.beside (by simp), hhere]
  have hfilled := hcreated.trans
    (Holding.put hparent (fun _ => hcreated.isFile) content now)
  generalize created.put (target.parent.parts ++ [name]) (.file content now) = filled at hfilled ⊢
  have hsyncs := run_allowed .synchronise temporary filled
  rw [hallowed .synchronise hfilled.refuses] at hsyncs
  cases hsync : disk.allowed .synchronise temporary with
  | error failure =>
    rw [hsync] at hsyncs
    rw [Action.run_bind_of_error hsyncs]
    exact ⟨rfl, _, hfilled⟩
  | ok _ =>
  rw [hsync] at hsyncs
  rw [Action.run_bind_of_ok hsyncs]
  have hrename := hfilled.rename_run temporary hdots hnamed hname hhere hnone
  rcases hrun : (rename temporary target (target.parent.parts ++ [name])).run filled with
    ⟨failure | _, after⟩ <;>
  rw [hrun] at hrename
  · obtain ⟨hfails, rfl⟩ := hrename
    exact ⟨hfails, _, hfilled⟩
  · exact hrename

end Temporary

/-- **A replacement** ends as what is refused and what is in the way make it end, and updates what
is seen at the place of its target. -/
theorem replaceFile_run (h : Replaceable target start) (hdots : ".." ∉ target.parts)
    (content : ByteArray) (now : Moment) (disk : Disk) :
    ∃ after, (replaceFile target start content now).run disk =
        (disk.replacement target (disk.temporaryBeside target start), after) ∧
      Replaces target content now (disk.replacement target (disk.temporaryBeside target start))
        disk after := by
  have hunchanged (failure : Failure) : Replaces target content now (.error failure) disk disk :=
    ⟨rfl, fun _ => rfl⟩
  have hspec := fun place => @temporary_spec target start h disk place
  unfold replaceFile
  rw [Action.run_bind_of_ok (Action.run_get disk)]
  dsimp only
  generalize disk.temporaryBeside target start = temporary at hspec ⊢
  cases hlocated : disk.located temporary with
  | error failure =>
    have hresult : disk.replacement target temporary = .error failure := by
      rw [replacement, hlocated]
      rfl
    rw [Action.run_bind_of_error (by rw [createFile_run, hlocated]), hresult]
    exact ⟨disk, rfl, hunchanged failure⟩
  | ok place =>
  cases hcreate : disk.allowed .createFile temporary with
  | error failure =>
    have hresult : disk.replacement target temporary = .error failure := by
      rw [replacement, hlocated, hcreate]
      rfl
    rw [Action.run_bind_of_error (by rw [createFile_run, hlocated, hcreate]), hresult]
    exact ⟨disk, rfl, hunchanged failure⟩
  | ok _ =>
  have hresult : disk.replacement target temporary = disk.filling target temporary := by
    rw [replacement, hlocated, hcreate]
    rfl
  obtain ⟨here, entries, tail, hfollow, hentries, rfl, hfree⟩ := hspec place (located_ok.mp hlocated)
  have hparent : ".." ∉ target.parent.parts := fun hmem => hdots (List.dropLast_subset _ hmem)
  obtain rfl : here = target.parent.parts := Entry.follow_of_no_dots hparent hfollow
  have hhere := Entry.sight_eq_directory.mpr ⟨entries, hentries⟩
  have hnone := Entry.sight_eq_none.mpr hfree
  have hcreated := Holding.put hhere
    (fun found hfound => by rw [hfree] at hfound; cases hfound) .empty now
  rw [Action.run_bind_of_ok (by rw [createFile_run, hlocated, hcreate]), Action.run_tryCatch, hresult]
  have hfill := @fillAndRename_run target content now disk _ temporary _ hdots h.named
    (h.temporary tail).2 hhere hnone hcreated
  rcases hrun : (fillAndRename temporary target (target.parent.parts ++ [start ++ tail]) content
      now).run (disk.put (target.parent.parts ++ [start ++ tail]) (.file .empty now)) with
    ⟨failure | _, after⟩ <;>
  rw [hrun] at hfill
  · obtain ⟨hfails, content', hheld⟩ := hfill
    rw [hfails]
    exact ⟨_, rfl, hheld.refuses, hheld.remove (by simp) hnone⟩
  · obtain ⟨hpasses, hreplaces⟩ := hfill
    rw [hpasses]
    exact ⟨after, rfl, hreplaces⟩

end Replace
end SpecDraft.Disk
