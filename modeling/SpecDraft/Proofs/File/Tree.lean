import SpecDraft.File.Disk
import SpecDraft.Proofs.Assoc

/-!
# Trees of entries

What is found in a tree after a change at one place. As long as no directory is there before the
change, every other file stays as it is and every directory stays one (`Keeps`), and so paths
lead where they led.
-/
set_option autoImplicit false

namespace SpecDraft.Entry

/-! ## Looking up places -/

theorem at?_nil (entry : Entry) : entry.at? [] = some entry := by
  cases entry <;> rfl

theorem at?_directory (entries : List (String × Entry)) (name : String) (rest : Location) :
    (directory entries).at? (name :: rest) = (entries.lookup name).bind (at? · rest) := rfl

theorem at?_append (entry : Entry) (here rest : Location) :
    entry.at? (here ++ rest) = (entry.at? here).bind (at? · rest) := by
  induction here generalizing entry with
  | nil => rw [at?_nil]; rfl
  | cons name here ih =>
    cases entry with
    | file content modified => rfl
    | directory entries =>
      rw [List.cons_append, at?_directory, at?_directory]
      cases entries.lookup name with
      | none => rfl
      | some below => exact ih below

/-- Nothing is found below a file. -/
theorem at?_of_isFile {entry : Entry} (h : entry.isFile) {place : Location} {found : Entry}
    (hfound : entry.at? place = some found) : place = [] := by
  cases entry with
  | directory entries => cases h
  | file content modified =>
    cases place with
    | nil => rfl
    | cons name rest => cases hfound

/-! ## Changes at a place -/

/-- A change of a tree that alters nothing beside the place it is given. -/
structure Local (change : Entry → Location → Entry) : Prop where
  file : ∀ content modified name rest,
    change (file content modified) (name :: rest) = file content modified
  directory : ∀ entries name rest, ∃ new,
    change (directory entries) (name :: rest) = directory new ∧
    (∀ other, other ≠ name → new.lookup other = entries.lookup other) ∧
    (rest ≠ [] → new.lookup name = (entries.lookup name).map (change · rest))

theorem local_put (entry : Entry) : Local (put · · entry) where
  file _ _ _ _ := rfl
  directory entries name rest := by
    cases rest with
    | nil =>
      exact ⟨_, rfl, fun other h => Assoc.lookup_put_ne h entries entry, fun h => absurd rfl h⟩
    | cons next rest =>
      simp only [put]
      cases h : entries.lookup name with
      | none => exact ⟨entries, rfl, fun _ _ => rfl, fun _ => h⟩
      | some below =>
        exact ⟨_, rfl, fun other hne => Assoc.lookup_put_ne hne entries _,
          fun _ => Assoc.lookup_put_self entries name _⟩

theorem local_remove : Local remove where
  file _ _ _ _ := rfl
  directory entries name rest := by
    cases rest with
    | nil =>
      exact ⟨_, rfl, fun other h => Assoc.lookup_filter_ne h entries, fun h => absurd rfl h⟩
    | cons next rest =>
      simp only [remove]
      cases h : entries.lookup name with
      | none => exact ⟨entries, rfl, fun _ _ => rfl, fun _ => h⟩
      | some below =>
        exact ⟨_, rfl, fun other hne => Assoc.lookup_put_ne hne entries _,
          fun _ => Assoc.lookup_put_self entries name _⟩

/-- A change leaves alone what stands beside its place. -/
theorem Local.at?_beside {change : Entry → Location → Entry} (hlocal : Local change)
    {name other : String} (hname : other ≠ name) (old : Entry) (here : Location) :
    (change old (here ++ [name])).at? (here ++ [other]) = old.at? (here ++ [other]) := by
  induction here generalizing old with
  | nil =>
    cases old with
    | file content modified => rw [List.nil_append, hlocal.file]
    | directory entries =>
      obtain ⟨new, heq, hbeside, -⟩ := hlocal.directory entries name []
      rw [List.nil_append, heq, List.nil_append, at?_directory, at?_directory, hbeside other hname]
  | cons first here ih =>
    cases old with
    | file content modified => rw [List.cons_append, hlocal.file]
    | directory entries =>
      obtain ⟨new, heq, -, hbelow⟩ := hlocal.directory entries first (here ++ [name])
      rw [List.cons_append, heq, List.cons_append, at?_directory, at?_directory,
        hbelow (by simp)]
      cases entries.lookup first with
      | none => rfl
      | some below => exact ih below

/-- All that is found in a file is the file itself. -/
theorem eq_of_at?_of_isFile {old entry : Entry} {other : Location} (hfile : old.isFile)
    (h : old.at? other = some entry) : other = [] ∧ entry = old := by
  obtain rfl := at?_of_isFile hfile h
  rw [at?_nil] at h
  exact ⟨rfl, (Option.some.inj h).symm⟩

/-- Another tree has what this one has: the same file, or a directory for a directory. -/
def Agrees (entry new : Entry) : Prop := new = entry ∨ (entry.isDirectory ∧ new.isDirectory)

/-- Another tree has every directory of this one and every file, except perhaps a file at some
place. -/
def Keeps (place : Location) (old new : Entry) : Prop :=
  ∀ other entry, (entry.isFile → other ≠ place) → old.at? other = some entry →
    ∃ entry', new.at? other = some entry' ∧ entry.Agrees entry'

/-- **A local change keeps the rest of the tree**, if it takes no directory away. -/
theorem keeps_of_local {change : Entry → Location → Entry} (hlocal : Local change)
    {place : Location} {old : Entry} (h : ∀ entry, old.at? place = some entry → entry.isFile) :
    Keeps place old (change old place) := by
  induction place generalizing old with
  | nil =>
    -- What stood at the place is a file, and that file is excepted.
    intro other entry hne hother
    have hfile := h old (at?_nil old)
    obtain ⟨rfl, rfl⟩ := eq_of_at?_of_isFile hfile hother
    exact absurd rfl (hne hfile)
  | cons name rest ih =>
    intro other entry hne hother
    cases old with
    | file content modified =>
      rw [hlocal.file]
      exact ⟨entry, hother, .inl rfl⟩
    | directory entries =>
      obtain ⟨new, heq, hbeside, hbelow⟩ := hlocal.directory entries name rest
      rw [heq]
      cases other with
      | nil =>
        rw [at?_nil] at hother
        injection hother with hother
        exact ⟨directory new, at?_nil _, .inr ⟨hother ▸ rfl, rfl⟩⟩
      | cons other after =>
        rw [at?_directory] at hother ⊢
        -- Under other names nothing has changed; under this one the place is one name shorter.
        by_cases hname : other = name
        · subst hname
          obtain ⟨below, hlookup, hafter⟩ := Option.bind_eq_some_iff.mp hother
          have hplace : ∀ entry, below.at? rest = some entry → entry.isFile := by
            intro entry hentry
            exact h entry (by rw [at?_directory, hlookup]; exact hentry)
          by_cases hrest : rest = []
          · -- What the change may replace is a file, so the entry would have to be that file.
            subst hrest
            have hfile := hplace below (at?_nil below)
            obtain ⟨rfl, rfl⟩ := eq_of_at?_of_isFile hfile hafter
            exact absurd rfl (hne hfile)
          · rw [hbelow hrest, hlookup]
            exact ih hplace after entry (fun hfile heq => hne hfile (by rw [heq])) hafter
        · rw [hbeside other hname]
          exact ⟨entry, hother, .inl rfl⟩

theorem keeps_put {place : Location} {old : Entry} (entry : Entry)
    (h : ∀ entry, old.at? place = some entry → entry.isFile) :
    Keeps place old (old.put place entry) :=
  keeps_of_local (local_put entry) h

theorem keeps_remove {place : Location} {old : Entry}
    (h : ∀ entry, old.at? place = some entry → entry.isFile) :
    Keeps place old (old.remove place) :=
  keeps_of_local local_remove h

/-- A place where nothing was is no exception. -/
theorem Keeps.of_none {place : Location} {old new : Entry} (h : Keeps place old new)
    (hnone : old.at? place = none) (other : Location) : Keeps other old new := by
  intro at' found _ hfound
  refine h at' found (fun _ heq => ?_) hfound
  rw [heq, hnone] at hfound
  cases hfound

theorem keeps_put_of_none {place : Location} {old : Entry} (entry : Entry)
    (h : old.at? place = none) (other : Location) : Keeps other old (old.put place entry) :=
  (keeps_put entry fun found hfound => by rw [h] at hfound; cases hfound).of_none h other

theorem agrees_of_file {content : ByteArray} {modified : Moment} {new : Entry}
    (h : (file content modified).Agrees new) : new = file content modified :=
  h.resolve_right fun ⟨hdir, _⟩ => by cases hdir

theorem Agrees.isDirectory {entry new : Entry} (h : entry.Agrees new)
    (hdir : entry.isDirectory) : new.isDirectory := by
  rcases h with rfl | ⟨_, hnew⟩
  · exact hdir
  · exact hnew

theorem Agrees.trans {a b c : Entry} (hab : a.Agrees b) (hbc : b.Agrees c) : a.Agrees c := by
  rcases hab with rfl | ⟨ha, hb⟩
  · exact hbc
  · exact .inr ⟨ha, hbc.isDirectory hb⟩

theorem Agrees.isFile {entry new : Entry} (h : entry.Agrees new) (hfile : new.isFile) :
    entry.isFile := by
  rcases h with rfl | ⟨_, hnew⟩
  · exact hfile
  · simp [Entry.isFile, hnew] at hfile

section Keeps
variable {place : Location} {a b c : Entry}

theorem Keeps.refl (place : Location) (a : Entry) : Keeps place a a :=
  fun _ entry _ h => ⟨entry, h, .inl rfl⟩

theorem Keeps.trans (hab : Keeps place a b) (hbc : Keeps place b c) : Keeps place a c := by
  intro other entry hne hother
  obtain ⟨entry', hother', hagrees⟩ := hab other entry hne hother
  obtain ⟨entry'', hother'', hagrees'⟩ := hbc other entry' (fun h => hne (hagrees.isFile h)) hother'
  exact ⟨entry'', hother'', hagrees.trans hagrees'⟩

theorem Keeps.file (h : Keeps place a b) {other : Location} {content : ByteArray}
    {modified : Moment} (hne : other ≠ place)
    (hother : a.at? other = some (.file content modified)) :
    b.at? other = some (.file content modified) := by
  obtain ⟨entry, hentry, hagrees⟩ := h other _ (fun _ => hne) hother
  rw [hentry, agrees_of_file hagrees]

theorem Keeps.directory (h : Keeps place a b) {other : Location} {entry : Entry}
    (hdir : entry.isDirectory) (hother : a.at? other = some entry) :
    ∃ entry', b.at? other = some entry' ∧ entry'.isDirectory := by
  obtain ⟨entry', hentry, hagrees⟩ := h other entry (fun hfile => by
    simp [isFile, hdir] at hfile) hother
  exact ⟨entry', hentry, hagrees.isDirectory hdir⟩

end Keeps

/-- What is put at a place whose directory is there is found there. -/
theorem at?_put_self {root above : Entry} {here : Location} (name : String) (entry : Entry)
    (h : root.at? here = some above) (hdir : above.isDirectory) :
    (root.put (here ++ [name]) entry).at? (here ++ [name]) = some entry := by
  induction here generalizing root with
  | nil =>
    rw [at?_nil] at h
    injection h with h
    subst h
    cases root with
    | file content modified => cases hdir
    | directory entries =>
      rw [List.nil_append, put, at?_directory, Assoc.lookup_put_self]
      exact at?_nil entry
  | cons first here ih =>
    cases root with
    | file content modified => cases h
    | directory entries =>
      rw [at?_directory] at h
      obtain ⟨below, hlookup, hbelow⟩ := Option.bind_eq_some_iff.mp h
      obtain ⟨new, heq, -, hnew⟩ := (local_put entry).directory entries first (here ++ [name])
      rw [List.cons_append, heq, at?_directory, hnew (by simp), hlookup]
      exact ih hbelow

/-! ## Following names -/

theorem follow_append (root : Entry) (here : Location) (names after : List String) :
    root.follow here (names ++ after) = (root.follow here names).bind (root.follow · after) := by
  induction names generalizing here with
  | nil => rw [List.nil_append, follow]; rfl
  | cons name names ih =>
    rw [List.cons_append, follow, follow]
    cases root.at? here with
    | none => rfl
    | some entry =>
      cases entry with
      | file content modified => rfl
      | directory entries =>
        dsimp only
        split
        · exact ih _
        split
        · rfl
        · exact ih _

theorem follow_cons_ok {root : Entry} {here place : Location} {name : String}
    {names : List String} (h : root.follow here (name :: names) = .ok place) :
    ∃ entries, root.at? here = some (.directory entries) := by
  rw [follow] at h
  split at h
  · cases h
  · cases h
  · exact ⟨_, ‹_›⟩

/-- Names lead where they led while every directory stays one. -/
theorem follow_mono {old new : Entry}
    (h : ∀ place entries, old.at? place = some (.directory entries) →
      ∃ entries', new.at? place = some (.directory entries'))
    {here goal : Location} {names : List String} (hgoal : old.follow here names = .ok goal) :
    new.follow here names = .ok goal := by
  induction names generalizing here with
  | nil => exact hgoal
  | cons name names ih =>
    obtain ⟨entries, hhere⟩ := follow_cons_ok hgoal
    obtain ⟨entries', hnew⟩ := h here entries hhere
    rw [Entry.follow, hhere] at hgoal
    rw [Entry.follow, hnew]
    dsimp only at hgoal ⊢
    split at hgoal
    · rw [if_pos ‹_›]
      exact ih hgoal
    · rw [if_neg ‹_›]
      split at hgoal
      · cases hgoal
      · rw [if_neg ‹_›]
        exact ih hgoal

theorem Keeps.follow {place : Location} {old new : Entry} (h : Keeps place old new)
    {here goal : Location} {names : List String} (hgoal : old.follow here names = .ok goal) :
    new.follow here names = .ok goal := by
  refine follow_mono (fun other entries hother => ?_) hgoal
  obtain ⟨entry, hentry, hdir⟩ := h.directory rfl hother
  cases entry with
  | file content modified => cases hdir
  | directory entries' => exact ⟨entries', hentry⟩

/-- A name that is no pair of dots leads from a directory to the place under that name. -/
theorem follow_singleton {root : Entry} {here place : Location} {name : String}
    (hdots : name ≠ "..") (h : root.follow here [name] = .ok place) :
    place = here ++ [name] ∧ ∃ entries, root.at? here = some (.directory entries) := by
  refine ⟨?_, follow_cons_ok h⟩
  obtain ⟨entries, hhere⟩ := follow_cons_ok h
  rw [follow, hhere] at h
  simp only [if_neg hdots] at h
  split at h
  · cases h
  · rw [follow] at h
    injection h with h
    exact h.symm

end SpecDraft.Entry
