import SpecDraft.Proofs.File.Replacement

/-!
# What is seen at a place

At a place there is nothing, a directory, or a file with its bytes and its time (`Entry.sight`).
Seen like this, a disk is a map from places, and putting or removing an entry updates it at one
place (`sight_put`, `sight_remove`). Where a path leads depends on what is seen on the way
(`locate_congr`).
-/
set_option autoImplicit false

namespace SpecDraft.Entry

/-- An entry without what lies below it. -/
def bare : Entry → Entry
  | file content modified => file content modified
  | directory _ => directory []

/-- What is seen at a place. -/
def sight (root : Entry) (place : Location) : Option Entry := (root.at? place).map bare

section Sight
variable {place other : Location} {old : Entry}

theorem sight_eq_file {content : ByteArray} {modified : Moment} :
    old.sight place = some (.file content modified) ↔
      old.at? place = some (.file content modified) := by
  rw [sight, Option.map_eq_some_iff]
  constructor
  · rintro ⟨found, hfound, hbare⟩
    cases found with
    | file content' modified' =>
      cases hbare
      exact hfound
    | directory entries => cases hbare
  · exact fun hfound => ⟨_, hfound, rfl⟩

theorem sight_eq_directory : old.sight place = some (.directory []) ↔
    ∃ entries, old.at? place = some (.directory entries) := by
  rw [sight, Option.map_eq_some_iff]
  constructor
  · rintro ⟨found, hfound, hbare⟩
    cases found with
    | file content modified => cases hbare
    | directory entries => exact ⟨entries, hfound⟩
  · rintro ⟨entries, hfound⟩
    exact ⟨_, hfound, rfl⟩

theorem sight_eq_none : old.sight place = none ↔ old.at? place = none := Option.map_eq_none_iff

/-- Something is found below directories only. -/
theorem directory_of_below {here rest : Location} {found : Entry} (hrest : rest ≠ [])
    (h : old.at? (here ++ rest) = some found) : old.sight here = some (.directory []) := by
  rw [at?_append] at h
  obtain ⟨entry, hentry, hfound⟩ := Option.bind_eq_some_iff.mp h
  cases entry with
  | file content modified =>
    cases rest with
    | nil => exact absurd rfl hrest
    | cons name rest => cases hfound
  | directory entries => exact sight_eq_directory.mpr ⟨entries, hentry⟩

/-- A local change is not seen beside its place, nor above it. -/
theorem sight_local {change : Entry → Location → Entry} (hlocal : Local change)
    (h : ¬ place <+: other) (old : Entry) : (change old place).sight other = old.sight other := by
  unfold sight
  induction place generalizing old other with
  | nil => exact absurd List.nil_prefix h
  | cons name rest ih =>
    cases old with
    | file content modified => rw [hlocal.file]
    | directory entries =>
      obtain ⟨after, heq, hbeside, hbelow⟩ := hlocal.directory entries name rest
      rw [heq]
      cases other with
      | nil =>
        rw [at?_nil, at?_nil]
        rfl
      | cons first others =>
        rw [at?_directory, at?_directory]
        by_cases hname : first = name
        · -- The change goes on below this name.
          subst hname
          have hrest : ¬ rest <+: others := fun hstarts => h (by simpa using hstarts)
          rw [hbelow fun hnil => hrest (hnil ▸ List.nil_prefix)]
          cases entries.lookup first with
          | none => rfl
          | some below => exact ih hrest below
        · rw [hbeside first hname]

/-- What is found below a place where something was put is part of what was put. -/
theorem at?_put_below {entry found : Entry} {rest : Location}
    (h : (old.put place entry).at? (place ++ rest) = some found) :
    entry.at? rest = some found := by
  induction place generalizing old with
  | nil =>
    cases old <;> exact h
  | cons name names ih =>
    cases old with
    | file content modified =>
      rw [(local_put entry).file] at h
      cases h
    | directory entries =>
      obtain ⟨after, heq, -, hbelow⟩ := (local_put entry).directory entries name names
      rw [heq, List.cons_append, at?_directory] at h
      obtain ⟨below, hlookup, hfound⟩ := Option.bind_eq_some_iff.mp h
      by_cases hnames : names = []
      · -- The entry was put under the last name.
        subst hnames
        have hafter : after = Assoc.put entries name entry := by
          injection heq.symm
        rw [hafter, Assoc.lookup_put_self] at hlookup
        cases hlookup
        exact hfound
      · rw [hbelow hnames] at hlookup
        obtain ⟨under, -, rfl⟩ := Option.map_eq_some_iff.mp hlookup
        exact ih hfound

/-- Nothing is found below a place that was removed. -/
theorem at?_remove_below (hplace : place ≠ []) (old : Entry) (rest : Location) :
    (old.remove place).at? (place ++ rest) = none := by
  induction place generalizing old with
  | nil => exact absurd rfl hplace
  | cons name names ih =>
    cases old with
    | file content modified =>
      rw [local_remove.file]
      rfl
    | directory entries =>
      obtain ⟨after, heq, -, hbelow⟩ := local_remove.directory entries name names
      rw [heq, List.cons_append, at?_directory]
      by_cases hnames : names = []
      · subst hnames
        have hafter : after = entries.filter (·.1 != name) := by
          injection heq.symm
        have hgone : after.lookup name = none := by
          rw [hafter, Assoc.lookup_eq_none_iff]
          simp [Assoc.names]
        rw [hgone]
        rfl
      · rw [hbelow hnames]
        cases entries.lookup name with
        | none => rfl
        | some below => exact ih hnames below

/-- Nothing is found below a file. -/
theorem eq_of_prefix_of_file (h : ∀ found, old.at? place = some found → found.isFile)
    (hstarts : place <+: other) {found : Entry} (hfound : old.at? other = some found) :
    other = place := by
  obtain ⟨rest, rfl⟩ := hstarts
  rw [at?_append] at hfound
  obtain ⟨entry, hentry, hrest⟩ := Option.bind_eq_some_iff.mp hfound
  rw [at?_of_isFile (h entry hentry) hrest, List.append_nil]

/-- **What is put into a directory** is seen at its place, and nothing else has changed, if there
was no directory at the place before and what is put holds nothing. -/
theorem sight_put {here : Location} {name : String} {entry : Entry}
    (hhere : old.sight here = some (.directory []))
    (hfile : ∀ found, old.at? (here ++ [name]) = some found → found.isFile)
    (hempty : ∀ rest found, entry.at? rest = some found → rest = []) (other : Location) :
    (old.put (here ++ [name]) entry).sight other =
      if other = here ++ [name] then some entry.bare else old.sight other := by
  by_cases hother : other = here ++ [name]
  · obtain ⟨entries, hentries⟩ := sight_eq_directory.mp hhere
    rw [if_pos hother, hother, sight, at?_put_self name entry hentries rfl]
    rfl
  rw [if_neg hother]
  by_cases hbelow : here ++ [name] <+: other
  · -- Nothing is below the place, before or afterwards.
    obtain ⟨rest, rfl⟩ := hbelow
    have hold : old.at? (here ++ [name] ++ rest) = none := by
      by_contra hsome
      obtain ⟨found, hfound⟩ := Option.ne_none_iff_exists'.mp hsome
      exact hother (eq_of_prefix_of_file hfile (List.prefix_append _ _) hfound)
    have hnew : (old.put (here ++ [name]) entry).at? (here ++ [name] ++ rest) = none := by
      by_contra hsome
      obtain ⟨found, hfound⟩ := Option.ne_none_iff_exists'.mp hsome
      obtain rfl := hempty rest found (at?_put_below hfound)
      exact hother (List.append_nil _)
    rw [sight_eq_none.mpr hold, sight_eq_none.mpr hnew]
  · exact sight_local (local_put entry) hbelow old

theorem at?_of_file {content : ByteArray} {modified : Moment} {rest : Location} {found : Entry}
    (h : (file content modified).at? rest = some found) : rest = [] :=
  at?_of_isFile rfl h

theorem at?_of_empty {rest : Location} {found : Entry}
    (h : (directory []).at? rest = some found) : rest = [] := by
  cases rest with
  | nil => rfl
  | cons name rest => cases h

/-- **What is removed** is seen no more, and nothing else has changed, if it was no directory. -/
theorem sight_remove (hplace : place ≠ [])
    (hfile : ∀ found, old.at? place = some found → found.isFile) (other : Location) :
    (old.remove place).sight other = if other = place then none else old.sight other := by
  by_cases hbelow : place <+: other
  · obtain ⟨rest, rfl⟩ := hbelow
    rw [sight_eq_none.mpr (at?_remove_below hplace old rest)]
    split
    · rfl
    · rename_i hother
      symm
      rw [sight_eq_none]
      by_contra hsome
      obtain ⟨found, hfound⟩ := Option.ne_none_iff_exists'.mp hsome
      exact hother (eq_of_prefix_of_file hfile (List.prefix_append _ _) hfound)
  · rw [sight_local local_remove hbelow, if_neg]
    rintro rfl
    exact hbelow List.prefix_rfl

end Sight

section Follow
variable {old new : Entry} {here place : Location} {names : List String}

/-- Names without double dots lead straight on. -/
theorem follow_of_no_dots (hdots : ".." ∉ names) (h : new.follow here names = .ok place) :
    place = here ++ names := by
  induction names generalizing here with
  | nil =>
    rw [follow] at h
    injection h with h
    rw [List.append_nil, h]
  | cons name names ih =>
    obtain ⟨hname, hnames⟩ := not_or.mp (List.mem_cons.not.mp hdots)
    obtain ⟨entries, hhere⟩ := follow_cons_ok h
    rw [follow, hhere] at h
    simp only [if_neg (Ne.symm hname)] at h
    split at h
    · cases h
    · rw [ih hnames h, List.append_assoc, List.singleton_append]

/-- Names lead to the same place in two trees that look the same on the way. -/
theorem follow_congr (hdots : ".." ∉ names)
    (h : ∀ place, here <+: place → place <+: here ++ names → place ≠ here ++ names →
      new.sight place = old.sight place) :
    new.follow here names = old.follow here names := by
  induction names generalizing here with
  | nil => rfl
  | cons name names ih =>
    obtain ⟨hname, hnames⟩ := not_or.mp (List.mem_cons.not.mp hdots)
    have hhere := h here List.prefix_rfl (List.prefix_append _ _) (by simp)
    have hrest : new.follow (here ++ [name]) names = old.follow (here ++ [name]) names :=
      ih hnames fun place hfirst hlast hne => by
        rw [List.append_assoc, List.singleton_append] at hlast hne
        exact h place ((List.prefix_append _ _).trans hfirst) hlast hne
    rw [follow, follow]
    unfold sight at hhere
    -- Nothing, a file or a directory in one tree is the same in the other.
    rcases hnew : new.at? here with _ | ⟨_, _⟩ | _ <;>
    rcases hold : old.at? here with _ | ⟨_, _⟩ | _ <;>
    rw [hnew, hold] at hhere <;>
    first
    | rfl
    | dsimp only
      rw [if_neg (Ne.symm hname), if_neg (Ne.symm hname), hrest]
    | cases hhere

end Follow

end SpecDraft.Entry

namespace SpecDraft.Disk

/-- What is seen at a place on a disk. -/
def sight (disk : Disk) (place : Location) : Option Entry := disk.root.sight place

section Leads
variable {disk : Disk} {path : FilePath} {place goal : Location}

/-- Above a directory there are directories. -/
theorem sight_above (h : disk.sight goal = some (.directory [])) (hplace : place <+: goal) :
    disk.sight place = some (.directory []) := by
  obtain ⟨rest, rfl⟩ := hplace
  by_cases hrest : rest = []
  · rwa [hrest, List.append_nil] at h
  · obtain ⟨entries, hentries⟩ := Entry.sight_eq_directory.mp h
    exact Entry.directory_of_below hrest hentries

theorem prefix_parent (hplace : place <+: path.parts) (hne : place ≠ path.parts) :
    place <+: path.parent.parts := by
  by_cases hnamed : path.parts = []
  · rw [hnamed, List.prefix_nil] at hplace
    exact absurd (hplace.trans hnamed.symm) hne
  · rw [parts_eq hnamed] at hplace hne
    exact (List.prefix_concat_iff.mp hplace).resolve_left hne

/-- Names without double dots lead to the place that they spell. -/
theorem Leads.eq_parts (h : disk.Leads path goal) (hdots : ".." ∉ path.parts) : goal = path.parts := by
  have hlocate := h.locate
  unfold Disk.locate at hlocate
  split at hlocate
  · cases hlocate
  · exact Entry.follow_of_no_dots hdots hlocate

/-- Names that lead to a place lead through the directory above it. -/
theorem Leads.follow_parent (h : disk.Leads path goal) (hdots : ".." ∉ path.parts)
    (hnamed : path.parts ≠ []) : disk.root.follow [] path.parent.parts = .ok path.parent.parts ∧
      ∃ entries, disk.root.at? path.parent.parts = some (.directory entries) := by
  have hlocate := h.locate
  unfold Disk.locate at hlocate
  split at hlocate
  · cases hlocate
  rw [parts_eq hnamed, Entry.follow_append] at hlocate
  cases hhere : disk.root.follow [] path.parent.parts with
  | error cause =>
    rw [hhere] at hlocate
    cases hlocate
  | ok here =>
    rw [hhere] at hlocate
    have hparent : ".." ∉ path.parent.parts := fun hmem => hdots (List.dropLast_subset _ hmem)
    obtain rfl : here = path.parent.parts := Entry.follow_of_no_dots hparent hhere
    exact ⟨rfl, Entry.follow_cons_ok hlocate⟩

/-- Above a place that names lead to there is a directory. -/
theorem Leads.above (h : disk.Leads path goal) (hdots : ".." ∉ path.parts)
    (hnamed : path.parts ≠ []) : disk.sight path.parent.parts = some (.directory []) :=
  Entry.sight_eq_directory.mpr (h.follow_parent hdots hnamed).2

/-- **A directory that is made** is seen at its place, and nothing else has changed. -/
theorem CanMake.sight (h : disk.CanMake path path.parts) (hdots : ".." ∉ path.parts)
    (other : Location) : (disk.put path.parts (.directory [])).sight other =
      if other = path.parts then some (.directory []) else disk.sight other := by
  have hnamed : path.parts ≠ [] := by
    intro hroot
    have hfree := h.free
    rw [hroot, Entry.at?_nil] at hfree
    cases hfree
  have hput : (disk.root.put (path.parent.parts ++ [path.name]) (.directory [])).sight other =
      if other = path.parent.parts ++ [path.name] then some (.directory [])
      else disk.root.sight other :=
    Entry.sight_put (h.leads.above hdots hnamed)
      (fun found hfound => by rw [← parts_eq hnamed, h.free] at hfound; cases hfound)
      (fun _ _ => Entry.at?_of_empty) other
  rwa [← parts_eq hnamed] at hput

/-- A path leads to the same place on two disks that look the same on the way. -/
theorem locate_congr {old new : Disk} (hdots : ".." ∉ path.parts)
    (h : ∀ place, place <+: path.parts → place ≠ path.parts → new.sight place = old.sight place) :
    new.locate path = old.locate path := by
  have hfollow : new.root.follow [] path.parts = old.root.follow [] path.parts :=
    Entry.follow_congr hdots fun place _ hplace hne => h place hplace hne
  unfold locate
  rw [hfollow]

end Leads

end SpecDraft.Disk
