import Mathlib.Data.String.Basic
import SpecDraft.File.Scan
import SpecDraft.Proofs.File.Tree

/-!
# What a scan finds

The files below a directory make one list, depth first and in the order of names (`walk`). It holds
the files that no skipped directory leads to and that are not too deep (`mem_walk`), and its order
is that of the names along their paths (`walk_sorted`). A scan keeps one count of the files that it
has seen in all directories, and stops by that count wherever it is. What it sees is therefore a
start of the list (`visit_eq_see`), and what it finds are the files of that start whose names fit
(`findFiles_eq_walk`).
-/
set_option autoImplicit false

namespace SpecDraft

/-- Whether every directory of a tree names each of its entries once. -/
inductive Entry.NamesOnce : Entry → Prop where
  | file (content : ByteArray) (modified : Moment) : NamesOnce (.file content modified)
  | directory {entries : List (String × Entry)} (nodup : (Assoc.names entries).Nodup)
      (below : ∀ item ∈ entries, NamesOnce item.2) : NamesOnce (.directory entries)

theorem Entry.namesOnce_directory_iff {entries : List (String × Entry)} :
    (directory entries).NamesOnce ↔
      (Assoc.names entries).Nodup ∧ ∀ item ∈ entries, item.2.NamesOnce := by
  constructor
  · intro h
    cases h with
    | directory hnodup hbelow => exact ⟨hnodup, hbelow⟩
  · rintro ⟨hnodup, hbelow⟩
    exact .directory hnodup hbelow

/-- The path of a place below a path. -/
def FilePath.extend (path : FilePath) (place : Location) : FilePath :=
  { path with parts := path.parts ++ place }

namespace FilePath

@[simp] theorem extend_nil (path : FilePath) : path.extend [] = path := by simp [extend]

@[simp] theorem extend_extend (path : FilePath) (a b : Location) :
    (path.extend a).extend b = path.extend (a ++ b) := by
  simp [extend]

@[simp] theorem name_extend (path : FilePath) (name : String) :
    (path.extend [name]).name = name := by
  simp [extend, FilePath.name]

end FilePath

namespace Scan

/-! ## The files below a directory -/

/-- The places of the files that an entry leads to, given those below a directory. -/
def placesOf (below : List (String × Entry) → List Location) : String × Entry → List Location
  | (name, .directory inner) => if visits name then (below inner).map (name :: ·) else []
  | (name, .file ..) => [[name]]

/-- The places of the files below a directory, depth first and in the order of names. As for
`visit`, `depth` is one more than the number of levels below. -/
def places : (depth : Nat) → List (String × Entry) → List Location
  | 0, _ => []
  | depth + 1, entries => (inOrder entries).flatMap (placesOf (places depth))

/-- The files below a directory, in directories down to a depth. -/
def walk (directory : FilePath) (entries : List (String × Entry)) (maxDepth : Int) :
    List FilePath :=
  (places (maxDepth + 1).toNat entries).map directory.extend

/-- Whether a walk comes to a place: there is a file, the directory that holds it is not too deep,
and every directory on the way is visited. -/
structure Reaches (tree : Entry) (maxDepth : Int) (place : Location) : Prop where
  file : ∃ entry, tree.at? place = some entry ∧ entry.isFile
  depth : (place.dropLast.length : Int) ≤ maxDepth
  visited : ∀ name ∈ place.dropLast, visits name

theorem inOrder_perm (entries : List (String × Entry)) : (inOrder entries).Perm entries :=
  List.mergeSort_perm ..

/-- Entries with names of their own are put into a strict order. -/
theorem inOrder_sorted {entries : List (String × Entry)} (h : (Assoc.names entries).Nodup) :
    (inOrder entries).Pairwise fun a b => a.1 < b.1 := by
  have hle : (inOrder entries).Pairwise fun a b => decide (a.1 ≤ b.1) = true := by
    apply List.pairwise_mergeSort
    · intro a b c hab hbc
      simp only [decide_eq_true_eq] at hab hbc ⊢
      exact le_trans hab hbc
    · intro a b
      simpa using le_total a.1 b.1
  have hne : (inOrder entries).Pairwise fun a b => a.1 ≠ b.1 := by
    have hnodup := ((inOrder_perm entries).map Prod.fst).nodup_iff.mpr h
    exact List.pairwise_map.mp hnodup
  apply (hle.and hne).imp
  rintro a b ⟨hab, hother⟩
  exact lt_of_le_of_ne (of_decide_eq_true hab) hother

/-- What an entry leads to starts with its name. -/
theorem exists_of_mem_placesOf {below : List (String × Entry) → List Location} {name : String}
    {entry : Entry} {place : Location} (h : place ∈ placesOf below (name, entry)) :
    ∃ rest, place = name :: rest := by
  cases entry with
  | file content modified => exact ⟨[], List.mem_singleton.mp h⟩
  | directory inner =>
    rw [placesOf] at h
    split at h
    · obtain ⟨rest, -, rfl⟩ := List.mem_map.mp h
      exact ⟨rest, rfl⟩
    · cases h

/-- **The places come in the order of the names along them**, by induction on the depth: two places
below different entries differ in their first name. -/
theorem places_sorted {depth : Nat} {entries : List (String × Entry)}
    (h : (Entry.directory entries).NamesOnce) : (places depth entries).Pairwise (· < ·) := by
  induction depth generalizing entries with
  | zero => exact List.Pairwise.nil
  | succ depth ih =>
    obtain ⟨hnodup, hbelow⟩ := Entry.namesOnce_directory_iff.mp h
    rw [places, List.pairwise_flatMap]
    constructor
    · rintro ⟨name, entry⟩ hitem
      have hentry := hbelow _ ((inOrder_perm entries).mem_iff.mp hitem)
      cases entry with
      | file content modified => exact List.pairwise_singleton ..
      | directory inner =>
        rw [placesOf]
        split
        · rw [List.pairwise_map]
          exact (ih hentry).imp fun hlt => List.cons_lt_cons_iff.mpr (.inr ⟨rfl, hlt⟩)
        · exact List.Pairwise.nil
    · apply (inOrder_sorted hnodup).imp
      rintro ⟨first, entry⟩ ⟨second, other⟩ hlt a ha b hb
      obtain ⟨rest, rfl⟩ := exists_of_mem_placesOf ha
      obtain ⟨rest', rfl⟩ := exists_of_mem_placesOf hb
      exact List.cons_lt_cons_iff.mpr (.inl hlt)

/-- There is no file at the directory itself. -/
theorem ne_nil_of_file {entries : List (String × Entry)} {place : Location}
    (h : ∃ entry, (Entry.directory entries).at? place = some entry ∧ entry.isFile) :
    place ≠ [] := by
  rintro rfl
  obtain ⟨entry, hentry, hfile⟩ := h
  rw [Entry.at?_nil] at hentry
  cases hentry
  cases hfile

/-- A walk comes to the files that no skipped directory leads to, down to a depth. -/
theorem mem_places {depth : Nat} {entries : List (String × Entry)} {place : Location}
    (h : (Entry.directory entries).NamesOnce) :
    place ∈ places depth entries ↔
      (∃ entry, (Entry.directory entries).at? place = some entry ∧ entry.isFile) ∧
        place.length ≤ depth ∧ ∀ name ∈ place.dropLast, visits name := by
  induction depth generalizing entries place with
  | zero =>
    refine iff_of_false List.not_mem_nil ?_
    rintro ⟨hfile, hlength, -⟩
    exact ne_nil_of_file hfile (List.length_eq_zero_iff.mp (Nat.le_zero.mp hlength))
  | succ depth ih =>
    obtain ⟨hnodup, hbelow⟩ := Entry.namesOnce_directory_iff.mp h
    rw [places, List.mem_flatMap]
    constructor
    · rintro ⟨⟨name, entry⟩, hitem, hplace⟩
      have hmem := (inOrder_perm entries).mem_iff.mp hitem
      have hlookup : entries.lookup name = some entry := Assoc.lookup_of_mem hnodup hmem
      cases entry with
      | file content modified =>
        rw [placesOf, List.mem_singleton] at hplace
        subst hplace
        refine ⟨⟨.file content modified, ?_, rfl⟩, by simp, by simp⟩
        rw [Entry.at?_directory, hlookup, Option.bind_some, Entry.at?_nil]
      | directory inner =>
        rw [placesOf] at hplace
        split at hplace
        · rename_i hvisits
          obtain ⟨rest, hrest, rfl⟩ := List.mem_map.mp hplace
          obtain ⟨hfile, hlength, hvisited⟩ := (ih (hbelow _ hmem)).mp hrest
          refine ⟨?_, by simpa using hlength, ?_⟩
          · rwa [Entry.at?_directory, hlookup, Option.bind_some]
          · -- The name of the directory itself stands on the way as well.
            rw [List.dropLast_cons_of_ne_nil (ne_nil_of_file hfile)]
            exact List.forall_mem_cons.mpr ⟨hvisits, hvisited⟩
        · cases hplace
    · rintro ⟨hfile, hlength, hvisited⟩
      obtain ⟨name, rest, rfl⟩ := List.exists_cons_of_ne_nil (ne_nil_of_file hfile)
      obtain ⟨found, hfound, hisFile⟩ := hfile
      rw [Entry.at?_directory] at hfound
      obtain ⟨entry, hlookup, hrest⟩ := Option.bind_eq_some_iff.mp hfound
      have hmem := Assoc.mem_of_lookup hlookup
      refine ⟨(name, entry), (inOrder_perm entries).mem_iff.mpr hmem, ?_⟩
      cases entry with
      | file content modified =>
        rw [Entry.at?_of_isFile rfl hrest]
        exact List.mem_singleton_self _
      | directory inner =>
        have hbelowFile : ∃ entry, (Entry.directory inner).at? rest = some entry ∧
            entry.isFile := ⟨found, hrest, hisFile⟩
        rw [List.dropLast_cons_of_ne_nil (ne_nil_of_file hbelowFile)] at hvisited
        obtain ⟨hvisits, hvisited⟩ := List.forall_mem_cons.mp hvisited
        rw [placesOf, if_pos hvisits]
        apply List.mem_map_of_mem
        exact (ih (hbelow _ hmem)).mpr ⟨hbelowFile, by simpa using hlength, hvisited⟩

/-- **What a walk comes to**: the files in directories that are not too deep and all visited. -/
theorem mem_walk {directory file : FilePath} {entries : List (String × Entry)} {maxDepth : Int}
    (h : (Entry.directory entries).NamesOnce) :
    file ∈ walk directory entries maxDepth ↔
      ∃ place, Reaches (.directory entries) maxDepth place ∧ file = directory.extend place := by
  have hreaches {place : Location} : place ∈ places (maxDepth + 1).toNat entries ↔
      Reaches (.directory entries) maxDepth place := by
    rw [mem_places h]
    constructor
    · rintro ⟨hfile, hlength, hvisited⟩
      have hpos := List.length_pos_iff.mpr (ne_nil_of_file hfile)
      refine ⟨hfile, ?_, hvisited⟩
      rw [List.length_dropLast]
      omega
    · rintro ⟨hfile, hdepth, hvisited⟩
      refine ⟨hfile, ?_, hvisited⟩
      rw [List.length_dropLast] at hdepth
      omega
  simp only [walk, List.mem_map, hreaches, eq_comm (a := file)]

/-- **The order of a walk** is that of the names along the paths. -/
theorem walk_sorted {directory : FilePath} {entries : List (String × Entry)} {maxDepth : Int}
    (h : (Entry.directory entries).NamesOnce) :
    (walk directory entries maxDepth).Pairwise fun a b => a.parts < b.parts := by
  rw [walk, List.pairwise_map]
  exact (places_sorted h).imp fun hlt => List.append_left_lt hlt

/-- A walk comes to no file twice. -/
theorem walk_nodup {directory : FilePath} {entries : List (String × Entry)} {maxDepth : Int}
    (h : (Entry.directory entries).NamesOnce) : (walk directory entries maxDepth).Nodup := by
  apply (walk_sorted h).imp
  rintro a b hlt rfl
  exact lt_irrefl _ hlt

/-! ## The count of files seen -/

section Count
variable (patterns : List String) (limit : Int)

/-- Where a scan stands after some more files, of which it sees those within the limit. -/
def Progress.see (progress : Progress) (files : List FilePath) : Progress :=
  let seen := files.take (limit - progress.seen).toNat
  ⟨progress.seen + seen.length, (seen.filter (fits patterns ·.name)).reverse ++ progress.found⟩

variable {patterns limit}

@[simp] theorem Progress.see_nil (progress : Progress) :
    progress.see patterns limit [] = progress := by
  simp [see]

theorem Progress.see_of_reached {progress : Progress} (h : limit ≤ progress.seen)
    (files : List FilePath) : progress.see patterns limit files = progress := by
  have hnone : (limit - progress.seen).toNat = 0 := by omega
  simp [see, hnone]

theorem Progress.see_singleton {progress : Progress} (h : ¬ limit ≤ progress.seen)
    (file : FilePath) : progress.see patterns limit [file] =
      ⟨progress.seen + 1,
        if fits patterns file.name then file :: progress.found else progress.found⟩ := by
  have hone : [file].take (limit - progress.seen).toNat = [file] :=
    List.take_of_length_le (by simp; omega)
  rw [see, hone]
  by_cases hfits : fits patterns file.name
  · simp [hfits]
  · simp [hfits]

/-- **Seeing files in two goes** is seeing them in one: the count is carried from one to the other,
and where the first ends at the limit, the second sees nothing. -/
theorem Progress.see_append (progress : Progress) (a b : List FilePath) :
    progress.see patterns limit (a ++ b) =
      (progress.see patterns limit a).see patterns limit b := by
  have hrest :
      (limit - (progress.seen + (a.take (limit - progress.seen).toNat).length : Nat)).toNat =
        (limit - progress.seen).toNat - a.length := by
    rw [List.length_take]
    omega
  simp only [see, hrest, List.take_append, List.length_append, List.filter_append,
    List.reverse_append, List.append_assoc, Nat.add_assoc]

/-- A loop over things that each lead to some files sees the files of all of them. -/
theorem foldl_eq_see {α : Type} {step : Progress → α → Progress} {files : α → List FilePath}
    {items : List α}
    (h : ∀ item ∈ items, ∀ progress, step progress item = progress.see patterns limit (files item))
    (progress : Progress) :
    items.foldl step progress = progress.see patterns limit (items.flatMap files) := by
  induction items generalizing progress with
  | nil => exact progress.see_nil.symm
  | cons item items ih =>
    obtain ⟨hitem, hitems⟩ := List.forall_mem_cons.mp h
    rw [List.foldl_cons, hitem, ih hitems, List.flatMap_cons, Progress.see_append]

/-- **A scan sees the files of the walk**, up to its limit, by induction on the depth. -/
theorem visit_eq_see (depth : Nat) (path : FilePath) (entries : List (String × Entry))
    (progress : Progress) :
    visit patterns limit depth path entries progress =
      progress.see patterns limit ((places depth entries).map path.extend) := by
  induction depth generalizing path entries progress with
  | zero => exact progress.see_nil.symm
  | succ depth ih =>
    rw [visit, places, List.map_flatMap]
    apply foldl_eq_see
    rintro ⟨name, entry⟩ - progress
    dsimp only
    split
    · rename_i hreached
      exact (Progress.see_of_reached hreached _).symm
    · rename_i hgoes
      cases entry with
      | file content modified =>
        rw [placesOf, List.map_singleton, Progress.see_singleton hgoes, FilePath.name_extend]
        rfl
      | directory inner =>
        change (if visits name then visit patterns limit depth (path.extend [name]) inner progress
          else progress) = _
        rw [placesOf]
        by_cases hvisits : visits name
        · have hpaths : path.extend ∘ (name :: ·) = (path.extend [name]).extend := by
            funext rest
            simp
          rw [if_pos hvisits, if_pos hvisits, List.map_map, hpaths, ih]
        · rw [if_neg hvisits, if_neg hvisits, List.map_nil, Progress.see_nil]

/-- What is found are the files seen whose names fit. -/
theorem findFiles_eq_filter {disk : Disk} {directory : FilePath}
    {entries : List (String × Entry)} (h : disk.entry? directory = .ok (.directory entries))
    (patterns : List String) (limits : Limits) :
    findFiles disk directory patterns limits =
      ((walk directory entries limits.maxDepth).take limits.maxFiles.toNat).filter
        (fits patterns ·.name) := by
  rw [findFiles, h]
  dsimp only
  rw [visit_eq_see, ← walk]
  simp [Progress.see]

end Count

/-- **A bounded scan finds a start of what an unbounded one finds.** It finds, in their order, the
files with a fitting name among the first files of the walk, as many as its limit says. The walk
comes to every file that lies in directories which are not too deep and all visited, in the order of
the names along the paths, and to nothing twice. So a scan finds nothing twice and no more than its
limit, and it finds every file of the walk with a fitting name where the walk is within the
limit. -/
theorem findFiles_eq_walk (disk : Disk) (directory : FilePath) (entries : List (String × Entry))
    (patterns : List String) (limits : Limits)
    (hdirectory : disk.entry? directory = .ok (.directory entries))
    (hnames : (Entry.directory entries).NamesOnce) :
    findFiles disk directory patterns limits =
      ((walk directory entries limits.maxDepth).take limits.maxFiles.toNat).filter
        (fits patterns ·.name) ∧
    (∀ file, file ∈ walk directory entries limits.maxDepth ↔
      ∃ place, Reaches (.directory entries) limits.maxDepth place ∧
        file = directory.extend place) ∧
    (walk directory entries limits.maxDepth).Pairwise (fun a b => a.parts < b.parts) ∧
    (findFiles disk directory patterns limits).Nodup ∧
    (findFiles disk directory patterns limits).length ≤ limits.maxFiles.toNat ∧
    ((walk directory entries limits.maxDepth).length ≤ limits.maxFiles.toNat →
      findFiles disk directory patterns limits =
        (walk directory entries limits.maxDepth).filter (fits patterns ·.name)) := by
  have hfound := findFiles_eq_filter hdirectory patterns limits
  refine ⟨hfound, fun file => mem_walk hnames, walk_sorted hnames, ?_, ?_, ?_⟩
  · rw [hfound]
    exact ((walk_nodup hnames).sublist (List.take_sublist ..)).filter _
  · rw [hfound]
    apply (List.length_filter_le ..).trans
    rw [List.length_take]
    exact Nat.min_le_left ..
  · intro hlength
    rw [hfound, List.take_of_length_le hlength]

/-- A directory with a file on each side of its subdirectories, one of which is skipped. -/
def scannedEntries : List (String × Entry) :=
  [("src", .directory [("b.md", .file .empty ⟨0⟩), ("a.txt", .file .empty ⟨0⟩)]),
    ("node_modules", .directory [("readme.md", .file .empty ⟨0⟩)]),
    ("zoo.md", .file .empty ⟨0⟩), ("intro.md", .file .empty ⟨0⟩)]

/-- A disk with that directory. -/
def scannedDisk : Disk := ⟨.directory [("docs", .directory scannedEntries)], fun _ _ => none⟩

theorem findFiles_scannedDisk :
    scannedDisk.entry? ⟨"/", ["docs"]⟩ = .ok (.directory scannedEntries) ∧
    (Entry.directory scannedEntries).NamesOnce ∧
    (walk ⟨"/", ["docs"]⟩ scannedEntries 1).length = 4 ∧
    findFiles scannedDisk ⟨"/", ["docs"]⟩ [".md"] ⟨1, 3⟩ =
      [⟨"/", ["docs", "intro.md"]⟩, ⟨"/", ["docs", "src", "b.md"]⟩] := by
  have hdirectory : scannedDisk.entry? ⟨"/", ["docs"]⟩ = .ok (.directory scannedEntries) := rfl
  have hnames : (Entry.directory scannedEntries).NamesOnce := by
    simp [scannedEntries, Entry.namesOnce_directory_iff, Entry.NamesOnce.file]
  have hwalk : walk ⟨"/", ["docs"]⟩ scannedEntries 1 =
      [⟨"/", ["docs", "intro.md"]⟩, ⟨"/", ["docs", "src", "a.txt"]⟩,
        ⟨"/", ["docs", "src", "b.md"]⟩, ⟨"/", ["docs", "zoo.md"]⟩] := by
    have hsrc : visits "src" = true := by decide +kernel
    have hskipped : visits "node_modules" = false := by decide +kernel
    simp [walk, places, inOrder, placesOf, scannedEntries, hsrc, hskipped, List.mergeSort,
      List.MergeSort.Internal.splitInTwo, FilePath.extend]
  refine ⟨hdirectory, hnames, congrArg List.length hwalk, ?_⟩
  rw [(findFiles_eq_walk _ _ _ [".md"] ⟨1, 3⟩ hdirectory hnames).1, hwalk]
  decide

end Scan
end SpecDraft
