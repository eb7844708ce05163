import SpecDraft.File.Disk

/-!
# Looking for files

Directories are visited depth first and in the order of names. Hidden directories and those of
installed packages are left out, with one exception; a limit on depth and a limit on the number
of files seen bound the visit.
-/
set_option autoImplicit false

namespace SpecDraft.Scan

/-- Directories that are left out. -/
def skippedNames : List String := ["node_modules"]

/-- Hidden directories that are visited. -/
def visitedHidden : List String := [".specify"]

/-- Whether a directory of this name is visited below another. -/
def visits (name : String) : Bool :=
  !skippedNames.contains name && !(name.startsWith "." && !visitedHidden.contains name)

/-- Entries in the order of their names. -/
def inOrder (entries : List (String × Entry)) : List (String × Entry) :=
  entries.mergeSort fun a b => decide (a.1 ≤ b.1)

/-- Whether a name contains one of the patterns. -/
def fits (patterns : List String) (name : String) : Bool := patterns.any (Text.contains name)

/-- How many files have been seen, and those that fit, the latest first. -/
structure Progress where
  seen : Nat
  found : List FilePath

/-- Visits the entries of a directory, with directories below it down to a depth. `depth` is one
more than the number of levels below. Nothing is visited once `limit` files have been seen. -/
def visit (patterns : List String) (limit : Int) :
    (depth : Nat) → FilePath → List (String × Entry) → Progress → Progress
  | 0, _, _, progress => progress
  | depth + 1, path, entries, progress =>
    (inOrder entries).foldl (fun progress (name, entry) =>
      if limit ≤ progress.seen then progress
      else
        let below := { path with parts := path.parts ++ [name] }
        match entry with
        | .directory inner =>
          if visits name then visit patterns limit depth below inner progress else progress
        | .file .. =>
          ⟨progress.seen + 1,
            if fits patterns name then below :: progress.found else progress.found⟩) progress

/-- How far a scan goes. -/
structure Limits where
  maxDepth : Int
  maxFiles : Int
  deriving DecidableEq, Repr

namespace Limits

/-- The limits used where none are given. -/
def standard : Limits := ⟨10, 10000⟩

end Limits

/-- The files below a directory whose names contain one of the patterns. -/
def findFiles (disk : Disk) (directory : FilePath) (patterns : List String) (limits : Limits) :
    List FilePath :=
  match disk.entry? directory with
  | .ok (.directory entries) =>
    (visit patterns limits.maxFiles (limits.maxDepth + 1).toNat directory entries
      ⟨0, []⟩).found.reverse
  | _ => []

/-- How many files below a directory have a name with one of the patterns. -/
def countFiles (disk : Disk) (directory : FilePath) (patterns : List String) : Nat :=
  (findFiles disk directory patterns .standard).length

end SpecDraft.Scan
