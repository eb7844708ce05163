import SpecDraft.Assoc
import SpecDraft.Failure
import SpecDraft.File.Path
import SpecDraft.Time

/-!
# Disks

A disk is a tree of directories and files. Paths are followed from the root, name by name, and
double dots lead back. Every step that changes the disk can be refused by the operating system;
`refuses` says which ones are, and a refused step changes nothing.
-/
set_option autoImplicit false

namespace SpecDraft

/-- A file with its bytes and the moment of its last change, or a directory. A directory names
each of its entries once. -/
inductive Entry where
  | file (content : ByteArray) (modified : Moment)
  | directory (entries : List (String × Entry))

/-- A place on a disk: the names that lead to it from the root, none of them dots. -/
abbrev Location := List String

namespace Entry

/-- The entry at a place below this one. -/
def at? : Entry → Location → Option Entry
  | entry, [] => some entry
  | .file .., _ :: _ => none
  | .directory entries, name :: rest => (entries.lookup name).bind (at? · rest)

/-- The tree with an entry put at a place below this one. The directories on the way must be
there, else nothing changes. -/
def put : Entry → Location → Entry → Entry
  | _, [], entry => entry
  | .file content modified, _ :: _, _ => .file content modified
  | .directory entries, [name], entry => .directory (Assoc.put entries name entry)
  | .directory entries, name :: rest, entry =>
    match entries.lookup name with
    | some below => .directory (Assoc.put entries name (put below rest entry))
    | none => .directory entries

/-- The tree without the entry at a place below this one. -/
def remove : Entry → Location → Entry
  | entry, [] => entry
  | .file content modified, _ :: _ => .file content modified
  | .directory entries, [name] => .directory (entries.filter (·.1 != name))
  | .directory entries, name :: rest =>
    match entries.lookup name with
    | some below => .directory (Assoc.put entries name (remove below rest))
    | none => .directory entries

/-- Whether the entry is a directory. -/
def isDirectory : Entry → Bool
  | .directory _ => true
  | .file .. => false

/-- Whether the entry is a file. -/
def isFile (entry : Entry) : Bool := !entry.isDirectory

/-- The entries of a directory. -/
def entries : Entry → List (String × Entry)
  | .directory entries => entries
  | .file .. => []

/-- The size that an entry is reported to have, in bytes; that of a directory is one block. -/
def size : Entry → Nat
  | .file content _ => content.size
  | .directory _ => 4096

/-- The place that names lead to from an existing place. Every name must be looked up in a
directory, and the last one may be missing there. -/
def follow (root : Entry) : (here : Location) → (names : List String) →
    Except SystemCause Location
  | here, [] => .ok here
  | here, name :: rest =>
    match root.at? here with
    | none => .error .notFound
    | some (.file ..) => .error .notADirectory
    | some (.directory _) =>
      if name = ".." then follow root here.dropLast rest
      else if 255 < name.utf8ByteSize then .error .nameTooLong
      else follow root (here ++ [name]) rest

end Entry

/-- The steps of a change to a disk that the operating system can refuse. -/
inductive WriteStep where
  | makeDirectory
  | createFile
  | writeBytes
  | synchronise
  | rename
  deriving DecidableEq, Repr

/-- A disk, and what its operating system refuses. -/
structure Disk where
  root : Entry
  refuses : WriteStep → FilePath → Option SystemCause

/-- An action on a disk. Changes made before a failure stay. -/
abbrev DiskM (α : Type) := ExceptT Failure (StateM Disk) α

namespace Disk

/-- A disk without files whose operating system refuses nothing. -/
def empty : Disk := ⟨.directory [], fun _ _ => none⟩

/-- A path that holds a character which no path can hold. -/
def nullInPath : Failure := .argument "embedded null byte"

/-- Whether a path holds a null character. -/
def holdsNull (path : FilePath) : Bool := path.text.toList.contains '\x00'

/-- The place that a path names. The longest path has 4095 bytes. -/
def locate (disk : Disk) (path : FilePath) : Except SystemCause Location :=
  if 4095 < path.text.utf8ByteSize then .error .nameTooLong
  else disk.root.follow [] path.parts

/-- The entry that a path names. -/
def entry? (disk : Disk) (path : FilePath) : Except SystemCause Entry := do
  match disk.root.at? (← disk.locate path) with
  | some entry => return entry
  | none => throw .notFound

/-- The failure of an operating system call on a path. -/
def systemFailure (path : FilePath) (cause : SystemCause) : Failure := .system ⟨cause, path.text⟩

/-- What an operating system call finds at a path. -/
def status (disk : Disk) (path : FilePath) : Outcome Entry :=
  if holdsNull path then .error nullInPath
  else (disk.entry? path).mapError (systemFailure path)

/-- Whether a path names an entry that a test accepts. A path that leads nowhere names none. -/
def check (disk : Disk) (path : FilePath) (test : Entry → Bool) : Outcome Bool :=
  if holdsNull path then .ok false
  else
    match disk.entry? path with
    | .ok entry => .ok (test entry)
    | .error .notFound | .error .notADirectory => .ok false
    | .error cause => .error (systemFailure path cause)

/-- Whether a path names something. -/
def pathExists (disk : Disk) (path : FilePath) : Outcome Bool := disk.check path fun _ => true

/-- Whether a path names a file. -/
def isFile (disk : Disk) (path : FilePath) : Outcome Bool := disk.check path Entry.isFile

/-- Whether a path names a directory. -/
def isDirectory (disk : Disk) (path : FilePath) : Outcome Bool :=
  disk.check path Entry.isDirectory

/-- Whether a path names something that can be read. -/
def isReadable (disk : Disk) (path : FilePath) : Outcome Bool :=
  if holdsNull path then .error nullInPath
  else
    match disk.entry? path with
    | .ok _ => .ok true
    | .error _ => .ok false

/-- The disk with an entry put at a place. -/
def put (disk : Disk) (place : Location) (entry : Entry) : Disk :=
  { disk with root := disk.root.put place entry }

/-- The disk without the entry at a place. -/
def remove (disk : Disk) (place : Location) : Disk :=
  { disk with root := disk.root.remove place }

end Disk
end SpecDraft
