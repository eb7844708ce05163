import SpecDraft.File.Disk

/-!
# Replacing files

A file is replaced by writing a temporary file beside it and renaming that. Whatever step fails,
the temporary file is removed and the file is as it was.
-/
set_option autoImplicit false

namespace SpecDraft.Disk

/-- Fails if the operating system refuses a step. -/
def attempt (step : WriteStep) (path : FilePath) : DiskM Unit := do
  match (← get).refuses step path with
  | some cause => throw (systemFailure path cause)
  | none => pure ()

/-- The place that a path names, for a call that changes it. -/
def locateForWriting (path : FilePath) : DiskM Location := do
  if holdsNull path then throw nullInPath
  match (← get).locate path with
  | .ok place => return place
  | .error cause => throw (systemFailure path cause)

/-- Makes one directory. -/
def makeDirectory (path : FilePath) : DiskM Unit := do
  let place ← locateForWriting path
  match (← get).root.at? place with
  | some _ => throw (systemFailure path .alreadyExists)
  | none =>
    attempt .makeDirectory path
    modify (·.put place (.directory []))

/-- Lets a failure to make a directory pass when the directory is there. -/
def unlessPresent (path : FilePath) (failure : Failure) : DiskM Unit := do
  match failure, (← get).isDirectory path with
  | .system _, .ok true => pure ()
  | .system _, .error later => throw later
  | _, _ => throw failure

/-- Makes a directory and, as far as they are missing, the directories above it. `depth` bounds
their number. -/
def makeDirectoriesWithin : (depth : Nat) → FilePath → DiskM Unit
  | 0, path => do
    try makeDirectory path catch failure => unlessPresent path failure
  | depth + 1, path => do
    try makeDirectory path
    catch
      | .system ⟨.notFound, text⟩ =>
        if path.parts.isEmpty then throw (.system ⟨.notFound, text⟩)
        makeDirectoriesWithin depth path.parent
        try makeDirectory path
        catch
          | .system ⟨.notFound, text⟩ => throw (.system ⟨.notFound, text⟩)
          | failure => unlessPresent path failure
      | failure => unlessPresent path failure

/-- Makes a directory and the missing directories above it. -/
def makeDirectories (path : FilePath) : DiskM Unit :=
  makeDirectoriesWithin path.parts.length path

/-- The middle of a temporary name: eight characters. -/
def temporaryTag (n : Nat) : String := Moment.padded 8 n

/-- A name with a start and an end that no entry of a directory has. -/
def unusedName (start finish : String) (entries : List (String × Entry)) : String :=
  let candidates := (List.range (entries.length + 1)).map fun n =>
    start ++ temporaryTag n ++ finish
  (candidates.find? fun name => !entries.any (·.1 == name)).getD start

/-- The entries of the directory that a path names; none where it names no directory. -/
def entriesAt (disk : Disk) (path : FilePath) : List (String × Entry) :=
  match disk.entry? path with
  | .ok entry => entry.entries
  | .error _ => []

/-- The temporary file beside a target: a name that starts as given. -/
def temporaryBeside (disk : Disk) (target : FilePath) (start : String) : FilePath :=
  { target with
    parts := target.parent.parts ++ [unusedName start ".tmp" (disk.entriesAt target.parent)] }

/-- Creates an empty file. -/
def createFile (path : FilePath) (now : Moment) : DiskM Location := do
  let place ← locateForWriting path
  attempt .createFile path
  modify (·.put place (.file .empty now))
  return place

/-- Renames a file over a target, which must not be a directory. -/
def rename (source target : FilePath) (place : Location) : DiskM Unit := do
  let goal ← locateForWriting target
  attempt .rename target
  match (← get).root.at? place, (← get).root.at? goal with
  | none, _ => throw (systemFailure source .notFound)
  | some _, some (.directory _) => throw (systemFailure target .isADirectory)
  | some entry, _ => modify fun disk => (disk.remove place).put goal entry

/-- Fills a temporary file, which is at the given place, and renames it over the target. -/
def fillAndRename (temporary target : FilePath) (place : Location) (content : ByteArray)
    (now : Moment) : DiskM Unit := do
  attempt .writeBytes temporary
  modify (·.put place (.file content now))
  attempt .synchronise temporary
  rename temporary target place

/-- Replaces the content of a file at once, or makes the file. `start` starts the name of the
temporary file. -/
def replaceFile (target : FilePath) (start : String) (content : ByteArray) (now : Moment) :
    DiskM Unit := do
  let temporary := (← get).temporaryBeside target start
  let place ← createFile temporary now
  try fillAndRename temporary target place content now
  catch failure =>
    modify (·.remove place)
    throw failure

end SpecDraft.Disk
