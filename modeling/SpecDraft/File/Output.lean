import SpecDraft.File.Digest
import SpecDraft.File.Replace
import SpecDraft.Text.Basic

/-!
# Writing artifacts

Generated files are Markdown at absolute paths outside of blocked places. Path and content are
checked before anything is written, and the file is then replaced at once.
-/
set_option autoImplicit false

namespace SpecDraft.Output

open Text

/-- Top-level directories that take no artifact. -/
def blockedRoots : List String := ["/etc", "/sys", "/proc", "/dev"]

/-- Directories that take no artifact, wherever they are. -/
def blockedNames : List String := ["node_modules", ".git"]

/-- Extensions that no artifact has. -/
def blockedExtensions : List String := [".exe", ".dll", ".so", ".dylib", ".sh", ".bat", ".cmd"]

/-- The extension of artifacts. -/
def extension : String := ".md"

/-- A destination that is refused. -/
def refused (summary path : String) (reason : AccessReason) : Failure :=
  .write (summary ++ ": " ++ path) path reason

/-- A destination with an extension that is refused. -/
def refusedExtension (summary path : String) : Failure := .write summary path .invalid

/-- Whether a path is a directory or below it. -/
def isWithin (path directory : String) : Bool :=
  path == directory || path.startsWith (directory ++ "/")

/-- The path of a destination that may be written: an absolute one in its shortest form, outside
of blocked places, with the extension of artifacts in any letter case. -/
def checkedPath (path : String) : Outcome FilePath := do
  if !path.startsWith "/" then throw (refused "Path must be absolute" path .invalid)
  if FilePath.normalText path != path then
    throw (refused "Path contains directory traversal" path .invalid)
  let target := FilePath.parse path
  if blockedRoots.any (isWithin path) || target.parts.any blockedNames.contains then
    throw (refused "Path is in blocked directory" path .permissionDenied)
  let suffix := lower target.suffix
  if blockedExtensions.contains suffix then
    throw (refusedExtension ("File extension not allowed: " ++ suffix) path)
  if suffix != extension then
    throw (refusedExtension
      ("Only .md files allowed, got: " ++ if suffix.isEmpty then "(none)" else suffix) path)
  return target

/-- The bytes of a content that may be written: not blank, without null characters, and at most
`limit` bytes in UTF-8. `path` is named in failures. -/
def checkedContent (content path : String) (limit : Int) : Outcome ByteArray := do
  if allBlank content.toList then throw (.write "Content cannot be empty" path .invalid)
  if content.toList.contains '\x00' then
    throw (.write "Content contains null bytes" path .invalid)
  let bytes := content.toUTF8
  if limit < bytes.size then
    throw (.write
      ("Content too large: " ++ toString bytes.size ++ " bytes (max " ++ toString limit ++ ")")
      path .tooLarge)
  return bytes

/-- A file that was written. -/
structure Written where
  path : String
  size : Nat
  checksum : String
  deriving DecidableEq, Repr

namespace Written

/-- The members of the record of a written file. -/
def members (written : Written) : Members :=
  [("file_path", .str written.path), ("bytes_written", .nat written.size),
    ("checksum", .str written.checksum)]

end Written

/-- The failure to write a destination, for a failure of the operating system. -/
def writeFailure (path : FilePath) : Failure → Failure
  | .system error =>
    if error.cause.isPermission then
      .write ("Permission denied writing " ++ path.text ++ ": " ++ error.message) path.text
        .permissionDenied
    else
      .write ("Failed to write file " ++ path.text ++ ": " ++ error.message) path.text .invalid
  | failure => failure

/-- Puts bytes at a destination whose directories are made first. -/
def place (target : FilePath) (bytes : ByteArray) (now : Moment) : DiskM Unit := do
  Disk.makeDirectories target.parent
  Disk.replaceFile target ("." ++ target.name ++ ".") bytes now

/-- Where artifacts go, and how large they may be. -/
structure Writer where
  directory : FilePath
  limit : Int
  deriving DecidableEq, Repr

namespace Writer

/-- The limit used where none is given. -/
def standardLimit : Int := 10485760

/-- The directory of the feature specifications. -/
def specifications (writer : Writer) : FilePath := writer.directory.child "specifications"

/-- The directory of the plans. -/
def plans (writer : Writer) : FilePath := writer.directory.child "plans"

/-- The path of the specification of a feature. -/
def specificationPath (writer : Writer) (id slug : String) : FilePath :=
  writer.specifications.child (id ++ "-" ++ slug ++ ".md")

/-- The path of the plan for a feature. -/
def planPath (writer : Writer) (id slug : String) : FilePath :=
  writer.plans.child (id ++ "-" ++ slug ++ "-impl-plan.md")

/-- Writes an artifact. -/
def write (writer : Writer) (path content : String) (now : Moment) : DiskM Written := do
  let target ← (checkedPath path : DiskM FilePath)
  let bytes ← (checkedContent content target.text writer.limit : DiskM ByteArray)
  try place target bytes now
  catch failure => throw (writeFailure target failure)
  return ⟨target.text, bytes.size, Digest.hexText bytes⟩

/-- Writes a constitution under a name in the directory of the artifacts. -/
def writeConstitution (writer : Writer) (content name : String) (now : Moment) :
    DiskM Written :=
  writer.write (writer.directory.child name).text content now

/-- Writes the specification of a feature. -/
def writeSpecification (writer : Writer) (id slug content : String) (now : Moment) :
    DiskM Written :=
  writer.write (writer.specificationPath id slug).text content now

/-- Writes the plan for a feature. -/
def writePlan (writer : Writer) (id slug content : String) (now : Moment) : DiskM Written :=
  writer.write (writer.planPath id slug).text content now

end Writer
end SpecDraft.Output
