import SpecDraft.File.Disk
import SpecDraft.Json.Reader
import SpecDraft.Text.Basic

/-!
# Reading files

Files are read whole, up to a size limit, as UTF-8, and every line break is read as a line feed.
-/
set_option autoImplicit false

namespace SpecDraft.Disk

/-- A file that is larger than the limit. -/
def fileTooLarge (path : FilePath) (size : Nat) (limit : Int) : Failure :=
  .access ("File too large: " ++ toString size ++ " bytes (max " ++ toString limit ++ ")")
    path.text .tooLarge

/-- A file that is not there. -/
def fileNotFound (path : FilePath) : Failure :=
  .access ("File not found: " ++ path.text) path.text .notFound

/-- A file that may not be read. -/
def fileNotReadable (path : FilePath) : Failure :=
  .access ("Permission denied: " ++ path.text) path.text .permissionDenied

/-- A file that is not UTF-8. -/
def fileNotText (path : FilePath) (content : ByteArray) : Failure :=
  .access
    ("File is not valid UTF-8: " ++ path.text ++ " (" ++
      ((Utf8.fault? content).map (·.message)).getD "" ++ ")")
    path.text .invalid

/-- A file that is not JSON. -/
def fileNotJson (path : FilePath) : Failure :=
  .access (path.text ++ " is not valid JSON: malformed text") path.text .invalid

/-- The failure to read a JSON file whose text is refused. -/
def refusalFailure (path : FilePath) : Json.Refusal → Failure
  | .malformed => fileNotJson path
  | .longInteger limit digits => .longInteger limit digits
  | .deepNesting container => .deepNesting container

/-- A JSON file with keys that are not accepted. -/
def fileWithKeys (path : FilePath) (keys : List String) : Failure :=
  .access ("JSON contains dangerous properties (" ++ Text.join ", " keys ++ ")") path.text
    .invalid

/-- The failure to read a file, for a failure of the operating system. -/
def readFailure (path : FilePath) : Failure → Failure
  | .system error =>
    if error.cause = .notFound then fileNotFound path
    else if error.cause.isPermission then fileNotReadable path
    else .system error
  | failure => failure

/-- The text of bytes in UTF-8, with every line break as a line feed. -/
def decodeText? (content : ByteArray) : Option String :=
  (String.fromUTF8? content).map fun s => String.ofList (Text.unifyNewlines s.toList)

/-- The text of a file of at most `limit` bytes. -/
def readText (disk : Disk) (path : FilePath) (limit : Int) : Outcome String := do
  let entry ← (disk.status path).mapError (readFailure path)
  if limit < entry.size then throw (fileTooLarge path entry.size limit)
  match entry with
  | .directory _ => throw (systemFailure path .isADirectory)
  | .file content _ =>
    match decodeText? content with
    | some text => return text
    | none => throw (fileNotText path content)

/-- The keys that no JSON file may have at its top. -/
def forbiddenKeys : List String := ["__proto__", "constructor", "prototype"]

/-- The forbidden keys that an object has. -/
def forbiddenIn (members : Members) : List String := forbiddenKeys.filter members.has

/-- The value of a JSON file of at most `limit` bytes. -/
def readJson (disk : Disk) (path : FilePath) (limit : Int) (limits : Json.Limits) :
    Outcome Json := do
  let text ← disk.readText path limit
  let value ← (Json.read limits text).mapError (refusalFailure path)
  match forbiddenIn (value.members?.getD []) with
  | [] => return value
  | keys => throw (fileWithKeys path keys)

/-- The moment of the last change of a file. -/
def modifiedAt (disk : Disk) (path : FilePath) : Outcome Moment :=
  return match ← disk.status path with
    | .file _ modified => modified
    | .directory _ => ⟨0⟩

end SpecDraft.Disk
