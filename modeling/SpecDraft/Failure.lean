import SpecDraft.Json.Display
import SpecDraft.Json.Extent
import SpecDraft.Text.Utf8

/-!
# Failures

Everything that can stop an operation, with the text that reports it and the fields that
describe it to a caller.
-/
set_option autoImplicit false

namespace SpecDraft

/-- The extraction a failure belongs to. -/
inductive Phase where
  | constitution
  | features
  | plans
  deriving DecidableEq, Repr

namespace Phase

/-- The name of a phase. -/
def name : Phase → String
  | constitution => "constitution"
  | features => "features"
  | plans => "plans"

/-- The phase of a name. -/
def ofName? (name : String) : Option Phase :=
  [constitution, features, plans].find? (·.name == name)

end Phase

/-- Why a file cannot be used. -/
inductive AccessReason where
  | notFound
  | permissionDenied
  | tooLarge
  | invalid
  | other (name : String)
  deriving DecidableEq, Repr

namespace AccessReason

/-- The name of a reason. -/
def name : AccessReason → String
  | notFound => "not_found"
  | permissionDenied => "permission_denied"
  | tooLarge => "too_large"
  | invalid => "invalid"
  | other name => name

/-- The reason of a name. -/
def ofName (name : String) : AccessReason :=
  ([notFound, permissionDenied, tooLarge, invalid].find? (·.name == name)).getD (.other name)

end AccessReason

/-- What the operating system can object to. -/
inductive SystemCause where
  | notPermitted
  | notFound
  | ioError
  | accessDenied
  | alreadyExists
  | notADirectory
  | isADirectory
  | noSpace
  | readOnly
  | nameTooLong
  deriving DecidableEq, Repr

namespace SystemCause

/-- The number of a cause. -/
def number : SystemCause → Nat
  | notPermitted => 1
  | notFound => 2
  | ioError => 5
  | accessDenied => 13
  | alreadyExists => 17
  | notADirectory => 20
  | isADirectory => 21
  | noSpace => 28
  | readOnly => 30
  | nameTooLong => 36

/-- The description of a cause. -/
def description : SystemCause → String
  | notPermitted => "Operation not permitted"
  | notFound => "No such file or directory"
  | ioError => "Input/output error"
  | accessDenied => "Permission denied"
  | alreadyExists => "File exists"
  | notADirectory => "Not a directory"
  | isADirectory => "Is a directory"
  | noSpace => "No space left on device"
  | readOnly => "Read-only file system"
  | nameTooLong => "File name too long"

/-- The name under which results report a cause. -/
def kind : SystemCause → String
  | notPermitted | accessDenied => "PermissionError"
  | notFound => "FileNotFoundError"
  | alreadyExists => "FileExistsError"
  | notADirectory => "NotADirectoryError"
  | isADirectory => "IsADirectoryError"
  | ioError | noSpace | readOnly | nameTooLong => "OSError"

/-- Whether the cause is a lack of permission. -/
def isPermission : SystemCause → Bool
  | notPermitted | accessDenied => true
  | _ => false

end SystemCause

/-- An operating system error at a path. -/
structure SystemError where
  cause : SystemCause
  path : String
  deriving DecidableEq, Repr

namespace SystemError

/-- The text of an operating system error. -/
def message (e : SystemError) : String :=
  "[Errno " ++ toString e.cause.number ++ "] " ++ e.cause.description ++ ": " ++
    Json.Display.quoted e.path

end SystemError

/-- What stopped an operation. -/
inductive Failure where
  /-- A document is malformed, perhaps at a known line. -/
  | parse (summary : String) (line : Option Int)
  /-- A document lacks what a phase must extract. -/
  | extraction (summary : String) (phase : Phase) (details : Members)
  /-- A template is missing or malformed, or its rendering is refused. -/
  | template (summary : String) (name : Option String) (missing : List String)
  /-- A workflow state breaks its schema. -/
  | validation (summary : String) (violations : List String)
  /-- A file cannot be read. -/
  | access (summary path : String) (reason : AccessReason)
  /-- An artifact cannot be written. -/
  | write (summary path : String) (reason : AccessReason)
  /-- The operating system refused a step. -/
  | system (error : SystemError)
  /-- An argument is outside its domain. -/
  | argument (summary : String)
  /-- A text holds an integer of more digits than are read. -/
  | longInteger (limit digits : Nat)
  /-- A text holds values that are nested more deeply than is read. -/
  | deepNesting (container : Json.Container)
  /-- A value is beyond the limits within which values are written. -/
  | unwritable (excess : Json.Excess)
  /-- A value is not of the kind that a computation takes. -/
  | wrongKind (summary : String)
  /-- A value does not have what a computation looks for in it. -/
  | lacking (summary : String)
  /-- A record lacks a required field. -/
  | missingField (key : String)
  /-- A number does not fit the range that a computation needs. -/
  | overflow (summary : String)
  /-- Bytes are not a text. -/
  | undecodable (fault : Utf8.Fault)
  /-- A path starts at the home directory of nobody. -/
  | unknownHome

namespace Failure

/-- The name under which results report a failure. -/
def kind : Failure → String
  | parse .. => "ParseError"
  | extraction .. => "ExtractionError"
  | template .. => "TemplateError"
  | validation .. => "ValidationError"
  | access .. => "FileAccessError"
  | write .. => "FileWriteError"
  | system e => e.cause.kind
  | argument .. | longInteger .. => "ValueError"
  | deepNesting .. => "RecursionError"
  | unwritable (.longInteger _) => "ValueError"
  | unwritable .deepNesting => "RecursionError"
  | wrongKind .. => "TypeError"
  | lacking .. => "AttributeError"
  | missingField .. => "KeyError"
  | overflow .. => "OverflowError"
  | undecodable .. => "UnicodeDecodeError"
  | unknownHome => "RuntimeError"

/-- An extraction that is not one of the known phases. -/
def unknownPhase (name : String) : Failure := .argument ("Unknown extraction phase: " ++ name)

/-- A summary with its violations, one per line. -/
def listed (summary : String) (violations : List String) : String :=
  if violations.isEmpty then summary
  else summary ++ ":\n" ++ String.intercalate "\n" (violations.map ("- " ++ ·))

/-- The text of a failure. -/
def message : Failure → String
  | parse summary none => summary
  | parse summary (some line) => summary ++ " (line " ++ toString line ++ ")"
  | extraction summary .. => summary
  | template summary .. => summary
  | validation summary violations => listed summary violations
  | access summary .. => summary
  | write summary .. => summary
  | system e => e.message
  | argument summary => summary
  | longInteger limit digits =>
    "Exceeds the limit (" ++ toString limit ++ " digits) for integer string conversion: value has "
      ++ toString digits ++ " digits; use sys.set_int_max_str_digits() to increase the limit"
  | deepNesting container =>
    "maximum recursion depth exceeded while decoding a JSON " ++ container.name ++
      " from a unicode string"
  | unwritable (.longInteger limit) =>
    "Exceeds the limit (" ++ toString limit ++ " digits) for integer string conversion; " ++
      "use sys.set_int_max_str_digits() to increase the limit"
  | unwritable .deepNesting => "maximum recursion depth exceeded"
  | wrongKind summary => summary
  | lacking summary => summary
  | missingField key => Json.Display.quoted key
  | overflow summary => summary
  | undecodable fault => fault.message
  | unknownHome => "Could not determine home directory."

/-- Whether the failure is one of this library's own, as opposed to a refused argument or a
refusal of the operating system. -/
def isOwn : Failure → Bool
  | parse .. | extraction .. | template .. | validation .. | access .. | write .. => true
  | _ => false

/-- The record that describes one of this library's own failures. -/
def record? (failure : Failure) : Option Members :=
  let common : Members := [("error_type", .str failure.kind), ("message", .str failure.message)]
  match failure with
  | parse _ line => some (common ++ [("line_number", line.elim .null .int)])
  | extraction _ phase details =>
    some (common ++ [("phase", .str phase.name), ("details", .obj details)])
  | template .. => some common
  | validation _ violations => some (common ++ [("errors", Json.strs violations)])
  | access _ path reason | write _ path reason =>
    some (common ++ [("path", .str path), ("reason", .str reason.name)])
  | _ => none

end Failure

/-- The result of an operation that may fail. -/
abbrev Outcome (α : Type) := Except Failure α

namespace Members

/-- The value of a field that a record must have. -/
def require (members : Members) (key : String) : Outcome Json :=
  match members.get? key with
  | some value => .ok value
  | none => .error (.missingField key)

end Members

end SpecDraft
