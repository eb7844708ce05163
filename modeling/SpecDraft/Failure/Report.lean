import SpecDraft.Json.Collection

/-!
# Reports of failures

What is told of a failure: its kind, its text, and the record that describes it, where it has
one. A failure of this library has a report, and so has one that somebody wrote as a record.
-/
set_option autoImplicit false

namespace SpecDraft

/-- What is told of a failure. -/
structure FailureReport where
  kind : String
  message : String
  record : Option Members

/-- The report of a failure. -/
def Failure.report (failure : Failure) : FailureReport :=
  ⟨failure.kind, failure.message, failure.record?⟩

namespace FailureReport

/-- A report whose record has further fields. -/
def withFields (kind message : String) (fields : Members) : FailureReport :=
  ⟨kind, message, some ([("error_type", .str kind), ("message", .str message)] ++ fields)⟩

/-- The fields of the record of a failure of some kind: those that it must have, and those that
it may have. -/
def fieldsOf? : String → Option (List String × List String)
  | "ParseError" => some (["message"], ["line_number"])
  | "ExtractionError" => some (["message", "phase"], ["details"])
  | "TemplateError" => some (["message"], ["template_name", "missing_variables"])
  | "ValidationError" => some (["message"], ["errors"])
  | "FileAccessError" | "FileWriteError" => some (["message", "path", "reason"], [])
  | "ValueError" => some (["message"], [])
  | _ => none

/-- The items of a field; none where it is not filled in. -/
def itemsOrNone (value : Json) : Outcome (List Json) :=
  if value.isFilled then value.elements else .ok []

/-- A malformed document, perhaps at a known line. -/
def parse (message line : Json) : FailureReport :=
  let text :=
    if line.isNull then message.display else message.display ++ " (line " ++ line.display ++ ")"
  withFields "ParseError" text [("line_number", line)]

/-- A document that lacks what a phase must extract. -/
def extraction (message phase details : Json) : Outcome FailureReport := do
  unless (phase.text?.bind Phase.ofName?).isSome do throw (.unknownPhase phase.display)
  let details ← if details.isFilled then details.toMembers else pure []
  return withFields "ExtractionError" message.display
    [("phase", phase), ("details", .obj details)]

/-- A state that breaks its schema. Only a text can have violations listed after it. -/
def validation (message violations : Json) : Outcome FailureReport := do
  let items ← itemsOrNone violations
  unless items.isEmpty || message.text?.isSome do throw (.noText message)
  let text := Failure.listed message.display (items.map (·.display))
  return withFields "ValidationError" text [("errors", .arr items)]

/-- The report of a failure that a record describes. -/
def ofRecord (record : Members) : Outcome FailureReport := do
  let kind := (record.getOr "class" .null).display
  let some (needed, optional) := fieldsOf? kind | throw (.missingField kind)
  let fields := record.without ["class"]
  fields.checkKnown (needed ++ optional)
  unless needed.all fields.has do throw (.wrongKind "missing field")
  let get (key : String) : Json := fields.getOr key .null
  let message := get "message"
  match kind with
  | "ParseError" => return parse message (get "line_number")
  | "ExtractionError" => extraction message (get "phase") (get "details")
  | "TemplateError" =>
    let _ ← itemsOrNone (get "missing_variables")
    return withFields kind message.display []
  | "ValidationError" => validation message (get "errors")
  | "ValueError" => return ⟨kind, message.display, none⟩
  | _ =>
    return withFields kind message.display
      [("path", .str (get "path").display), ("reason", get "reason")]

end FailureReport
end SpecDraft
