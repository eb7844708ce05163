import SpecDraft.File.Access
import SpecDraft.State.Basic

/-!
# Valid states

What is wrong with a value as the description of a state. A valid state names only known routes
and steps, lists each step once, and describes its project and its steps by objects.
-/
set_option autoImplicit false

namespace SpecDraft.State

/-- Whether a value is a text that is not empty. -/
def isName : Json → Bool
  | .str s => s != ""
  | _ => false

/-- One violation, if a condition fails. -/
def expect (holds : Bool) (violation : String) : List String := if holds then [] else [violation]

/-- Whether a value is missing, null or one of the listed texts. -/
def isNoneOr (texts : List String) : Option Json → Bool
  | none | some .null => true
  | some value => value.isOneOf texts

/-- The violation by keys that no state may have. -/
def keyViolations (members : Members) : List String :=
  match Disk.forbiddenIn members with
  | [] => []
  | keys => ["State contains dangerous properties (" ++ Text.join ", " keys ++ ")"]

/-- Whether a member is a text that is not empty. -/
def names (members : Members) (key : String) : Bool := ((members.get? key).map isName).getD false

/-- A completed step that is not known. -/
def unknownCompleted (step : Json) : String := "Invalid step in completedSteps: " ++ step.display

/-- The violations in a list of completed steps, after steps that were seen before. -/
def completedViolations : (seen : List String) → List Json → List String
  | _, [] => []
  | seen, .str name :: rest =>
    if !Step.ids.contains name then
      unknownCompleted (.str name) :: completedViolations seen rest
    else if seen.contains name then
      ("Duplicate step in completedSteps: " ++ name) :: completedViolations seen rest
    else completedViolations (name :: seen) rest
  | seen, step :: rest => unknownCompleted step :: completedViolations seen rest

/-- The violations in the metadata. -/
def metadataViolations (metadata : Members) : List String :=
  expect (names metadata "projectName") "Missing or invalid metadata.projectName" ++
  expect (names metadata "projectPath") "Missing or invalid metadata.projectPath" ++
  match metadata.get? "routeDescription" with
  | none | some .null | some (.str _) => []
  | some _ => ["Invalid metadata.routeDescription"]

/-- The violations in what is known about the steps. -/
def detailViolations (details : Members) : List String :=
  details.flatMap fun (step, record) =>
    if !Step.ids.contains step then ["Invalid step in stepDetails: " ++ step]
    else expect record.members?.isSome ("stepDetails." ++ step ++ " must be an object")

/-- The violations in the members of an object. -/
def memberViolations (members : Members) : List String :=
  keyViolations members ++
  expect (names members "version") "Missing or invalid version" ++
  expect (names members "created") "Missing or invalid created timestamp" ++
  expect (names members "updated") "Missing or invalid updated timestamp" ++
  expect (isNoneOr Route.names (members.get? "route"))
    ("Invalid route: " ++ ((members.get? "route").getD .null).display ++
      ". Must be null, \"greenfield\", or \"brownfield\"") ++
  expect (isNoneOr Step.ids (members.get? "currentStep"))
    ("Invalid currentStep: " ++ ((members.get? "currentStep").getD .null).display) ++
  (match members.get? "completedSteps" with
    | some (.arr steps) => completedViolations [] steps
    | _ => ["completedSteps must be an array"]) ++
  (match members.get? "metadata" with
    | some (.obj metadata) => metadataViolations metadata
    | _ => ["Missing or invalid metadata"]) ++
  (match members.get? "stepDetails" with
    | some (.obj details) => detailViolations details
    | _ => ["Missing or invalid stepDetails"])

/-- Everything that is wrong with a value as the description of a state, in the order of the
fields. -/
def violations : Json → List String
  | .obj members => memberViolations members
  | _ => ["State must be a JSON object"]

end SpecDraft.State
