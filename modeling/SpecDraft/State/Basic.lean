import SpecDraft.File.Path
import SpecDraft.Route
import SpecDraft.State.Step
import SpecDraft.Time

/-!
# Workflow states

How far a project has come. A state is written as one JSON object; what other tools have put
into the object is kept. The fields hold whatever was written there: what a valid state looks
like is said separately.
-/
set_option autoImplicit false

namespace SpecDraft

/-- What a state says about its project. -/
structure StateMetadata where
  projectName : Json
  projectPath : Json
  routeDescription : Json
  extra : Members

namespace StateMetadata

/-- The keys of the fields. -/
def keys : List String := ["projectName", "projectPath", "routeDescription"]

/-- The metadata that members describe. -/
def ofMembers (members : Members) : StateMetadata where
  projectName := (members.get? "projectName").getD (.str "")
  projectPath := (members.get? "projectPath").getD (.str "")
  routeDescription := (members.get? "routeDescription").getD .null
  extra := members.without keys

/-- The members that describe the metadata: foreign ones first, and no description of the route
where there is none. -/
def members (metadata : StateMetadata) : Members :=
  let named := Members.put (Members.put metadata.extra "projectName" metadata.projectName)
    "projectPath" metadata.projectPath
  if metadata.routeDescription.isNull then named
  else named.put "routeDescription" metadata.routeDescription

end StateMetadata

/-- How far a project has come: the route, the step to be done next, the steps that are done, and
what is known about each step. -/
structure State where
  version : Json
  created : Json
  updated : Json
  route : Json
  currentStep : Json
  completed : List Json
  metadata : StateMetadata
  details : List (String × Members)
  extra : Members

namespace State

/-- The version of the format. -/
def formatVersion : String := "1.0.0"

/-- The keys of the fields. -/
def keys : List String :=
  ["version", "created", "updated", "route", "currentStep", "completedSteps", "metadata",
    "stepDetails"]

/-- The state of a project that has just been started. -/
def fresh (now : Moment) (project : FilePath) (route : Json) : State where
  version := .str formatVersion
  created := .str now.stamp
  updated := .str now.stamp
  route := route
  currentStep := .str Step.analyze.id
  completed := []
  metadata := {
    projectName := .str project.name
    projectPath := .str project.text
    routeDescription := Route.describe route
    extra := [] }
  details :=
    [(Step.analyze.id, [("started", .str now.stamp), ("status", .str "in_progress")])]
  extra := []

/-- The state of a project that is started now, provided that the route can be looked up. -/
def start (now : Moment) (project : FilePath) (route : Json) : Outcome State := do
  Route.checkNamed route
  return fresh now project route

/-- The members that describe what is known about the steps. -/
def detailMembers (details : List (String × Members)) : Members :=
  details.map fun (step, record) => (step, .obj record)

/-- The members for the fields of a state. -/
def ownMembers (state : State) : Members :=
  [("version", state.version), ("created", state.created), ("updated", state.updated),
    ("route", state.route), ("currentStep", state.currentStep),
    ("completedSteps", .arr state.completed), ("metadata", .obj state.metadata.members),
    ("stepDetails", .obj (detailMembers state.details))]

/-- The members that describe a state. A foreign member with the key of a field takes its place.
-/
def members (state : State) : Members := state.ownMembers.merge state.extra

/-- The state as a value. -/
def toJson (state : State) : Json := .obj state.members

/-- The metadata that a value describes. -/
def metadataOf (value : Json) : Outcome StateMetadata :=
  return .ofMembers (← value.membersFor "get")

/-- What a value says about the steps. -/
def detailsOfJson (value : Json) : Outcome (List (String × Members)) := do
  (← value.membersFor "items").mapM fun (step, record) => return (step, ← record.toMembers)

/-- The state that members describe. Version and times must be there. -/
def ofMembers (members : Members) : Outcome State := do
  return {
    version := ← members.require "version"
    created := ← members.require "created"
    updated := ← members.require "updated"
    route := (members.get? "route").getD .null
    currentStep := (members.get? "currentStep").getD .null
    completed := ← ((members.get? "completedSteps").getD (.arr [])).elements
    metadata := ← metadataOf ((members.get? "metadata").getD (.obj []))
    details := ← detailsOfJson ((members.get? "stepDetails").getD (.obj []))
    extra := members.without keys }

/-- Whether a step is done. -/
def isCompleted (state : State) (step : Step) : Bool :=
  state.completed.any (·.text? == some step.id)

/-- The share of the steps that are done, in percent, rounded down. -/
def progress (state : State) : Nat := state.completed.length * 100 / Step.all.length

/-- The state as changed at a moment. -/
def stamped (state : State) (now : Moment) : State := { state with updated := .str now.stamp }

/-- The state with another route. -/
def withRoute (state : State) (route : Json) : State :=
  { state with
    route := route
    metadata := { state.metadata with routeDescription := Route.describe route } }

/-- What is known about a step. -/
def detailsOf (state : State) (step : Step) : Members := (state.details.lookup step.id).getD []

/-- The state with a step done and the step after it to be done next. What the caller says about
the step replaces what is noted here. -/
def complete (state : State) (step : Step) (said : Members) (now : Moment) : State :=
  let noted : Members := [("completed", .str now.stamp), ("status", .str "completed")]
  { state with
    completed :=
      if state.isCompleted step then state.completed else state.completed ++ [.str step.id]
    currentStep := .ofText? (step.next?.map (·.id))
    details := Assoc.put state.details step.id (((state.detailsOf step).merge noted).merge said) }

end State
end SpecDraft
