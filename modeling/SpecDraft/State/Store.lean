import SpecDraft.File.Replace
import SpecDraft.Session.Basic
import SpecDraft.State.Validation

/-!
# State stores

A project keeps its state in one file. Every change reads the file, checks it, applies the
change, checks the result, and replaces the file at once; when anything fails, the file is as it
was.
-/
set_option autoImplicit false

namespace SpecDraft

/-- The store of the state of the project in a directory. A file of more than `limit` bytes is
not read; a value beyond the limits on values is neither read nor written. -/
structure Store where
  directory : FilePath
  limit : Int
  limits : Json.Limits := .standard
  deriving DecidableEq, Repr

namespace Store

/-- The name of the file. -/
def fileName : String := ".stackshift-state.json"

/-- The path of the file. -/
def file (store : Store) : FilePath := store.directory.child fileName

/-- The logger of stores. -/
def logger : String := Log.rootLogger ++ ".state"

/-- A file that is not there. -/
def missing (store : Store) : Failure :=
  .access "State file does not exist. Run analyze first." store.file.text .notFound

/-- A file that does not hold a valid state. -/
def malformed (violations : List String) : Failure :=
  .validation "Invalid state file structure" violations

/-- The failure to read a state, for a failure to read the file. -/
def loadFailure : Failure → Failure
  | .access summary path reason =>
    if reason = .invalid then malformed [Failure.message (.access summary path reason)]
    else .access summary path reason
  | failure => failure

/-- Whether there is a file. -/
def isPresent (store : Store) : Action Bool := askDisk (·.isFile store.file)

/-- The state of the project. -/
def load (store : Store) : Action State := do
  unless ← store.isPresent do throw store.missing
  let value ← askDisk fun disk => 
    (disk.readJson store.file store.limit store.limits).mapError loadFailure
  match State.violations value with
  | [] => (State.ofMembers (value.members?.getD []) : Action State)
  | violations =>
    Log.write Log.warning logger
      ("Rejected state file " ++ store.file.text ++ ": " ++ toString violations.length ++
        " validation error(s)") []
    throw (malformed violations)

/-- Replaces the file by a text, and makes the directory if it is missing. -/
def writeText (store : Store) (text : String) (now : Moment) : DiskM Unit := do
  Disk.makeDirectories store.directory
  Disk.replaceFile store.file (fileName ++ ".") text.toUTF8 now

/-- Replaces the file by the text of a state. -/
def save (store : Store) (state : State) : Action Unit := do
  if let some excess := state.toJson.excess? store.limits 0 then throw (.unwritable excess)
  let now := (← get).now
  onDisk (store.writeText state.toJson.pretty now)

/-- A route that is not known. -/
def unknownRoute (route : Json) : Failure :=
  .validation "Invalid route" ["Invalid route: " ++ route.display]

/-- Makes the file for a project, or reads the one that is there. -/
def ensure (store : Store) (route : Json) : Action State := do
  if ← store.isPresent then return ← store.load
  unless Route.isKnown route do throw (unknownRoute route)
  let state := State.fresh (← get).now store.directory route
  store.save state
  Log.write Log.info logger ("Initialized workflow state at " ++ store.file.text) []
  return state

/-- Changes the state. The time of the change is noted in it. -/
def update (store : Store) (change : State → Outcome State) : Action State := do
  let changed ← (change (← store.load) : Action State)
  let state := changed.stamped (← get).now
  match State.violations state.toJson with
  | [] =>
    store.save state
    return state
  | violations => throw (.validation "Updated state is invalid" violations)

/-- Changes the route. -/
def updateRoute (store : Store) (route : Json) : Action State :=
  store.update fun state => do
    Route.checkNamed route
    return state.withRoute route

/-- A step that is not known. -/
def unknownStep (name : Json) : Failure :=
  .validation "Invalid step" ["Unknown step: " ++ name.display]

/-- What a caller says about a step; nothing where the value is empty. -/
def saidOf (said : Json) : Outcome Members := if said.isFilled then said.toMembers else .ok []

/-- Notes that a step is done. -/
def completeStep (store : Store) (name said : Json) : Action State := do
  let some step := name.text?.bind Step.ofId? | throw (unknownStep name)
  let now := (← get).now
  let state ← store.update fun state => return state.complete step (← saidOf said) now
  Log.write Log.info logger
    ("Completed step " ++ step.id ++ "; next step is " ++ state.currentStep.display) []
  return state

end Store
end SpecDraft
