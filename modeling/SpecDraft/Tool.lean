import SpecDraft.Workflow.Command

/-!
# Tools

A tool answers a command for the project that it is called for. The project is the one that the
caller names, else the one that the environment names, else the nearest one at or above the
current directory.
-/
set_option autoImplicit false

namespace SpecDraft.Tool

open Workflow

/-- Where a tool is called: the current directory and the environment. -/
structure Surroundings where
  directory : FilePath
  environment : Environment

/-- A directory and those above it, the nearest first. -/
def ancestors (path : FilePath) : List FilePath :=
  (List.range (path.parts.length + 1)).map fun n =>
    { path with parts := path.parts.take (path.parts.length - n) }

/-- Whether a directory holds the state of a project. -/
def holdsState (disk : Disk) (directory : FilePath) : Outcome Bool :=
  disk.pathExists (directory.child Store.fileName)

/-- The first of some directories that holds the state of a project. -/
def firstWithState (disk : Disk) : List FilePath → Outcome (Option FilePath)
  | [] => .ok none
  | directory :: rest => do
    if ← holdsState disk directory then return some directory
    firstWithState disk rest

/-- A root that the caller names, but that is not a directory. -/
def givenRootMissing (given : String) : Failure :=
  .argument ("Provided root '" ++ given ++ "' does not exist.")

/-- A root that the environment names, but that is not a directory. -/
def namedRootMissing (root : FilePath) : Failure :=
  .argument ("Environment variable " ++ Settings.projectRootVariable ++ " points to '" ++
    root.text ++ "', which does not exist.")

/-- No root was named and none was found. -/
def rootUnknown : Failure :=
  .argument ("Unable to determine project root automatically. " ++
    "Provide the 'root' argument when calling the tool " ++
    "or set the " ++ Settings.projectRootVariable ++ " environment variable.")

/-- A path from the root of the disk, provided that it names a directory. -/
def existingRoot (disk : Disk) (surroundings : Surroundings) (path : FilePath)
    (failure : Failure) : Outcome FilePath := do
  let root := FilePath.resolve surroundings.directory path
  if ← disk.isDirectory root then return root else throw failure

/-- The root of the project that a tool is called for. With `orHere` a directory without a
project will do. -/
def rootFor (disk : Disk) (surroundings : Surroundings) (settings : Settings)
    (given : Json) (orHere : Bool) : Outcome FilePath := do
  if given.isFilled then
    let some name := given.text? | throw (.noPath given)
    let path ← (FilePath.parse name).expandHome surroundings.environment.homes
    existingRoot disk surroundings path (givenRootMissing name)
  else
    match settings.projectRoot with
    | some path => existingRoot disk surroundings path (namedRootMissing path)
    | none =>
      match ← firstWithState disk (ancestors surroundings.directory) with
      | some root => return root
      | none => if orHere then return surroundings.directory else throw rootUnknown

/-- The project that a tool is called for. -/
def projectFor (surroundings : Surroundings) (given : Json) (orHere : Bool) :
    Action Project := do
  let settings ← (Settings.ofEnvironment surroundings.environment : Action Settings)
  let root ← askDisk fun disk => rootFor disk surroundings settings given orHere
  return {
    root
    homes := surroundings.environment.homes
    settings := { settings with
      templateDirectory := settings.templateDirectory.map surroundings.directory.append } }

/-- Whether a command needs no project to be there. -/
def startsAnywhere : Command → Bool
  | .start _ | .guide => true
  | _ => false

/-- The arguments that a tool can be given, and those of them that it needs. -/
def parameters : (tool : String) → List String × List String
  | "initialize" | "create_feature_specs" | "create_impl_plans" | "generate_all_specs" =>
    (["route", "root"], [])
  | "set_route" => (["route", "root"], ["route"])
  | "complete_step" => (["step_id", "details", "root"], ["step_id"])
  | "create_constitution" => (["route", "output_path", "root"], [])
  | _ => (["root"], [])

/-- Refuses arguments that a tool does not take, and the lack of those that it needs. -/
def checkArguments (tool : String) (arguments : Members) : Outcome Unit := do
  let (known, needed) := parameters tool
  arguments.checkKnown known
  unless needed.all arguments.has do throw (.wrongKind "missing argument")

/-- Answers a command. -/
def call (surroundings : Surroundings) (given : Json) (command : Command) :
    Action Json := do
  (← projectFor surroundings given (startsAnywhere command)).answer command

/-- The lines that describe a state. -/
def stateLines (state : State) : List String :=
  let or (value : Json) (replacement : String) :=
    if value.isFilled then value.display else replacement
  let head :=
    ["StackShift Workflow State", "",
      "Project: " ++ state.metadata.projectName.display,
      "Route: " ++ or state.route "not set",
      "Current step: " ++ or state.currentStep "done",
      "Progress: " ++ toString state.progress ++ "%"]
  if state.completed.isEmpty then head
  else head ++ ["", "Completed steps:"] ++ state.completed.map fun step => "- " ++ step.display

/-- The text for when no project is found. -/
def noProject : String :=
  "No project root detected. Launch tools with a 'root' argument or set " ++
    Settings.projectRootVariable ++ "."

/-- The text on the state of a project. -/
def stateTextOf (project : Project) : Action String := do
  match ← attempted project.store.load with
  | .ok state => return Text.join "\n" (stateLines state)
  | .error failure =>
    unless failure.isOwn do throw failure
    liftM (project.logUnread failure)
    return failureMessage failure

/-- The text on the state of the project that a tool is called for. -/
def stateText (surroundings : Surroundings) : Action String := do
  match ← attempted (projectFor surroundings .null false) with
  | .ok project => stateTextOf project
  | .error (.argument _) => return noProject
  | .error failure => throw failure

end SpecDraft.Tool
