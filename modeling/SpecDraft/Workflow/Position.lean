import SpecDraft.File.Scan
import SpecDraft.Session.Operation
import SpecDraft.Workflow.Project

/-!
# The position of a project

Starting a project, asking how far it has come, choosing its route, and noting that a step is
done.
-/
set_option autoImplicit false

namespace SpecDraft.Workflow

/-- The text of a message about a failure. -/
def failureMessage (failure : Failure) : String := "Error: " ++ failure.message

/-- The tool that starts a project. -/
def startTool : String := "stackshift_initialize"

namespace Project

/-- Starts a project, or finds it started. -/
def start (project : Project) (route : Json) : Action (State × Bool) := do
  let existed ← project.store.isPresent
  let state ← Operation.run "initialize"
    [("root", .str project.root.text), ("route", route)] (project.store.ensure route)
  Event.report "workflow_initialized"
    [("root", .str project.root.text), ("existed", .bool existed)]
  return (state, existed)

/-- The report on a project that is started. -/
def startedMembers (project : Project) (state : State) (existed : Bool) : Members :=
  let file := project.store.file.text
  [("success", .bool true), ("state_path", .str file), ("state", state.toJson),
    ("already_initialized", .bool existed),
    ("next_suggested_step", .str Step.reverseEngineer.id),
    ("workflow_tip",
      .str "Next: produce docs/reverse-engineering/functional-specification.md"),
    ("message", .str (if existed then "Existing workflow state loaded from " ++ file
      else "Workflow state created at " ++ file))]

/-- Starts a project and reports how that went. -/
def startAndReport (project : Project) (route : Json) : Effect Json :=
  Metric.measured "initialize" do
    match ← attempt (project.start route) with
    | .ok (state, existed) => return .obj (project.startedMembers state existed)
    | .error failure =>
      Event.failed failure
        [("operation", .str "initialize"), ("root", .str project.root.text)] []
      return .obj [("success", .bool false),
        ("error", .str ("Failed to initialize workflow state: " ++ failure.message)),
        ("suggestion", .str "Check that the project root exists and is writable"),
        ("next_suggested_step", .str startTool), ("message", .str (failureMessage failure))]

/-- How many artifacts there are. -/
def artifactCounts (project : Project) (disk : Disk) : Members :=
  [("specifications", .nat (Scan.countFiles disk project.writer.specifications [".md"])),
    ("plans", .nat (Scan.countFiles disk project.writer.plans ["-impl-plan.md"]))]

/-- The report on how far a project has come. -/
def stateMembers (project : Project) (state : State) (disk : Disk) : Members :=
  [("success", .bool true), ("state_path", .str project.store.file.text),
    ("state", state.toJson), ("progress_percentage", .nat state.progress),
    ("artifacts", .obj (project.artifactCounts disk)),
    ("next_suggested_step", state.currentStep),
    ("message", .str (if state.currentStep.isFilled
      then "Current step: " ++ state.currentStep.display
      else "All workflow steps are complete"))]

/-- Logs a failure to read the state. A missing state is nothing to be logged. -/
def logUnread (project : Project) (failure : Failure) : Effect Unit :=
  match failure with
  | .access _ _ .notFound => pure ()
  | failure =>
    Event.failed failure [("operation", .str "get_state"), ("root", .str project.root.text)] []

/-- The report on a state that could not be read. -/
def unreadMembers (failure : Failure) : Members :=
  let common : Members :=
    [("success", .bool false), ("error", .str failure.message),
      ("message", .str (failureMessage failure))]
  match failure with
  | .access .. =>
    common ++ [("suggestion", .str "Call stackshift_initialize to create the workflow state"),
      ("next_suggested_step", .str startTool)]
  | _ =>
    common ++ [("suggestion",
      .str "Repair or remove the corrupted state file, then initialize again")]

/-- Reports how far a project has come. -/
def reportState (project : Project) : Action Json := do
  match ← attempted project.store.load with
  | .ok state => return .obj (project.stateMembers state (← get).disk)
  | .error failure =>
    unless failure.isOwn do throw failure
    project.logUnread failure
    return .obj (unreadMembers failure)

/-- The report on a route that is not known. -/
def unknownRouteMembers (route : Json) : Members :=
  let shown := route.display
  [("success", .bool false), ("error", .str ("Invalid route: " ++ shown)),
    ("suggestion", .str "Use \"greenfield\" or \"brownfield\""),
    ("message", .str ("Error: invalid route " ++ shown))]

/-- The report on a route that was chosen. -/
def routeMembers (route : Route) (state : State) : Members :=
  [("success", .bool true), ("route", state.route),
    ("route_description", state.metadata.routeDescription), ("state", state.toJson),
    ("message", .str ("Route set to " ++ route.name ++ ": " ++
      state.metadata.routeDescription.display))]

/-- Chooses the route and reports how that went. -/
def setRoute (project : Project) (name : Json) : Effect Json :=
  Metric.measured "set_route" do
    match name.text?.bind Route.ofName? with
    | none => return .obj (unknownRouteMembers name)
    | some route =>
      match ← attempt (project.store.updateRoute (.str route.name)) with
      | .ok state =>
        Event.report "route_set" [("route", .str route.name)]
        return .obj (routeMembers route state)
      | .error failure =>
        Event.failed failure [("operation", .str "set_route"), ("route", .str route.name)] []
        return .obj [("success", .bool false), ("error", .str failure.message),
          ("suggestion", .str "Call stackshift_initialize before choosing a route"),
          ("next_suggested_step", .str startTool), ("message", .str (failureMessage failure))]

/-- The report on a step that is done. -/
def stepMembers (step : String) (state : State) : Members :=
  [("success", .bool true), ("completed_step", .str step),
    ("current_step", state.currentStep), ("completed_steps", .arr state.completed),
    ("progress_percentage", .nat state.progress), ("next_suggested_step", state.currentStep),
    ("message", .str (if state.currentStep.isFilled
      then "Step " ++ step ++ " completed. Next: " ++ state.currentStep.display
      else "Step " ++ step ++ " completed. Workflow finished."))]

/-- Notes that a step is done and reports how that went. -/
def completeStep (project : Project) (name details : Json) : Effect Json :=
  Metric.measured "complete_step" do
    match ← attempt (project.store.completeStep name details) with
    | .ok state =>
      Event.stepCompleted name.display state.currentStep []
      return .obj (stepMembers name.display state)
    | .error failure =>
      Event.failed failure [("operation", .str "complete_step"), ("step_id", name)] []
      return .obj [("success", .bool false), ("error", .str failure.message),
        ("suggestion", .str ("Valid steps: " ++ Text.join ", " Step.ids)),
        ("message", .str (failureMessage failure))]

end Project
end SpecDraft.Workflow
