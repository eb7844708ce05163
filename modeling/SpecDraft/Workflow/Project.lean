import SpecDraft.File.Output
import SpecDraft.Markdown.Load
import SpecDraft.Settings
import SpecDraft.State.Store
import SpecDraft.Template.Source
import SpecDraft.Workflow.Progress

/-!
# Projects

Where a project keeps its state, its documents and its artifacts, and how a job that makes
artifacts is run in it.
-/
set_option autoImplicit false

namespace SpecDraft.Workflow

/-- A project in a directory, with the settings it is worked on with. -/
structure Project where
  root : FilePath
  settings : Settings
  homes : Homes

namespace Project

/-- The store of the state of a project. -/
def store (project : Project) : Store where
  directory := project.root
  limit := project.settings.maxStateBytes

/-- The writer of the artifacts of a project. -/
def writer (project : Project) : Output.Writer :=
  ⟨project.root.child ".specify/memory", Output.Writer.standardLimit⟩

/-- The document with a name in a project. -/
def document (project : Project) (name : String) : FilePath :=
  project.root.child ("docs/reverse-engineering/" ++ name)

/-- The functional specification of a project. -/
def functionalSpecification (project : Project) : FilePath :=
  project.document "functional-specification.md"

/-- The analysis of the technical debt of a project. -/
def debtAnalysis (project : Project) : FilePath := project.document "technical-debt-analysis.md"

/-- The templates of a project. -/
def templates (project : Project) : Template.Source :=
  (project.settings.templateDirectory.map Template.Source.directory).getD .bundled

/-- How the templates of a project are rendered: lines that hold only a block tag leave
nothing. -/
def templateOptions (project : Project) : Template.Options :=
  ⟨project.settings.templateMaxDepth, project.settings.templateMaxOutput, true⟩

/-- A bundled template, or the project's own one of its name, rendered against data. -/
def render (project : Project) (template : Template.Bundled) (data : Members) : Action String :=
  project.templates.render project.templateOptions template.name data

/-- A functional specification that is not there. -/
def specificationMissing (path : FilePath) : Failure :=
  .access ("Functional specification not found at " ++ path.text ++
    ". Run reverse-engineer first.") path.text .notFound

/-- Loads the functional specification. -/
def loadSpecification (project : Project) : Action Document := do
  let path := project.functionalSpecification
  unless ← askDisk (·.pathExists path) do throw (specificationMissing path)
  Document.load path project.settings.maxReadBytes

/-- Loads the analysis of the technical debt, if there is one. -/
def loadDebt (project : Project) : Action (Option Document) :=
  Document.loadOptional project.debtAnalysis project.settings.maxReadBytes

/-- A route that is missing or not known. -/
def routeRequired : Failure :=
  .argument ("Route must be \"greenfield\" or \"brownfield\". " ++
    "Initialize the workflow with a route or pass the route parameter.")

/-- The route for a job: the given one, else that of the state, if there is one. -/
def wantedRoute (project : Project) (given : Json) : Action Json := do
  if given.isNull then
    if ← project.store.isPresent then return (← project.store.load).route
  return given

/-- The route for a job, provided that it is known. -/
def chooseRoute (project : Project) (given : Json) : Job Route := do
  let wanted ← (project.wantedRoute given : Job Json)
  match wanted.text?.bind Route.ofName? with
  | some route =>
    Job.settle (.str route.name)
    return route
  | none => throw routeRequired

/-- Runs a job as an operation of a project. A failure is logged and noted. -/
def perform {α : Type} (project : Project) (operation : String) (route : Json)
    (job : Job α) : Effect (Ended α) := do
  let (outcome, trace) ← (job.run.run ⟨[], route⟩ : Effect (Except Failure α × Trace))
  match outcome with
  | .ok result => return ⟨.ok result, trace.progress⟩
  | .error failure =>
    Event.failed failure
      [("operation", .str operation), ("root", .str project.root.text), ("route", trace.route)]
      []
    return ⟨.error failure, trace.progress ++ [.ofFailure failure]⟩

end Project

/-- The artifacts that are generated, in the order in which that happens. -/
inductive Stage where
  | constitution
  | specifications
  | plans
  deriving DecidableEq, Repr

namespace Stage

/-- The name under which results report a stage. -/
def name : Stage → String
  | constitution => "constitution"
  | specifications => "feature_specs"
  | plans => "impl_plans"

/-- The operation that performs a stage. -/
def operation (stage : Stage) : String := "create_" ++ stage.name

/-- The words that name a stage in a message. -/
def words : Stage → String
  | constitution => "constitution"
  | specifications => "feature specs"
  | plans => "impl plans"

/-- The words at the start of a message. -/
def title : Stage → String
  | constitution => "Constitution"
  | specifications => "Feature specs"
  | plans => "Impl plans"

end Stage

/-- The report of a stage that failed. -/
def failureMembers (stage : Stage) (failure : Failure) (notes : Json) : Members :=
  [("success", .bool false), ("error", .str failure.message), ("error_type", .str failure.kind),
    ("progress", notes),
    ("message", .str ("❌ Failed to create " ++ stage.words ++ ": " ++ failure.message))]

end SpecDraft.Workflow
