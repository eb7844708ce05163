import SpecDraft.Workflow.Project

/-!
# Guidance

What the steps are, what to do first, and where a project stands.
-/
set_option autoImplicit false

namespace SpecDraft.Workflow

/-- Advice on how to begin. -/
def tips : List String :=
  ["Run stackshift_initialize first to create .stackshift-state.json",
    "Choose a route: greenfield for a tech-agnostic rebuild, brownfield to keep the current stack",
    "Write docs/reverse-engineering/functional-specification.md before generating specs",
    "Add technical-debt-analysis.md to detect PARTIAL and COMPLETE features"]

/-- The guide for any project. -/
def generalGuide : Members :=
  [("workflow_overview", .str "StackShift pipeline from reverse engineering to implementation"),
    ("steps", .arr (Step.all.map (·.toJson))), ("tips", .strs tips)]

/-- Where a project stands. -/
def standing (state : State) : Members :=
  [("current_step", state.currentStep), ("completed_steps", .arr state.completed),
    ("route", state.route)]

/-- The logger of the workflow. -/
def logger : String := Log.rootLogger ++ ".workflow"

/-- The guide for a project; a state that cannot be read is left out. -/
def Project.guide (project : Project) : Action Json := do
  unless ← project.store.isPresent do return .obj generalGuide
  match ← attempted project.store.load with
  | .ok state => return .obj (generalGuide ++ standing state)
  | .error failure =>
    unless failure.isOwn do throw failure
    Log.write Log.warning logger
      ("Workflow guide could not read state: " ++ failure.message) []
    return .obj generalGuide

end SpecDraft.Workflow
