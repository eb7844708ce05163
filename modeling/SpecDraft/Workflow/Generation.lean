import SpecDraft.Workflow.ConstitutionStage
import SpecDraft.Workflow.PlanStage

/-!
# Generating everything

Constitution, specifications and plans are made in this order. The first stage that fails is the
last one that is tried. After all of them the step that creates specifications is done.
-/
set_option autoImplicit false

namespace SpecDraft.Workflow

/-- How the stages that were tried ended. -/
structure Stages where
  constitution : Ended ConstitutionReport
  specifications : Option (Ended SpecificationReport)
  plans : Option (Ended PlanReport)

/-- The reports of all three stages. -/
structure Finished where
  constitution : ConstitutionReport
  specifications : SpecificationReport
  plans : PlanReport

namespace Stages

/-- The reports, if every stage succeeded. -/
def finished? (stages : Stages) : Option Finished :=
  match stages with
  | ⟨⟨.ok constitution, _⟩, some ⟨.ok specifications, _⟩, some ⟨.ok plans, _⟩⟩ =>
    some ⟨constitution, specifications, plans⟩
  | _ => none

/-- The failure of a stage that was tried. -/
def failureOf {α : Type} (stage : Stage) (ended : Option (Ended α)) : Option (Stage × Failure) :=
  match ended with
  | some ⟨.error failure, _⟩ => some (stage, failure)
  | _ => none

/-- The first stage that failed, and its failure. -/
def failed? (stages : Stages) : Option (Stage × Failure) :=
  failureOf .constitution (some stages.constitution) <|>
    failureOf .specifications stages.specifications <|> failureOf .plans stages.plans

/-- The notes of one stage. -/
def notesOf {α : Type} (ended : Option (Ended α)) : List Progress :=
  (ended.map (·.progress)).getD []

/-- The notes of all stages. -/
def notes (stages : Stages) : Json :=
  .arr ((stages.constitution.progress ++ notesOf stages.specifications ++
    notesOf stages.plans).map (·.toJson))

/-- The reports of the stages that were tried, by the names of the stages. -/
def members (stages : Stages) : Members :=
  [(Stage.constitution.name, .obj stages.constitution.constitutionMembers)] ++
  (stages.specifications.map fun ended =>
    (Stage.specifications.name, Json.obj ended.specificationMembers)).toList ++
  (stages.plans.map fun ended => (Stage.plans.name, Json.obj ended.planMembers)).toList

end Stages

namespace Finished

/-- What is noted about the step that creates specifications. -/
def details (finished : Finished) : Members :=
  [("specs_generated", .nat finished.specifications.entries.length),
    ("plans_generated", .nat finished.plans.entries.length)]

/-- The reports in short. -/
def summary (finished : Finished) : Members :=
  [("constitution", .obj [("path", .str finished.constitution.written.path),
      ("values_count", .nat finished.constitution.constitution.values.length)]),
    ("feature_specs", .obj (("total", .nat finished.specifications.entries.length) ::
      finished.specifications.stats)),
    ("impl_plans", .obj [("total", .nat finished.plans.entries.length)])]

/-- The message that everything was made. -/
def message (finished : Finished) (duration : String) : String :=
  "✅ Successfully generated all specifications in " ++ duration ++ "\n\nConstitution: " ++
    finished.constitution.written.path ++ "\nFeature Specs: " ++
    toString finished.specifications.entries.length ++ " generated\nImplementation Plans: " ++
    toString finished.plans.entries.length ++ " generated"

end Finished

/-- What came of generating everything. -/
inductive Generation where
  /-- A stage failed. -/
  | stopped (stages : Stages) (stage : Stage) (failure : Failure)
  /-- Every stage succeeded; `noted` says whether the step could be noted as done. -/
  | finished (stages : Stages) (reports : Finished) (noted : Bool)

namespace Generation

/-- The report as members. -/
def members (duration : String) : Generation → Members
  | stopped stages stage failure =>
    [("success", .bool false), ("duration", .str duration),
      ("error", .str (stage.title ++ " generation failed: " ++ failure.message)),
      ("partial_results", .obj stages.members), ("progress", stages.notes),
      ("message", .str ("❌ Spec generation failed after " ++ duration ++ ": " ++
        failure.message ++ "\n\nPartial results available in 'partial_results' field."))]
  | finished stages reports noted =>
    [("success", .bool true), ("route", .str reports.constitution.route.name),
      ("duration", .str duration), ("summary", .obj reports.summary),
      ("details", .obj stages.members), ("progress", stages.notes),
      ("step_completed", .bool noted), ("next_suggested_step", .str "gap-analysis"),
      ("message", .str (reports.message duration))]

end Generation

namespace Project

/-- Performs the stages up to the first one that fails. -/
def runStages (project : Project) (route : Json) : Effect Stages := do
  let constitution ← project.createConstitution route .null
  if !constitution.succeeded then return ⟨constitution, none, none⟩
  let specifications ← project.createSpecifications route
  if !specifications.succeeded then return ⟨constitution, some specifications, none⟩
  return ⟨constitution, some specifications, some (← project.createPlans route)⟩

/-- Notes that the step that creates specifications is done, if there is a state that can hold
the note. -/
def noteGeneration (project : Project) (reports : Finished) : Action Bool := do
  unless ← project.store.isPresent do return false
  match ← attempted (
    project.store.completeStep (.str Step.createSpecs.id) (.obj reports.details)) with
  | .ok state =>
    Event.stepCompleted Step.createSpecs.id state.currentStep []
    return true
  | .error failure =>
    unless failure.isOwn do throw failure
    Event.failed failure
      [("operation", .str "generate_all_specs"), ("step_id", .str Step.createSpecs.id)] []
    return false

/-- Makes everything. -/
def generate (project : Project) (route : Json) : Action Generation := do
  let stages ← project.runStages route
  match stages.failed?, stages.finished? with
  | some (stage, failure), _ => return .stopped stages stage failure
  | none, some reports => return .finished stages reports (← project.noteGeneration reports)
  | none, none => return .stopped stages .constitution routeRequired

/-- Makes everything and reports how that went. -/
def generateAll (project : Project) (route : Json) : Action Json :=
  Metric.timed "generate_all_specs" do
    let generation ← project.generate route
    return .obj (generation.members ((← get).elapsed.fixed 2 .plain ++ "s"))

end Project
end SpecDraft.Workflow
