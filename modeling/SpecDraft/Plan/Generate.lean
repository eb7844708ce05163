import SpecDraft.Plan.Basic
import SpecDraft.Plan.CurrentState
import SpecDraft.Plan.Effort

/-!
# Making plans

A plan has one task to design the feature, one for each user story, one to test and one to
document. Every task depends on earlier ones only.
-/
set_option autoImplicit false

namespace SpecDraft.Plan

open FieldValue (display ofText)

variable {α : Type} [FieldValue α]

/-- What is there when a feature is finished: its description, stories and criteria. -/
def targetStateOf (feature : Feature α) : String :=
  let stories :=
    if feature.stories.isEmpty then []
    else "\nUser Stories:" :: feature.stories.map fun story => "- " ++ display story.raw
  let criteria :=
    if feature.criteria.isEmpty then []
    else "\nAcceptance Criteria:" ::
      feature.criteria.map fun criterion => "- " ++ display criterion.description
  Text.join "\n" (display feature.description :: (stories ++ criteria))

omit [FieldValue α] in
/-- The steps that technical requirements call for. -/
def requiredSteps (r : Requirements α) : List String :=
  (if r.endpoints.isEmpty then [] else ["Implement required API endpoints"]) ++
  (if r.components.isEmpty then [] else ["Build UI components"]) ++
  (if r.dataModels.isEmpty then [] else ["Create database models and migrations"]) ++
  (if r.dependencies.isEmpty then [] else ["Integrate required dependencies"]) ++
  (if r.files.isEmpty then [] else ["Update affected files"])

/-- The steps for a feature without technical requirements. -/
def usualSteps : List String :=
  ["Implement feature according to acceptance criteria", "Add comprehensive tests",
    "Update documentation"]

omit [FieldValue α] in
/-- How a feature is approached. -/
def approachOf (feature : Feature α) : String :=
  match (feature.requirements.map requiredSteps).getD [] with
  | [] => Text.join "\n- " usualSteps
  | steps => Text.join "\n- " steps

/-- The identifier of the task at a place. -/
def taskId (place : Nat) : String := "T" ++ toString place

/-- The task that comes first. -/
def designTask (name : α) : PlanTask α :=
  ⟨ofText (taskId 1), ofText ("Design " ++ display name ++ " architecture"), .whole 2,
    ofText "backend", []⟩

/-- The task for a story. -/
def storyTask (story : UserStory α) (place : Nat) : PlanTask α :=
  ⟨ofText (taskId place), ofText ("Implement: " ++ display story.goal), .whole 4,
    ofText "backend", [ofText (taskId 1)]⟩

/-- The task to test what the given tasks build. -/
def testTask (name : α) (place : Nat) (built : List (PlanTask α)) : PlanTask α :=
  ⟨ofText (taskId place), ofText ("Write tests for " ++ display name), .whole 3,
    ofText "testing", built.map (·.id)⟩

/-- The task to document a feature, after the given tasks. -/
def documentTask (name : α) (place : Nat) (done : List (PlanTask α)) : PlanTask α :=
  ⟨ofText (taskId place), ofText ("Update documentation for " ++ display name), .whole 1,
    ofText "documentation", done.map (·.id)⟩

/-- The tasks for a feature. -/
def tasksOf (feature : Feature α) : List (PlanTask α) :=
  let stories := (feature.stories.zipIdx 2).map fun (story, place) => storyTask story place
  let count := feature.stories.length
  let design := designTask feature.name
  let test := testTask feature.name (count + 2) stories
  let tested := design :: (stories ++ [test])
  tested ++ [documentTask feature.name (count + 3) tested]

/-- The hours of the tasks for a feature with some number of stories. -/
def hoursFor (stories : Nat) : Nat := 2 + 4 * stories + 3 + 1

/-- The risk of every plan. -/
def complexityRisk : Risk α :=
  ⟨ofText "Implementation may be more complex than estimated", ofText "medium", ofText "medium",
    ofText "Break down tasks further if complexity increases"⟩

/-- The risk of a plan for a feature that depends on others. -/
def dependencyRisk : Risk α :=
  ⟨ofText "Dependent features may not be complete", ofText "medium", ofText "high",
    ofText "Verify dependency completion before starting"⟩

/-- The risks of a plan for a feature. -/
def risksOf (feature : Feature α) : List (Risk α) :=
  complexityRisk :: if feature.dependencies.isEmpty then [] else [dependencyRisk]

/-- The plan for a feature. -/
def ofFeature (feature : Feature α) (debt : Option Document) : Plan α :=
  { featureId := feature.id
    featureName := feature.name
    currentState := ofText (currentStateOf feature debt)
    targetState := ofText (targetStateOf feature)
    approach := ofText (approachOf feature)
    tasks := tasksOf feature
    risks := risksOf feature
    effort := ofText (Effort.ofHours (hoursFor feature.stories.length))
    dependencies := feature.dependencies }

/-- The plans for the features that are not complete, in order, each under its feature's
identifier. A later feature with the same identifier replaces an earlier one's plan in place. -/
def ofFeatures (features : List Feature) (debt : Option Document) : List (String × Plan) :=
  features.foldl (fun plans feature =>
    if feature.status = .complete then plans
    else Assoc.put plans feature.id (ofFeature feature debt)) []

end SpecDraft.Plan
