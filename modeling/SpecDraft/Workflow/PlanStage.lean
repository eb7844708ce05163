import SpecDraft.Plan.Generate
import SpecDraft.Workflow.SpecificationStage

/-!
# Generating plans

Every feature that is not complete gets a plan. A plan that cannot be written is noted, and the
others are written all the same.
-/
set_option autoImplicit false

namespace SpecDraft.Workflow

/-- A plan that was written. -/
structure PlanEntry where
  plan : Plan
  path : String

namespace PlanEntry

/-- The entry as a record. -/
def toJson (entry : PlanEntry) : Json :=
  .obj [("feature", .str entry.plan.featureName), ("feature_id", .str entry.plan.featureId),
    ("path", .str entry.path), ("estimated_effort", .str entry.plan.effort)]

end PlanEntry

/-- The plans that were written for a project. -/
structure PlanReport where
  route : Route
  directory : FilePath
  entries : List PlanEntry

namespace PlanReport

/-- The report as members. -/
def members (report : PlanReport) (notes : Json) : Members :=
  [("success", .bool true), ("route", .str report.route.name),
    ("plans_generated", .nat report.entries.length),
    ("output_dir", .str report.directory.text),
    ("plans", .arr (report.entries.map (·.toJson))), ("progress", notes),
    ("next_suggested_step", .str "gap-analysis"),
    ("message", .str ("✅ Generated " ++ toString report.entries.length ++
      " implementation plans in " ++ report.directory.text))]

end PlanReport

/-- Makes plans for features and announces them. -/
def generatePlans (features : List Feature) (debt : Option Document) :
    Action (List (String × Plan)) :=
  Metric.timed "generate_plans" do
    let plans := Plan.ofFeatures features debt
    Event.plansGenerated (.nat plans.length) [("feature_count", .nat features.length)]
    return plans

/-- The slug of the feature with an identifier. -/
def slugFor (features : List Feature) (id : String) : String :=
  ((features.find? (·.id == id)).map (·.slug)).getD ""

namespace Project

/-- Writes the plan for a feature. -/
def writePlan (project : Project) (slug : String) (plan : Plan) : Action Output.Written := do
  let data ← (plan.templateData : Action Members)
  let content ← project.render .implPlan data
  onDisk (project.writer.writePlan plan.featureId slug content (← get).now)

/-- Writes a plan, if that is possible. -/
def plan (project : Project) (features : List Feature) (plan : Plan) :
    Job (Option PlanEntry) := do
  match ← liftM (attempt (project.writePlan (slugFor features plan.featureId) plan)) with
  | .ok written =>
    announce "impl_plan" plan.featureId written
    return some ⟨plan, written.path⟩
  | .error failure =>
    skip .plans plan.featureId "writing" ("Failed to write plan for " ++ plan.featureName)
      failure
    return none

/-- Writes plans, as far as that is possible. -/
def planAll (project : Project) (features : List Feature) :
    List (String × Plan) → Job (List PlanEntry)
  | [] => return []
  | (_, plan) :: rest => do
    let entry ← project.plan features plan
    return entry.toList ++ (← project.planAll features rest)

/-- Makes the plans for a route. -/
def makePlans (project : Project) (route : Route) : Job PlanReport := do
  let document ← (project.loadSpecification : Job Document)
  let debt ← (project.loadDebt : Job (Option Document))
  let features ← (extractFeatures document debt : Job (List Feature))
  noteFeatures features
  let plans ← (generatePlans features debt : Job (List (String × Plan)))
  Job.completed "generation"
    ("Generated " ++ toString plans.length ++ " implementation plans") []
  let entries ← project.planAll features plans
  let directory := project.writer.plans
  Job.completed "writing" ("Wrote " ++ toString entries.length ++ " implementation plans")
    [("output_dir", .str directory.text), ("count", .nat entries.length)]
  return ⟨route, directory, entries⟩

/-- Makes the plans. -/
def createPlans (project : Project) (route : Json) : Effect (Ended PlanReport) :=
  Metric.measured Stage.plans.operation <|
    project.perform Stage.plans.operation route do
      let route ← project.chooseRoute route
      Operation.run Stage.plans.operation [("route", .str route.name)] (project.makePlans route)

end Project

/-- The report of how making the plans ended. -/
def Ended.planMembers (ended : Ended PlanReport) : Members :=
  match ended.outcome with
  | .ok report => report.members ended.notes
  | .error failure => failureMembers .plans failure ended.notes

end SpecDraft.Workflow
