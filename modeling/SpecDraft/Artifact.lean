import SpecDraft.Constitution.Basic
import SpecDraft.Feature.Basic
import SpecDraft.Plan.Basic
import SpecDraft.Template.Bundled

/-!
# Artifacts

The documents made for a project, as data for the bundled templates.
-/
set_option autoImplicit false

namespace SpecDraft

/-- The template of the constitution for a route. -/
def Route.constitutionTemplate : Route → Template.Bundled
  | .greenfield => .agnosticConstitution
  | .brownfield => .prescriptiveConstitution

open FieldValue (list)

variable {α : Type} [FieldValue α]

/-- A list and a flag that tells whether it has items. -/
def listWithFlag (name : String) (items : List α) : Members :=
  [(name, list items), ("has_" ++ name, .bool (!items.isEmpty))]

namespace Constitution

/-- The data of a constitution. -/
def templateData (c : Constitution α) : Members :=
  [("purpose", FieldValue.toJson c.purpose), ("values", list c.values),
    ("development_standards", .arr (c.standards.map fun standard =>
      .obj [("category", FieldValue.toJson standard.category),
        ("description", FieldValue.toJson standard.description),
        ("level", FieldValue.toJson standard.level)])),
    ("quality_metrics", .arr (c.metrics.map fun metric =>
      .obj [("name", FieldValue.toJson metric.name), ("target", FieldValue.toJson metric.target),
        ("measurement", FieldValue.toJson metric.measurement)]))] ++
  c.governance.members ++
  [("route", FieldValue.toJson c.route),
    ("has_technical_stack", .bool (c.keepsStack && c.stack.isSome))] ++
  (c.stack.map TechnicalStack.members).getD []

end Constitution

namespace Requirements

/-- The data of the technical requirements of a feature. -/
def templateData (r : Requirements α) : Members :=
  listWithFlag "endpoints" r.endpoints ++ listWithFlag "data_models" r.dataModels ++
    listWithFlag "components" r.components ++
    listWithFlag "technical_dependencies" r.dependencies ++ listWithFlag "files" r.files

end Requirements

namespace Feature

omit [FieldValue α] in
/-- The technical requirements that the specification of a feature shows: those of a project
that keeps its stack, if there are any. -/
def shownRequirements (feature : Feature α) (route : String) : Option (Requirements α) :=
  if route = Route.brownfield.name then feature.requirements.filter (!·.isEmpty) else none

/-- The data of a feature. -/
def templateData (feature : Feature α) (route : String) : Members :=
  let shown := feature.shownRequirements route
  [("feature_name", FieldValue.toJson feature.name), ("feature_id", FieldValue.toJson feature.id),
    ("description", FieldValue.toJson feature.description),
    ("status", .str feature.status.text),
    ("user_stories", .arr (feature.stories.map fun story =>
      .obj [("role", FieldValue.toJson story.role), ("goal", FieldValue.toJson story.goal),
        ("benefit", FieldValue.toJson story.benefit)])),
    ("has_user_stories", .bool (!feature.stories.isEmpty)),
    ("acceptance_criteria", .arr (feature.criteria.map fun criterion =>
      .obj [("description", FieldValue.toJson criterion.description),
        ("checked", .bool criterion.checked)])),
    ("has_acceptance_criteria", .bool (!feature.criteria.isEmpty))] ++
  listWithFlag "dependencies" feature.dependencies ++
  [("has_technical_requirements", .bool shown.isSome)] ++
  (shown.map Requirements.templateData).getD []

end Feature

namespace PlanTask

/-- The data of a task. -/
def templateData (task : PlanTask α) : Json :=
  .obj [("id", FieldValue.toJson task.id), ("description", FieldValue.toJson task.description),
    ("category", FieldValue.toJson task.category), ("estimated_hours", task.hours.toJson),
    ("depends_on", .str (if task.dependencies.isEmpty then "None"
      else Text.join ", " (task.dependencies.map FieldValue.display)))]

end PlanTask

namespace Plan

/-- The data of a plan. -/
def templateData (plan : Plan α) : Outcome Members := do
  let hours ← plan.totalHours
  return [("feature_name", FieldValue.toJson plan.featureName),
    ("feature_id", FieldValue.toJson plan.featureId),
    ("current_state", FieldValue.toJson plan.currentState),
    ("target_state", FieldValue.toJson plan.targetState),
    ("technical_approach", FieldValue.toJson plan.approach),
    ("tasks", .arr (plan.tasks.map PlanTask.templateData)),
    ("risks", .arr (plan.risks.map Risk.toJson)),
    ("estimated_effort", FieldValue.toJson plan.effort)] ++
    listWithFlag "dependencies" plan.dependencies ++ [("total_hours", hours.toJson)]

end Plan
end SpecDraft
