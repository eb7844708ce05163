import SpecDraft.Json.FieldValue
import SpecDraft.Number.Quantity

/-!
# Plans

The tasks that bring a feature to completion, the risks on the way, and what is known of the
state before and after. The fields hold texts, unless another type of values is given.
-/
set_option autoImplicit false

namespace SpecDraft

/-- A piece of work. `dependencies` names the tasks that come first. -/
structure PlanTask (α : Type := String) where
  id : α
  description : α
  hours : Quantity
  category : α
  dependencies : List α
  deriving DecidableEq, Repr

/-- What may go wrong, how likely and how bad it is, and what helps. -/
structure Risk (α : Type := String) where
  description : α
  probability : α
  impact : α
  mitigation : α
  deriving DecidableEq, Repr

/-- A plan for bringing a feature to completion. -/
structure Plan (α : Type := String) where
  featureId : α
  featureName : α
  currentState : α
  targetState : α
  approach : α
  tasks : List (PlanTask α)
  risks : List (Risk α)
  effort : α
  dependencies : List α
  deriving DecidableEq, Repr

open FieldValue (display isOneOf list)

variable {α : Type} [FieldValue α]

namespace PlanTask

/-- The categories of tasks. -/
def categories : List String := ["frontend", "backend", "database", "testing", "documentation"]

/-- The task as a record. -/
def toJson (task : PlanTask α) : Json :=
  .obj [("id", FieldValue.toJson task.id), ("description", FieldValue.toJson task.description),
    ("estimated_hours", task.hours.toJson), ("dependencies", list task.dependencies),
    ("category", FieldValue.toJson task.category)]

/-- What is wrong with a task that follows the given tasks: an unknown category, or a dependency
that is not among them. -/
def issues [BEq α] (earlier : List α) (task : PlanTask α) : List String :=
  (if isOneOf task.category categories then []
    else ["Task " ++ display task.id ++ " has unknown category: " ++ display task.category]) ++
  (task.dependencies.filter (!earlier.contains ·)).map fun dependency =>
    "Task " ++ display task.id ++ " depends on unknown or later task " ++ display dependency

end PlanTask

namespace Risk

/-- The levels of probability and impact. -/
def levels : List String := ["low", "medium", "high"]

/-- The risk as a record. -/
def toJson (risk : Risk α) : Json :=
  .obj [("description", FieldValue.toJson risk.description),
    ("probability", FieldValue.toJson risk.probability),
    ("impact", FieldValue.toJson risk.impact),
    ("mitigation", FieldValue.toJson risk.mitigation)]

/-- What is wrong with a risk. -/
def issues (risk : Risk α) : List String :=
  if isOneOf risk.probability levels && isOneOf risk.impact levels then []
  else ["Risk has invalid level: " ++ display risk.description]

end Risk

namespace Plan

omit [FieldValue α] in
/-- The hours of all tasks together. -/
def totalHours (plan : Plan α) : Outcome Quantity := Quantity.sum (plan.tasks.map (·.hours))

/-- The members of the record of a plan. -/
def members (plan : Plan α) : Members :=
  [("feature_id", FieldValue.toJson plan.featureId),
    ("feature_name", FieldValue.toJson plan.featureName),
    ("current_state", FieldValue.toJson plan.currentState),
    ("target_state", FieldValue.toJson plan.targetState),
    ("technical_approach", FieldValue.toJson plan.approach),
    ("tasks", .arr (plan.tasks.map PlanTask.toJson)),
    ("risks", .arr (plan.risks.map Risk.toJson)),
    ("estimated_effort", FieldValue.toJson plan.effort),
    ("dependencies", list plan.dependencies)]

/-- What is wrong with tasks that follow the given tasks. -/
def taskIssues [BEq α] : (earlier : List α) → List (PlanTask α) → List String
  | _, [] => []
  | earlier, task :: tasks => task.issues earlier ++ taskIssues (task.id :: earlier) tasks

/-- What is wrong with a plan. -/
def issues [BEq α] (plan : Plan α) : List String :=
  taskIssues [] plan.tasks ++ plan.risks.flatMap Risk.issues

end Plan
end SpecDraft
