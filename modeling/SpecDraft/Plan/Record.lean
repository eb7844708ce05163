import SpecDraft.Json.Collection
import SpecDraft.Plan.Basic

/-!
# Plans from records

A plan that somebody wrote as a record. Its lists, its effort and the dependencies of its tasks
may be missing; everything else must be there.
-/
set_option autoImplicit false

namespace SpecDraft

namespace PlanTask

/-- Hours as a record states them. -/
def hoursOf (value : Json) : Outcome Quantity :=
  match Quantity.ofJson? value with
  | some hours => .ok hours
  | none => .error (.wrongKind ("no number: a value of kind " ++ value.kindName))

/-- The name of a task that comes first, which must be a text. -/
def checkDependency (value : Json) : Outcome Json :=
  match value with
  | .str name => .ok (.str name)
  | value => .error (.noText value)

/-- The task that a record describes. -/
def ofRecord (value : Json) : Outcome (PlanTask Json) := do
  let record ← value.record
  let id ← record.require "id"
  id.checkKey
  return { id
           description := ← record.require "description"
           hours := ← hoursOf (← record.require "estimated_hours")
           category := ← record.require "category"
           dependencies := ← (← record.itemsOf "dependencies").mapM checkDependency }

end PlanTask

namespace Risk

/-- The risk that a record describes. -/
def ofRecord (value : Json) : Outcome (Risk Json) := do
  let record ← value.record
  return { description := ← record.require "description"
           probability := ← record.require "probability", impact := ← record.require "impact"
           mitigation := ← record.require "mitigation" }

end Risk

namespace Plan

/-- The plan that a record describes. -/
def ofRecord (value : Json) : Outcome (Plan Json) := do
  let record ← value.record
  return {
    featureId := ← record.require "feature_id"
    featureName := ← record.require "feature_name"
    currentState := ← record.require "current_state"
    targetState := ← record.require "target_state"
    approach := ← record.require "technical_approach"
    tasks := ← (← record.itemsOf "tasks").mapM PlanTask.ofRecord
    risks := ← (← record.itemsOf "risks").mapM Risk.ofRecord
    effort := record.getOr "estimated_effort" (.str "")
    dependencies := ← record.itemsOf "dependencies" }

end Plan
end SpecDraft
