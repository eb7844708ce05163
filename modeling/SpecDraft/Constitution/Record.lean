import SpecDraft.Constitution.Basic
import SpecDraft.Json.Collection

/-!
# Constitutions from records

A constitution that somebody wrote as a record. The rules of governance and the stack may be
missing, and so may the level of a standard and the current value of a metric; everything else
must be there.
-/
set_option autoImplicit false

namespace SpecDraft

namespace TechnicalStack

/-- The kinds of technologies, as records name them. -/
def keys : List String :=
  ["languages", "frameworks", "databases", "infrastructure", "build_tools"]

/-- The stack that a record describes. -/
def ofRecord (value : Json) : Outcome (TechnicalStack Json) := do
  let record ← value.record
  record.checkKnown keys
  return { languages := ← record.itemsOf "languages", frameworks := ← record.itemsOf "frameworks"
           databases := ← record.itemsOf "databases"
           infrastructure := ← record.itemsOf "infrastructure"
           buildTools := ← record.itemsOf "build_tools" }

end TechnicalStack

namespace Standard

/-- The standard that a record describes; by default it is required. -/
def ofRecord (value : Json) : Outcome (Standard Json) := do
  let record ← value.record
  return { category := ← record.require "category"
           description := ← record.require "description"
           level := record.getOr "enforcement_level" (.str "required") }

end Standard

namespace QualityMetric

/-- The metric that a record describes. -/
def ofRecord (value : Json) : Outcome (QualityMetric Json) := do
  let record ← value.record
  return { name := ← record.require "name", target := ← record.require "target"
           measurement := ← record.require "measurement"
           current := (record.get? "current").filter (!·.isNull) }

end QualityMetric

namespace Governance

/-- The rules, as records name them. -/
def keys : List String := ["decision_making", "change_approval", "conflict_resolution"]

/-- The rules that a record describes; the usual ones hold where it is silent. -/
def ofRecord (value : Json) : Outcome (Governance Json) := do
  if value.isNull then return standard
  let record ← value.record
  record.checkKnown keys
  let usual : Governance Json := standard
  return { decisionMaking := record.getOr "decision_making" usual.decisionMaking
           changeApproval := record.getOr "change_approval" usual.changeApproval
           conflictResolution := record.getOr "conflict_resolution" usual.conflictResolution }

end Governance

namespace Constitution

/-- A purpose, which must have a length. -/
def checkPurpose (value : Json) : Outcome Json :=
  if value.elements?.isSome then .ok value
  else .error (.wrongKind ("no length of a value of kind " ++ value.kindName))

/-- The constitution that a record describes. -/
def ofRecord (value : Json) : Outcome (Constitution Json) := do
  let record ← value.record
  let stack := record.getOr "technical_stack" .null
  return {
    purpose := ← checkPurpose (← record.require "purpose")
    values := ← (← record.require "values").elements
    standards := ←
      (← (← record.require "development_standards").elements).mapM Standard.ofRecord
    metrics := ← (← (← record.require "quality_metrics").elements).mapM QualityMetric.ofRecord
    governance := ← Governance.ofRecord (record.getOr "governance" .null)
    route := ← record.require "route"
    stack := ← if stack.isNull then pure none else some <$> TechnicalStack.ofRecord stack }

end Constitution
end SpecDraft
