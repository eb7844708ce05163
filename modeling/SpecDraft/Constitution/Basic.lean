import SpecDraft.Json.FieldValue
import SpecDraft.Route

/-!
# Constitutions

The principles of a project: its purpose, its values, the standards and metrics that it works by,
how it is governed, and the stack that it keeps. Bounds on each are stated once, here, and the
issues of a constitution are the bounds that it breaks. The fields hold texts, unless another type
of values is given.
-/
set_option autoImplicit false

namespace SpecDraft

/-- The technologies of a project, by kind. -/
structure TechnicalStack (α : Type := String) where
  languages : List α
  frameworks : List α
  databases : List α
  infrastructure : List α
  buildTools : List α
  deriving DecidableEq, Repr

/-- A standard of development, and how far it binds. -/
structure Standard (α : Type := String) where
  category : α
  description : α
  level : α
  deriving DecidableEq, Repr

/-- A quality that is measured, with the value to reach. -/
structure QualityMetric (α : Type := String) where
  name : α
  target : α
  measurement : α
  current : Option α
  deriving DecidableEq, Repr

/-- How decisions are made, changes approved and conflicts settled. -/
structure Governance (α : Type := String) where
  decisionMaking : α
  changeApproval : α
  conflictResolution : α
  deriving DecidableEq, Repr

/-- The principles of a project. -/
structure Constitution (α : Type := String) where
  purpose : α
  values : List α
  standards : List (Standard α)
  metrics : List (QualityMetric α)
  governance : Governance α
  route : α
  stack : Option (TechnicalStack α)
  deriving DecidableEq, Repr

open FieldValue (display isFilled isOneOf size list)

variable {α : Type} [FieldValue α]

namespace TechnicalStack

omit [FieldValue α] in
/-- Whether there is no technology of any kind. -/
def isEmpty (stack : TechnicalStack α) : Bool :=
  stack.languages.isEmpty && stack.frameworks.isEmpty && stack.databases.isEmpty &&
    stack.infrastructure.isEmpty && stack.buildTools.isEmpty

/-- The members of the record of a stack. -/
def members (stack : TechnicalStack α) : Members :=
  [("languages", list stack.languages), ("frameworks", list stack.frameworks),
    ("databases", list stack.databases), ("infrastructure", list stack.infrastructure),
    ("build_tools", list stack.buildTools)]

end TechnicalStack

namespace Standard

/-- The categories of standards. -/
def categories : List String := ["code-quality", "testing", "security", "documentation"]

/-- How far standards can bind. -/
def levels : List String := ["required", "recommended", "optional"]

/-- The standard as a record. -/
def toJson (standard : Standard α) : Json :=
  .obj [("category", FieldValue.toJson standard.category),
    ("description", FieldValue.toJson standard.description),
    ("enforcement_level", FieldValue.toJson standard.level)]

/-- What is wrong with a standard. -/
def issues (standard : Standard α) : List String :=
  (if isOneOf standard.category categories then []
    else ["Unknown standard category: " ++ display standard.category]) ++
  (if isOneOf standard.level levels then []
    else ["Unknown enforcement level: " ++ display standard.level]) ++
  (if isFilled standard.description then [] else ["Standard description is required"])

end Standard

namespace QualityMetric

/-- The metric as a record. -/
def toJson (metric : QualityMetric α) : Json :=
  .obj [("name", FieldValue.toJson metric.name), ("target", FieldValue.toJson metric.target),
    ("current", (metric.current.map FieldValue.toJson).getD .null),
    ("measurement", FieldValue.toJson metric.measurement)]

end QualityMetric

namespace Governance

/-- The rules of a project that states none. -/
def standard : Governance α where
  decisionMaking :=
    FieldValue.ofText "Decisions made collaboratively with stakeholder input"
  changeApproval := FieldValue.ofText "Changes require code review and testing"
  conflictResolution :=
    FieldValue.ofText "Conflicts resolved through discussion and consensus"

/-- The members of the record of the rules. -/
def members (rules : Governance α) : Members :=
  [("decision_making", FieldValue.toJson rules.decisionMaking),
    ("change_approval", FieldValue.toJson rules.changeApproval),
    ("conflict_resolution", FieldValue.toJson rules.conflictResolution)]

end Governance

namespace Constitution

/-- The least length of a purpose. -/
def purposeMin : Nat := 50

/-- The greatest length of a purpose. -/
def purposeMax : Nat := 500

/-- The least number of values. -/
def valuesMin : Nat := 3

/-- The greatest number of values. -/
def valuesMax : Nat := 10

/-- The least number of standards. -/
def standardsMin : Nat := 3

/-- The least number of metrics. -/
def metricsMin : Nat := 2

/-- Two bounds in a message. -/
def bounds (least greatest : Nat) : String := toString least ++ "-" ++ toString greatest

/-- Whether the length of a purpose is within its bounds. -/
def purposeFits (purpose : α) : Bool :=
  purposeMin ≤ size purpose && size purpose ≤ purposeMax

omit [FieldValue α] in
/-- Whether the number of values is within its bounds. -/
def valuesFit (values : List α) : Bool :=
  valuesMin ≤ values.length && values.length ≤ valuesMax

/-- Whether the project of a constitution keeps its stack. -/
def keepsStack (c : Constitution α) : Bool := isOneOf c.route [Route.brownfield.name]

/-- The constitution as a record. -/
def toJson (c : Constitution α) : Json :=
  .obj [("purpose", FieldValue.toJson c.purpose), ("values", list c.values),
    ("technical_stack", (c.stack.map fun stack => Json.obj stack.members).getD .null),
    ("development_standards", .arr (c.standards.map Standard.toJson)),
    ("quality_metrics", .arr (c.metrics.map QualityMetric.toJson)),
    ("governance", .obj c.governance.members), ("route", FieldValue.toJson c.route)]

/-- The bounds that a constitution breaks. -/
def issues (c : Constitution α) : List String :=
  (if purposeFits c.purpose then []
    else ["Purpose must be " ++ bounds purposeMin purposeMax ++ " characters, got " ++
      toString (size c.purpose)]) ++
  (if valuesFit c.values then []
    else ["Expected " ++ bounds valuesMin valuesMax ++ " values, got " ++
      toString c.values.length]) ++
  (if c.keepsStack && c.stack.isNone then
    ["Technical stack is required for brownfield route"] else []) ++
  (if standardsMin ≤ c.standards.length then []
    else ["Expected at least " ++ toString standardsMin ++ " development standards, got " ++
      toString c.standards.length]) ++
  (if metricsMin ≤ c.metrics.length then []
    else ["Expected at least " ++ toString metricsMin ++ " quality metrics, got " ++
      toString c.metrics.length]) ++
  c.standards.flatMap Standard.issues

end Constitution
end SpecDraft
