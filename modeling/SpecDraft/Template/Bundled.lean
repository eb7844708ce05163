import SpecDraft.File.Disk
import SpecDraft.Template.Render

/-!
# Bundled templates

The four templates that come with the library: two constitutions, the specification of a feature
and the plan for one. They are kept in a directory of their own, and a name is followed from
there as a path.
-/
set_option autoImplicit false

namespace SpecDraft

/-- A template that is not there. -/
def Failure.templateNotFound (name : String) : Failure :=
  .template ("Template not found: " ++ name) (some name) []

/-- The failure of a named template; a name that is known already stays. -/
def Failure.inTemplate (name : String) : Failure → Failure
  | .template summary known missing => .template summary (some (known.getD name)) missing
  | failure => failure

namespace Template

/-- The bundled templates. -/
inductive Bundled where
  | agnosticConstitution
  | prescriptiveConstitution
  | featureSpec
  | implPlan
  deriving DecidableEq, Repr

namespace Bundled

/-- A loop that lists the items of a name. -/
def listed (name : String) : List String :=
  [braced ("#each " ++ name), "- " ++ braced "this", braced "/each"]

/-- Purpose and values of a constitution. -/
def principles : List String :=
  ["## Purpose", "", braced "purpose", "", "## Core Values", ""] ++ listed "values" ++ [""]

/-- Standards, metrics and governance of a constitution. -/
def practice : List String :=
  ["## Development Standards", "", braced "#each development_standards",
    "### " ++ braced "category" ++ " (" ++ braced "level" ++ ")", "", braced "description", "",
    braced "/each", "## Quality Metrics", "", "| Metric | Target | Measurement |",
    "|--------|--------|-------------|", braced "#each quality_metrics",
    "| " ++ braced "name" ++ " | " ++ braced "target" ++ " | " ++ braced "measurement" ++ " |",
    braced "/each", "", "## Governance", "", "- **Decision making:** " ++ braced "decision_making",
    "- **Change approval:** " ++ braced "change_approval",
    "- **Conflict resolution:** " ++ braced "conflict_resolution"]

/-- The technical stack of a constitution. -/
def stack : List String :=
  [braced "#if has_technical_stack", "## Technical Stack", "",
    "- **Languages:** " ++ braced "languages", "- **Frameworks:** " ++ braced "frameworks",
    "- **Databases:** " ++ braced "databases", "- **Infrastructure:** " ++ braced "infrastructure",
    "- **Build tools:** " ++ braced "build_tools", "", braced "else", "## Technical Stack", "",
    "The technical stack has not been documented yet.", "", braced "/if"]

/-- A list with a replacement text for when it is empty. -/
def listedOr (flag : String) (lines : List String) (replacement : String) : List String :=
  braced ("#if " ++ flag) :: (lines ++ [braced "else", replacement, braced "/if"])

/-- The technical requirements of one kind. -/
def requirements (title name : String) : List String :=
  [braced ("#if has_" ++ name), "### " ++ title, ""] ++ listed name ++ ["", braced "/if"]

/-- The lines of a bundled template. -/
def lines : Bundled → List String
  | agnosticConstitution =>
    ["# Project Constitution", "",
      "> Route: greenfield. Principles are technology-agnostic; the implementation stack is " ++
        "chosen during planning.", ""] ++ principles ++ practice
  | prescriptiveConstitution =>
    ["# Project Constitution", "",
      "> Route: brownfield. Principles describe the existing application and its current " ++
        "technical stack.", ""] ++ principles ++ stack ++ practice
  | featureSpec =>
    ["# Feature Specification: " ++ braced "feature_name", "",
      "**Feature ID:** " ++ braced "feature_id", "**Status:** " ++ braced "status", "",
      "## Description", "", braced "description", "", "## User Stories", ""] ++
    listedOr "has_user_stories"
      [braced "#each user_stories",
        "- As a " ++ braced "role" ++ ", I want " ++ braced "goal" ++ ", so that " ++
          braced "benefit" ++ ".",
        braced "/each"]
      "No user stories documented." ++
    ["", "## Acceptance Criteria", ""] ++
    listedOr "has_acceptance_criteria"
      [braced "#each acceptance_criteria",
        "- [" ++ braced "#if checked" ++ "x" ++ braced "else" ++ " " ++ braced "/if" ++ "] " ++
          braced "description",
        braced "/each"]
      "No acceptance criteria documented." ++
    ["", "## Dependencies", ""] ++
    listedOr "has_dependencies" (listed "dependencies") "None." ++
    [braced "#if has_technical_requirements", "", "## Technical Requirements", ""] ++
    requirements "Endpoints" "endpoints" ++ requirements "Data Models" "data_models" ++
    requirements "Components" "components" ++
    requirements "Technical Dependencies" "technical_dependencies" ++
    requirements "Files" "files" ++ [braced "/if"]
  | implPlan =>
    ["# Implementation Plan: " ++ braced "feature_name", "",
      "**Feature ID:** " ++ braced "feature_id",
      "**Estimated Effort:** " ++ braced "estimated_effort", "", "## Current State", "",
      braced "current_state", "", "## Target State", "", braced "target_state", "",
      "## Technical Approach", "", "- " ++ braced "technical_approach", "", "## Tasks", "",
      braced "#each tasks", "### " ++ braced "id" ++ ": " ++ braced "description", "",
      "- **Category:** " ++ braced "category",
      "- **Estimated Hours:** " ++ braced "estimated_hours",
      "- **Depends On:** " ++ braced "depends_on", "", braced "/each", "## Risks", "",
      braced "#each risks",
      "- **" ++ braced "description" ++ "** (probability: " ++ braced "probability" ++
        ", impact: " ++ braced "impact" ++ ")",
      "  - Mitigation: " ++ braced "mitigation", braced "/each", "", "## Dependencies", ""] ++
    listedOr "has_dependencies" (listed "dependencies") "None."

/-- The text of a bundled template. -/
def text (template : Bundled) : String := Text.join "" (template.lines.map (· ++ "\n"))

/-- The name of a bundled template. -/
def name : Bundled → String
  | agnosticConstitution => "constitution-agnostic-template"
  | prescriptiveConstitution => "constitution-prescriptive-template"
  | featureSpec => "feature-spec-template"
  | implPlan => "impl-plan-template"

/-- Every bundled template. -/
def all : List Bundled := [agnosticConstitution, prescriptiveConstitution, featureSpec, implPlan]

/-- The directory of the bundled templates. -/
def directory : FilePath := FilePath.parse "/usr/lib/stackshift/templates"

/-- The file of a template with a name. -/
def fileOf (name : String) : FilePath := directory.child (name ++ ".md")

/-- The disk that the bundled templates are kept on. It has no directory but theirs and those
above it. -/
def disk : Disk :=
  { Disk.empty with
    root := directory.parts.foldr (fun name below => .directory [(name, below)])
      (.directory []) }

/-- The bundled template of a name. -/
def ofName? (name : String) : Option Bundled :=
  match disk.locate (fileOf name) with
  | .ok place => all.find? fun template => (fileOf template.name).parts == place
  | .error _ => none

end Bundled

/-- The text of the bundled template of a name. -/
def load (name : String) : Outcome String :=
  if Disk.holdsNull (Bundled.fileOf name) then .error Disk.nullInPath
  else
    match Bundled.ofName? name with
    | some template => .ok template.text
    | none => .error (.templateNotFound name)

/-- The text of a template, rendered; failures name the template. -/
def renderNamed (options : Options) (name text : String) (data : Members) : Outcome String :=
  (populate options text data).mapError (.inTemplate name)

/-- The bundled template of a name rendered against data. -/
def render (options : Options) (name : String) (data : Members) : Outcome String := do
  renderNamed options name (← load name) data

end Template
end SpecDraft
