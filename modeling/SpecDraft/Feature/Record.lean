import SpecDraft.Feature.Status
import SpecDraft.Plan.Generate

/-!
# Features from records

A feature that somebody wrote as a record. Its identifier, name, slug and description must be
there, and so must the parts of its stories and criteria; everything else may be missing.
-/
set_option autoImplicit false

namespace SpecDraft

namespace UserStory

/-- The story that a record describes; without a source text it has an empty one. -/
def ofRecord (value : Json) : Outcome (UserStory Json) := do
  let record ← value.record
  return { role := ← record.require "role", goal := ← record.require "goal"
           benefit := ← record.require "benefit", raw := record.getOr "raw" (.str "") }

end UserStory

namespace Criterion

/-- The criterion that a record describes; by default it is unchecked and testable. -/
def ofRecord (value : Json) : Outcome (Criterion Json) := do
  let record ← value.record
  return { description := ← record.require "description"
           checked := (record.getOr "checked" (.bool false)).isFilled
           testable := (record.getOr "testable" (.bool true)).isFilled }

end Criterion

namespace Requirements

/-- The kinds of requirements, as records name them. -/
def keys : List String := ["dependencies", "endpoints", "data_models", "components", "files"]

/-- The requirements that a record describes. -/
def ofRecord (value : Json) : Outcome (Requirements Json) := do
  let record ← value.record
  record.checkKnown keys
  return { dependencies := ← record.itemsOf "dependencies"
           endpoints := ← record.itemsOf "endpoints"
           dataModels := ← record.itemsOf "data_models"
           components := ← record.itemsOf "components", files := ← record.itemsOf "files" }

end Requirements

namespace Status

/-- The status that a record names by its word. -/
def ofRecord (value : Json) : Outcome Status := do
  value.checkKey
  match value.text?.bind ofWord? with
  | some status => return status
  | none => throw (.missingField value.display)

end Status

namespace Feature

/-- The feature that a record describes; by default nothing of it has been built. -/
def ofRecord (value : Json) : Outcome (Feature Json) := do
  let record ← value.record
  let requirements := record.getOr "technical_requirements" .null
  return {
    id := ← record.require "id"
    name := ← record.require "name"
    slug := ← record.require "slug"
    description := ← record.require "description"
    stories := ← (← record.itemsOf "user_stories").mapM UserStory.ofRecord
    criteria := ← (← record.itemsOf "acceptance_criteria").mapM Criterion.ofRecord
    status := ← Status.ofRecord (record.getOr "status" (.str Status.missing.word))
    dependencies := ← record.itemsOf "dependencies"
    requirements := ←
      if requirements.isNull then pure none else some <$> Requirements.ofRecord requirements
    line :=
      match record.getOr "line_number" .null with
      | .int line => some line
      | _ => none }

/-- The name of a feature, by which a debt document is searched. -/
def searchName (feature : Feature Json) : Outcome String :=
  match feature.name with
  | .str name => .ok name
  | value => .error (.noText value)

/-- The status of a feature, going by its criteria and a debt document. -/
def detectStatus (feature : Feature Json) (debt : Option Document) : Outcome Status := do
  let name ← if debt.isSome then feature.searchName else pure ""
  return Status.detect name feature.criteria debt

/-- The plan for a feature, provided that its description is a text, and so is its name where it
is searched for. -/
def plan (feature : Feature Json) (debt : Option Document) : Outcome (Plan Json) := do
  if debt.isSome && feature.status = .incomplete then
    let _ ← feature.searchName
  let some _ := feature.description.text? | throw (.noText feature.description)
  return Plan.ofFeature feature debt

end Feature
end SpecDraft
