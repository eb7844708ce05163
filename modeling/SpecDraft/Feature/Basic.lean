import SpecDraft.Json.FieldValue
import SpecDraft.Route

/-!
# Features

A feature of a project: what it is for, the stories and criteria that describe it, what it needs,
and how far it has been built. Its fields hold texts, unless another type of values is given.
-/
set_option autoImplicit false

namespace SpecDraft

/-- How far a feature has been built. -/
inductive Status where
  | complete
  | incomplete
  | missing
  deriving DecidableEq, Repr

namespace Status

/-- Every status, the best first. -/
def all : List Status := [complete, incomplete, missing]

/-- The word for a status. -/
def word : Status → String
  | complete => "COMPLETE"
  | incomplete => "PARTIAL"
  | missing => "MISSING"

/-- The sign that goes before the word. -/
def sign : Status → String
  | complete => "✅"
  | incomplete => "⚠️"
  | missing => "❌"

/-- The text of a status. -/
def text (status : Status) : String := status.sign ++ " " ++ status.word

/-- The status of a word. -/
def ofWord? (word : String) : Option Status := all.find? (·.word == word)

end Status

/-- Who wants what, and why. `raw` is the text that the story was read from. -/
structure UserStory (α : Type := String) where
  role : α
  goal : α
  benefit : α
  raw : α
  deriving DecidableEq, Repr

/-- A condition that a finished feature meets. -/
structure Criterion (α : Type := String) where
  description : α
  checked : Bool
  testable : Bool
  deriving DecidableEq, Repr

/-- What a feature needs, by kind. -/
structure Requirements (α : Type := String) where
  dependencies : List α
  endpoints : List α
  dataModels : List α
  components : List α
  files : List α
  deriving DecidableEq, Repr

/-- A feature. `line` is the line of its heading, if it was read from a document. -/
structure Feature (α : Type := String) where
  id : α
  name : α
  slug : α
  description : α
  stories : List (UserStory α)
  criteria : List (Criterion α)
  status : Status
  dependencies : List α
  requirements : Option (Requirements α)
  line : Option Int
  deriving DecidableEq, Repr

open FieldValue (isFilled list)

variable {α : Type} [FieldValue α]

namespace UserStory

/-- The story as a record. -/
def toJson (story : UserStory α) : Json :=
  .obj [("role", FieldValue.toJson story.role), ("goal", FieldValue.toJson story.goal),
    ("benefit", FieldValue.toJson story.benefit), ("raw", FieldValue.toJson story.raw)]

end UserStory

namespace Criterion

/-- The criterion as a record. -/
def toJson (criterion : Criterion α) : Json :=
  .obj [("description", FieldValue.toJson criterion.description),
    ("checked", .bool criterion.checked), ("testable", .bool criterion.testable)]

end Criterion

namespace Requirements

omit [FieldValue α] in
/-- Whether there is no requirement of any kind. -/
def isEmpty (r : Requirements α) : Bool :=
  r.dependencies.isEmpty && r.endpoints.isEmpty && r.dataModels.isEmpty &&
    r.components.isEmpty && r.files.isEmpty

/-- The requirements as a record. -/
def toJson (r : Requirements α) : Json :=
  .obj [("dependencies", list r.dependencies), ("endpoints", list r.endpoints),
    ("data_models", list r.dataModels), ("components", list r.components),
    ("files", list r.files)]

end Requirements

namespace Feature

/-- The feature as a record. -/
def toJson (feature : Feature α) : Json :=
  .obj [("id", FieldValue.toJson feature.id), ("name", FieldValue.toJson feature.name),
    ("slug", FieldValue.toJson feature.slug),
    ("description", FieldValue.toJson feature.description),
    ("user_stories", .arr (feature.stories.map UserStory.toJson)),
    ("acceptance_criteria", .arr (feature.criteria.map Criterion.toJson)),
    ("status", .str feature.status.text),
    ("dependencies", list feature.dependencies),
    ("technical_requirements", (feature.requirements.map Requirements.toJson).getD .null),
    ("line_number", (feature.line.map Json.int).getD .null)]

/-- What is wrong with a feature. -/
def issues (feature : Feature α) : List String :=
  (if isFilled feature.id then [] else ["Feature ID is required"]) ++
  (if isFilled feature.name then [] else ["Feature name is required"]) ++
  (if isFilled feature.slug then [] else ["Feature slug is required"])

end Feature
end SpecDraft
