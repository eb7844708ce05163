import SpecDraft.Json.Collection

/-!
# Values of fields

The fields of a record that was drawn from a document hold texts. Those of a record that somebody
wrote hold whatever was written there. What is done with a record does not depend on which of the
two it is, as long as it is known how the value of a field is written and how a text becomes one.
-/
set_option autoImplicit false

namespace SpecDraft

/-- A type of values of fields. A text is written as itself. -/
class FieldValue (α : Type) where
  /-- The value as it is written. -/
  toJson : α → Json
  /-- A text as a value. -/
  ofText : String → α
  toJson_ofText : ∀ text, toJson (ofText text) = .str text

instance : FieldValue String := ⟨.str, id, fun _ => rfl⟩

instance : FieldValue Json := ⟨id, .str, fun _ => rfl⟩

namespace FieldValue

variable {α : Type} [FieldValue α]

/-- The value as a message shows it. -/
def display (value : α) : String := (toJson value).display

/-- Whether the field is filled in. -/
def isFilled (value : α) : Bool := (toJson value).isFilled

/-- Whether the value is one of the listed texts. -/
def isOneOf (value : α) (texts : List String) : Bool := (toJson value).isOneOf texts

/-- The length of a text, or the number of items of another value that has some. -/
def size (value : α) : Nat :=
  match toJson value with
  | .str text => text.length
  | value => (value.elements?.getD []).length

/-- A list of values as it is written. -/
def list (values : List α) : Json := .arr (values.map toJson)

@[simp] theorem display_text (text : String) : display text = text := rfl

@[simp] theorem isFilled_text (text : String) : isFilled text = (text != "") := rfl

@[simp] theorem isOneOf_text (text : String) (texts : List String) :
    isOneOf text texts = texts.contains text := rfl

@[simp] theorem size_text (text : String) : size text = text.length := rfl

@[simp] theorem list_texts (texts : List String) : list texts = .strs texts := rfl

end FieldValue
end SpecDraft
