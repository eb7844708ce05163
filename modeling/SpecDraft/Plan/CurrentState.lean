import SpecDraft.Feature.Status

/-!
# What exists of a feature

The section of a debt document for a feature may say what has been built. The text after one of
three labels is taken, in order of preference; the labels differ in what ends their texts.
-/
set_option autoImplicit false

namespace SpecDraft.Plan

open Text Markdown

/-- The current state of a feature of which nothing is known to exist. -/
def noImplementation : String := "No existing implementation"

/-- The current state of a feature that exists in part, without details. -/
def partialImplementation : String :=
  "Partial implementation exists (details in technical debt analysis)"

/-- What follows the last line break in the blanks that start a text, among those that leave at
least `least` characters. -/
def afterBreak? (least : Nat) : List Char → Option (List Char)
  | [] => none
  | c :: rest =>
    if isBlank c then
      (afterBreak? least rest).or (if c = '\n' ∧ least ≤ rest.length then some rest else none)
    else none

/-- A text up to the first place where `stop` stands, after at least `least` characters; all of
it where there is no such place. -/
def upTo (least : Nat) (stop : String) (s : List Char) : List Char :=
  s.take least ++
    match cutFold? stop (s.drop least) with
    | some (before, _) => before
    | none => s.drop least

/-- How a passage is found: its label, the least length of its text, and what ends it. -/
structure Passage where
  label : String
  least : Nat
  stop : String

namespace Passage

/-- The text of a passage whose label starts here. -/
def here? (passage : Passage) (s : List Char) : Option (List Char) := do
  let rest ← afterFold? passage.label.toList s
  let rest := (after? [':'] rest).getD rest
  let body ← afterBreak? passage.least rest
  return upTo passage.least passage.stop body

/-- The text of the first such passage, without blanks around it. -/
def find? (passage : Passage) (content : String) : Option String :=
  match firstFrom passage.here? content.toList with
  | some (_, body) =>
    let text := trim body
    if text.isEmpty then none else some (String.ofList text)
  | none => none

end Passage

/-- The passages on what exists, in order of preference. -/
def passages : List Passage := [
  ⟨"What exists", 1, "\nWhat's missing"⟩,
  ⟨"What exists", 1, "\n\n"⟩,
  ⟨"exists", 10, "\nmissing"⟩]

/-- What a section says exists. -/
def existing (found : Section) : String :=
  let content := blockText found.children
  (passages.findSome? (·.find? content)).getD partialImplementation

/-- The current state of a feature. -/
def currentStateOf {α : Type} [FieldValue α] (feature : Feature α) (debt : Option Document) :
    String :=
  if feature.status = .incomplete then
    match debt.bind (Status.debtSection? (FieldValue.display feature.name)) with
    | some found => existing found
    | none => noImplementation
  else noImplementation

end SpecDraft.Plan
