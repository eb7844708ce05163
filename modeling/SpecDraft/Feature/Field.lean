import SpecDraft.Feature.Basic
import SpecDraft.Feature.Label

/-!
# The fields of a feature

What the nodes below the heading of a feature say about its description, its acceptance criteria,
its technical requirements and its dependencies.
-/
set_option autoImplicit false

namespace SpecDraft

open Text

namespace Criterion

/-- A check box and the text after it. -/
def checkbox? : List Char → Option (Bool × List Char)
  | '[' :: mark :: ']' :: rest =>
    if (mark = 'x' ∨ mark = 'X' ∨ mark = ' ') ∧ rest ≠ [] then some (mark ≠ ' ', trim rest)
    else none
  | _ => none

/-- The criterion that an item states; without a check box it is unchecked. -/
def ofItem (item : String) : Criterion :=
  match checkbox? item.toList with
  | some (checked, text) => ⟨String.ofList text, checked, true⟩
  | none => ⟨strip item, false, true⟩

end Criterion

namespace Requirements

/-- The items that mention a word. -/
def mentioning (word : String) (items : List String) : List String :=
  items.filter fun item => contains (lower item) word

/-- The items sorted by the words that they mention; an item may be of several kinds, or of
none. -/
def ofItems (items : List String) : Requirements where
  dependencies := mentioning "dependency" items
  endpoints := mentioning "endpoint" items
  dataModels := mentioning "database" items
  components := mentioning "component" items
  files := mentioning "file" items

end Requirements

namespace Feature

open Markdown

/-- The description of a feature that has none. -/
def noDescription : String := "No description available"

/-- Whether a node can be the description: a paragraph of at least twenty characters that is no
label. -/
def isDescription (node : Node) : Bool :=
  node.isParagraph && !isSectionLabel node.text && 20 ≤ (strip node.text).length

/-- The first paragraph that can be the description. -/
def descriptionOf (span : List Node) : String :=
  match span.find? isDescription with
  | some node => strip node.text
  | none => noDescription

/-- The criteria under the label for them. -/
def criteriaOf (span : List Node) : List Criterion :=
  ((itemsUnder? criteriaLabel span).getD []).map Criterion.ofItem

/-- The requirements under the label for them, if there are any. -/
def requirementsOf (span : List Node) : Option Requirements :=
  match itemsUnder? requirementsLabel span with
  | none | some [] => none
  | some items => some (Requirements.ofItems items)

/-- What follows the colon of a dependency line, perhaps after a mark for bold text. -/
def inlineList? (s : List Char) : Option (List Char) :=
  if s.isEmpty then none
  else
    let list := trimLeft s
    match boldMark? list with
    | some rest => if rest.isEmpty then some list else some (trimLeft rest)
    | none => some list

/-- The text without a mark for bold text at its start. -/
def dropBoldMark (s : List Char) : List Char := (boldMark? s).getD s

/-- The dependencies that a paragraph lists after a colon. -/
def inlineDependencies? (text : String) : Option (List String) := do
  let rest ← afterFoldAny? ["Depends on", "Dependencies"] (dropBoldMark text.toList)
  match trimLeft (dropBoldMark rest) with
  | ':' :: list => (inlineList? list).map commaItems
  | _ => none

/-- The dependencies of the first paragraph that lists some, else the items under the label for
them. -/
def dependenciesOf (span : List Node) : List String :=
  match (span.filter (·.isParagraph)).findSome? (inlineDependencies? ·.text) with
  | some dependencies => dependencies
  | none =>
    (((itemsUnder? dependenciesLabel span).getD []).map strip).filter (!·.isEmpty)

end Feature
end SpecDraft
