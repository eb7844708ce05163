import SpecDraft.Feature.Basic
import SpecDraft.Markdown.Section

/-!
# User stories

The sentence `As a …, I want …, so that …`, anywhere in the text of a paragraph or an item and in
any letter case. Each part ends at the first place where the next one can begin.
-/
set_option autoImplicit false

namespace SpecDraft.UserStory

open Text

/-- The text before and after the first occurrence of a phrase that does not start the text. -/
def cutInside? (phrase : String) : List Char → Option (List Char × List Char)
  | [] => none
  | c :: rest => (cutFold? phrase rest).map fun (before, after) => (c :: before, after)

/-- The text without a final period, unless it is only a period. -/
def dropPeriod (s : List Char) : List Char :=
  if s.getLast? = some '.' ∧ 2 ≤ s.length then s.dropLast else s

/-- Role, goal and benefit of a story that starts a text. -/
def parts? (s : List Char) : Option (List Char × List Char × List Char) := do
  let rest ← afterFoldAny? ["As a ", "As an "] s
  let (role, rest) ← cutInside? ", I want " rest
  let (goal, rest) ← cutInside? ", so that " rest
  if rest.isEmpty then none else return (role, goal, dropPeriod rest)

/-- The story that a text tells. -/
def ofText? (text : String) : Option UserStory :=
  (firstFrom parts? text.toList).map fun (_, role, goal, benefit) =>
    { role := String.ofList (trim role), goal := String.ofList (trim goal)
      benefit := String.ofList (trim benefit), raw := strip text }

/-- The story that a node tells. -/
def ofNode? (node : Markdown.Node) : Option UserStory :=
  if node.isParagraph || node.isItem then ofText? node.text else none

/-- The stories that a run of nodes tells. -/
def ofNodes (nodes : List Markdown.Node) : List UserStory := nodes.filterMap ofNode?

end SpecDraft.UserStory
