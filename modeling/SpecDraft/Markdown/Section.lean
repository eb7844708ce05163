import SpecDraft.Markdown.Node

/-!
# Sections

A section is a heading with every node up to the next heading of the same or a higher rank.
Sections are looked up by the titles of their headings, whatever the letter case.
-/
set_option autoImplicit false

namespace SpecDraft.Markdown

open Text

/-- What a title must look like: it contains one of the texts, at its start or at its end where
that is asked for. -/
structure TitlePattern where
  texts : List String
  atStart : Bool
  atEnd : Bool
  deriving DecidableEq, Repr

namespace TitlePattern

/-- Titles equal to one of the texts. -/
def exactly (texts : List String) : TitlePattern := ⟨texts, true, true⟩

/-- Titles that contain a text. -/
def containing (text : String) : TitlePattern := ⟨[text], false, false⟩

/-- Whether one text of a pattern matches at the start of `title`. -/
def matchesHere (atEnd : Bool) (text : String) (title : List Char) : Option Unit :=
  match afterFold? text.toList title with
  | some rest => if atEnd && !rest.isEmpty then none else some ()
  | none => none

/-- Whether a title fits the pattern, up to letter case. -/
def fits (pattern : TitlePattern) (title : String) : Bool :=
  pattern.texts.any fun text =>
    if pattern.atStart then (matchesHere pattern.atEnd text title.toList).isSome
    else (firstFrom (matchesHere pattern.atEnd text) title.toList).isSome

end TitlePattern

/-- Whether a node is a heading whose title fits. -/
def Node.isHeadingFor (pattern : TitlePattern) (node : Node) : Bool :=
  node.isHeading && pattern.fits node.text

/-- Whether a node is a heading that ends a section of the given level. -/
def Node.endsSection (level : Nat) (node : Node) : Bool :=
  match node.level? with
  | some other => other ≤ level
  | none => false

/-- A heading and the nodes below it. -/
structure Section where
  heading : Node
  level : Nat
  children : List Node
  deriving DecidableEq, Repr

/-- The place of the first heading that fits. -/
def headingIndex? (nodes : List Node) (pattern : TitlePattern) : Option Nat :=
  nodes.findIdx? (·.isHeadingFor pattern)

/-- The nodes after the first heading that fits. -/
def afterHeading? (nodes : List Node) (pattern : TitlePattern) : Option (List Node) :=
  (headingIndex? nodes pattern).map fun index => nodes.drop (index + 1)

/-- The section of the first heading that fits. -/
def findSection? (nodes : List Node) (pattern : TitlePattern) : Option Section := do
  let index ← headingIndex? nodes pattern
  let heading ← nodes[index]?
  let level ← heading.level?
  return ⟨heading, level, (nodes.drop (index + 1)).takeWhile (!·.endsSection level)⟩

/-- The headings of a level. -/
def headingsAt (level : Nat) (nodes : List Node) : List Node :=
  nodes.filter (·.level? = some level)

/-- The texts of the list items. -/
def itemTexts (nodes : List Node) : List String := (nodes.filter (·.isItem)).map (·.text)

/-- The line that a node contributes to the text of its section; rules contribute none. -/
def Node.line? (node : Node) : Option String :=
  match node.kind with
  | .item .. => some ("- " ++ node.text)
  | .rule => none
  | _ => some node.text

/-- The text of a run of nodes, one block after the other. -/
def blockText (nodes : List Node) : String := join "\n" (nodes.filterMap Node.line?)

/-- The text of the section of the first heading that fits. -/
def sectionText? (nodes : List Node) (pattern : TitlePattern) : Option String :=
  (findSection? nodes pattern).map fun found => blockText found.children

end SpecDraft.Markdown
