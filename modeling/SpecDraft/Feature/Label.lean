import SpecDraft.Markdown.Section

/-!
# Labels

A label announces the list that follows it. Headings are labels, and so are paragraphs in bold
and short paragraphs that end in a colon.
-/
set_option autoImplicit false

namespace SpecDraft.Markdown

open Text

/-- What follows a mark for bold text. -/
def boldMark? : List Char → Option (List Char)
  | '*' :: '*' :: rest => some rest
  | '_' :: '_' :: rest => some rest
  | _ => none

/-- A mark that ends bold text, with nothing but blanks and perhaps a colon after it. -/
def boldEnd? (s : List Char) : Option Unit :=
  match boldMark? s with
  | none => none
  | some rest =>
    match trimLeft rest with
    | [] | [':'] => some ()
    | _ => none

/-- The text of a paragraph in bold: at least one character, up to the first mark that ends
it. -/
def boldLabel? (s : List Char) : Option (List Char) :=
  match boldMark? s with
  | some (c :: rest) => (firstFrom boldEnd? rest).map fun (before, _) => c :: before
  | _ => none

/-- The text before the colon of a paragraph of at most sixty characters without any other. -/
def plainLabel? (s : List Char) : Option (List Char) :=
  match s.reverse with
  | ':' :: body =>
    if 1 ≤ body.length ∧ body.length ≤ 60 ∧ ':' ∉ body then some body.reverse else none
  | _ => none

/-- The text of a label without blanks and trailing colons. -/
def labelText (s : List Char) : String := String.ofList (trim (dropRight (· == ':') (trim s)))

/-- The label that a paragraph makes. -/
def paragraphLabel? (text : String) : Option String :=
  ((boldLabel? text.toList).or (plainLabel? text.toList)).map labelText

/-- The label that a node makes. -/
def Node.label? (node : Node) : Option String :=
  if node.isHeading then some node.text
  else if node.isParagraph then paragraphLabel? node.text
  else none

/-- Whether a node is a label that fits. -/
def Node.isLabelFor (pattern : TitlePattern) (node : Node) : Bool :=
  match node.label? with
  | some label => pattern.fits label
  | none => false

/-- The nodes after the first label that fits, up to the next label. -/
def underLabel? (pattern : TitlePattern) (nodes : List Node) : Option (List Node) :=
  match nodes.dropWhile (!·.isLabelFor pattern) with
  | [] => none
  | _ :: rest => some (rest.takeWhile (·.label?.isNone))

/-- The texts of the items under the first label that fits. -/
def itemsUnder? (pattern : TitlePattern) (nodes : List Node) : Option (List String) :=
  (underLabel? pattern nodes).map itemTexts

end SpecDraft.Markdown

namespace SpecDraft.Feature

open Markdown

/-- Labels of acceptance criteria. -/
def criteriaLabel : TitlePattern := .containing "Acceptance Criteria"

/-- Labels of technical requirements. -/
def requirementsLabel : TitlePattern := .containing "Technical Requirements"

/-- Labels of dependencies. -/
def dependenciesLabel : TitlePattern := .exactly ["Dependencies", "Depends on"]

/-- Plain labels that belong to a feature. -/
def knownLabel : TitlePattern :=
  .exactly ["Acceptance Criteria", "Technical Requirements", "Dependencies", "Depends on"]

/-- Whether the text of a paragraph is a label of a feature: any label in bold, or a plain one
of the known names. -/
def isSectionLabel (text : String) : Bool :=
  if (boldLabel? text.toList).isSome then true
  else
    match plainLabel? text.toList with
    | some label => knownLabel.fits (String.ofList (Text.trim label))
    | none => false

end SpecDraft.Feature
