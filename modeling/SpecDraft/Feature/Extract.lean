import SpecDraft.Feature.Field
import SpecDraft.Feature.Status
import SpecDraft.Feature.Story

/-!
# Reading features

The features of a document are the headings of level two and three in the range that starts after
the heading `Features`. The range ends at a heading of level one, or at one of level two with a
general title once a feature has been found. The nodes between a feature heading and the next
belong to that feature alone.
-/
set_option autoImplicit false

namespace SpecDraft

/-- A document without a section of features. -/
def Failure.noFeatures : Failure :=
  .extraction "No Features section found in document" .features []

/-- A section of features without any feature. -/
def Failure.noFeatureHeadings : Failure :=
  .extraction "No feature headings found in Features section" .features []

namespace Feature

open Text Markdown

/-- Whether a character may stand in a slug. -/
def isSlugChar (c : Char) : Bool :=
  (97 ≤ c.toNat && c.toNat ≤ 122) || (48 ≤ c.toNat && c.toNat ≤ 57)

/-- The runs of characters of a class. -/
def runsOf (p : Char → Bool) : List Char → List (List Char)
  | [] => [[]]
  | c :: rest =>
    match runsOf p rest with
    | [] => [[]]
    | run :: runs => if p c then (c :: run) :: runs else [] :: run :: runs

/-- The slug of a name: its runs of letters `a` to `z` and digits in lower case, joined by
hyphens. -/
def slugOf (name : String) : String :=
  join "-" (((runsOf isSlugChar (lower name).toList).filter (!·.isEmpty)).map String.ofList)

/-- The identifier of the feature at a place: its number with at least three digits. -/
def idAt (place : Nat) : String := Moment.padded 3 place

/-- Whether a node is a heading of a feature. -/
def isHeading (node : Node) : Bool := node.level? = some 2 || node.level? = some 3

/-- Titles that end the features. -/
def generalTitle : TitlePattern :=
  ⟨["non-functional", "technical", "overview", "summary", "appendix"], true, false⟩

/-- Whether a node ends the features, given whether one has been found. -/
def endsFeatures (found : Bool) (node : Node) : Bool :=
  node.level? = some 1 || (node.level? = some 2 && found && generalTitle.fits node.text)

/-- The nodes before the end of the features. -/
def range (found : Bool) : List Node → List Node
  | [] => []
  | node :: rest =>
    if endsFeatures found node then [] else node :: range (found || isHeading node) rest

/-- The feature headings among nodes, each with the nodes up to the next one. -/
def spans : List Node → List (Node × List Node)
  | [] => []
  | node :: rest =>
    if isHeading node then (node, rest.takeWhile (!isHeading ·)) :: spans rest else spans rest

/-- The feature at a place, read from its heading and its nodes. -/
def ofSpan (debt : Option Document) (place : Nat) (heading : Node) (span : List Node) : Feature :=
  let name := strip heading.text
  let slug := slugOf name
  let criteria := criteriaOf span
  { id := idAt place
    name
    slug := if slug.isEmpty then "feature-" ++ idAt place else slug
    description := descriptionOf span
    stories := UserStory.ofNodes span
    criteria
    status := Status.detect name criteria debt
    dependencies := dependenciesOf span
    requirements := requirementsOf span
    line := some heading.line }

/-- The features of a list of headings and their nodes, numbered from a place on. -/
def ofSpans (debt : Option Document) : Nat → List (Node × List Node) → List Feature
  | _, [] => []
  | place, (heading, span) :: rest =>
    ofSpan debt place heading span :: ofSpans debt (place + 1) rest

/-- The heading of the features. -/
def sectionTitle : TitlePattern := .exactly ["Features"]

/-- The features of a document. -/
def extract (document : Document) (debt : Option Document) : Outcome (List Feature) :=
  match afterHeading? document.nodes sectionTitle with
  | none => .error .noFeatures
  | some nodes =>
    match spans (range false nodes) with
    | [] => .error .noFeatureHeadings
    | found => .ok (ofSpans debt 1 found)

end Feature
end SpecDraft
