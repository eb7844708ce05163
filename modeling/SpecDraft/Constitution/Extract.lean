import SpecDraft.Constitution.Basic
import SpecDraft.Markdown.Document
import SpecDraft.Markdown.Section

/-!
# Reading a constitution

Each part of a constitution stands in a section of its own, found by its title. A document that
breaks a bound has no constitution; the first bound broken is reported.
-/
set_option autoImplicit false

namespace SpecDraft

namespace Failure

/-- A document whose constitution would break a bound. -/
def brokenBound (summary : String) (details : Members) : Failure :=
  .extraction summary .constitution details

/-- A purpose that is too short or too long. -/
def purposeLength (purpose : String) : Failure :=
  .brokenBound
    ("Purpose must be " ++ Constitution.bounds Constitution.purposeMin Constitution.purposeMax ++
      " characters")
    [("purpose", .str purpose), ("length", .nat purpose.length)]

/-- Too few values, or too many. -/
def valueCount (count : Nat) : Failure :=
  .brokenBound
    ("Must have " ++ Constitution.bounds Constitution.valuesMin Constitution.valuesMax ++
      " core values")
    [("count", .nat count)]

/-- A project that keeps its stack and does not describe it. -/
def stackRequired : Failure :=
  .brokenBound "Technical stack required for brownfield route" []

/-- Too few standards. -/
def standardCount (count : Nat) : Failure :=
  .brokenBound
    ("Must have at least " ++ toString Constitution.standardsMin ++ " development standards")
    [("count", .nat count)]

/-- Too few metrics. -/
def metricCount (count : Nat) : Failure :=
  .brokenBound ("Must have at least " ++ toString Constitution.metricsMin ++ " quality metrics")
    [("count", .nat count)]

end Failure

namespace TechnicalStack

open Text

/-- The items on the line of the first label among several; what follows the label may start on
a later line. -/
def itemsAt (labels : List String) (content : List Char) : List String :=
  match firstFrom (afterFoldAny? labels) content with
  | some (_, rest) => commaItems ((trimLeft rest).takeWhile (· != '\n'))
  | none => []

/-- The stack that the text of a section describes. -/
def ofContent (text : String) : TechnicalStack :=
  let content := text.toList
  { languages := itemsAt ["Languages:", "Language:", "Frontend:", "Backend:"] content
    frameworks := itemsAt ["Frameworks:", "Framework:"] content
    databases := itemsAt ["Databases:", "Database:"] content
    infrastructure := itemsAt ["Infrastructure:", "Deployment:"] content
    buildTools := itemsAt ["Build Tools:", "Build Tool:", "Tools:"] content }

end TechnicalStack

namespace QualityMetric

open Text

/-- The text without the mark of a list item. -/
def dropItemMark (s : List Char) : List Char :=
  match s with
  | '-' :: ' ' :: rest => trim rest
  | _ => s

/-- The metric on a line: a name, a colon and a target. -/
def ofLine? (line : List Char) : Option QualityMetric :=
  let name := dropItemMark (trim (line.takeWhile (· != ':')))
  match line.dropWhile (· != ':') with
  | ':' :: rest =>
    let target := trim rest
    if name.isEmpty ∨ target.isEmpty then none
    else
      some ⟨String.ofList name, String.ofList target, "Manual testing or monitoring", none⟩
  | _ => none

/-- The metrics of the text on performance, one to a line. -/
def ofPerformance (text : String) : List QualityMetric :=
  (lines text.toList).filterMap ofLine?

/-- The metric that the text on scalability makes: its first hundred characters are the
target. -/
def ofScalability (text : String) : List QualityMetric :=
  if text.isEmpty then [] else [⟨"Scalability", take 100 text, "Load testing", none⟩]

end QualityMetric

namespace Constitution

open Text Markdown

/-- The text of the section with one of the given titles. -/
def sectionText? (nodes : List Node) (titles : List String) : Option String :=
  Markdown.sectionText? nodes (.exactly titles)

/-- The purpose that a document states. -/
def purposeOf (nodes : List Node) : String := strip ((sectionText? nodes ["Purpose"]).getD "")

/-- The values that a document lists: the first unbroken run of items below the heading, and
before the next one. -/
def valuesOf (nodes : List Node) : List String :=
  match afterHeading? nodes (.exactly ["Core Values", "Values"]) with
  | none => []
  | some rest =>
    let own := rest.takeWhile (!·.isHeading)
    ((own.dropWhile (!·.isItem)).takeWhile (·.isItem)).map (strip ·.text)

/-- The stack that a document describes. -/
def stackOf? (nodes : List Node) : Option TechnicalStack :=
  (sectionText? nodes ["Technical Stack"]).map TechnicalStack.ofContent

/-- The titles of the sections on standards, with the category and the level of each. -/
def standardSections : List (List String × String × String) := [
  (["Code Quality", "Quality Standards"], "code-quality", "required"),
  (["Testing"], "testing", "required"),
  (["Security"], "security", "required"),
  (["Documentation"], "documentation", "recommended")]

/-- The standards that a document sets: the first two hundred characters of each section. -/
def standardsOf (nodes : List Node) : List Standard :=
  standardSections.filterMap fun (titles, category, level) =>
    (sectionText? nodes titles).map fun text => ⟨category, take 200 text, level⟩

/-- The metrics that a document sets. -/
def metricsOf (nodes : List Node) : List QualityMetric :=
  QualityMetric.ofPerformance ((sectionText? nodes ["Performance"]).getD "") ++
    QualityMetric.ofScalability ((sectionText? nodes ["Scalability"]).getD "")

/-- The rules that a document states: a section on governance says how decisions are made. -/
def governanceOf (nodes : List Node) : Governance :=
  match sectionText? nodes ["Governance"] with
  | none | some "" => .standard
  | some text => { Governance.standard with decisionMaking := take 200 text }

/-- The stack of the constitution for a route: only projects that keep their stack have one. -/
def stackFor (route : Route) (nodes : List Node) : Outcome (Option TechnicalStack) :=
  match route with
  | .greenfield => .ok none
  | .brownfield =>
    match stackOf? nodes with
    | some stack => .ok (some stack)
    | none => .error .stackRequired

/-- Goes on when a condition holds and stops otherwise. -/
def require (condition : Bool) (failure : Failure) : Outcome Unit :=
  if condition then .ok () else .error failure

/-- The constitution of a document, for a route. -/
def extract (document : Document) (route : Route) : Outcome Constitution := do
  let nodes := document.nodes
  let purpose := purposeOf nodes
  require (purposeFits purpose) (.purposeLength purpose)
  let values := valuesOf nodes
  require (valuesFit values) (.valueCount values.length)
  let stack ← stackFor route nodes
  let standards := standardsOf nodes
  require (standardsMin ≤ standards.length) (.standardCount standards.length)
  let metrics := metricsOf nodes
  require (metricsMin ≤ metrics.length) (.metricCount metrics.length)
  return { purpose, values, standards, metrics, governance := governanceOf nodes
           route := route.name, stack }

end Constitution
end SpecDraft
