import SpecDraft.Feature.Basic
import SpecDraft.Markdown.Document
import SpecDraft.Markdown.Section

/-!
# The status of a feature

A debt document may have a section for a feature. An explicit marker there decides; failing that,
the phrases `what exists` and `what's missing` do; and failing those, the check boxes of the
acceptance criteria.
-/
set_option autoImplicit false

namespace SpecDraft.Status

open Text Markdown

/-- Whether a text in lower case holds an explicit marker of a status. -/
def marks (content : String) (status : Status) : Bool :=
  contains content (lower status.text) || contains content ("status: " ++ lower status.word)

/-- The status that a text in lower case states. -/
def ofContent? (content : String) : Option Status :=
  match all.find? (marks content) with
  | some status => some status
  | none =>
    match contains content "what exists", contains content "what's missing" with
    | true, true => some incomplete
    | true, false => some complete
    | false, true => some missing
    | false, false => none

/-- The status that a section states. -/
def ofSection? (found : Section) : Option Status :=
  ofContent? (lower (found.heading.text ++ "\n" ++ blockText found.children))

/-- The status that the criteria show: complete when all are checked, missing when none is. -/
def ofCriteria {α : Type} (criteria : List (Criterion α)) : Status :=
  let checked := criteria.countP (·.checked)
  if criteria.isEmpty then missing
  else if checked = criteria.length then complete
  else if 0 < checked then incomplete
  else missing

/-- The section of a debt document for a feature: the first whose title contains the name. -/
def debtSection? (name : String) (debt : Document) : Option Section :=
  findSection? debt.nodes (.containing name)

/-- The status of a feature of the given name and criteria. -/
def detect {α : Type} (name : String) (criteria : List (Criterion α)) (debt : Option Document) :
    Status :=
  match (debt.bind (debtSection? name)).bind ofSection? with
  | some status => status
  | none => ofCriteria criteria

end SpecDraft.Status
