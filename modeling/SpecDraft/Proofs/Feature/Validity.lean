import SpecDraft.Proofs.Feature.Spans
import SpecDraft.Proofs.Json.Numeral
import SpecDraft.Proofs.Markdown.Heading

/-!
# What is wrong with a feature

Every feature that is read has an identifier and a slug, but it has a name only when its heading
says something (`extract_issues`): a heading may consist of its marks and of blanks
(`extract_unnamed`).
-/
set_option autoImplicit false

namespace SpecDraft.Feature

open Markdown Text

/-- The issue of a feature without a name. -/
def nameMissing : String := "Feature name is required"

theorem idAt_ne_empty (place : Nat) : idAt place ≠ "" :=
  fun h => Moment.padded_ne_nil 3 place (congrArg String.toList h)

theorem slug_ofSpan_ne_empty (debt : Option Document) (place : Nat) (heading : Node)
    (span : List Node) : (ofSpan debt place heading span).slug ≠ "" := by
  intro h
  simp only [ofSpan] at h
  split at h
  · have hchars := congrArg String.toList h
    rw [String.toList_append] at hchars
    cases hchars
  · rename_i hslug
    rw [h] at hslug
    exact hslug rfl

/-- Nothing but the name of a feature can be missing, and it is missing when the heading is
blank. -/
theorem issues_ofSpan (debt : Option Document) (place : Nat) (heading : Node) (span : List Node) :
    (ofSpan debt place heading span).issues =
      if allBlank heading.text.toList then [nameMissing] else [] := by
  have hid : (ofSpan debt place heading span).id ≠ "" := idAt_ne_empty place
  have hslug := slug_ofSpan_ne_empty debt place heading span
  have hname : (ofSpan debt place heading span).name = strip heading.text := rfl
  simp only [issues, FieldValue.isFilled_text, hname, bne_iff_ne, ne_eq, hid, hslug,
    strip_eq_empty_iff, not_false_eq_true, if_true, List.nil_append, List.append_nil]
  split <;> simp_all [nameMissing]

/-- **The issues of the features.** A feature that is read has an identifier and a slug, and it has
a name unless its heading is blank. In a document that is read from a content, the heading is blank
exactly when the line has nothing but blanks after its number signs. -/
theorem extract_issues (document : Document) (debt : Option Document) (features : List Feature)
    (h : extract document debt = .ok features) :
    features.map issues = (headings document.nodes).map
      (fun (heading, _) => if allBlank heading.text.toList then [nameMissing] else []) ∧
    ∀ content, Markdown.parse content = .ok document.nodes → ∀ feature ∈ features,
      ∃ level before rest after, (level = 2 ∨ level = 3) ∧
        contentLines content = before ++ (List.replicate level '#' ++ rest) :: after ∧
        feature.line = some ((before.length + 1 : Nat) : Int) ∧
        feature.issues = if allBlank rest then [nameMissing] else [] := by
  refine ⟨map_extract h (issues_ofSpan debt), fun content hparse feature hfeature => ?_⟩
  obtain ⟨heading, place, number, span, hplace, rfl⟩ := exists_heading h hfeature
  have hnode := List.mem_of_getElem? (getElem?_of_mem_headings hplace)
  obtain ⟨-, -, -, -, hheading⟩ := mem_headings.mp hplace
  obtain ⟨level, hlevel, hrange⟩ := isHeading_iff.mp hheading
  obtain ⟨-, -, before, rest, after, hlines, -, hnumber, htext⟩ :=
    heading_of_parse hparse hnode hlevel
  refine ⟨level, before, rest, after, hrange, hlines, ?_, ?_⟩
  · rw [ofSpan, hnumber]
  · rw [issues_ofSpan, htext, String.toList_ofList, allBlank_trim]

/-- A document of two features, the second one under a heading of marks and blanks. -/
def unnamedContent : String := "# Features\n## Search\n##  "

/-- The nodes of that document. -/
def unnamedNodes : List Node :=
  [⟨.heading 1, "Features", 1⟩, ⟨.heading 2, "Search", 2⟩, ⟨.heading 2, "", 3⟩]

theorem parse_unnamedContent : Markdown.parse unnamedContent = .ok unnamedNodes := rfl

theorem extract_of_unnamedNodes {document : Document} (h : document.nodes = unnamedNodes) :
    extract document none =
      .ok (ofSpans none 1 [(⟨.heading 2, "Search", 2⟩, []), (⟨.heading 2, "", 3⟩, [])]) := by
  have hstart : headingIndex? unnamedNodes sectionTitle = some 0 := by decide
  have hspans : spans (range false (unnamedNodes.drop 1)) =
      [(⟨.heading 2, "Search", 2⟩, []), (⟨.heading 2, "", 3⟩, [])] := by decide
  rw [← h] at hstart hspans
  exact extract_of_spans hstart hspans (List.cons_ne_nil _ _)

theorem extract_issues_sample : ∃ document features,
    Document.parse unnamedContent ⟨"/", ["spec.md"]⟩ "" = .ok document ∧
    extract document none = .ok features ∧
    features.map issues = [[], [nameMissing]] ∧
    ∀ feature ∈ features, ∃ level before rest after, (level = 2 ∨ level = 3) ∧
      contentLines unnamedContent = before ++ (List.replicate level '#' ++ rest) :: after ∧
      feature.line = some ((before.length + 1 : Nat) : Int) ∧
      feature.issues = if allBlank rest then [nameMissing] else [] := by
  obtain ⟨document, hparse, hnodes⟩ :=
    Document.exists_parse parse_unnamedContent ⟨"/", ["spec.md"]⟩ ""
  have hextract := extract_of_unnamedNodes hnodes
  obtain ⟨hissues, hlines⟩ := extract_issues document none _ hextract
  refine ⟨document, _, hparse, hextract, ?_, hlines unnamedContent (hnodes ▸ parse_unnamedContent)⟩
  rw [hissues, hnodes]
  decide

/-- The second feature of that document has no name. -/
theorem extract_unnamed : ∃ document features feature,
    Document.parse unnamedContent ⟨"/", ["spec.md"]⟩ "" = .ok document ∧
    extract document none = .ok features ∧ feature ∈ features ∧
    feature.issues = [nameMissing] := by
  obtain ⟨document, hparse, hnodes⟩ :=
    Document.exists_parse parse_unnamedContent ⟨"/", ["spec.md"]⟩ ""
  refine ⟨document, _, _, hparse, extract_of_unnamedNodes hnodes,
    List.mem_cons_of_mem _ List.mem_cons_self, ?_⟩
  rw [issues_ofSpan]
  decide

end SpecDraft.Feature
