import SpecDraft.Constitution.Extract
import SpecDraft.Proofs.Action
import SpecDraft.Proofs.Text.Cutting

/-!
# The bounds of a constitution

Whether a document has a constitution, and what is wrong with the constitution that it has
(`extract_iff`). Reading a document checks bounds of its own. They agree with the issues of a
constitution, but for one: a section on standards without a text is read as a standard, and a
standard without a description is an issue (`extract_silent`).
-/
set_option autoImplicit false

namespace SpecDraft

open Text

/-! ## Sections without a text -/

namespace Text

theorem take_eq_empty_iff {n : Nat} (hn : n ≠ 0) {s : String} : take n s = "" ↔ s = "" := by
  rw [take, ← String.toList_eq_nil_iff, String.toList_ofList, List.take_eq_nil_iff,
    String.toList_eq_nil_iff]
  exact or_iff_right hn

theorem join_newline_eq_empty_iff {parts : List String} :
    join "\n" parts = "" ↔ parts = [] ∨ parts = [""] := by
  rw [← String.toList_inj, toList_join]
  match parts with
  | [] => simp
  | [part] => simp
  | part :: other :: rest => simp

end Text

namespace Constitution

open Markdown

variable {nodes : List Node}

/-- The sections on standards that a document has and that have no text. -/
def silentSections (nodes : List Node) : List (List String × String × String) :=
  standardSections.filter fun (titles, _) => sectionText? nodes titles = some ""

/-- A section has no text when the nodes below its heading make no line, or one without a text. -/
theorem mem_silentSections {titles : List String} {category level : String} :
    (titles, category, level) ∈ silentSections nodes ↔
      (titles, category, level) ∈ standardSections ∧
      ∃ found, findSection? nodes (.exactly titles) = some found ∧
        (found.children.filterMap Node.line? = [] ∨
          found.children.filterMap Node.line? = [""]) := by
  simp only [silentSections, List.mem_filter, decide_eq_true_eq, sectionText?,
    Markdown.sectionText?, Option.map_eq_some_iff, blockText, join_newline_eq_empty_iff]

/-- The issue of a standard without a description. -/
def descriptionMissing : String := "Standard description is required"

theorem issues_standard {category text level : String} (hcategory : category ∈ Standard.categories)
    (hlevel : level ∈ Standard.levels) :
    Standard.issues ⟨category, take 200 text, level⟩ =
      if text = "" then [descriptionMissing] else [] := by
  simp [Standard.issues, hcategory, hlevel, take_eq_empty_iff, descriptionMissing]

/-- The standards of a document have a known category and a known level, so that nothing but
their descriptions can be wrong. -/
theorem issues_standardsOf (nodes : List Node) :
    (standardsOf nodes).flatMap Standard.issues =
      (silentSections nodes).map fun _ => descriptionMissing := by
  have hknown : ∀ entry ∈ standardSections,
      entry.2.1 ∈ Standard.categories ∧ entry.2.2 ∈ Standard.levels := by decide
  rw [standardsOf, silentSections]
  -- The induction is on any list of sections with known categories and levels.
  generalize standardSections = sections at hknown ⊢
  induction sections with
  | nil => rfl
  | cons entry rest ih =>
    obtain ⟨titles, category, level⟩ := entry
    obtain ⟨⟨hcategory, hlevel⟩, hrest⟩ := List.forall_mem_cons.mp hknown
    cases htext : sectionText? nodes titles with
    | none => simpa [htext] using ih hrest
    | some text =>
      by_cases hempty : text = ""
      · simpa [htext, issues_standard hcategory hlevel, hempty] using ih hrest
      · simpa [htext, issues_standard hcategory hlevel, hempty] using ih hrest

/-! ## Bounds -/

/-- The bounds that are checked when a document is read. -/
structure Bounded (c : Constitution) : Prop where
  purpose : purposeFits c.purpose = true
  values : valuesFit c.values = true
  stack : c.keepsStack = true → c.stack ≠ none
  standards : standardsMin ≤ c.standards.length
  metrics : metricsMin ≤ c.metrics.length

/-- Within the bounds, only standards have issues. -/
theorem issues_eq_iff {c : Constitution} :
    c.issues = c.standards.flatMap Standard.issues ↔ c.Bounded := by
  rw [issues, List.append_left_eq_self]
  simp only [List.append_eq_nil_iff, ite_eq_left_iff, ite_eq_right_iff, List.cons_ne_nil, imp_false,
    Bool.and_eq_true, Option.isNone_iff_eq_none, not_not, not_and]
  exact ⟨fun ⟨⟨⟨⟨hpurpose, hvalues⟩, hstack⟩, hstandards⟩, hmetrics⟩ =>
      ⟨hpurpose, hvalues, hstack, hstandards, hmetrics⟩,
    fun h => ⟨⟨⟨⟨h.purpose, h.values⟩, h.stack⟩, h.standards⟩, h.metrics⟩⟩

/-- What the sections of a document say, whether it is within the bounds or not. -/
def drawn (nodes : List Node) (route : Route) : Constitution where
  purpose := purposeOf nodes
  values := valuesOf nodes
  standards := standardsOf nodes
  metrics := metricsOf nodes
  governance := governanceOf nodes
  route := route.name
  stack := match route with
    | .greenfield => none
    | .brownfield => stackOf? nodes

theorem require_ok {condition : Bool} {failure : Failure} {result : Unit} :
    require condition failure = .ok result ↔ condition = true := by
  cases condition <;> simp [require]

theorem stackFor_ok {route : Route} {stack : Option TechnicalStack} :
    stackFor route nodes = .ok stack ↔
      ((drawn nodes route).keepsStack = true → (drawn nodes route).stack ≠ none) ∧
        (drawn nodes route).stack = stack := by
  cases route with
  | greenfield =>
    have hkeeps : (drawn nodes .greenfield).keepsStack = false := rfl
    rw [stackFor, hkeeps]
    simp [drawn]
  | brownfield =>
    have hkeeps : (drawn nodes .brownfield).keepsStack = true := rfl
    rw [stackFor, hkeeps]
    cases hstack : stackOf? nodes <;> simp [drawn, hstack]

theorem extract_ok {document : Document} {route : Route} {c : Constitution} :
    extract document route = .ok c ↔ c = drawn document.nodes route ∧ c.Bounded := by
  unfold extract
  dsimp only
  -- The checks in their order, each with the part of the constitution that it is about.
  simp only [Action.bind_ok, require_ok, stackFor_ok]
  constructor
  · rintro ⟨-, hpurpose, -, hvalues, -, ⟨hstack, rfl⟩, -, hstandards, -, hmetrics, hread⟩
    cases hread
    exact ⟨rfl, hpurpose, hvalues, hstack, of_decide_eq_true hstandards,
      of_decide_eq_true hmetrics⟩
  · rintro ⟨rfl, h⟩
    exact ⟨(), h.purpose, (), h.values, _, ⟨h.stack, rfl⟩, (), decide_eq_true h.standards, (),
      decide_eq_true h.metrics, rfl⟩

/-- **What is wrong with a constitution that is read.** A document has a constitution exactly when
its sections have no other issues than those of standards without a description, one for each
section on standards without a text: every bound on purpose, values, stack, standards and metrics
holds of it. -/
theorem extract_iff (document : Document) (route : Route) (c : Constitution) :
    extract document route = .ok c ↔ c = drawn document.nodes route ∧
      c.issues = (silentSections document.nodes).map fun _ => descriptionMissing := by
  rw [extract_ok, and_congr_right_iff]
  rintro rfl
  rw [← issues_standardsOf]
  exact issues_eq_iff.symm

/-- A document whose section on testing has no text. -/
def silentContent : String :=
  "# Purpose\nOne place for the notes of a team, safe and shared.\n" ++
  "# Values\n- Clear\n- Small\n- Safe\n# Code Quality\nReviewed.\n# Testing\n" ++
  "# Security\nAudited.\n# Performance\nLoad: 2 s\nSearch: 1 s"

/-- The nodes of that document: there is none below the heading on testing. -/
def silentNodes : List Node := [
  ⟨.heading 1, "Purpose", 1⟩,
  ⟨.paragraph, "One place for the notes of a team, safe and shared.", 2⟩,
  ⟨.heading 1, "Values", 3⟩, ⟨.item false 0, "Clear", 4⟩, ⟨.item false 0, "Small", 5⟩,
  ⟨.item false 0, "Safe", 6⟩,
  ⟨.heading 1, "Code Quality", 7⟩, ⟨.paragraph, "Reviewed.", 8⟩,
  ⟨.heading 1, "Testing", 9⟩,
  ⟨.heading 1, "Security", 10⟩, ⟨.paragraph, "Audited.", 11⟩,
  ⟨.heading 1, "Performance", 12⟩, ⟨.paragraph, "Load: 2 s", 13⟩,
  ⟨.paragraph, "Search: 1 s", 14⟩]

theorem nodes_silent : (Markdown.parse silentContent).toOption = some silentNodes := by
  decide +kernel

theorem bounded_silent : (drawn silentNodes .greenfield).Bounded where
  purpose := by decide +kernel
  values := by decide +kernel
  stack := by decide +kernel
  standards := by decide +kernel
  metrics := by decide +kernel

/-- **A section without a text passes for a standard.** -/
theorem extract_silent : ∃ document c,
    Document.parse silentContent ⟨"/", ["spec.md"]⟩ "2024-01-02T03:04:05" = .ok document ∧
    extract document .greenfield = .ok c ∧ c.standards.length = 3 ∧
    c.issues = [descriptionMissing] := by
  obtain ⟨document, hparse, hnodes⟩ : ∃ document,
      Document.parse silentContent ⟨"/", ["spec.md"]⟩ "2024-01-02T03:04:05" = .ok document ∧
        document.nodes = silentNodes := by
    have hread := nodes_silent
    rw [Document.parse]
    -- Only the nodes are evaluated, not the digest of the content.
    generalize Markdown.parse silentContent = result at hread ⊢
    cases result with
    | error failure => cases hread
    | ok nodes => exact ⟨_, rfl, Option.some.inj hread⟩
  exact ⟨document, drawn silentNodes .greenfield, hparse,
    extract_ok.mpr ⟨by rw [hnodes], bounded_silent⟩, by decide +kernel, by decide +kernel⟩

end Constitution
end SpecDraft
