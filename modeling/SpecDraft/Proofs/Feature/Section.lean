import SpecDraft.Proofs.Feature.Spans
import SpecDraft.Proofs.Markdown.Heading

/-!
# The section of the features

A section ends at the next heading of its rank or above, while the features go on up to a heading of
level one, or to one of level two with a general title once a feature has been found. The source of
a feature is therefore in the section of the heading of the features as long as that section lasts
(`extract_section`), which below level one may be shorter than the features
(`extract_beyond_section`).
-/
set_option autoImplicit false

namespace SpecDraft.Markdown

/-- The nodes after a place, up to that at another place. -/
def upTo (nodes : List Node) (start place : Nat) : List Node :=
  (nodes.drop (start + 1)).take (place - start)

theorem mem_of_mem_upTo {nodes : List Node} {start place : Nat} {node : Node}
    (h : node ∈ upTo nodes start place) : node ∈ nodes :=
  List.mem_of_mem_drop (List.mem_of_mem_take h)

/-- A list keeps an element while it keeps all of those before it. -/
theorem getElem?_takeWhile {p : Node → Bool} {nodes : List Node} {i : Nat} {node : Node} :
    (nodes.takeWhile p)[i]? = some node ↔
      nodes[i]? = some node ∧ ∀ other ∈ nodes.take (i + 1), p other = true := by
  induction nodes generalizing i with
  | nil => simp
  | cons first nodes ih =>
    by_cases hfirst : p first = true
    · rw [List.takeWhile_cons_of_pos hfirst]
      cases i with
      | zero => simp [hfirst]
      | succ i => simp [ih, hfirst]
    · rw [List.takeWhile_cons_of_neg hfirst]
      simp [hfirst]

/-- Where there is a heading, there is its section. -/
theorem exists_section {nodes : List Node} {pattern : TitlePattern} {start : Nat}
    (h : headingIndex? nodes pattern = some start) :
    ∃ heading level, findSection? nodes pattern =
      some ⟨heading, level, (nodes.drop (start + 1)).takeWhile (!·.endsSection level)⟩ := by
  obtain ⟨hlt, hfits, -⟩ := List.findIdx?_eq_some_iff_getElem.mp h
  obtain ⟨level, hlevel⟩ : ∃ level, nodes[start].level? = some level := by
    rw [Node.isHeadingFor, Bool.and_eq_true] at hfits
    exact Option.isSome_iff_exists.mp hfits.1
  refine ⟨nodes[start], level, ?_⟩
  simp [findSection?, h, hlt, hlevel]

end SpecDraft.Markdown

namespace SpecDraft.Feature

open Markdown

section Range
variable {nodes : List Node} {node : Node} {found : Bool} {i : Nat}

/-- **No node of the range ends it**, and neither does any before it. -/
theorem not_endsFeatures_of_range (h : (range found nodes)[i]? = some node) :
    ∀ before other after, nodes.take (i + 1) = before ++ other :: after →
      endsFeatures (found || before.any isHeading) other = false := by
  obtain ⟨later, hsplit, hinner, -⟩ := range_spec found nodes
  obtain ⟨hlt, -⟩ := List.getElem?_eq_some_iff.mp h
  intro before other after hbefore
  -- The place is in the range, so that the nodes up to it are the first ones of the range.
  rw [hsplit, List.take_append_of_le_length hlt] at hbefore
  apply hinner before other (after ++ (range found nodes).drop (i + 1))
  conv_lhs => rw [← List.take_append_drop (i + 1) (range found nodes), hbefore]
  simp

end Range

/-- What stands between the heading of the features and a feature heading. -/
theorem upTo_of_mem_headings {nodes : List Node} {heading : Node} {place start : Nat}
    (h : (heading, place) ∈ headings nodes)
    (hstart : headingIndex? nodes sectionTitle = some start) :
    start < place ∧ ∀ before node after, upTo nodes start place = before ++ node :: after →
      endsFeatures (before.any isHeading) node = false := by
  obtain ⟨_, hother, hlt, hplace, -⟩ := mem_headings.mp h
  obtain rfl := Option.some.inj (hstart.symm.trans hother)
  refine ⟨hlt, ?_⟩
  have hends := not_endsFeatures_of_range hplace
  rw [show place - (start + 1) + 1 = place - start by omega] at hends
  simpa [upTo] using hends

/-- A place after the heading of a section is in the section when no node up to it ends the
section. -/
theorem mem_children_iff {nodes : List Node} {node : Node} {place start level : Nat}
    (hnode : nodes[place]? = some node) (hlt : start < place) :
    (node, place) ∈ ((nodes.drop (start + 1)).takeWhile (!·.endsSection level)).zipIdx (start + 1) ↔
      ∀ other ∈ upTo nodes start place, other.endsSection level = false := by
  have hplace : (nodes.drop (start + 1))[place - (start + 1)]? = some node := by
    rw [List.getElem?_drop, Nat.add_sub_cancel' hlt, hnode]
  rw [List.mk_mem_zipIdx_iff_le_and_getElem?_sub, getElem?_takeWhile, hplace,
    show place - (start + 1) + 1 = place - start by omega]
  simp [upTo, show start + 1 ≤ place from hlt]

/-- **The features and their section.** The source of a feature stands after the heading of the
features, with no heading of level one up to it, and no heading of level two with a general title
after the source of another feature. It is in the section of the heading of the features exactly
when no heading up to it ends that section, and so it is always there below a heading of level
one. -/
theorem extract_section (document : Document) (debt : Option Document) (features : List Feature)
    (h : extract document debt = .ok features) :
    ∃ start found, headingIndex? document.nodes sectionTitle = some start ∧
      findSection? document.nodes sectionTitle = some found ∧
      features.map (·.line) =
        (headings document.nodes).map (fun (heading, _) => some (heading.line : Int)) ∧
      (∀ heading place, (heading, place) ∈ headings document.nodes →
        start < place ∧ document.nodes[place]? = some heading ∧
        (∀ before node after, upTo document.nodes start place = before ++ node :: after →
          node.level? ≠ some 1 ∧
          (before.any isHeading = true → node.level? = some 2 →
            generalTitle.fits node.text = false)) ∧
        ((heading, place) ∈ found.children.zipIdx (start + 1) ↔
          ∀ node ∈ upTo document.nodes start place, node.endsSection found.level = false)) ∧
      (∀ content, Markdown.parse content = .ok document.nodes → found.level = 1 →
        ∀ source ∈ headings document.nodes, source ∈ found.children.zipIdx (start + 1)) := by
  obtain ⟨start, hstart, -, -⟩ := extract_ok.mp h
  obtain ⟨heading, level, hsection⟩ := exists_section hstart
  have hlines := map_extract h (f := (·.line)) (g := fun heading => some (heading.line : Int))
    fun _ _ _ => rfl
  refine ⟨start, _, hstart, hsection, hlines, ?_, ?_⟩
  · intro source place hsource
    obtain ⟨hlt, hends⟩ := upTo_of_mem_headings hsource hstart
    have hnode := getElem?_of_mem_headings hsource
    refine ⟨hlt, hnode, fun before node after hsplit => ?_, mem_children_iff hnode hlt⟩
    have hnot := hends before node after hsplit
    simp only [endsFeatures, Bool.or_eq_false_iff, decide_eq_false_iff_not] at hnot
    refine ⟨hnot.1, fun hfound htwo => ?_⟩
    simpa [hfound, htwo] using hnot.2
  · rintro content hparse rfl ⟨source, place⟩ hsource
    obtain ⟨hlt, hends⟩ := upTo_of_mem_headings hsource hstart
    apply (mem_children_iff (getElem?_of_mem_headings hsource) hlt).mpr
    intro node hnode
    cases hlevel : node.level? with
    | none => simp [Node.endsSection, hlevel]
    | some rank =>
      -- A heading has at least level one, and one of level one would end the features.
      have hpos := (heading_of_parse hparse (mem_of_mem_upTo hnode) hlevel).1
      obtain ⟨before, after, hsplit⟩ := List.append_of_mem hnode
      have hnot := hends before node after hsplit
      simp only [endsFeatures, hlevel, Bool.or_eq_false_iff, decide_eq_false_iff_not] at hnot
      have hrank : rank ≠ 1 := fun heq => hnot.1 (congrArg some heq)
      simp [Node.endsSection, hlevel]
      omega

/-- A document whose features stand under a heading of level two, before another of that level. -/
def siblingContent : String := "## Features\n### Search\n## Testing"

/-- The nodes of that document. -/
def siblingNodes : List Node :=
  [⟨.heading 2, "Features", 1⟩, ⟨.heading 3, "Search", 2⟩, ⟨.heading 2, "Testing", 3⟩]

theorem parse_siblingContent : Markdown.parse siblingContent = .ok siblingNodes := rfl

theorem extract_of_siblingNodes {document : Document} (h : document.nodes = siblingNodes) :
    extract document none =
      .ok (ofSpans none 1 [(⟨.heading 3, "Search", 2⟩, []), (⟨.heading 2, "Testing", 3⟩, [])]) := by
  have hstart : headingIndex? siblingNodes sectionTitle = some 0 := by decide
  have hspans : spans (range false (siblingNodes.drop 1)) =
      [(⟨.heading 3, "Search", 2⟩, []), (⟨.heading 2, "Testing", 3⟩, [])] := by decide
  rw [← h] at hstart hspans
  exact extract_of_spans hstart hspans (List.cons_ne_nil _ _)

theorem headings_siblingNodes : headings siblingNodes =
    [(⟨.heading 3, "Search", 2⟩, 1), (⟨.heading 2, "Testing", 3⟩, 2)] := by
  decide

theorem extract_section_sample : ∃ document features found,
    Document.parse siblingContent ⟨"/", ["spec.md"]⟩ "" = .ok document ∧
    extract document none = .ok features ∧
    findSection? document.nodes sectionTitle = some found ∧
    features.map (·.line) = [some 2, some 3] ∧
    (⟨.heading 3, "Search", 2⟩, 1) ∈ found.children.zipIdx 1 ∧
    (⟨.heading 2, "Testing", 3⟩, 2) ∉ found.children.zipIdx 1 := by
  obtain ⟨document, hparse, hnodes⟩ :=
    Document.exists_parse parse_siblingContent ⟨"/", ["spec.md"]⟩ ""
  have hextract := extract_of_siblingNodes hnodes
  obtain ⟨start, found, hstart, hfound, hlines, hplaces, -⟩ :=
    extract_section document none _ hextract
  rw [hnodes] at hstart hplaces hlines
  have hzero : headingIndex? siblingNodes sectionTitle = some 0 := by decide
  obtain rfl := Option.some.inj (hstart.symm.trans hzero)
  have hlevel : found.level = 2 := by
    have hlevel : (findSection? siblingNodes sectionTitle).map (·.level) = some 2 := by
      decide
    rw [← hnodes, hfound] at hlevel
    exact Option.some.inj hlevel
  rw [headings_siblingNodes] at hplaces hlines
  obtain ⟨-, -, -, hsearch⟩ := hplaces ⟨.heading 3, "Search", 2⟩ 1 (by decide)
  obtain ⟨-, -, -, htesting⟩ := hplaces ⟨.heading 2, "Testing", 3⟩ 2 (by decide)
  rw [hlevel] at hsearch htesting
  exact ⟨document, _, found, hparse, hextract, hfound, hlines, hsearch.mpr (by decide),
    fun h => absurd (htesting.mp h) (by decide)⟩

/-- The second feature of that document has its heading outside of the section. -/
theorem extract_beyond_section : ∃ document features feature found,
    Document.parse siblingContent ⟨"/", ["spec.md"]⟩ "" = .ok document ∧
    extract document none = .ok features ∧ feature ∈ features ∧
    findSection? document.nodes sectionTitle = some found ∧
    ∀ node ∈ found.children, feature.line ≠ some (node.line : Int) := by
  obtain ⟨document, hparse, hnodes⟩ :=
    Document.exists_parse parse_siblingContent ⟨"/", ["spec.md"]⟩ ""
  have hsection : findSection? siblingNodes sectionTitle =
      some ⟨⟨.heading 2, "Features", 1⟩, 2, [⟨.heading 3, "Search", 2⟩]⟩ := by decide
  refine ⟨document, _, _, _, hparse, extract_of_siblingNodes hnodes,
    List.mem_cons_of_mem _ List.mem_cons_self, hnodes ▸ hsection, ?_⟩
  intro node hnode
  rw [List.mem_singleton.mp hnode]
  decide

end SpecDraft.Feature
