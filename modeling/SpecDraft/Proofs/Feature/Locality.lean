import SpecDraft.Proofs.Feature.Spans

/-!
# Features are local

What a document says below the heading of a feature matters to that feature alone, and what it says
from the end of the features on matters to none (`extract_local`). A feature heading cuts the
document in two (`exists_cut`): the features before it are read from the nodes before it,
and those after it from the nodes after it.
-/
set_option autoImplicit false

namespace SpecDraft.Feature

open Markdown

/-- Whether a node is a heading of one of the first three levels, where the nodes of a feature
end. -/
def isBoundary (node : Node) : Bool := node.level? = some 1 || isHeading node

/-- The place where the features of a document end: that of the node that ends them, or the number
of nodes. -/
def endPlace? (nodes : List Node) : Option Nat :=
  (headingIndex? nodes sectionTitle).map fun start =>
    start + 1 + (range false (nodes.drop (start + 1))).length

section Inner
variable {inner : List Node} {node : Node}

theorem isHeading_of_inner (h : isBoundary node = false) : isHeading node = false := by
  rw [isBoundary, Bool.or_eq_false_iff] at h
  exact h.2

theorem not_endsFeatures_of_inner (h : isBoundary node = false) (found : Bool) :
    endsFeatures found node = false := by
  simp only [isBoundary, isHeading, Bool.or_eq_false_iff, decide_eq_false_iff_not] at h
  simp [endsFeatures, h]

/-- Nodes without a boundary neither end the range nor count as feature headings. -/
theorem range_append_of_inner (h : ∀ node ∈ inner, isBoundary node = false) (found : Bool)
    (rest : List Node) : range found (inner ++ rest) = inner ++ range found rest := by
  induction inner with
  | nil => rfl
  | cons first inner ih =>
    obtain ⟨hfirst, hinner⟩ := List.forall_mem_cons.mp h
    rw [List.cons_append, range_cons_of_not_ends (not_endsFeatures_of_inner hfirst found),
      isHeading_of_inner hfirst, Bool.or_false, ih hinner, List.cons_append]

theorem filter_isHeading_of_inner (h : ∀ node ∈ inner, isBoundary node = false) :
    inner.filter isHeading = [] :=
  List.filter_eq_nil_iff.mpr fun node hnode => by simp [isHeading_of_inner (h node hnode)]

end Inner

/-! ## Cutting a document at a feature heading -/

section Cut
variable {before after : List Node} {heading node : Node} {start : Nat}

/-- The heading of the features is found before anything that follows it. -/
theorem headingIndex?_append (h : headingIndex? (before ++ after) sectionTitle = some start)
    (hstart : start < before.length) (rest : List Node) :
    headingIndex? (before ++ rest) sectionTitle = some start := by
  unfold headingIndex? at h ⊢
  rw [List.findIdx?_append] at h ⊢
  cases hbefore : before.findIdx? (·.isHeadingFor sectionTitle) with
  | none =>
    rw [hbefore, Option.none_or, Option.map_eq_some_iff] at h
    obtain ⟨index, -, rfl⟩ := h
    omega
  | some index =>
    rw [hbefore] at h
    exact h

/-- **A feature heading is passed through**: whatever follows it, the nodes up to it are in the
range. -/
theorem range_of_heading (h : (heading, before.length) ∈ headings (before ++ node :: after)) :
    heading = node ∧ isHeading node = true ∧ ∃ start, start < before.length ∧ ∀ rest,
      headingIndex? (before ++ node :: rest) sectionTitle = some start ∧
      range false ((before ++ node :: rest).drop (start + 1)) =
        before.drop (start + 1) ++ node :: range true rest := by
  obtain ⟨start, hindex, hstart, hplace, hheading⟩ := mem_headings.mp h
  have hdrop (rest : List Node) : (before ++ node :: rest).drop (start + 1) =
      (before.drop (start + 1) ++ [node]) ++ rest := by
    rw [List.drop_append_of_le_length hstart, List.append_assoc, List.singleton_append]
  have hlength : (before.drop (start + 1) ++ [node]).length = before.length - (start + 1) + 1 := by
    rw [List.length_append, List.length_drop, List.length_singleton]
  rw [hdrop] at hplace
  have hwithin : (before.drop (start + 1) ++ [node]).length ≤
      (range false ((before.drop (start + 1) ++ [node]) ++ after)).length := by
    obtain ⟨hlt, -⟩ := List.getElem?_eq_some_iff.mp hplace
    omega
  have hrange := range_append hwithin
  have hnode : heading = node := by
    rw [hrange after, List.append_assoc, List.getElem?_append_right (by simp), List.length_drop,
      Nat.sub_self] at hplace
    exact (Option.some.inj hplace).symm
  subst hnode
  refine ⟨rfl, hheading, start, hstart, fun rest => ⟨headingIndex?_append hindex hstart _, ?_⟩⟩
  rw [hdrop, hrange rest, List.append_assoc, List.any_append, List.any_cons, hheading]
  simp

/-- **A feature heading cuts a document in two**: its features are those of the nodes before the
heading, the one of the heading, and those of the range after it. -/
theorem exists_cut (h : (heading, before.length) ∈ headings (before ++ heading :: after)) :
    ∃ (places : List (Node × Nat)) (earlier : List (Node × List Node)),
      places.length = earlier.length ∧ ∀ rest,
        headings (before ++ heading :: rest) = places ++ (heading, before.length) ::
          ((range true rest).zipIdx (before.length + 1)).filter (isHeading ·.1) ∧
        ∀ document : Document, document.nodes = before ++ heading :: rest → ∀ debt,
          extract document debt = .ok (ofSpans debt 1 earlier ++
            ofSpan debt (1 + earlier.length) heading
              ((range true rest).takeWhile (!isHeading ·)) ::
            ofSpans debt (1 + earlier.length + 1) (spans (range true rest))) := by
  obtain ⟨-, hheading, start, hstart, hrange⟩ := range_of_heading h
  refine ⟨((before.drop (start + 1)).zipIdx (start + 1)).filter (isHeading ·.1),
    spans (before.drop (start + 1)), ?_, fun rest => ?_⟩
  · rw [← List.length_map Prod.fst, map_fst_placed, ← map_fst_spans, List.length_map]
  · obtain ⟨hindex, hthrough⟩ := hrange rest
    have hspans := spans_append hheading (before.drop (start + 1)) (range true rest)
    refine ⟨?_, fun document hnodes debt => extract_ok.mpr ⟨start, ?_⟩⟩
    · have hplace : start + 1 + (before.length - (start + 1)) = before.length := by omega
      have hfirst : isHeading (heading, before.length).1 = true := hheading
      rw [headings, hindex]
      dsimp only
      rw [hthrough, List.zipIdx_append, List.filter_append, List.length_drop, hplace,
        List.zipIdx_cons, List.filter_cons, if_pos hfirst]
    · rw [hnodes, hthrough, hspans, ofSpans_append]
      exact ⟨hindex, by simp, rfl⟩

end Cut

/-! ## Documents that differ in part -/

section Replace
variable {document document' : Document} {debt : Option Document} {features : List Feature}
  {before after after' span new : List Node} {heading terminator terminator' : Node}

/-- Other nodes below the heading of a feature change that feature alone. -/
theorem extract_of_span_replaced (h : extract document debt = .ok features)
    (hnodes : document.nodes = before ++ heading :: (span ++ after))
    (hheading : (heading, before.length) ∈ headings document.nodes)
    (hspan : ∀ node ∈ span, isBoundary node = false)
    (hnew : ∀ node ∈ new, isBoundary node = false)
    (hnodes' : document'.nodes = before ++ heading :: (new ++ after)) :
    ∃ earlier changed changed' later,
      features = earlier ++ changed :: later ∧
      extract document' debt = .ok (earlier ++ changed' :: later) ∧
      (headings document.nodes)[earlier.length]? = some (heading, before.length) ∧
      (headings document'.nodes)[earlier.length]? = some (heading, before.length) ∧
      (headings document'.nodes).map Prod.fst = (headings document.nodes).map Prod.fst ∧
      changed'.id = changed.id ∧ changed'.name = changed.name ∧ changed'.slug = changed.slug ∧
      changed'.line = changed.line := by
  rw [hnodes] at hheading
  obtain ⟨places, earlier, hlength, hcut⟩ := exists_cut hheading
  obtain ⟨hplaces, hextract⟩ := hcut (span ++ after)
  obtain ⟨hplaces', hextract'⟩ := hcut (new ++ after)
  -- Both documents have the same range after the nodes that differ.
  rw [range_append_of_inner hspan] at hplaces hextract
  rw [range_append_of_inner hnew] at hplaces' hextract'
  rw [spans_append_of_plain fun node hnode => isHeading_of_inner (hspan node hnode)] at hextract
  rw [spans_append_of_plain fun node hnode => isHeading_of_inner (hnew node hnode)] at hextract'
  rw [← hnodes] at hplaces
  rw [← hnodes'] at hplaces'
  have hplace : (ofSpans debt 1 earlier).length = places.length := by rw [length_ofSpans, hlength]
  refine ⟨ofSpans debt 1 earlier, _, _, _, Except.ok.inj (h.symm.trans (hextract _ hnodes debt)),
    hextract' _ hnodes' debt, ?_, ?_, ?_, rfl, rfl, rfl, rfl⟩
  · rw [hplaces, hplace, List.getElem?_append_right (Nat.le_refl _), Nat.sub_self,
      List.getElem?_cons_zero]
  · rw [hplaces', hplace, List.getElem?_append_right (Nat.le_refl _), Nat.sub_self,
      List.getElem?_cons_zero]
  · rw [hplaces, hplaces', List.map_append, List.map_append, List.map_cons, List.map_cons,
      map_fst_placed, map_fst_placed, List.filter_append, List.filter_append,
      filter_isHeading_of_inner hspan, filter_isHeading_of_inner hnew]

theorem range_cons_of_top (h : terminator.level? = some 1) (found : Bool) (rest : List Node) :
    range found (terminator :: rest) = [] :=
  range_cons_of_ends (by simp [endsFeatures, h]) rest

/-- Other nodes from the end of the features on change nothing. -/
theorem extract_of_end_replaced (h : extract document debt = .ok features)
    (hnodes : document.nodes = before ++ terminator :: after)
    (hend : endPlace? document.nodes = some before.length) (hlevel : terminator.level? = some 1)
    (hnodes' : document'.nodes = before ++ terminator' :: after')
    (hlevel' : terminator'.level? = some 1) :
    extract document' debt = .ok features ∧ headings document'.nodes = headings document.nodes := by
  obtain ⟨start, hindex, hplace⟩ := Option.map_eq_some_iff.mp hend
  have hstart : start < before.length := by omega
  have hdrop (rest : List Node) :
      (before ++ rest).drop (start + 1) = before.drop (start + 1) ++ rest :=
    List.drop_append_of_le_length hstart
  rw [hnodes, hdrop] at hplace
  have hwithin : (before.drop (start + 1)).length ≤
      (range false (before.drop (start + 1) ++ terminator :: after)).length := by
    rw [List.length_drop]
    omega
  -- Both ranges are the nodes between the heading of the features and the end.
  have hsame : range false (document'.nodes.drop (start + 1)) =
      range false (document.nodes.drop (start + 1)) := by
    rw [hnodes, hnodes', hdrop, hdrop, range_append hwithin, range_append hwithin,
      range_cons_of_top hlevel, range_cons_of_top hlevel']
  have hindex' : headingIndex? document'.nodes sectionTitle = some start := by
    rw [hnodes] at hindex
    rw [hnodes']
    exact headingIndex?_append hindex hstart _
  obtain ⟨_, hother, hfound, rfl⟩ := extract_ok.mp h
  obtain rfl := Option.some.inj (hindex.symm.trans hother)
  refine ⟨extract_ok.mpr ⟨start, hindex', ?_⟩, ?_⟩
  · rw [hsame]
    exact ⟨hfound, rfl⟩
  · rw [headings, headings, hindex, hindex']
    dsimp only
    rw [hsame]

end Replace

/-- **Features are local.** Other nodes below the heading of a feature, up to the next boundary,
leave every other feature as it is, and of that feature the identifier, the name, the slug and the
heading; other nodes from the heading of level one on that ends the features leave all of them as
they are. -/
theorem extract_local (document document' : Document) (debt : Option Document)
    (features : List Feature) (h : extract document debt = .ok features) :
    (∀ before heading span new after,
      document.nodes = before ++ heading :: (span ++ after) →
      (heading, before.length) ∈ headings document.nodes →
      (∀ node ∈ span, isBoundary node = false) → (∀ node ∈ new, isBoundary node = false) →
      document'.nodes = before ++ heading :: (new ++ after) →
      ∃ earlier changed changed' later,
        features = earlier ++ changed :: later ∧
        extract document' debt = .ok (earlier ++ changed' :: later) ∧
        (headings document.nodes)[earlier.length]? = some (heading, before.length) ∧
        (headings document'.nodes)[earlier.length]? = some (heading, before.length) ∧
        (headings document'.nodes).map Prod.fst = (headings document.nodes).map Prod.fst ∧
        changed'.id = changed.id ∧ changed'.name = changed.name ∧ changed'.slug = changed.slug ∧
        changed'.line = changed.line) ∧
    (∀ before terminator after terminator' after',
      document.nodes = before ++ terminator :: after →
      endPlace? document.nodes = some before.length → terminator.level? = some 1 →
      document'.nodes = before ++ terminator' :: after' → terminator'.level? = some 1 →
      extract document' debt = .ok features ∧
        headings document'.nodes = headings document.nodes) :=
  ⟨fun _ _ _ _ _ hnodes hheading hspan hnew hnodes' =>
      extract_of_span_replaced h hnodes hheading hspan hnew hnodes',
    fun _ _ _ _ _ hnodes hend hlevel hnodes' hlevel' =>
      extract_of_end_replaced h hnodes hend hlevel hnodes' hlevel'⟩

/-- A document with the given nodes below the heading of its second feature and from the end of its
features on. -/
def sampleDocument (span rest : List Node) : Document where
  path := ⟨"/", ["spec.md"]⟩
  content := ""
  nodes := [⟨.heading 2, "Features", 1⟩, ⟨.heading 3, "Search", 2⟩,
    ⟨.paragraph, "Find anything across the catalog.", 3⟩, ⟨.heading 3, "Export", 4⟩] ++
    (span ++ rest)
  metadata := ⟨"spec.md", 0, "", ""⟩

/-- What the sample document says of its second feature, under a heading of level four. -/
def sampleSpan : List Node :=
  [⟨.heading 4, "Acceptance Criteria", 5⟩, ⟨.item false 0, "[x] Reports are written", 6⟩]

/-- The heading that ends the features of the sample document, and what follows it. -/
def sampleRest : List Node := [⟨.heading 1, "Appendix", 7⟩, ⟨.heading 2, "Glossary", 8⟩]

theorem sample_headings : headings (sampleDocument sampleSpan sampleRest).nodes =
    [(⟨.heading 3, "Search", 2⟩, 1), (⟨.heading 3, "Export", 4⟩, 3)] := by
  decide

theorem sample_extract : ∃ features,
    extract (sampleDocument sampleSpan sampleRest) none = .ok features := by
  have hindex : headingIndex? (sampleDocument sampleSpan sampleRest).nodes sectionTitle =
      some 0 := by
    decide
  have hspans : spans (range false ((sampleDocument sampleSpan sampleRest).nodes.drop 1)) ≠ [] := by
    decide
  exact ⟨_, extract_ok.mpr ⟨0, hindex, hspans, rfl⟩⟩

theorem extract_local_sample : ∃ earlier changed changed' later,
    extract (sampleDocument sampleSpan sampleRest) none = .ok (earlier ++ changed :: later) ∧
    extract (sampleDocument [] sampleRest) none = .ok (earlier ++ changed' :: later) ∧
    earlier.length = 1 ∧ changed'.id = changed.id ∧ changed'.line = changed.line ∧
    extract (sampleDocument sampleSpan [⟨.heading 1, "Overview", 9⟩]) none =
      .ok (earlier ++ changed :: later) := by
  obtain ⟨features, h⟩ := sample_extract
  have hmem : (⟨.heading 3, "Export", 4⟩, 3) ∈
      headings (sampleDocument sampleSpan sampleRest).nodes := by
    rw [sample_headings]
    decide
  obtain ⟨earlier, changed, changed', later, rfl, h', hplace, -, -, hid, -, -, hline⟩ :=
    (extract_local _ (sampleDocument [] sampleRest) none features h).1
      ((sampleDocument [] []).nodes.take 3) ⟨.heading 3, "Export", 4⟩ sampleSpan [] sampleRest rfl
      hmem (by decide) (by decide) rfl
  have hend :=
    (extract_local _ (sampleDocument sampleSpan [⟨.heading 1, "Overview", 9⟩]) none _ h).2
      (sampleDocument sampleSpan []).nodes ⟨.heading 1, "Appendix", 7⟩ [⟨.heading 2, "Glossary", 8⟩]
      ⟨.heading 1, "Overview", 9⟩ [] (by simp [sampleDocument, sampleRest])
      (by decide) rfl (by simp [sampleDocument]) rfl
  have hearlier : earlier.length = 1 := by
    rw [sample_headings] at hplace
    rcases hlength : earlier.length with _ | _ | n
    · simp [hlength] at hplace
    · rfl
    · simp [hlength] at hplace
  exact ⟨earlier, changed, changed', later, h, h', hearlier, hid, hline, hend.1⟩

end SpecDraft.Feature
