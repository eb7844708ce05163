import SpecDraft.Feature.Extract
import SpecDraft.Proofs.Markdown.Section

/-!
# The headings of features

Where the features of a document come from. Every feature has a heading of its own, in the range
that starts after the heading of the features (`map_extract`), and the nodes that belong to it
are cut at the next heading (`spans_append`).
-/
set_option autoImplicit false

namespace SpecDraft.Feature

open Markdown

/-- The feature headings of a document, in order, each with its place in the document. -/
def headings (nodes : List Node) : List (Node × Nat) :=
  match headingIndex? nodes sectionTitle with
  | none => []
  | some start =>
    ((range false (nodes.drop (start + 1))).zipIdx (start + 1)).filter (isHeading ·.1)

theorem isHeading_iff {node : Node} :
    isHeading node = true ↔ ∃ level, node.level? = some level ∧ (level = 2 ∨ level = 3) := by
  rw [isHeading, Bool.or_eq_true, decide_eq_true_iff, decide_eq_true_iff]
  constructor
  · rintro (h | h)
    · exact ⟨2, h, .inl rfl⟩
    · exact ⟨3, h, .inr rfl⟩
  · rintro ⟨level, h, rfl | rfl⟩
    · exact .inl h
    · exact .inr h

/-! ## The range -/

section Range
variable {nodes before after : List Node} {node : Node} {found : Bool}

theorem range_cons_of_ends (h : endsFeatures found node = true) (nodes : List Node) :
    range found (node :: nodes) = [] := if_pos h

theorem range_cons_of_not_ends (h : endsFeatures found node = false) (nodes : List Node) :
    range found (node :: nodes) = node :: range (found || isHeading node) nodes :=
  if_neg (by simp [h])

/-- **Where the range ends**: it is a start of the document, none of its nodes ends it, and the node
after it does. -/
theorem range_spec (found : Bool) (nodes : List Node) : ∃ after, nodes = range found nodes ++ after ∧
    (∀ before node rest, range found nodes = before ++ node :: rest →
      endsFeatures (found || before.any isHeading) node = false) ∧
    ∀ node ∈ after.head?, endsFeatures (found || (range found nodes).any isHeading) node = true := by
  induction nodes generalizing found with
  | nil => exact ⟨[], rfl, by simp [range], by simp⟩
  | cons first nodes ih =>
    cases hends : endsFeatures found first with
    | true =>
      rw [range_cons_of_ends hends]
      exact ⟨first :: nodes, rfl, by simp, by simp [hends]⟩
    | false =>
      rw [range_cons_of_not_ends hends]
      obtain ⟨after, hsplit, hinner, hafter⟩ := ih (found || isHeading first)
      refine ⟨after, congrArg (first :: ·) hsplit, ?_, ?_⟩
      · intro before node rest h
        cases before with
        | nil =>
          obtain ⟨rfl, -⟩ := List.cons.inj h
          simpa using hends
        | cons b before =>
          obtain ⟨rfl, hrest⟩ := List.cons.inj h
          rw [List.any_cons, ← Bool.or_assoc]
          exact hinner before node rest hrest
      · rw [List.any_cons, ← Bool.or_assoc]
        exact hafter

/-- The range is a start of the document. -/
theorem range_prefix_nodes (found : Bool) (nodes : List Node) : range found nodes <+: nodes := by
  obtain ⟨after, hsplit, -, -⟩ := range_spec found nodes
  exact ⟨after, hsplit.symm⟩

/-- Nodes of which none ends the features, before one that does, are the range. -/
theorem range_eq {inside : List Node}
    (hinner : ∀ before node rest, inside = before ++ node :: rest →
      endsFeatures (found || before.any isHeading) node = false)
    (hafter : ∀ node ∈ after.head?, endsFeatures (found || inside.any isHeading) node = true) :
    range found (inside ++ after) = inside := by
  induction inside generalizing found with
  | nil =>
    cases after with
    | nil => rfl
    | cons node after => exact range_cons_of_ends (by simpa using hafter) after
  | cons first inside ih =>
    have hfirst : endsFeatures found first = false := by simpa using hinner [] first inside rfl
    rw [List.cons_append, range_cons_of_not_ends hfirst, ih]
    · intro before node rest h
      rw [Bool.or_assoc, ← List.any_cons]
      exact hinner (first :: before) node rest (congrArg (first :: ·) h)
    · rw [Bool.or_assoc, ← List.any_cons]
      exact hafter

/-- **Nodes within the range**: whatever follows them, the range goes on from there. -/
theorem range_append (h : before.length ≤ (range found (before ++ after)).length)
    (rest : List Node) :
    range found (before ++ rest) = before ++ range (found || before.any isHeading) rest := by
  induction before generalizing found with
  | nil => simp
  | cons first before ih =>
    rw [List.cons_append] at h ⊢
    cases hends : endsFeatures found first with
    | true =>
      rw [range_cons_of_ends hends] at h
      exact absurd h (Nat.not_succ_le_zero _)
    | false =>
      rw [range_cons_of_not_ends hends] at h ⊢
      rw [ih (Nat.le_of_succ_le_succ h), List.any_cons, Bool.or_assoc, List.cons_append]

end Range

/-! ## Spans -/

section Spans
variable {nodes before after : List Node} {heading : Node}

theorem spans_cons_heading (h : isHeading heading = true) (nodes : List Node) :
    spans (heading :: nodes) = (heading, nodes.takeWhile (!isHeading ·)) :: spans nodes := if_pos h

theorem spans_cons_plain {node : Node} (h : isHeading node = false) (nodes : List Node) :
    spans (node :: nodes) = spans nodes := if_neg (by simp [h])

/-- **A feature heading separates**: what precedes it has spans of its own, and so has what
follows it. -/
theorem spans_append (h : isHeading heading = true) (before after : List Node) :
    spans (before ++ heading :: after) =
      spans before ++ (heading, after.takeWhile (!isHeading ·)) :: spans after := by
  induction before with
  | nil => exact spans_cons_heading h after
  | cons first before ih =>
    rw [List.cons_append]
    cases hfirst : isHeading first with
    | true =>
      have hspan : (before ++ heading :: after).takeWhile (!isHeading ·) =
          before.takeWhile (!isHeading ·) :=
        takeWhile_append_of_head (by simp [h])
      rw [spans_cons_heading hfirst, spans_cons_heading hfirst, hspan, ih, List.cons_append]
    | false => rw [spans_cons_plain hfirst, spans_cons_plain hfirst, ih]

/-- Nodes without a feature heading make no spans. -/
theorem spans_append_of_plain (h : ∀ node ∈ before, isHeading node = false) (after : List Node) :
    spans (before ++ after) = spans after := by
  induction before with
  | nil => rfl
  | cons first before ih =>
    obtain ⟨hfirst, hbefore⟩ := List.forall_mem_cons.mp h
    rw [List.cons_append, spans_cons_plain hfirst, ih hbefore]

theorem map_fst_spans (nodes : List Node) :
    (spans nodes).map Prod.fst = nodes.filter isHeading := by
  induction nodes with
  | nil => rfl
  | cons node nodes ih =>
    cases hnode : isHeading node with
    | true => rw [spans_cons_heading hnode, List.map_cons, ih, List.filter_cons_of_pos hnode]
    | false => rw [spans_cons_plain hnode, ih, List.filter_cons_of_neg (by simp [hnode])]

end Spans

/-! ## Features -/

section Extract
variable {document : Document} {debt : Option Document} {features : List Feature}

theorem ofSpans_append (place : Nat) (a b : List (Node × List Node)) :
    ofSpans debt place (a ++ b) = ofSpans debt place a ++ ofSpans debt (place + a.length) b := by
  induction a generalizing place with
  | nil => rfl
  | cons first a ih =>
    rw [List.cons_append, ofSpans, ofSpans, ih, List.length_cons, List.cons_append,
      Nat.add_right_comm, Nat.add_assoc]

theorem length_ofSpans (place : Nat) (found : List (Node × List Node)) :
    (ofSpans debt place found).length = found.length := by
  induction found generalizing place with
  | nil => rfl
  | cons first found ih => exact congrArg (· + 1) (ih (place + 1))

/-- What depends on the headings alone is read off the headings. -/
theorem map_ofSpans {β : Type} {f : Feature → β} {g : Node → β}
    (h : ∀ place heading span, f (ofSpan debt place heading span) = g heading) (place : Nat)
    (found : List (Node × List Node)) :
    (ofSpans debt place found).map f = (found.map Prod.fst).map g := by
  induction found generalizing place with
  | nil => rfl
  | cons first found ih => rw [ofSpans, List.map_cons, h, ih, List.map_cons, List.map_cons]

/-- A document has features when it has a heading for them and there are feature headings after
it. -/
theorem extract_ok : extract document debt = .ok features ↔
    ∃ start, headingIndex? document.nodes sectionTitle = some start ∧
      spans (range false (document.nodes.drop (start + 1))) ≠ [] ∧
      features = ofSpans debt 1 (spans (range false (document.nodes.drop (start + 1)))) := by
  rw [extract, afterHeading?]
  cases headingIndex? document.nodes sectionTitle with
  | none => exact ⟨fun h => (by cases h), fun ⟨_, h, _⟩ => (by cases h)⟩
  | some start =>
    rw [Option.map_some]
    dsimp only
    constructor
    · intro h
      split at h
      · cases h
      · rename_i hfound
        exact ⟨start, rfl, hfound, (Except.ok.inj h).symm⟩
    · rintro ⟨_, ⟨⟩, hfound, rfl⟩
      split
      · rename_i hnone
        exact absurd hnone hfound
      · rfl

theorem extract_of_spans {start : Nat} {found : List (Node × List Node)}
    (hstart : headingIndex? document.nodes sectionTitle = some start)
    (hspans : spans (range false (document.nodes.drop (start + 1))) = found) (hne : found ≠ []) :
    extract document debt = .ok (ofSpans debt 1 found) := by
  subst hspans
  exact extract_ok.mpr ⟨start, hstart, hne, rfl⟩

/-- A feature heading stands after the heading of the features, within the range. -/
theorem mem_headings {heading : Node} {place : Nat} {nodes : List Node} :
    (heading, place) ∈ headings nodes ↔ ∃ start, headingIndex? nodes sectionTitle = some start ∧
      start < place ∧
      (range false (nodes.drop (start + 1)))[place - (start + 1)]? = some heading ∧
      isHeading heading = true := by
  rw [headings]
  cases headingIndex? nodes sectionTitle with
  | none => simp
  | some start =>
    simp only [List.mem_filter, List.mk_mem_zipIdx_iff_le_and_getElem?_sub, Option.some.injEq,
      exists_eq_left', Nat.succ_le_iff, and_assoc]

theorem getElem?_of_mem_headings {heading : Node} {place : Nat} {nodes : List Node}
    (h : (heading, place) ∈ headings nodes) : nodes[place]? = some heading := by
  obtain ⟨start, -, hstart, hplace, -⟩ := mem_headings.mp h
  obtain ⟨hlt, rfl⟩ := List.getElem?_eq_some_iff.mp hplace
  have hsame := List.prefix_iff_getElem?.mp (range_prefix_nodes false (nodes.drop (start + 1))) _ hlt
  rwa [List.getElem?_drop, Nat.add_sub_cancel' hstart] at hsame

theorem map_fst_placed (first : Nat) (nodes : List Node) :
    ((nodes.zipIdx first).filter (isHeading ·.1)).map Prod.fst = nodes.filter isHeading :=
  List.filter_map.symm.trans (congrArg (List.filter isHeading) (List.zipIdx_map_fst ..))

theorem map_fst_headings {start : Nat} {nodes : List Node}
    (h : headingIndex? nodes sectionTitle = some start) :
    (headings nodes).map Prod.fst = (range false (nodes.drop (start + 1))).filter isHeading := by
  rw [headings, h]
  exact map_fst_placed ..

/-- **Every feature has a heading of its own**: the features are read from the feature headings of
the document, one from each, in their order. -/
theorem map_extract (h : extract document debt = .ok features) {β : Type} {f : Feature → β}
    {g : Node → β} (hf : ∀ place heading span, f (ofSpan debt place heading span) = g heading) :
    features.map f = (headings document.nodes).map fun (heading, _) => g heading := by
  obtain ⟨start, hstart, -, rfl⟩ := extract_ok.mp h
  rw [map_ofSpans hf, map_fst_spans, ← map_fst_headings hstart, List.map_map]
  rfl

theorem mem_ofSpans {feature : Feature} {place : Nat} {found : List (Node × List Node)}
    (h : feature ∈ ofSpans debt place found) :
    ∃ number heading span, (heading, span) ∈ found ∧
      feature = ofSpan debt number heading span := by
  induction found generalizing place with
  | nil => cases h
  | cons first found ih =>
    rcases List.mem_cons.mp h with rfl | h
    · exact ⟨place, first.1, first.2, List.mem_cons_self, rfl⟩
    · obtain ⟨number, heading, span, hmem, rfl⟩ := ih h
      exact ⟨number, heading, span, List.mem_cons_of_mem _ hmem, rfl⟩

/-- A feature is read from a feature heading of the document. -/
theorem exists_heading {feature : Feature} (h : extract document debt = .ok features)
    (hfeature : feature ∈ features) :
    ∃ heading place number span, (heading, place) ∈ headings document.nodes ∧
      feature = ofSpan debt number heading span := by
  obtain ⟨start, hstart, -, rfl⟩ := extract_ok.mp h
  obtain ⟨number, heading, span, hmem, rfl⟩ := mem_ofSpans hfeature
  have hheading := List.mem_map_of_mem (f := Prod.fst) hmem
  rw [map_fst_spans, ← map_fst_headings hstart] at hheading
  obtain ⟨⟨_, place⟩, hplace, rfl⟩ := List.mem_map.mp hheading
  exact ⟨_, place, number, span, hplace, rfl⟩

end Extract
end SpecDraft.Feature
