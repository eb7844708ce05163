import SpecDraft.Proofs.Feature.Naming
import SpecDraft.Proofs.Markdown.Heading

/-!
# The features and their range

The features of a document are read from one range of its nodes, which a reader can tell without
the program (`Ranged`). The range is cut at its feature headings: each of them starts a feature, and
from the first one on every node belongs to one feature (`flatMap_spans`). So no story of the range
is lost, and none is told twice (`extract_partition`).
-/
set_option autoImplicit false

namespace SpecDraft.Feature

open Markdown

/-! ## The range of the features -/

/-- Whether a node ends the features after some nodes of their range: a heading of level one, or one
of level two with a general title after a feature heading. -/
def Ends (earlier : List Node) (node : Node) : Prop :=
  node.level? = some 1 ∨ node.level? = some 2 ∧ generalTitle.fits node.text = true ∧
    ∃ heading ∈ earlier, heading.level? = some 2 ∨ heading.level? = some 3

/-- The nodes after the first heading of the features, up to the first one that ends them. -/
def Ranged (nodes inside : List Node) : Prop :=
  ∃ before heading after, nodes = before ++ heading :: (inside ++ after) ∧
    heading.isHeadingFor sectionTitle = true ∧
    (∀ node ∈ before, node.isHeadingFor sectionTitle = false) ∧
    (∀ earlier node later, inside = earlier ++ node :: later → ¬ Ends earlier node) ∧
    ∀ node ∈ after.head?, Ends inside node

theorem endsFeatures_iff {earlier : List Node} {node : Node} :
    endsFeatures (earlier.any isHeading) node = true ↔ Ends earlier node := by
  have hfound : earlier.any isHeading = true ↔
      ∃ heading ∈ earlier, heading.level? = some 2 ∨ heading.level? = some 3 := by
    simp [isHeading]
  rw [endsFeatures, Bool.or_eq_true, Bool.and_eq_true, Bool.and_eq_true, hfound,
    decide_eq_true_iff, decide_eq_true_iff, Ends, and_assoc, and_comm (b := _ = true)]

/-- The range is what the program reads. -/
theorem ranged_iff {nodes inside : List Node} : Ranged nodes inside ↔
    ∃ start, headingIndex? nodes sectionTitle = some start ∧
      inside = range false (nodes.drop (start + 1)) := by
  constructor
  · rintro ⟨before, heading, after, rfl, hheading, hbefore, hinner, hafter⟩
    have hstart : headingIndex? (before ++ heading :: (inside ++ after)) sectionTitle =
        some before.length :=
      headingIndex?_eq_some_iff.mpr ⟨before, heading, _, rfl, rfl, hheading, hbefore⟩
    have hdrop : (before ++ heading :: (inside ++ after)).drop (before.length + 1) =
        inside ++ after := by
      simp
    refine ⟨before.length, hstart, ?_⟩
    rw [hdrop, range_eq]
    · intro earlier node later h
      have hnot := hinner earlier node later h
      rwa [← endsFeatures_iff, Bool.not_eq_true] at hnot
    · intro node hnode
      exact endsFeatures_iff.mpr (hafter node hnode)
  · rintro ⟨start, hstart, rfl⟩
    obtain ⟨before, heading, rest, rfl, rfl, hheading, hbefore⟩ :=
      headingIndex?_eq_some_iff.mp hstart
    have hdrop : (before ++ heading :: rest).drop (before.length + 1) = rest := by simp
    rw [hdrop]
    obtain ⟨after, hsplit, hinner, hafter⟩ := range_spec false rest
    refine ⟨before, heading, after, by rw [← hsplit], hheading, hbefore, ?_, ?_⟩
    · intro earlier node later h
      rw [← endsFeatures_iff, Bool.not_eq_true]
      exact hinner earlier node later h
    · intro node hnode
      exact endsFeatures_iff.mp (hafter node hnode)

/-! ## The parts of the range -/

/-- **The spans are a partition**: from the first feature heading on, every node belongs to one of
them, and they stand in order. -/
theorem flatMap_spans (nodes : List Node) :
    (spans nodes).flatMap (fun (heading, span) => heading :: span) =
      nodes.dropWhile (!isHeading ·) := by
  induction nodes with
  | nil => rfl
  | cons node nodes ih =>
    cases hnode : isHeading node with
    | true =>
      rw [spans_cons_heading hnode, List.flatMap_cons, ih, List.cons_append,
        List.takeWhile_append_dropWhile, List.dropWhile_cons_of_neg (by simp [hnode])]
    | false => rw [spans_cons_plain hnode, ih, List.dropWhile_cons_of_pos (by simp [hnode])]

theorem isHeading_of_mem_spans {nodes : List Node} {pair : Node × List Node}
    (h : pair ∈ spans nodes) : isHeading pair.1 = true := by
  have hmem := List.mem_map_of_mem (f := Prod.fst) h
  rw [map_fst_spans] at hmem
  exact (List.mem_filter.mp hmem).2

/-- A feature heading tells no story. -/
theorem ofNode?_of_isHeading {node : Node} (h : isHeading node = true) :
    UserStory.ofNode? node = none := by
  obtain ⟨level, hlevel, -⟩ := isHeading_iff.mp h
  simp [UserStory.ofNode?, Node.isParagraph, Node.isItem, kind_of_level? hlevel]

/-- The stories of features are those of their spans. -/
theorem flatMap_stories_ofSpans (debt : Option Document) (place : Nat)
    (found : List (Node × List Node)) :
    (ofSpans debt place found).flatMap (·.stories) =
      found.flatMap fun (_, span) => UserStory.ofNodes span := by
  induction found generalizing place with
  | nil => rfl
  | cons pair found ih => exact congrArg (UserStory.ofNodes pair.2 ++ ·) (ih (place + 1))

/-- **No story is lost and none is told twice**: the spans tell the stories of all nodes from the
first feature heading on. -/
theorem flatMap_stories_spans (nodes : List Node) :
    (spans nodes).flatMap (fun (_, span) => UserStory.ofNodes span) =
      UserStory.ofNodes (nodes.dropWhile (!isHeading ·)) := by
  have hspan : ∀ pair ∈ spans nodes,
      UserStory.ofNodes pair.2 = (pair.1 :: pair.2).filterMap UserStory.ofNode? := by
    intro pair hpair
    rw [List.filterMap_cons_none (ofNode?_of_isHeading (isHeading_of_mem_spans hpair))]
    rfl
  rw [← flatMap_spans, UserStory.ofNodes, List.filterMap_flatMap]
  exact List.flatMap_congr hspan

/-! ## The features of a document -/

/-- Whether features partition the nodes of a range: they stand for its parts, one for each feature
heading with the nodes up to the next one, and they are counted. -/
structure Partitioned (inside : List Node) (features : List Feature) : Prop where
  /-- The parts start at the feature headings, and make up the range from the first of them on. Each
  has its feature, in order, with the line of the heading and the stories of the part. -/
  parts : ∃ parts : List (Node × List Node),
    parts.map Prod.fst = inside.filter isHeading ∧
    parts.flatMap (fun (heading, span) => heading :: span) = inside.dropWhile (!isHeading ·) ∧
    List.Forall₂ (fun feature (heading, span) =>
      feature.line = some (heading.line : Int) ∧ feature.name = Text.strip heading.text ∧
        feature.stories = UserStory.ofNodes span) features parts
  /-- The identifiers count the features, with three digits at least. -/
  ids : features.map (·.id.toList) = (List.range' 1 features.length).map fun place =>
    List.replicate (3 - (Nat.toDigits 10 place).length) '0' ++ Nat.toDigits 10 place
  /-- The stories are those of the paragraphs and items from the first feature heading on. -/
  stories : features.flatMap (·.stories) =
    ((inside.dropWhile (!isHeading ·)).filter fun node => node.isParagraph || node.isItem).filterMap
      (UserStory.ofText? ·.text)

theorem toList_idAt (place : Nat) : (idAt place).toList =
    List.replicate (3 - (Nat.toDigits 10 place).length) '0' ++ Nat.toDigits 10 place := by
  rw [idAt, Moment.padded, String.toList_append, Json.Reader.toList_zeros,
    Json.Reader.toList_digitText, ← String.length_toList, Json.Reader.toList_digitText]

theorem forall₂_ofSpans (debt : Option Document) (place : Nat) (found : List (Node × List Node)) :
    List.Forall₂ (fun feature (heading, span) =>
      feature.line = some (heading.line : Int) ∧ feature.name = Text.strip heading.text ∧
        feature.stories = UserStory.ofNodes span) (ofSpans debt place found) found := by
  induction found generalizing place with
  | nil => exact .nil
  | cons pair found ih => exact .cons ⟨rfl, rfl, rfl⟩ (ih (place + 1))

theorem ofNodes_eq (nodes : List Node) : UserStory.ofNodes nodes =
    (nodes.filter fun node => node.isParagraph || node.isItem).filterMap
      (UserStory.ofText? ·.text) := by
  rw [UserStory.ofNodes, List.filterMap_filter]
  rfl

theorem partitioned_ofSpans (debt : Option Document) (inside : List Node) :
    Partitioned inside (ofSpans debt 1 (spans inside)) where
  parts := ⟨spans inside, map_fst_spans inside, flatMap_spans inside, forall₂_ofSpans debt 1 _⟩
  ids := by
    have hids : (ofSpans debt 1 (spans inside)).map (·.id) =
        (List.range' 1 (spans inside).length).map idAt := ids_ofSpans 1 (spans inside)
    have htexts := congrArg (List.map String.toList) hids
    rw [List.map_map, List.map_map] at htexts
    rw [length_ofSpans]
    exact htexts.trans (List.map_congr_left fun place _ => toList_idAt place)
  stories := by rw [flatMap_stories_ofSpans, flatMap_stories_spans, ofNodes_eq]

/-- **Features partition their range.** The features of a document come from one range of its nodes,
which is cut at the feature headings. Where the document was read from a text, they stand in
increasing lines. -/
theorem extract_partition (document : Document) (debt : Option Document) (features : List Feature)
    (h : extract document debt = .ok features) :
    ∃ inside, (∀ nodes, Ranged document.nodes nodes ↔ nodes = inside) ∧ Partitioned inside features ∧
      ∀ content, Markdown.parse content = .ok document.nodes →
        ∃ lines : List Int, features.map (·.line) = lines.map some ∧ lines.Pairwise (· < ·) := by
  obtain ⟨start, hstart, -, hfeatures⟩ := extract_ok.mp h
  generalize hinside : range false (document.nodes.drop (start + 1)) = inside at hfeatures
  subst hfeatures
  refine ⟨inside, fun nodes => ?_, partitioned_ofSpans debt inside, fun content hparse => ?_⟩
  · rw [ranged_iff, hstart, ← hinside]
    simp
  · refine ⟨(inside.filter isHeading).map fun heading => (heading.line : Int), ?_, ?_⟩
    · rw [map_ofSpans (g := fun heading => some (heading.line : Int)) fun _ _ _ => rfl,
        map_fst_spans, List.map_map]
      rfl
    · -- The headings of the range stand in the order of the document.
      have hsublist : (inside.filter isHeading).Sublist document.nodes := by
        rw [← hinside]
        exact List.filter_sublist.trans
          ((range_prefix_nodes false _).sublist.trans (List.drop_sublist _ _))
      rw [List.pairwise_map]
      exact ((ordered_of_parse hparse).sublist hsublist).imp Int.ofNat_lt.mpr

/-- A document with two features, each of which tells a story. A story before the first feature
heading and one after the range belong to no feature. -/
def toldContent : String :=
  "## Features\nAs a team, I want a list, so that we agree.\n### Search\n" ++
  "As a reader, I want to find notes, so that none is lost.\n## Export\n" ++
  "- As a writer, I want a copy, so that I can share it.\n## Summary\n" ++
  "As a team, I want an end, so that we are done."

/-- The range of that document. -/
def toldRange : List Node :=
  [⟨.paragraph, "As a team, I want a list, so that we agree.", 2⟩, ⟨.heading 3, "Search", 3⟩,
    ⟨.paragraph, "As a reader, I want to find notes, so that none is lost.", 4⟩,
    ⟨.heading 2, "Export", 5⟩,
    ⟨.item false 0, "As a writer, I want a copy, so that I can share it.", 6⟩]

/-- The nodes of that document. -/
def toldNodes : List Node :=
  ⟨.heading 2, "Features", 1⟩ :: toldRange ++ [⟨.heading 2, "Summary", 7⟩,
    ⟨.paragraph, "As a team, I want an end, so that we are done.", 8⟩]

theorem parse_toldContent : Markdown.parse toldContent = .ok toldNodes :=
  parse_of_toOption (by decide +kernel)

theorem extract_partition_told : ∃ document features,
    Document.parse toldContent ⟨"/", ["spec.md"]⟩ "" = .ok document ∧
    extract document none = .ok features ∧
    features.map (·.id.toList) = ["001".toList, "002".toList] ∧
    features.map (·.line) = [some 3, some 5] ∧
    (features.flatMap (·.stories)).map (·.goal) = ["to find notes", "a copy"] := by
  obtain ⟨document, hparse, hnodes⟩ :=
    Document.exists_parse parse_toldContent ⟨"/", ["spec.md"]⟩ ""
  have hstart : headingIndex? document.nodes sectionTitle = some 0 := by
    rw [hnodes]
    decide
  have hrange : range false (document.nodes.drop 1) = toldRange := by
    rw [hnodes]
    decide
  have hextract : extract document none = .ok (ofSpans none 1 (spans toldRange)) :=
    extract_of_spans hstart (congrArg spans hrange) (by decide)
  obtain ⟨inside, hranged, hread, hlines⟩ := extract_partition document none _ hextract
  obtain rfl := (hranged toldRange).mp (ranged_iff.mpr ⟨0, hstart, hrange.symm⟩)
  refine ⟨document, _, hparse, hextract, hread.ids, ?_, ?_⟩
  · rfl
  · rw [hread.stories]
    decide

end SpecDraft.Feature
