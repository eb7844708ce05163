import SpecDraft.Proofs.Feature.Dependency
import SpecDraft.Proofs.Feature.Excerpt
import SpecDraft.Proofs.Markdown.Section

/-!
# The paragraph that describes a feature

The description, the labels and the list of dependencies are looked for in the same nodes, each on
its own. A paragraph that can be the description is no label in bold and not just the name of a
section, but it may be a longer sentence before a colon, which is a label too
(`isLabelFor_iff_of_isDescription`), and it may be a line that lists dependencies
(`isSome_inlineDependencies?_iff`). So these are the two ways in which the description of a feature
is used a second time (`description_used_again`), and both occur (`description_is_label_and_list`).
-/
set_option autoImplicit false

namespace SpecDraft.Feature

open Text Markdown

/-! ## Places in a span -/

/-- Where the description is found. -/
def descriptionPlace? (span : List Node) : Option Nat := span.findIdx? isDescription

/-- Where a label is found. -/
def labelPlace? (pattern : TitlePattern) (span : List Node) : Option Nat :=
  span.findIdx? (·.isLabelFor pattern)

/-- Where a paragraph is found that lists the dependencies itself. -/
def listPlace? (span : List Node) : Option Nat := span.findIdx? fun node => (ownList? node).isSome

/-- The items after a place, up to the next label. -/
def itemsAfter (span : List Node) : Option Nat → List String
  | some place => itemTexts ((span.drop (place + 1)).takeWhile (·.label?.isNone))
  | none => []

/-- Whether the fields of a feature are read at these places. -/
structure ReadFrom (feature : Feature) (span : List Node) : Prop where
  description : feature.description =
    ((descriptionPlace? span).bind (span[·]?)).elim noDescription (strip ·.text)
  criteria : feature.criteria =
    (itemsAfter span (labelPlace? criteriaLabel span)).map Criterion.ofItem
  requirements : feature.requirements =
    let items := itemsAfter span (labelPlace? requirementsLabel span)
    if items.isEmpty then none else some (Requirements.ofItems items)
  dependencies : feature.dependencies =
    (((listPlace? span).bind (span[·]?)).bind ownList?).getD
      (((itemsAfter span (labelPlace? dependenciesLabel span)).map strip).filter (!·.isEmpty))

section Places
variable {span : List Node} {place : Nat} {node : Node}

theorem descriptionOf_eq (span : List Node) : descriptionOf span =
    ((descriptionPlace? span).bind (span[·]?)).elim noDescription (strip ·.text) := by
  rw [descriptionOf, List.find?_eq_bind_findIdx?_getElem?, descriptionPlace?]
  cases (span.findIdx? isDescription).bind (span[·]?) <;> rfl

/-- A description is found in a span that has one. -/
theorem exists_descriptionPlace (h : descriptionOf span ≠ noDescription) :
    ∃ place node, descriptionPlace? span = some place ∧ span[place]? = some node ∧
      isDescription node = true ∧ descriptionOf span = strip node.text := by
  cases hplace : descriptionPlace? span with
  | none =>
    refine absurd ?_ h
    rw [descriptionOf_eq, hplace]
    rfl
  | some place =>
    obtain ⟨hlt, hfits, -⟩ := List.findIdx?_eq_some_iff_getElem.mp hplace
    have hnode : span[place]? = some span[place] := List.getElem?_eq_getElem hlt
    refine ⟨place, span[place], rfl, hnode, hfits, ?_⟩
    rw [descriptionOf_eq, hplace, Option.bind_some, hnode]
    rfl

/-- The items under a label are those after its place. -/
theorem itemsUnder?_getD (pattern : TitlePattern) (span : List Node) :
    (itemsUnder? pattern span).getD [] = itemsAfter span (labelPlace? pattern span) := by
  have hnot : (fun node : Node => !(!node.isLabelFor pattern)) = (·.isLabelFor pattern) := by
    funext node
    exact Bool.not_not _
  rw [itemsUnder?, underLabel?, List.dropWhile_eq_drop_findIdx_not, hnot, labelPlace?]
  cases hplace : span.findIdx? (·.isLabelFor pattern) with
  | none =>
    have hnone := List.findIdx?_eq_none_iff.mp hplace
    rw [List.findIdx_eq_length.mpr hnone, List.drop_length]
    rfl
  | some place =>
    obtain ⟨hlt, rfl⟩ := List.findIdx?_eq_some_iff_findIdx_eq.mp hplace
    rw [List.drop_eq_getElem_cons hlt]
    rfl

theorem requirementsOf_eq (span : List Node) : requirementsOf span =
    let items := itemsAfter span (labelPlace? requirementsLabel span)
    if items.isEmpty then none else some (Requirements.ofItems items) := by
  dsimp only
  rw [← itemsUnder?_getD, requirementsOf]
  cases itemsUnder? requirementsLabel span with
  | none => rfl
  | some items => cases items <;> rfl

/-- The first list among the paragraphs is that of the first node with a list of its own. -/
theorem findSome?_paragraphs (span : List Node) :
    (span.filter (·.isParagraph)).findSome? (inlineDependencies? ·.text) =
      (span.find? fun node => (ownList? node).isSome).bind ownList? := by
  induction span with
  | nil => rfl
  | cons node span ih =>
    rw [List.filter_cons, List.find?_cons]
    by_cases hparagraph : node.isParagraph = true
    · have hown : ownList? node = inlineDependencies? node.text := if_pos hparagraph
      rw [if_pos hparagraph, List.findSome?_cons, ih, hown]
      cases hlist : inlineDependencies? node.text with
      | none => rfl
      | some list => exact (hown.trans hlist).symm
    · have hown : ownList? node = none := if_neg hparagraph
      rw [if_neg hparagraph, ih, hown]
      rfl

theorem dependenciesOf_eq (span : List Node) : dependenciesOf span =
    (((listPlace? span).bind (span[·]?)).bind ownList?).getD
      (((itemsAfter span (labelPlace? dependenciesLabel span)).map strip).filter (!·.isEmpty)) := by
  rw [dependenciesOf, findSome?_paragraphs, List.find?_eq_bind_findIdx?_getElem?,
    itemsUnder?_getD, listPlace?]
  cases ((span.findIdx? fun node => (ownList? node).isSome).bind (span[·]?)).bind ownList? <;> rfl

/-- **Where the fields of a feature are read from.** -/
theorem readFrom_ofSpan (debt : Option Document) (number : Nat) (heading : Node)
    (span : List Node) : ReadFrom (ofSpan debt number heading span) span where
  description := descriptionOf_eq span
  criteria := congrArg (List.map Criterion.ofItem) (itemsUnder?_getD criteriaLabel span)
  requirements := requirementsOf_eq span
  dependencies := dependenciesOf_eq span

end Places

/-! ## Labels -/

/-- The names that sections of a feature go by. -/
def sectionNames : List String :=
  ["Acceptance Criteria", "Technical Requirements", "Dependencies", "Depends on"]

/-- Whether a text is a short sentence before a colon that holds a name, but is not just the name of
a section. -/
def Announces (name : String) (text : List Char) : Prop :=
  ∃ sentence, text = sentence ++ [':'] ∧ 1 ≤ sentence.length ∧ sentence.length ≤ 60 ∧
    ':' ∉ sentence ∧
    (∃ before here after, trim sentence = before ++ (here ++ after) ∧
      SameLetters here name.toList) ∧
    ∀ known ∈ sectionNames, ¬ SameLetters (trim sentence) known.toList

section Labels
variable {node : Node}

theorem knownLabel_fits_iff {title : String} : knownLabel.fits title = true ↔
    ∃ known ∈ sectionNames, SameLetters title.toList known.toList :=
  TitlePattern.fits_exactly_iff

theorem isSectionLabel_eq_false_iff {text : String} : isSectionLabel text = false ↔
    boldLabel? text.toList = none ∧ ∀ sentence, plainLabel? text.toList = some sentence →
      ∀ known ∈ sectionNames, ¬ SameLetters (trim sentence) known.toList := by
  rw [isSectionLabel]
  cases boldLabel? text.toList with
  | some label => simp
  | none =>
    rw [Option.isSome_none, if_neg Bool.false_ne_true]
    cases plainLabel? text.toList with
    | none => simp
    | some sentence =>
      dsimp only
      rw [← Bool.not_eq_true, knownLabel_fits_iff, String.toList_ofList]
      simp

/-- A description is a paragraph that is neither a label in bold nor the name of a section. -/
theorem label_of_isDescription (h : isDescription node = true) :
    node.isParagraph = true ∧ boldLabel? node.text.toList = none ∧
      ∀ sentence, plainLabel? node.text.toList = some sentence →
        ∀ known ∈ sectionNames, ¬ SameLetters (trim sentence) known.toList := by
  refine ⟨isParagraph_of_isDescription h, isSectionLabel_eq_false_iff.mp ?_⟩
  rw [isDescription, Bool.and_eq_true, Bool.and_eq_true, Bool.not_eq_true'] at h
  exact h.1.2

theorem labelText_of_not_mem {s : List Char} (h : ':' ∉ s) :
    labelText s = String.ofList (trim s) := by
  have hdrop : dropRight (· == ':') (trim s) = trim s := by
    refine dropRight_eq_self fun c hc => beq_eq_false_iff_ne.mpr ?_
    rintro rfl
    exact h ((trim_infix_self s).subset (List.mem_of_getLast? hc))
  rw [labelText, hdrop, trim_trim]

/-- **A description is a label** only by what it says before a colon. -/
theorem isLabelFor_iff_of_isDescription (h : isDescription node = true) (pattern : TitlePattern) :
    node.isLabelFor pattern = true ↔ ∃ sentence, plainLabel? node.text.toList = some sentence ∧
      pattern.fits (String.ofList (trim sentence)) = true := by
  obtain ⟨hparagraph, hbold, -⟩ := label_of_isDescription h
  have hlabel : node.label? = (plainLabel? node.text.toList).map labelText := by
    have hkind : node.kind = .paragraph := of_decide_eq_true hparagraph
    rw [Node.label?, Node.isHeading, Node.level?, hkind, if_neg (by simp), if_pos hparagraph,
      paragraphLabel?, hbold, Option.none_or]
  rw [Node.isLabelFor, hlabel]
  cases hplain : plainLabel? node.text.toList with
  | none => simp
  | some sentence =>
    have hcolon := (plainLabel?_eq_some_iff.mp hplain).2.2.2
    simp [labelText_of_not_mem hcolon]

theorem isLabelFor_containing_iff_announces (h : isDescription node = true) (name : String) :
    node.isLabelFor (.containing name) = true ↔ Announces name node.text.toList := by
  obtain ⟨-, -, hknown⟩ := label_of_isDescription h
  rw [isLabelFor_iff_of_isDescription h]
  simp only [TitlePattern.fits_containing_iff, String.toList_ofList]
  constructor
  · rintro ⟨sentence, hplain, hholds⟩
    obtain ⟨htext, hpos, hshort, hcolon⟩ := plainLabel?_eq_some_iff.mp hplain
    exact ⟨sentence, htext, hpos, hshort, hcolon, hholds, hknown sentence hplain⟩
  · rintro ⟨sentence, htext, hpos, hshort, hcolon, hholds, -⟩
    exact ⟨sentence, plainLabel?_eq_some_iff.mpr ⟨htext, hpos, hshort, hcolon⟩, hholds⟩

/-- A description does not announce the dependencies: their names are names of a section. -/
theorem isLabelFor_dependenciesLabel (h : isDescription node = true) :
    node.isLabelFor dependenciesLabel = false := by
  rw [← Bool.not_eq_true, isLabelFor_iff_of_isDescription h]
  rintro ⟨sentence, hplain, hfits⟩
  obtain ⟨name, hname, hsame⟩ := fits_dependenciesLabel_iff.mp hfits
  rw [String.toList_ofList] at hsame
  have hsection : ∀ name ∈ dependencyNames, name ∈ sectionNames := by decide
  exact (label_of_isDescription h).2.2 sentence hplain name (hsection name hname) hsame

end Labels

/-! ## Lines that list dependencies -/

/-- Whether a text has a name for dependencies, perhaps between marks for bold text, a colon and
something after it. -/
def ListsDependencies (text : List Char) : Prop :=
  ∃ opening name closing blanks list, opening ∈ [] :: boldMarks ∧ NamesDependencies name ∧
    closing ∈ [] :: boldMarks ∧ allBlank blanks = true ∧ list ≠ [] ∧
    text = opening ++ (name ++ (closing ++ (blanks ++ ':' :: list)))

theorem exists_mark_dropBoldMark (s : List Char) :
    ∃ mark ∈ [] :: boldMarks, s = mark ++ dropBoldMark s := by
  rw [dropBoldMark]
  cases hmark : boldMark? s with
  | none => exact ⟨[], List.mem_cons_self, rfl⟩
  | some rest =>
    obtain ⟨mark, hmem, hs⟩ := boldMark?_eq_some_iff.mp hmark
    exact ⟨mark, List.mem_cons_of_mem _ hmem, hs⟩

/-- A mark is left out where no other mark follows. -/
theorem dropBoldMark_append {mark s : List Char} (hmark : mark ∈ [] :: boldMarks)
    (h : boldMark? s = none) : dropBoldMark (mark ++ s) = s := by
  rw [dropBoldMark]
  rcases List.mem_cons.mp hmark with rfl | hmark
  · rw [List.nil_append, h, Option.getD_none]
  · rw [boldMark?_eq_some_iff.mpr ⟨mark, hmark, rfl⟩, Option.getD_some]

theorem isSome_inlineList?_iff {s : List Char} : (inlineList? s).isSome = true ↔ s ≠ [] := by
  unfold inlineList?
  split
  · rename_i hempty
    simpa using hempty
  · rename_i hempty
    refine iff_of_true ?_ (by simpa using hempty)
    dsimp only
    split
    · split <;> rfl
    · rfl

/-- **The paragraphs that list dependencies.** -/
theorem isSome_inlineDependencies?_iff {text : String} :
    (inlineDependencies? text).isSome = true ↔ ListsDependencies text.toList := by
  constructor
  · intro h
    obtain ⟨dependencies, h⟩ := Option.isSome_iff_exists.mp h
    obtain ⟨rest, hrest, h⟩ := Option.bind_eq_some_iff.mp h
    obtain ⟨opening, hopening, htext⟩ := exists_mark_dropBoldMark text.toList
    obtain ⟨known, hknown, name, hname, hsame⟩ := afterFoldAny?_some hrest
    obtain ⟨closing, hclosing, hafter⟩ := exists_mark_dropBoldMark rest
    split at h
    · rename_i list hcolon
      obtain ⟨found, hfound, -⟩ := Option.map_eq_some_iff.mp h
      have hlist := isSome_inlineList?_iff.mp (Option.isSome_of_eq_some hfound)
      have hblanks : dropBoldMark rest = (dropBoldMark rest).takeWhile isBlank ++ ':' :: list := by
        rw [← hcolon]
        exact (List.takeWhile_append_dropWhile ..).symm
      refine ⟨opening, name, closing, (dropBoldMark rest).takeWhile isBlank, list, hopening,
        ⟨known, ?_, hsame⟩, hclosing, List.all_takeWhile, hlist, ?_⟩
      · simpa [dependencyNames, or_comm] using hknown
      · rw [← hblanks, ← hafter, ← hname, ← htext]
    · cases h
  · rintro ⟨opening, name, closing, blanks, list, hopening, hname, hclosing, hblanks, hlist, htext⟩
    have hlead : allBlank [] = true := rfl
    have hfirst := hname.boldMark?_append hlead (closing ++ (blanks ++ ':' :: list))
    rw [List.nil_append] at hfirst
    have hsecond : boldMark? (blanks ++ ':' :: list) = none :=
      boldMark?_append_of_blank hblanks fun _ => rfl
    rw [inlineDependencies?, htext, dropBoldMark_append hopening hfirst, hname.after,
      Option.bind_eq_bind, Option.bind_some, dropBoldMark_append hclosing hsecond,
      trimLeft_append_of_blank hblanks, trimLeft_cons_of_not_blank (by decide)]
    show ((inlineList? list).map commaItems).isSome = true
    rw [Option.isSome_map]
    exact isSome_inlineList?_iff.mpr hlist

/-! ## The description in its span -/

section Span
variable {span : List Node} {place : Nat} {node : Node}

theorem labelPlace?_iff_announces (h : span[place]? = some node) (hnode : isDescription node = true)
    (name : String) : labelPlace? (.containing name) span = some place ↔
      Announces name node.text.toList ∧
        ∀ earlier ∈ span.take place, earlier.isLabelFor (.containing name) = false := by
  rw [labelPlace?, findIdx?_eq_some_iff_take h, isLabelFor_containing_iff_announces hnode]

theorem listPlace?_iff_lists (h : span[place]? = some node) (hnode : isDescription node = true) :
    listPlace? span = some place ↔ ListsDependencies node.text.toList ∧
      ∀ earlier ∈ span.take place, ownList? earlier = none := by
  have hown : ownList? node = inlineDependencies? node.text := by
    rw [ownList?, if_pos (isParagraph_of_isDescription hnode)]
  rw [listPlace?, findIdx?_eq_some_iff_take h, hown, isSome_inlineDependencies?_iff]
  simp only [Option.isSome_eq_false_iff, Option.isNone_iff_eq_none]

end Span

/-- **How the description of a feature is used again.** The paragraph that describes a feature is
no label in bold, and it is not the label of the dependencies. It is the label of the criteria or of
the requirements exactly when it announces them in a sentence of its own, and no label before it
does. The dependencies are read from it exactly when it is a line that lists them, and no paragraph
before it is. -/
theorem description_used_again (document : Document) (debt : Option Document)
    (features : List Feature) (feature : Feature) (h : extract document debt = .ok features)
    (hfeature : feature ∈ features) (hdescribed : feature.description ≠ noDescription) :
    ∃ start number heading span place node,
      headingIndex? document.nodes sectionTitle = some start ∧
      (heading, span) ∈ spans (range false (document.nodes.drop (start + 1))) ∧
      feature = ofSpan debt number heading span ∧ ReadFrom feature span ∧
      descriptionPlace? span = some place ∧ span[place]? = some node ∧
      feature.description = strip node.text ∧ boldLabel? node.text.toList = none ∧
      labelPlace? dependenciesLabel span ≠ some place ∧
      (labelPlace? criteriaLabel span = some place ↔
        Announces "Acceptance Criteria" node.text.toList ∧
          ∀ earlier ∈ span.take place, earlier.isLabelFor criteriaLabel = false) ∧
      (labelPlace? requirementsLabel span = some place ↔
        Announces "Technical Requirements" node.text.toList ∧
          ∀ earlier ∈ span.take place, earlier.isLabelFor requirementsLabel = false) ∧
      (listPlace? span = some place ↔ ListsDependencies node.text.toList ∧
        ∀ earlier ∈ span.take place, ownList? earlier = none) := by
  obtain ⟨start, hstart, -, rfl⟩ := extract_ok.mp h
  obtain ⟨number, heading, span, hspan, rfl⟩ := mem_ofSpans hfeature
  obtain ⟨place, node, hplace, hnode, hfits, htext⟩ := exists_descriptionPlace hdescribed
  refine ⟨start, number, heading, span, place, node, hstart, hspan, rfl, readFrom_ofSpan .., hplace,
    hnode, htext, (label_of_isDescription hfits).2.1, ?_, labelPlace?_iff_announces hnode hfits _,
    labelPlace?_iff_announces hnode hfits _, listPlace?_iff_lists hnode hfits⟩
  intro hlabel
  have hdependencies := ((findIdx?_eq_some_iff_take hnode).mp hlabel).1
  rw [isLabelFor_dependenciesLabel hfits] at hdependencies
  cases hdependencies

/-- A document with two features: one is described by a sentence before its criteria, the other by
the line that lists its dependencies. -/
def doubleContent : String :=
  "# Features\n## Search\nThese are the acceptance criteria:\n- Notes are found\n## Export\n" ++
    "Depends on: Search, Storage and Login"

/-- The nodes below the first of them. -/
def sentenceSpan : List Node :=
  [⟨.paragraph, "These are the acceptance criteria:", 3⟩, ⟨.item false 0, "Notes are found", 4⟩]

/-- The nodes below the second. -/
def lineSpan : List Node := [⟨.paragraph, "Depends on: Search, Storage and Login", 6⟩]

/-- The nodes of that document. -/
def doubleNodes : List Node :=
  ⟨.heading 1, "Features", 1⟩ :: ⟨.heading 2, "Search", 2⟩ :: sentenceSpan ++
    ⟨.heading 2, "Export", 5⟩ :: lineSpan

theorem parse_doubleContent : Markdown.parse doubleContent = .ok doubleNodes :=
  parse_of_toOption (by decide +kernel)

theorem spans_doubleNodes : spans (range false (doubleNodes.drop 1)) =
    [(⟨.heading 2, "Search", 2⟩, sentenceSpan), (⟨.heading 2, "Export", 5⟩, lineSpan)] := by
  decide +kernel

theorem extract_of_doubleNodes {document : Document} (h : document.nodes = doubleNodes) :
    extract document none = .ok [ofSpan none 1 ⟨.heading 2, "Search", 2⟩ sentenceSpan,
      ofSpan none 2 ⟨.heading 2, "Export", 5⟩ lineSpan] := by
  have hstart : headingIndex? document.nodes sectionTitle = some 0 := by
    rw [h]
    decide +kernel
  have hspans := spans_doubleNodes
  rw [← h] at hspans
  exact extract_of_spans hstart hspans (List.cons_ne_nil _ _)

theorem descriptionOf_sentenceSpan : descriptionOf sentenceSpan ≠ noDescription := by
  decide +kernel

/-- In that document one paragraph is the description and the label of the criteria, and another is
the description and the list of the dependencies. -/
theorem description_is_label_and_list : ∃ document first second,
    Document.parse doubleContent ⟨"/", ["spec.md"]⟩ "" = .ok document ∧
    extract document none = .ok [first, second] ∧
    first = ofSpan none 1 ⟨.heading 2, "Search", 2⟩ sentenceSpan ∧
    first.description ≠ noDescription ∧ descriptionPlace? sentenceSpan = some 0 ∧
    labelPlace? criteriaLabel sentenceSpan = some 0 ∧
    first.criteria = [⟨"Notes are found", false, true⟩] ∧
    second = ofSpan none 2 ⟨.heading 2, "Export", 5⟩ lineSpan ∧
    second.description ≠ noDescription ∧ descriptionPlace? lineSpan = some 0 ∧
    listPlace? lineSpan = some 0 ∧ second.dependencies = ["Search", "Storage and Login"] := by
  obtain ⟨document, hparse, hnodes⟩ :=
    Document.exists_parse parse_doubleContent ⟨"/", ["spec.md"]⟩ ""
  refine ⟨document, _, _, hparse, extract_of_doubleNodes hnodes, rfl, ?_⟩
  have hsecond : descriptionOf lineSpan ≠ noDescription := by decide +kernel
  exact ⟨descriptionOf_sentenceSpan, by decide +kernel, by decide +kernel, by decide +kernel, rfl,
    hsecond, by decide +kernel, by decide +kernel, by decide +kernel⟩

theorem description_used_again_double : ∃ document features feature,
    Document.parse doubleContent ⟨"/", ["spec.md"]⟩ "" = .ok document ∧
    extract document none = .ok features ∧ feature ∈ features ∧
    feature.description ≠ noDescription ∧
    ∃ number heading span place node, feature = ofSpan none number heading span ∧
      ReadFrom feature span ∧ descriptionPlace? span = some place ∧ span[place]? = some node ∧
      feature.description = strip node.text ∧ boldLabel? node.text.toList = none ∧
      labelPlace? dependenciesLabel span ≠ some place := by
  obtain ⟨document, hparse, hnodes⟩ :=
    Document.exists_parse parse_doubleContent ⟨"/", ["spec.md"]⟩ ""
  have hextract := extract_of_doubleNodes hnodes
  obtain ⟨_, number, heading, span, place, node, -, -, hfeature, hread, hplace, hnode, htext,
    hbold, hlabel, -⟩ := description_used_again document none _ _ hextract List.mem_cons_self
      descriptionOf_sentenceSpan
  exact ⟨document, _, _, hparse, hextract, List.mem_cons_self,
    descriptionOf_sentenceSpan, number, heading, span,
    place, node, hfeature, hread, hplace, hnode, htext, hbold, hlabel⟩

end SpecDraft.Feature
