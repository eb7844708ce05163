import SpecDraft.Feature.Label
import SpecDraft.Proofs.Markdown.Plain
import SpecDraft.Proofs.Text.Search

/-!
# Labels and their items

The items under a label are those between it and the next label (`itemsUnder?_append`), wherever the
nodes stand in the document. A title fits no pattern that it departs from
(`fits_containing_append`). A paragraph makes a label with its text in bold (`exists_of_boldLabel?`)
or before a colon (`plainLabel?_eq_some_iff`).
-/
set_option autoImplicit false

namespace SpecDraft.Markdown

open Text

/-! ## Titles -/

namespace TitlePattern

variable {text : String} {texts : List String}

theorem matchesHere_of_departs {before : List Char} (h : departs text.toList before = true)
    (atEnd : Bool) (s : List Char) : matchesHere atEnd text (before ++ s) = none := by
  rw [matchesHere, afterFold?_of_departs h]

theorem matchesHere_false_eq_none_iff {s : List Char} :
    matchesHere false text s = none ↔ afterFold? text.toList s = none := by
  rw [matchesHere]
  cases afterFold? text.toList s <;> simp

theorem matchesHere_true_isSome_iff {s : List Char} :
    (matchesHere true text s).isSome = true ↔ SameLetters s text.toList := by
  rw [matchesHere]
  constructor
  · intro h
    cases hafter : afterFold? text.toList s with
    | none => simp [hafter] at h
    | some rest =>
      cases rest with
      | cons c rest => simp [hafter] at h
      | nil =>
        obtain ⟨here, rfl, hsame⟩ := afterFold?_eq_some_iff.mp hafter
        rwa [List.append_nil]
  · intro h
    have hafter : afterFold? text.toList s = some [] :=
      afterFold?_eq_some_iff.mpr ⟨s, (List.append_nil s).symm, h⟩
    simp [hafter]

/-- A title contains a text when it has a part with the same letters. -/
theorem fits_containing_iff {title : String} : (containing text).fits title = true ↔
    ∃ before here after, title.toList = before ++ (here ++ after) ∧
      SameLetters here text.toList := by
  simp only [containing, fits, List.any_cons, List.any_nil, Bool.or_false, Bool.false_eq_true,
    if_false]
  rw [Option.isSome_iff_ne_none, ne_eq, firstFrom_eq_none_iff]
  simp only [matchesHere_false_eq_none_iff, not_forall]
  constructor
  · rintro ⟨here, ⟨before, hsplit⟩, hsome⟩
    obtain ⟨after, hafter⟩ := Option.ne_none_iff_exists'.mp hsome
    obtain ⟨part, rfl, hsame⟩ := afterFold?_eq_some_iff.mp hafter
    exact ⟨before, part, after, hsplit.symm, hsame⟩
  · rintro ⟨before, here, after, hsplit, hsame⟩
    refine ⟨here ++ after, ⟨before, hsplit.symm⟩, ?_⟩
    rw [afterFold?_eq_some_iff.mpr ⟨here, rfl, hsame⟩]
    exact Option.some_ne_none _

/-- A title is one of some texts when it has the same letters. -/
theorem fits_exactly_iff {title : String} : (exactly texts).fits title = true ↔
    ∃ text ∈ texts, SameLetters title.toList text.toList := by
  simp only [exactly, fits, List.any_eq_true, if_true, matchesHere_true_isSome_iff]

/-- A text that departs from a pattern wherever it starts may go before any title. -/
theorem fits_containing_append {before : String}
    (h : before.toList.tails.all (fun here => here.isEmpty || departs text.toList here) = true)
    (title : String) : (containing text).fits (before ++ title) = (containing text).fits title := by
  have hnone : ∀ here ∈ before.toList.tails, here ≠ [] →
      matchesHere false text (here ++ title.toList) = none := by
    intro here hmem hne
    have hdeparts := List.all_eq_true.mp h here hmem
    rw [Bool.or_eq_true, List.isEmpty_iff] at hdeparts
    exact matchesHere_of_departs (hdeparts.resolve_left hne) false _
  simp only [containing, fits, List.any_cons, List.any_nil, Bool.or_false, Bool.false_eq_true,
    if_false, String.toList_append]
  exact isSome_firstFrom_append _ hnone

/-- A text that is part of a text is part of every longer one. -/
theorem fits_containing_of_part {title longer : String} (h : title.toList <:+: longer.toList)
    (hfits : (containing text).fits title = true) : (containing text).fits longer = true := by
  obtain ⟨front, back, hlonger⟩ := h
  obtain ⟨before, here, after, htitle, hsame⟩ := fits_containing_iff.mp hfits
  refine fits_containing_iff.mpr ⟨front ++ before, here, after ++ back, ?_, hsame⟩
  rw [← hlonger, htitle]
  simp only [List.append_assoc]

/-- A title is none of some texts if it departs from each. -/
theorem fits_exactly_of_departs {before s : List Char}
    (h : ∀ text ∈ texts, departs text.toList before = true) :
    (exactly texts).fits (String.ofList (before ++ s)) = false := by
  rw [exactly, fits, List.any_eq_false]
  intro text htext
  rw [if_pos rfl, String.toList_ofList, matchesHere_of_departs (h text htext)]
  exact Bool.false_ne_true

end TitlePattern

/-! ## Items under a label -/

section Items
variable {pattern : TitlePattern} {before items after nodes : List Node} {label : Node}

/-- **The items under a label** are those between the first label that fits and the next label. -/
theorem itemsUnder?_append (hbefore : ∀ node ∈ before, node.isLabelFor pattern = false)
    (hlabel : label.isLabelFor pattern = true) (hitems : ∀ node ∈ items, node.label? = none)
    (hafter : ∀ node ∈ after.head?, node.label?.isSome) :
    itemsUnder? pattern (before ++ label :: (items ++ after)) = some (itemTexts items) := by
  have hdrop : (before ++ label :: (items ++ after)).dropWhile (!·.isLabelFor pattern) =
      label :: (items ++ after) := by
    rw [List.dropWhile_append_of_pos fun node hnode => by simp [hbefore node hnode],
      List.dropWhile_cons_of_neg (by simp [hlabel])]
  have htake : (items ++ after).takeWhile (·.label?.isNone) = items := by
    rw [List.takeWhile_append_of_pos fun node hnode => by simp [hitems node hnode]]
    cases after with
    | nil => rw [List.takeWhile_nil, List.append_nil]
    | cons node after =>
      have hnode := hafter node rfl
      rw [List.takeWhile_cons_of_neg (by simpa using Option.isSome_iff_ne_none.mp hnode),
        List.append_nil]
  rw [itemsUnder?, underLabel?, hdrop]
  dsimp only
  rw [htake]
  rfl

/-- The items under a label are texts of nodes. -/
theorem exists_node_of_itemsUnder? {pattern : TitlePattern} {nodes : List Node}
    {items : List String} {item : String} (h : itemsUnder? pattern nodes = some items)
    (hitem : item ∈ items) : ∃ node ∈ nodes, node.isItem = true ∧ node.text = item := by
  obtain ⟨found, hfound, rfl⟩ := Option.map_eq_some_iff.mp h
  obtain ⟨node, hnode, rfl⟩ := List.mem_map.mp hitem
  obtain ⟨hmem, hitem⟩ := List.mem_filter.mp hnode
  refine ⟨node, ?_, hitem, rfl⟩
  unfold underLabel? at hfound
  split at hfound
  · cases hfound
  · rename_i label rest hdrop
    cases hfound
    have hrest : node ∈ label :: rest :=
      List.mem_cons_of_mem _ ((List.takeWhile_prefix _).subset hmem)
    exact (List.dropWhile_suffix _).subset (hdrop ▸ hrest)

/-- The numbers of the lines do not matter. -/
theorem itemsUnder?_unnumbered (pattern : TitlePattern) (nodes : List Node) :
    itemsUnder? pattern (nodes.map Node.unnumbered) = itemsUnder? pattern nodes := by
  have htexts (nodes : List Node) : itemTexts (nodes.map Node.unnumbered) = itemTexts nodes := by
    rw [itemTexts, List.filter_map, List.map_map]
    rfl
  rw [itemsUnder?, itemsUnder?, underLabel?, underLabel?, List.dropWhile_map]
  have hsame : (fun node : Node => !node.isLabelFor pattern) ∘ Node.unnumbered =
      fun node => !node.isLabelFor pattern := rfl
  rw [hsame]
  cases nodes.dropWhile (!·.isLabelFor pattern) with
  | nil => rfl
  | cons label rest =>
    have htake : (rest.map Node.unnumbered).takeWhile (·.label?.isNone) =
        (rest.takeWhile (·.label?.isNone)).map Node.unnumbered := List.takeWhile_map ..
    simp only [List.map_cons, Option.map_some, htake, htexts]

end Items

/-! ## Bold marks -/

/-- The marks of bold text. -/
def boldMarks : List (List Char) := [['*', '*'], ['_', '_']]

theorem boldMark?_eq_some_iff {s rest : List Char} :
    boldMark? s = some rest ↔ ∃ mark ∈ boldMarks, s = mark ++ rest := by
  simp only [boldMarks, List.mem_cons, List.not_mem_nil, or_false, exists_eq_or_imp,
    exists_eq_left]
  unfold boldMark?
  split
  · simp
  · simp
  · rename_i hstars hlines
    refine iff_of_false (by simp) ?_
    rintro (rfl | rfl)
    · exact hstars rest rfl
    · exact hlines rest rfl

/-- A text that starts with another character starts with no mark. -/
theorem boldMark?_eq_none {s : List Char} (h : ∀ c ∈ s.head?, c ≠ '*' ∧ c ≠ '_') :
    boldMark? s = none := by
  rw [Option.eq_none_iff_forall_ne_some]
  intro rest hrest
  obtain ⟨mark, hmark, rfl⟩ := boldMark?_eq_some_iff.mp hrest
  simp only [boldMarks, List.mem_cons, List.not_mem_nil, or_false] at hmark
  rcases hmark with rfl | rfl
  · exact (h '*' rfl).1 rfl
  · exact (h '_' rfl).2 rfl

theorem ne_mark_of_isBlank {c : Char} (h : isBlank c = true) : c ≠ '*' ∧ c ≠ '_' := by
  constructor
  · rintro rfl
    cases h
  · rintro rfl
    cases h

/-- After blanks, no mark stands at the start. -/
theorem boldMark?_append_of_blank {lead s : List Char} (hlead : allBlank lead = true)
    (h : lead = [] → boldMark? s = none) : boldMark? (lead ++ s) = none := by
  cases lead with
  | nil => exact h rfl
  | cons blank lead =>
    refine boldMark?_eq_none fun c hc => ne_mark_of_isBlank ?_
    rw [← Option.some.inj hc]
    exact List.all_eq_true.mp hlead blank List.mem_cons_self

/-- A paragraph in bold ends with a mark, and perhaps a colon after it. -/
theorem boldEnd?_isSome_iff {s : List Char} : boldEnd? s = some () ↔
    ∃ closing ∈ boldMarks, ∃ outer, s = closing ++ outer ∧
      (trimLeft outer = [] ∨ trimLeft outer = [':']) := by
  rw [boldEnd?]
  cases hmark : boldMark? s with
  | none =>
    refine iff_of_false (by simp) ?_
    rintro ⟨closing, hclosing, outer, rfl, -⟩
    rw [boldMark?_eq_some_iff.mpr ⟨closing, hclosing, rfl⟩] at hmark
    cases hmark
  | some outer =>
    dsimp only
    constructor
    · intro h
      obtain ⟨closing, hclosing, rfl⟩ := boldMark?_eq_some_iff.mp hmark
      refine ⟨closing, hclosing, outer, rfl, ?_⟩
      split at h
      · rename_i hnil
        exact .inl hnil
      · rename_i hcolon
        exact .inr hcolon
      · cases h
    · rintro ⟨closing, hclosing, other, rfl, houter⟩
      rw [boldMark?_eq_some_iff.mpr ⟨closing, hclosing, rfl⟩] at hmark
      obtain rfl := Option.some.inj hmark
      rcases houter with h | h <;> simp [h]

/-! ## Labels of paragraphs -/

/-- What is left of a label stands in it, with blanks before it, and blanks and colons after it. -/
theorem exists_around_labelText (s : List Char) : ∃ lead gap colons trail,
    s = lead ++ ((labelText s).toList ++ (gap ++ (colons ++ trail))) ∧
      allBlank lead = true ∧ allBlank gap = true ∧ (∀ c ∈ colons, c = ':') ∧
      allBlank trail = true := by
  obtain ⟨first, trail, hs, hfirst, htrail⟩ := exists_trim s
  obtain ⟨colons, htrim, hcolons⟩ := exists_dropRight (· == ':') (trim s)
  obtain ⟨second, gap, hdrop, hsecond, hgap⟩ := exists_trim (dropRight (· == ':') (trim s))
  refine ⟨first ++ second, gap, colons, trail, ?_, ?_, hgap, fun c hc => ?_, htrail⟩
  · rw [labelText, String.toList_ofList]
    conv_lhs => rw [hs, htrim, hdrop]
    simp only [List.append_assoc]
  · rw [allBlank_append, hfirst, hsecond, Bool.and_self]
  · exact eq_of_beq (hcolons c hc)

/-- Blanks and colons around a text are left out of the label. -/
theorem labelText_around {lead s gap colons trail : List Char} (hlead : allBlank lead = true)
    (hs : trim s = s) (hlast : ∀ c ∈ s.getLast?, c ≠ ':') (hne : s ≠ [])
    (hgap : allBlank gap = true) (hcolons : ∀ c ∈ colons, c = ':')
    (htrail : allBlank trail = true) :
    labelText (lead ++ (s ++ (gap ++ (colons ++ trail)))) = String.ofList s := by
  have hdrop : dropRight (· == ':') s = s :=
    dropRight_eq_self fun c hc => beq_eq_false_iff_ne.mpr (hlast c hc)
  have houter : trim (lead ++ (s ++ (gap ++ (colons ++ trail)))) = trim (s ++ (gap ++ colons)) := by
    rw [trim_blank_append hlead, ← List.append_assoc gap, ← List.append_assoc s,
      trim_append_of_blank htrail]
  rw [labelText, houter]
  by_cases hnone : colons = []
  · rw [hnone, List.append_nil, trim_append_of_blank hgap, hs, hdrop, hs]
  · -- The colons are at the end, and go first; then the blanks before them.
    have hend : trim (s ++ (gap ++ colons)) = s ++ (gap ++ colons) := by
      refine trim_eq_self_iff.mpr ⟨fun c hc => ?_, fun c hc => ?_⟩
      · rw [List.head?_append_of_ne_nil _ hne] at hc
        exact (trim_eq_self_iff.mp hs).1 c hc
      · rw [← List.append_assoc, List.getLast?_append_of_ne_nil _ hnone] at hc
        rw [hcolons c (List.mem_of_getLast? hc)]
        decide
    rw [hend, ← List.append_assoc, dropRight_append fun c hc => beq_iff_eq.mpr (hcolons c hc)]
    by_cases hempty : gap = []
    · rw [hempty, List.append_nil, hdrop, hs]
    · rw [dropRight_eq_self, trim_append_of_blank hgap, hs]
      intro c hc
      rw [List.getLast?_append_of_ne_nil _ hempty] at hc
      refine beq_eq_false_iff_ne.mpr ?_
      rintro rfl
      exact absurd (List.all_eq_true.mp hgap ':' (List.mem_of_getLast? hc)) (by decide)

/-- A paragraph in bold is a text between two marks, with nothing but a colon after them. -/
theorem exists_of_boldLabel? {s label : List Char} (h : boldLabel? s = some label) :
    ∃ opening ∈ boldMarks, ∃ closing ∈ boldMarks, ∃ outer,
      s = opening ++ (label ++ (closing ++ outer)) ∧
        (trimLeft outer = [] ∨ trimLeft outer = [':']) := by
  unfold boldLabel? at h
  split at h
  · rename_i c rest hmark
    obtain ⟨opening, hopening, rfl⟩ := boldMark?_eq_some_iff.mp hmark
    obtain ⟨⟨before, _⟩, hfirst, rfl⟩ := Option.map_eq_some_iff.mp h
    obtain ⟨here, rfl, hend⟩ := firstFrom_some hfirst
    obtain ⟨closing, hclosing, outer, rfl, houter⟩ := boldEnd?_isSome_iff.mp hend
    exact ⟨opening, hopening, closing, hclosing, outer, rfl, houter⟩
  · cases h

/-- A plain label is at most sixty characters before the only colon. -/
theorem plainLabel?_eq_some_iff {s label : List Char} : plainLabel? s = some label ↔
    s = label ++ [':'] ∧ 1 ≤ label.length ∧ label.length ≤ 60 ∧ ':' ∉ label := by
  constructor
  · intro h
    unfold plainLabel? at h
    split at h
    · rename_i body hreverse
      split at h
      · rename_i hbody
        cases h
        refine ⟨?_, by simpa using hbody⟩
        rw [← List.reverse_cons, ← hreverse, List.reverse_reverse]
      · cases h
    · cases h
  · rintro ⟨rfl, hbody⟩
    simp [plainLabel?, hbody]

section Labels
variable {c : Char} {s : List Char} {label : String}

theorem exists_labelText_cons (hblank : isBlank c = false) (hcolon : c ≠ ':') (s : List Char) :
    ∃ tail, labelText (c :: s) = String.ofList (c :: tail) := by
  obtain ⟨first, hfirst⟩ := exists_trim_cons hblank s
  obtain ⟨second, hsecond⟩ := exists_dropRight_cons (p := (· == ':')) (by simpa using hcolon) first
  obtain ⟨third, hthird⟩ := exists_trim_cons hblank second
  exact ⟨third, by rw [labelText, hfirst, hsecond, hthird]⟩

theorem labelText_infix_self (s : List Char) : (labelText s).toList <:+: s := by
  rw [labelText, String.toList_ofList]
  have hcolons : dropRight (· == ':') (trim s) <:+: trim s := (List.rdropWhile_prefix _ _).isInfix
  exact (trim_infix_self _).trans (hcolons.trans (trim_infix_self s))

theorem suffix_of_boldMark? {s rest : List Char} (h : boldMark? s = some rest) : rest <:+ s := by
  obtain ⟨mark, -, rfl⟩ := boldMark?_eq_some_iff.mp h
  exact List.suffix_append mark rest

/-- **The label of a paragraph** is part of it. -/
theorem infix_of_paragraphLabel? {text : String} (h : paragraphLabel? text = some label) :
    label.toList <:+: text.toList := by
  obtain ⟨inner, hinner, rfl⟩ := Option.map_eq_some_iff.mp h
  apply (labelText_infix_self inner).trans
  rcases Option.or_eq_some_iff.mp hinner with hbold | ⟨-, hplain⟩
  · obtain ⟨opening, -, closing, -, outer, htext, -⟩ := exists_of_boldLabel? hbold
    rw [htext]
    exact List.infix_append' opening inner (closing ++ outer)
  · obtain ⟨htext, -⟩ := plainLabel?_eq_some_iff.mp hplain
    rw [htext]
    exact (List.prefix_append inner [':']).isInfix

/-- The label of a paragraph in bold starts with what follows the marks, or with the marks. -/
theorem exists_label_of_bold (hblank : isBlank c = false) (hcolon : c ≠ ':')
    (h : paragraphLabel? (String.ofList ('*' :: '*' :: c :: s)) = some label) :
    ∃ d tail, label = String.ofList (d :: tail) ∧ (d = c ∨ d = '*') := by
  rw [paragraphLabel?, String.toList_ofList] at h
  obtain ⟨text, htext, rfl⟩ := Option.map_eq_some_iff.mp h
  rcases Option.or_eq_some_iff.mp htext with hbold | ⟨-, hplain⟩
  · obtain ⟨⟨before, _⟩, -, rfl⟩ := Option.map_eq_some_iff.mp hbold
    obtain ⟨tail, htail⟩ := exists_labelText_cons hblank hcolon before
    exact ⟨c, tail, htail, .inl rfl⟩
  · -- A plain label is all of the paragraph but its colon.
    obtain ⟨hall, hlength, -⟩ := plainLabel?_eq_some_iff.mp hplain
    cases text with
    | nil => cases hlength
    | cons d tail =>
      obtain ⟨rfl, -⟩ := List.cons.inj hall
      obtain ⟨tail', htail⟩ := exists_labelText_cons (c := '*') (by decide) (by decide) tail
      exact ⟨'*', tail', htail, .inr rfl⟩

end Labels

end SpecDraft.Markdown
