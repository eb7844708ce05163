import SpecDraft.Plan.Generate
import SpecDraft.Proofs.Markdown.Heading
import SpecDraft.Proofs.Markdown.Label
import SpecDraft.Proofs.Text.Cutting
import SpecDraft.Proofs.Text.LetterCase

/-!
# What is said to exist

The plan for a feature that exists in part shows a passage of the debt section. Its text is found
after its label, from the next line on, and goes up to what ends the passage
(`exists_upTo_append_iff`). The debt section goes on with what is missing, and none of that is shown
exactly when what ends the passage comes in time (`currentState_of_partial`): for the first passage
the phrase has to start a line, with a text before it (`stopsAt_iff_of_line`). Otherwise what is
missing is shown as what exists (`currentState_of_missing`).
-/
set_option autoImplicit false

namespace SpecDraft.Plan

open Text Markdown

/-- A line break has no other form. -/
theorem exists_of_afterFold?_break {pattern s rest : List Char}
    (h : afterFold? ('\n' :: pattern) s = some rest) :
    ∃ tail, s = '\n' :: tail ∧ afterFold? pattern tail = some rest := by
  obtain ⟨part, rfl, hsame⟩ := afterFold?_eq_some_iff.mp h
  cases part with
  | nil => cases hsame
  | cons c part =>
    obtain ⟨hfold, htail⟩ := List.cons.inj hsame
    obtain rfl : c = '\n' := eq_of_fold (hfold.trans (by decide)) (by decide) (by decide)
    exact ⟨part ++ rest, rfl, afterFold?_eq_some_iff.mpr ⟨part, rfl, htail⟩⟩

/-! ## The start of a text -/

section Break
variable {least : Nat} {s body : List Char}

theorem suffix_of_afterBreak? (h : afterBreak? least s = some body) :
    body <:+ s ∧ least ≤ body.length := by
  induction s with
  | nil => cases h
  | cons c s ih =>
    rw [afterBreak?] at h
    split at h
    · rcases Option.or_eq_some_iff.mp h with hlater | ⟨-, hhere⟩
      · obtain ⟨hsuffix, hleast⟩ := ih hlater
        exact ⟨hsuffix.trans (List.suffix_cons c s), hleast⟩
      · split at hhere
        · rename_i hbreak
          cases hhere
          exact ⟨List.suffix_cons c _, hbreak.2⟩
        · cases hhere
    · cases h

/-- Where no text is found, every line break among the first blanks comes too late. -/
theorem length_lt_of_afterBreak?_eq_none (h : afterBreak? least s = none) {blanks rest : List Char}
    (hs : s = blanks ++ '\n' :: rest) (hblanks : allBlank blanks = true) : rest.length < least := by
  induction s generalizing blanks with
  | nil => simp at hs
  | cons c s ih =>
    cases blanks with
    | nil =>
      obtain ⟨rfl, rfl⟩ := List.cons.inj hs
      rw [afterBreak?, if_pos (by decide), Option.or_eq_none_iff] at h
      by_contra hlong
      rw [if_pos ⟨rfl, by omega⟩] at h
      cases h.2
    | cons blank blanks =>
      obtain ⟨rfl, hrest⟩ := List.cons.inj hs
      obtain ⟨hblank, hmore⟩ := List.forall_mem_cons.mp (List.all_eq_true.mp hblanks)
      rw [afterBreak?, if_pos hblank, Option.or_eq_none_iff] at h
      exact ih h.1 hrest (List.all_eq_true.mpr hmore)

/-- The first blanks of a text hold no line break with enough after it. -/
theorem length_lt_of_afterBreak? (h : afterBreak? least s = some body) {blanks rest : List Char}
    (hbody : body = blanks ++ '\n' :: rest) (hblanks : allBlank blanks = true) :
    rest.length < least := by
  induction s with
  | nil => cases h
  | cons c s ih =>
    rw [afterBreak?] at h
    split at h
    · rcases Option.or_eq_some_iff.mp h with hlater | ⟨hnone, hhere⟩
      · exact ih hlater
      · split at hhere
        · cases hhere
          exact length_lt_of_afterBreak?_eq_none hnone hbody hblanks
        · cases hhere
    · cases h

end Break

/-! ## The end of a text -/

section Stop
variable {least : Nat} {stop : String} {s : List Char}

theorem upTo_of_cutFold? {before after : List Char} (h : cutFold? stop (s.drop least) =
    some (before, after)) : upTo least stop s = s.take least ++ before := by
  rw [upTo, h]

/-- A text is all there is, or what ends it follows. -/
theorem upTo_cases (least : Nat) (stop : String) (s : List Char) : upTo least stop s = s ∨
    ∃ here after, s = upTo least stop s ++ here ∧ afterFold? stop.toList here = some after := by
  cases hcut : cutFold? stop (s.drop least) with
  | none =>
    left
    rw [upTo, hcut]
    exact List.take_append_drop least s
  | some found =>
    obtain ⟨before, after⟩ := found
    obtain ⟨here, hdrop, hhere⟩ := firstFrom_some hcut
    refine .inr ⟨here, after, ?_, hhere⟩
    rw [upTo_of_cutFold? hcut, List.append_assoc, ← hdrop, List.take_append_drop]

theorem isPrefix_upTo (least : Nat) (stop : String) (s : List Char) : upTo least stop s <+: s := by
  rcases upTo_cases least stop s with hall | ⟨here, -, hs, -⟩
  · rw [hall]
  · exact ⟨here, hs.symm⟩

theorem le_length_upTo (stop : String) (h : least ≤ s.length) :
    least ≤ (upTo least stop s).length := by
  rw [upTo, List.length_append, List.length_take_of_le h]
  exact Nat.le_add_right ..

/-- **What is left of a text after its end** holds all of a given rest exactly when what ends the
text stands before that rest, or reaches into it, and leaves enough text. -/
theorem exists_upTo_append_iff {rest : List Char} (hrest : rest ≠ []) (hleast : least ≤ s.length) :
    (∃ gap, s = upTo least stop s ++ (gap ++ rest)) ↔ ∃ text gap, least ≤ text.length ∧
      s = text ++ (gap ++ rest) ∧ (afterFold? stop.toList (gap ++ rest)).isSome = true := by
  constructor
  · rintro ⟨gap, hs⟩
    rcases upTo_cases least stop s with hall | ⟨here, after, hwhole, hhere⟩
    · -- Without an end, nothing is left.
      rw [hall] at hs
      simp [hrest] at hs
    · obtain rfl : here = gap ++ rest := List.append_cancel_left (hwhole.symm.trans hs)
      refine ⟨upTo least stop s, gap, le_length_upTo stop hleast, hwhole, ?_⟩
      rw [hhere]
      rfl
  · rintro ⟨text, gap, hlong, hs, hstop⟩
    have hdrop : s.drop least = text.drop least ++ (gap ++ rest) := by
      rw [hs, List.drop_append_of_le_length hlong]
    obtain ⟨skipped, between, after, htext, hfirst⟩ := exists_firstFrom_append _ hstop
    have hcut : cutFold? stop (s.drop least) = some (skipped, after) := hdrop ▸ hfirst
    refine ⟨between ++ gap, ?_⟩
    calc s = s.take least ++ s.drop least := (List.take_append_drop least s).symm
      _ = s.take least ++ (skipped ++ between ++ (gap ++ rest)) := by rw [hdrop, htext]
      _ = upTo least stop s ++ (between ++ gap ++ rest) := by
        rw [upTo_of_cutFold? hcut]
        simp only [List.append_assoc]

end Stop

/-! ## Passages -/

namespace Passage

/-- The text from where a passage starts whose label is here. -/
def body? (passage : Passage) (s : List Char) : Option (List Char) := do
  let rest ← afterFold? passage.label.toList s
  afterBreak? passage.least ((after? [':'] rest).getD rest)

/-- What a passage shows of the text from its start. -/
def shown (passage : Passage) (body : List Char) : List Char :=
  upTo passage.least passage.stop body

/-- The text from the start of the first passage, if it shows more than blanks. -/
def from? (passage : Passage) (content : List Char) : Option (List Char) :=
  ((firstFrom passage.body? content).map (·.2)).filter fun body => !allBlank (passage.shown body)

variable {passage : Passage} {s body content : List Char}

theorem here?_eq_map (passage : Passage) (s : List Char) :
    passage.here? s = (passage.body? s).map passage.shown := by
  rw [here?, body?]
  cases afterFold? passage.label.toList s with
  | none => rfl
  | some rest =>
    simp only [Option.bind_eq_bind, Option.bind_some]
    cases afterBreak? passage.least ((after? [':'] rest).getD rest) <;> rfl

theorem find?_eq_map (passage : Passage) (content : String) :
    passage.find? content =
      (passage.from? content.toList).map fun body => String.ofList (trim (passage.shown body)) := by
  have hmap : firstFrom (fun here => (passage.body? here).map passage.shown) content.toList =
      (firstFrom passage.body? content.toList).map fun found => (found.1, passage.shown found.2) :=
    firstFrom_map passage.shown content.toList
  rw [find?, from?, funext passage.here?_eq_map, hmap]
  cases firstFrom passage.body? content.toList with
  | none => rfl
  | some found =>
    dsimp only [Option.map_some]
    simp only [Option.filter_some, List.isEmpty_iff, trim_eq_nil_iff]
    cases allBlank (passage.shown found.2) <;> rfl

theorem body?_some (h : passage.body? s = some body) : ∃ rest,
    rest <:+ s ∧ afterBreak? passage.least rest = some body := by
  obtain ⟨rest, hrest, hbody⟩ := Option.bind_eq_some_iff.mp h
  refine ⟨_, ?_, hbody⟩
  cases hcolon : after? [':'] rest with
  | none => exact suffix_of_afterFold? hrest
  | some list =>
    rw [Option.getD_some]
    have hsuffix : list <:+ rest := ⟨[':'], (after?_some.mp hcolon).symm⟩
    exact hsuffix.trans (suffix_of_afterFold? hrest)

theorem from?_some (h : passage.from? content = some body) :
    body <:+ content ∧ passage.least ≤ body.length := by
  obtain ⟨hfound, -⟩ := Option.filter_eq_some_iff.mp h
  obtain ⟨⟨before, _⟩, hfirst, rfl⟩ := Option.map_eq_some_iff.mp hfound
  obtain ⟨here, rfl, hhere⟩ := firstFrom_some hfirst
  obtain ⟨rest, hrest, hbreak⟩ := body?_some hhere
  obtain ⟨hbody, hleast⟩ := suffix_of_afterBreak? hbreak
  exact ⟨(hbody.trans hrest).trans (List.suffix_append before here), hleast⟩

/-- A text that starts on a line of its own and shows only blanks is blank: the line break that ends
it would have been the one before it. -/
theorem shown_eq_of_allBlank {pattern : List Char} (h : passage.body? s = some body)
    (hstop : passage.stop.toList = '\n' :: pattern) (hlong : passage.least ≤ pattern.length)
    (hblank : allBlank (passage.shown body) = true) : passage.shown body = body := by
  rcases upTo_cases passage.least passage.stop body with hall | ⟨here, after, hbody, hhere⟩
  · exact hall
  · rw [hstop] at hhere
    obtain ⟨tail, rfl, htail⟩ := exists_of_afterFold?_break hhere
    obtain ⟨rest, -, hbreak⟩ := body?_some h
    have hlate : tail.length < passage.least := length_lt_of_afterBreak? hbreak hbody hblank
    obtain ⟨part, rfl, hsame⟩ := afterFold?_eq_some_iff.mp htail
    have hlength := hsame.length_eq
    rw [List.length_append] at hlate
    omega

/-- A passage that shows nothing but blanks shows no more with another end. -/
theorem from?_eq_none_of_stop {label : String} {least : Nat} {stop : String} {pattern : List Char}
    (hstop : stop.toList = '\n' :: pattern) (hlong : least ≤ pattern.length)
    (h : from? ⟨label, least, stop⟩ content = none) (stop' : String) :
    from? ⟨label, least, stop'⟩ content = none := by
  -- Where a text starts does not depend on its end.
  have hbody : body? ⟨label, least, stop'⟩ = body? ⟨label, least, stop⟩ := rfl
  rw [from?] at h ⊢
  rw [hbody]
  cases hfirst : firstFrom (body? ⟨label, least, stop⟩) content with
  | none => rfl
  | some found =>
    obtain ⟨here, -, hhere⟩ := firstFrom_some hfirst
    rw [hfirst, Option.map_some, Option.filter_eq_none_iff] at h
    have hblank : allBlank (shown ⟨label, least, stop⟩ found.2) = true := by simpa using h
    rw [shown_eq_of_allBlank hhere hstop hlong hblank] at hblank
    have hother : allBlank (shown ⟨label, least, stop'⟩ found.2) = true :=
      List.all_eq_true.mpr fun c hc =>
        List.all_eq_true.mp hblank c ((isPrefix_upTo least stop' found.2).subset hc)
    rw [Option.map_some, Option.filter_some, hother]
    rfl

end Passage

/-! ## The passage that is shown -/

/-- The passage on what exists of a section, with the text from its start. -/
def reporting? (content : List Char) : Option (Passage × List Char) :=
  passages.findSome? fun passage => (passage.from? content).map fun body => (passage, body)

theorem existing_eq (found : Section) :
    existing found = ((reporting? (blockText found.children).toList).map fun report =>
      String.ofList (trim (report.1.shown report.2))).getD partialImplementation := by
  rw [existing, reporting?, List.map_findSome?]
  congr 2
  funext passage
  rw [passage.find?_eq_map, Function.comp_apply, Option.map_map]
  rfl

/-- The passage that a blank line ends is never the one that is shown. -/
theorem reporting?_some {content body : List Char} {passage : Passage}
    (h : reporting? content = some (passage, body)) :
    passage ∈ passages ∧ passage.stop ≠ "\n\n" ∧ passage.from? content = some body := by
  obtain ⟨found, hmem, hsome⟩ := List.exists_of_findSome?_eq_some h
  obtain ⟨_, hfrom, hpair⟩ := Option.map_eq_some_iff.mp hsome
  cases hpair
  refine ⟨hmem, fun hstop => ?_, hfrom⟩
  simp only [passages, List.mem_cons, List.not_mem_nil, or_false] at hmem
  cases hfirst : Passage.from? ⟨"What exists", 1, "\nWhat's missing"⟩ content with
  | some text =>
    rw [reporting?, passages, List.findSome?_cons, hfirst] at h
    cases h
    exact absurd hstop (by decide)
  | none =>
    rcases hmem with rfl | rfl | rfl
    · rw [hfirst] at hfrom
      cases hfrom
    · rw [Passage.from?_eq_none_of_stop rfl (by decide) hfirst] at hfrom
      cases hfrom
    · exact absurd hstop (by decide)

/-! ## What stands before the phrase -/

/-- Whether what ends a passage comes in time to keep out the rest of a section, given where its
text starts in the section. -/
def Passage.StopsAt (passage : Passage) (before exist miss : List Char) : Prop :=
  ∃ text gap, passage.least ≤ text.length ∧ exist = before ++ (text ++ gap) ∧
    (afterFold? passage.stop.toList (gap ++ miss)).isSome = true

section Phrase
variable {phrase : String} {passage : Passage} {before exist miss rest body : List Char}

theorem shown_before_iff (hne : miss ≠ []) (hcontent : exist ++ miss = before ++ body)
    (hleast : passage.least ≤ body.length) :
    (∃ gap, exist = before ++ (passage.shown body ++ gap)) ↔
      passage.StopsAt before exist miss := by
  have hsplit (text : List Char) : exist = before ++ text ↔ body = text ++ miss := by
    constructor
    · rintro rfl
      rw [List.append_assoc] at hcontent
      exact (List.append_cancel_left hcontent).symm
    · rintro rfl
      rw [← List.append_assoc] at hcontent
      exact List.append_cancel_right hcontent
  have hstop : (∃ gap, body = upTo passage.least passage.stop body ++ (gap ++ miss)) ↔ _ :=
    exists_upTo_append_iff hne hleast
  simp only [← List.append_assoc, ← hsplit] at hstop
  simpa only [Passage.StopsAt, Passage.shown, List.append_assoc] using hstop

/-- No part of the text before the first place of a phrase holds the phrase. -/
theorem fits_containing_of_firstAt (hphrase : phrase.toList ≠ [])
    (hfirst : FirstAt (afterFold? phrase.toList) exist miss rest) {text : List Char}
    (htext : text <:+: exist) :
    (TitlePattern.containing phrase).fits (String.ofList text) = false := by
  rw [Bool.eq_false_iff]
  intro hfits
  obtain ⟨x, here, y, hhere, hsame⟩ := TitlePattern.fits_containing_iff.mp hfits
  rw [String.toList_ofList] at hhere
  obtain ⟨front, back, rfl⟩ := htext
  have hne : here ≠ [] := by
    rintro rfl
    exact hphrase (List.length_eq_zero_iff.mp hsame.length_eq.symm)
  have hnone := hfirst.first (here ++ (y ++ back)) ⟨front ++ x, by simp [hhere]⟩ (by simp [hne])
  rw [List.append_assoc, afterFold?_eq_some_iff.mpr ⟨here, rfl, hsame⟩] at hnone
  cases hnone

/-- A passage that ends where the phrase starts a line stops in time exactly when there is a line
break right before the phrase and a text before that. -/
theorem stopsAt_iff_of_line {c : Char} {pattern : List Char}
    (hphrase : phrase.toList = c :: pattern) (hc : fold c ≠ '\n')
    (hline : passage.stop.toList = '\n' :: phrase.toList)
    (hfirst : FirstAt (afterFold? phrase.toList) exist miss rest) :
    passage.StopsAt before exist miss ↔
      ∃ text, passage.least ≤ text.length ∧ exist = before ++ (text ++ ['\n']) := by
  constructor
  · rintro ⟨text, gap, hlong, hexist, hstop⟩
    obtain ⟨after, hafter⟩ := Option.isSome_iff_exists.mp hstop
    rw [hline] at hafter
    obtain ⟨tail, hsplit, htail⟩ := exists_of_afterFold?_break hafter
    cases gap with
    | nil =>
      -- The phrase itself would start with a line break.
      have hfound := hfirst.found
      rw [List.nil_append] at hsplit
      rw [hsplit, hphrase, afterFold?, if_neg] at hfound
      · cases hfound
      · exact fun heq => hc (heq.trans (by decide))
    | cons d gap =>
      obtain ⟨rfl, rfl⟩ := List.cons.inj hsplit
      by_cases hgap : gap = []
      · exact ⟨text, hlong, by rw [hexist, hgap]⟩
      · -- The phrase would stand before its first place.
        have hnone := hfirst.first gap ⟨before ++ (text ++ ['\n']), by simp [hexist]⟩ hgap
        exact absurd (htail.symm.trans hnone) (Option.some_ne_none _)
  · rintro ⟨text, hlong, hexist⟩
    refine ⟨text, ['\n'], hlong, hexist, ?_⟩
    rw [hline, List.cons_append, afterFold?, if_pos rfl, List.nil_append, hfirst.found]
    rfl

end Phrase

/-! ## The current state in a plan -/

/-- What is in the plan for a feature that exists in part. -/
theorem currentState_eq_existing {α : Type} [FieldValue α] {feature : Feature α} {debt : Document}
    {found : Section} (hstatus : feature.status = .incomplete)
    (hfound : Status.debtSection? (FieldValue.display feature.name) debt = some found) :
    (ofFeature feature (some debt)).currentState = FieldValue.ofText (existing found) := by
  have hcurrent : currentStateOf feature (some debt) = existing found := by
    rw [currentStateOf, if_pos hstatus, Option.bind_some, hfound]
  rw [ofFeature, hcurrent]

/-- **The current state of a feature that exists in part.** Where a passage of the debt section is
shown, what is shown stands before the first place that says what is missing exactly when what ends
the passage comes in time, and then it does not hold that phrase. Where none is, a fixed text
stands in. -/
theorem currentState_of_partial {α : Type} [FieldValue α] (feature : Feature α) (debt : Document)
    (found : Section) (exist miss rest : List Char) (hstatus : feature.status = .incomplete)
    (hfound : Status.debtSection? (FieldValue.display feature.name) debt = some found)
    (hcontent : (blockText found.children).toList = exist ++ miss)
    (hmiss : FirstAt (afterFold? "What's missing".toList) exist miss rest) :
    (reporting? (exist ++ miss) = none →
      (ofFeature feature (some debt)).currentState = FieldValue.ofText partialImplementation) ∧
    ∀ passage body, reporting? (exist ++ miss) = some (passage, body) →
      ∃ before, exist ++ miss = before ++ body ∧
        (ofFeature feature (some debt)).currentState =
          FieldValue.ofText (String.ofList (trim (passage.shown body))) ∧
        ((∃ gap, exist = before ++ (passage.shown body ++ gap)) ↔
          passage.StopsAt before exist miss) ∧
        (passage.stop = "\nWhat's missing" → (passage.StopsAt before exist miss ↔
          ∃ text, passage.least ≤ text.length ∧ exist = before ++ (text ++ ['\n']))) ∧
        (passage.StopsAt before exist miss →
          (TitlePattern.containing "What's missing").fits
            (String.ofList (trim (passage.shown body))) = false) := by
  have hphrase : "What's missing".toList ≠ [] := by decide
  have hne : miss ≠ [] := by
    rintro rfl
    have hnone := hmiss.found
    cases hnone
  have hstate : (ofFeature feature (some debt)).currentState =
      FieldValue.ofText (((reporting? (exist ++ miss)).map fun report =>
        String.ofList (trim (report.1.shown report.2))).getD partialImplementation) := by
    rw [← hcontent, ← existing_eq, currentState_eq_existing hstatus hfound]
  refine ⟨fun hnone => ?_, fun passage body hsome => ?_⟩
  · rw [hstate, hnone]
    rfl
  · obtain ⟨-, -, hfrom⟩ := reporting?_some hsome
    obtain ⟨⟨before, hbefore⟩, hleast⟩ := Passage.from?_some hfrom
    have hiff := shown_before_iff hne hbefore.symm hleast
    refine ⟨before, hbefore.symm, ?_, hiff, fun hstop => ?_, fun hstops => ?_⟩
    · rw [hstate, hsome]
      rfl
    · have hline : passage.stop.toList = '\n' :: "What's missing".toList := by
        rw [hstop]
        rfl
      exact stopsAt_iff_of_line rfl (by decide) hline hmiss
    · obtain ⟨gap, hexist⟩ := hiff.mpr hstops
      have hshown : passage.shown body <:+: exist := by
        rw [hexist]
        exact List.infix_append' before _ gap
      exact fits_containing_of_firstAt hphrase hmiss ((trim_infix_self _).trans hshown)

/-- A feature that exists in part. -/
def searchFeature : Feature :=
  { id := "001", name := "Search", slug := "search", description := "Finds notes.", stories := [],
    criteria := [], status := .incomplete, dependencies := [], requirements := none, line := none }

/-- A debt document that says what exists of the feature and then what is missing. -/
def statedContent : String := "## Search\nWhat exists:\nAn index\nWhat's missing: filters"

/-- The section of the feature in that document. -/
def statedSection : Section :=
  ⟨⟨.heading 2, "Search", 1⟩, 2, [⟨.paragraph, "What exists:", 2⟩, ⟨.paragraph, "An index", 3⟩,
    ⟨.paragraph, "What's missing: filters", 4⟩]⟩

theorem parse_statedContent :
    Markdown.parse statedContent = .ok (statedSection.heading :: statedSection.children) := rfl

/-- The text of that section before it says what is missing. -/
def statedExist : List Char := "What exists:\nAn index\n".toList

/-- The rest of that text. -/
def statedMiss : List Char := "What's missing: filters".toList

theorem currentState_of_partial_sample : ∃ debt : Document,
    Document.parse statedContent ⟨"/", ["debt.md"]⟩ "" = .ok debt ∧
    searchFeature.status = .incomplete ∧
    Status.debtSection? (FieldValue.display searchFeature.name) debt = some statedSection ∧
    (blockText statedSection.children).toList = statedExist ++ statedMiss ∧
    FirstAt (afterFold? "What's missing".toList) statedExist statedMiss ": filters".toList ∧
    (ofFeature searchFeature (some debt)).currentState = "An index" := by
  obtain ⟨debt, hparse, hnodes⟩ :=
    Document.exists_parse parse_statedContent ⟨"/", ["debt.md"]⟩ ""
  have hfound : Status.debtSection? (FieldValue.display searchFeature.name) debt =
      some statedSection := by
    rw [FieldValue.display_text, Status.debtSection?, hnodes]
    decide +kernel
  have hcontent : (blockText statedSection.children).toList = statedExist ++ statedMiss := by
    decide +kernel
  have hmiss : FirstAt (afterFold? "What's missing".toList) statedExist statedMiss
      ": filters".toList := firstAt_of_firstFrom (by decide +kernel)
  refine ⟨debt, hparse, rfl, hfound, hcontent, hmiss, ?_⟩
  have hreport : reporting? (statedExist ++ statedMiss) =
      some (⟨"What exists", 1, "\nWhat's missing"⟩, "An index\n".toList ++ statedMiss) := by
    have hfrom : Passage.from? ⟨"What exists", 1, "\nWhat's missing"⟩
        (statedExist ++ statedMiss) = some ("An index\n".toList ++ statedMiss) := by
      decide +kernel
    rw [reporting?, passages, List.findSome?_cons, hfrom]
    rfl
  obtain ⟨before, -, hstate, -⟩ := (currentState_of_partial searchFeature debt statedSection _ _ _
    rfl hfound hcontent hmiss).2 _ _ hreport
  rw [hstate]
  decide +kernel

/-- A debt document that says what exists of the feature nowhere but in the label. -/
def unstatedContent : String := "## Search\nWhat exists:\nWhat's missing: filters"

/-- The section of the feature in that document. -/
def unstatedSection : Section :=
  ⟨⟨.heading 2, "Search", 1⟩, 2,
    [⟨.paragraph, "What exists:", 2⟩, ⟨.paragraph, "What's missing: filters", 3⟩]⟩

theorem parse_unstatedContent : Markdown.parse unstatedContent =
    .ok (unstatedSection.heading :: unstatedSection.children) := rfl

/-- **What is missing is shown as what exists** where nothing stands between the two labels: the
status of the feature is that it exists in part, and the current state says what is missing. -/
theorem currentState_of_missing : ∃ debt : Document,
    Document.parse unstatedContent ⟨"/", ["debt.md"]⟩ "" = .ok debt ∧
    Status.detect searchFeature.name ([] : List Criterion) (some debt) = .incomplete ∧
    Status.debtSection? searchFeature.name debt = some unstatedSection ∧
    (blockText unstatedSection.children).toList = "What exists:\n".toList ++ statedMiss ∧
    (ofFeature searchFeature (some debt)).currentState = "What's missing: filters" := by
  obtain ⟨debt, hparse, hnodes⟩ :=
    Document.exists_parse parse_unstatedContent ⟨"/", ["debt.md"]⟩ ""
  have hfound : Status.debtSection? searchFeature.name debt = some unstatedSection := by
    rw [Status.debtSection?, hnodes]
    decide +kernel
  refine ⟨debt, hparse, ?_, hfound, by decide +kernel, ?_⟩
  · have hstatus : Status.ofSection? unstatedSection = some .incomplete := by decide +kernel
    rw [Status.detect, Option.bind_some, hfound, Option.bind_some, hstatus]
  · rw [← FieldValue.display_text searchFeature.name] at hfound
    rw [currentState_eq_existing rfl hfound]
    have hexisting : existing unstatedSection = "What's missing: filters" := by decide +kernel
    rw [hexisting]
    rfl

end SpecDraft.Plan
