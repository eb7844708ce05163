import SpecDraft.Proofs.Feature.Debt

/-!
# Which signals decide a status

The section of a debt document for a feature may mark a status, or have a phrase on what exists or
what is missing (`Says`). A marker outweighs the phrases, and both outweigh the acceptance criteria
(`detect_precedence`). Where the section says nothing, the criteria alone decide, and a criterion
that is checked off never lowers the status (`rank_ofCriteria_check`).
-/
set_option autoImplicit false

namespace SpecDraft.Text

theorem occurs_iff_infix {pattern s : List Char} : occurs pattern s = true ↔ pattern <:+: s := by
  induction s with
  | nil => rw [occurs, List.isEmpty_iff, List.infix_nil]
  | cons c s ih => rw [occurs, Bool.or_eq_true, List.isPrefixOf_iff_prefix, ih, List.infix_cons_iff]

end SpecDraft.Text

namespace SpecDraft.Status

open Text Markdown

/-! ## Signals -/

/-- Whether a phrase stands in a text. -/
def Holds (text phrase : String) : Prop := phrase.toList <:+: text.toList

/-- The markers of a status, in lower case. -/
def markers : Status → List String
  | complete => ["✅ complete", "status: complete"]
  | incomplete => ["⚠️ partial", "status: partial"]
  | missing => ["❌ missing", "status: missing"]

/-- Whether a text in lower case has a marker of a status. -/
def Marked (text : String) (status : Status) : Prop := ∃ marker ∈ status.markers, Holds text marker

/-- How much of a feature a status says is built. -/
def rank : Status → Nat
  | missing => 0
  | incomplete => 1
  | complete => 2

/-- Whether a status is marked and no better one is. -/
def FirstMarked (text : String) (status : Status) : Prop :=
  Marked text status ∧ ∀ better, status.rank < better.rank → ¬ Marked text better

/-- Whether a text has no marker. -/
def Unmarked (text : String) : Prop := ∀ status, ¬ Marked text status

/-- The phrase on what has been built. -/
def existsPhrase : String := "what exists"

/-- The phrase on what has not been built. -/
def missingPhrase : String := "what's missing"

/-- What a text in lower case says of a status. -/
inductive Says (text : String) : Option Status → Prop
  | marker {status : Status} (first : FirstMarked text status) : Says text (some status)
  | both (unmarked : Unmarked text) (built : Holds text existsPhrase)
      (lacking : Holds text missingPhrase) : Says text (some incomplete)
  | built (unmarked : Unmarked text) (built : Holds text existsPhrase)
      (lacking : ¬ Holds text missingPhrase) : Says text (some complete)
  | lacking (unmarked : Unmarked text) (built : ¬ Holds text existsPhrase)
      (lacking : Holds text missingPhrase) : Says text (some missing)
  | nothing (unmarked : Unmarked text) (built : ¬ Holds text existsPhrase)
      (lacking : ¬ Holds text missingPhrase) : Says text none

section Signals
variable {text : String} {status : Status}

theorem contains_iff_holds {phrase : String} : contains text phrase = true ↔ Holds text phrase :=
  occurs_iff_infix

theorem contains_eq_false_iff {phrase : String} :
    contains text phrase = false ↔ ¬ Holds text phrase := by
  rw [← contains_iff_holds, Bool.not_eq_true]

theorem marks_iff : marks text status = true ↔ Marked text status := by
  have hmarkers : status.markers = [lower status.text, "status: " ++ lower status.word] := by
    cases status <;> decide +kernel
  simp only [marks, Bool.or_eq_true, contains_iff_holds, Marked, hmarkers, List.mem_cons,
    List.not_mem_nil, or_false, exists_eq_or_imp, exists_eq_left]

instance (text : String) (status : Status) : Decidable (Marked text status) :=
  decidable_of_iff _ marks_iff

instance (text phrase : String) : Decidable (Holds text phrase) :=
  decidable_of_iff _ contains_iff_holds

theorem forall_status {P : Status → Prop} :
    (∀ status, P status) ↔ P complete ∧ P incomplete ∧ P missing :=
  ⟨fun h => ⟨h _, h _, h _⟩, fun ⟨hc, hi, hm⟩ status => by cases status <;> assumption⟩

/-- The statuses are tried from the best one down. -/
theorem find?_marks : all.find? (marks text) = some status ↔ FirstMarked text status := by
  rw [FirstMarked, forall_status]
  simp only [← marks_iff, all, List.find?_cons]
  cases status <;> cases marks text complete <;> cases marks text incomplete <;>
    cases marks text missing <;> simp [rank]

theorem find?_marks_eq_none : all.find? (marks text) = none ↔ Unmarked text := by
  rw [Unmarked, forall_status]
  simp [← marks_iff, all]

/-- **A text is read for what it says.** -/
theorem says_ofContent? (text : String) : Says text (ofContent? text) := by
  unfold ofContent?
  split
  · rename_i status hfind
    exact .marker (find?_marks.mp hfind)
  · rename_i hfind
    have hunmarked := find?_marks_eq_none.mp hfind
    split <;> rename_i hbuilt hlacking
    · exact .both hunmarked (contains_iff_holds.mp hbuilt) (contains_iff_holds.mp hlacking)
    · exact .built hunmarked (contains_iff_holds.mp hbuilt) (contains_eq_false_iff.mp hlacking)
    · exact .lacking hunmarked (contains_eq_false_iff.mp hbuilt) (contains_iff_holds.mp hlacking)
    · exact .nothing hunmarked (contains_eq_false_iff.mp hbuilt)
        (contains_eq_false_iff.mp hlacking)

theorem FirstMarked.unique {other : Status} (h : FirstMarked text status)
    (hother : FirstMarked text other) : status = other := by
  have hle : ¬ status.rank < other.rank := fun hlt => h.2 other hlt hother.1
  have hge : ¬ other.rank < status.rank := fun hlt => hother.2 status hlt h.1
  revert hle hge
  cases status <;> cases other <;> decide

theorem exists_firstMarked (h : ∃ status, Marked text status) :
    ∃ status, FirstMarked text status := by
  obtain ⟨status, hstatus⟩ := h
  cases hfind : all.find? (marks text) with
  | some first => exact ⟨first, find?_marks.mp hfind⟩
  | none => exact absurd hstatus (find?_marks_eq_none.mp hfind status)

/-- A text says one thing. -/
theorem Says.unique {a b : Option Status} (ha : Says text a) (hb : Says text b) : a = b := by
  cases ha with
  | marker first =>
    cases hb with
    | marker first' => rw [first.unique first']
    | _ unmarked => exact absurd first.1 (unmarked _)
  | _ unmarked =>
    cases hb with
    | marker first => exact absurd first.1 (unmarked _)
    | _ => first | rfl | contradiction

theorem ofContent?_eq_iff {said : Option Status} : ofContent? text = said ↔ Says text said :=
  ⟨fun h => h ▸ says_ofContent? text, fun h => (says_ofContent? text).unique h⟩

end Signals

/-! ## Criteria -/

section Criteria
variable {α : Type} {criteria other before after : List (Criterion α)}

/-- What the criteria show: nothing is built when none is checked, everything when all are. -/
theorem rank_ofCriteria (criteria : List (Criterion α)) : rank (ofCriteria criteria) =
    if criteria.countP (·.checked) = 0 then 0
    else if criteria.countP (·.checked) = criteria.length then 2 else 1 := by
  unfold ofCriteria
  cases criteria with
  | nil => rfl
  | cons criterion criteria =>
    have hlength : (criterion :: criteria).length ≠ 0 := Nat.succ_ne_zero _
    dsimp only
    rw [List.isEmpty_cons, if_neg Bool.false_ne_true]
    generalize List.countP _ (criterion :: criteria) = checked
    generalize (criterion :: criteria).length = total at hlength ⊢
    split_ifs <;> first | rfl | omega

/-- As many criteria with more of them checked make no lower status. -/
theorem rank_ofCriteria_le (hlength : criteria.length = other.length)
    (hchecked : criteria.countP (·.checked) ≤ other.countP (·.checked)) :
    rank (ofCriteria criteria) ≤ rank (ofCriteria other) := by
  have hbound := List.countP_le_length (p := fun c : Criterion α => c.checked) (l := other)
  rw [rank_ofCriteria, rank_ofCriteria]
  split_ifs <;> omega

/-- **Checking a criterion off never lowers the status.** -/
theorem rank_ofCriteria_check (criterion : Criterion α) :
    rank (ofCriteria (before ++ criterion :: after)) ≤
      rank (ofCriteria (before ++ { criterion with checked := true } :: after)) := by
  refine rank_ofCriteria_le (by simp) ?_
  simp only [List.countP_append, List.countP_cons]
  cases criterion.checked <;> simp

end Criteria

/-! ## Precedence -/

/-- What a debt document says of a feature: the title and the text of its section, in lower case. -/
def evidence? (name : String) (debt : Option Document) : Option String :=
  (debt.bind (debtSection? name)).map statement

/-- Whether a text has neither a marker nor a phrase. -/
def Silent (text : String) : Prop :=
  Unmarked text ∧ ¬ Holds text existsPhrase ∧ ¬ Holds text missingPhrase

section Detect
variable {α : Type} {name : String} {debt : Option Document} {text : String} {said : Option Status}

/-- A section that says something decides, and the criteria do where it says nothing. -/
theorem detect_of_evidence (h : evidence? name debt = some text) (hsaid : Says text said)
    (criteria : List (Criterion α)) :
    detect name criteria debt = said.getD (ofCriteria criteria) := by
  obtain ⟨found, hfound, rfl⟩ := Option.map_eq_some_iff.mp h
  rw [detect, hfound, Option.bind_some]
  have hread : ofSection? found = said := ofContent?_eq_iff.mpr hsaid
  rw [hread]
  cases said <;> rfl

theorem detect_of_silent (h : ∀ text ∈ evidence? name debt, Silent text)
    (criteria : List (Criterion α)) : detect name criteria debt = ofCriteria criteria := by
  cases hevidence : evidence? name debt with
  | none =>
    rw [detect, Option.map_eq_none_iff.mp hevidence]
    rfl
  | some text =>
    obtain ⟨hunmarked, hbuilt, hlacking⟩ := h text hevidence
    exact detect_of_evidence hevidence (.nothing hunmarked hbuilt hlacking) criteria

end Detect

/-- **The signals decide in strict order.** A section that marks a status decides for the first one
that it marks, whatever the criteria are; two sections that mark the same statuses decide alike,
whatever phrases they have. A section without markers decides by its phrases, whatever the criteria
are. Where nothing is said the criteria alone decide, as they do without a debt document, and
checking one more of them off never lowers the status. -/
theorem detect_precedence {α : Type} (name : String) (debt : Option Document) :
    (∀ text, evidence? name debt = some text → (∃ status, Marked text status) →
      (∃ status, FirstMarked text status ∧
        ∀ criteria : List (Criterion α), detect name criteria debt = status) ∧
      ∀ name' debt' text', evidence? name' debt' = some text' →
        (∀ status, Marked text status ↔ Marked text' status) →
        ∀ criteria criteria' : List (Criterion α),
          detect name criteria debt = detect name' criteria' debt') ∧
    (∀ text, evidence? name debt = some text → Unmarked text →
      ∀ criteria : List (Criterion α),
        (Holds text existsPhrase → Holds text missingPhrase →
          detect name criteria debt = .incomplete) ∧
        (Holds text existsPhrase → ¬ Holds text missingPhrase →
          detect name criteria debt = .complete) ∧
        (¬ Holds text existsPhrase → Holds text missingPhrase →
          detect name criteria debt = .missing)) ∧
    ((∀ text ∈ evidence? name debt, Silent text) →
      (∀ criteria : List (Criterion α), detect name criteria debt = detect name criteria none) ∧
      (∀ name' debt', (∀ text ∈ evidence? name' debt', Silent text) →
        ∀ criteria : List (Criterion α), detect name criteria debt = detect name' criteria debt') ∧
      ∀ (before after : List (Criterion α)) (criterion : Criterion α),
        rank (detect name (before ++ criterion :: after) debt) ≤
          rank (detect name (before ++ { criterion with checked := true } :: after) debt)) := by
  refine ⟨fun text htext hmarked => ?_, fun text htext hunmarked criteria => ⟨?_, ?_, ?_⟩,
    fun hsilent => ⟨fun criteria => ?_, fun name' debt' hsilent' criteria => ?_, ?_⟩⟩
  · obtain ⟨status, hfirst⟩ := exists_firstMarked hmarked
    refine ⟨⟨status, hfirst, detect_of_evidence htext (.marker hfirst)⟩, ?_⟩
    intro name' debt' text' htext' hsame criteria criteria'
    have hfirst' : FirstMarked text' status := by
      simpa only [FirstMarked, hsame] using hfirst
    rw [detect_of_evidence htext (.marker hfirst), detect_of_evidence htext' (.marker hfirst'),
      Option.getD_some, Option.getD_some]
  · intro hbuilt hlacking
    exact detect_of_evidence htext (.both hunmarked hbuilt hlacking) criteria
  · intro hbuilt hlacking
    exact detect_of_evidence htext (.built hunmarked hbuilt hlacking) criteria
  · intro hbuilt hlacking
    exact detect_of_evidence htext (.lacking hunmarked hbuilt hlacking) criteria
  · exact detect_of_silent hsilent criteria
  · rw [detect_of_silent hsilent, detect_of_silent hsilent']
  · intro before after criterion
    rw [detect_of_silent hsilent, detect_of_silent hsilent]
    exact rank_ofCriteria_check criterion

/-- A debt document with a marker and a phrase for one feature, two phrases for another, and nothing
for a third. -/
def threeSectionsContent : String :=
  "## Search\n❌ MISSING\nWhat exists: an index\n## Export\nWhat exists: a draft\n" ++
    "What's missing: tests\n## Import\nTo be planned."

/-- The nodes of that document. -/
def threeSectionsNodes : List Node := [
  ⟨.heading 2, "Search", 1⟩, ⟨.paragraph, "❌ MISSING", 2⟩, ⟨.paragraph, "What exists: an index", 3⟩,
  ⟨.heading 2, "Export", 4⟩, ⟨.paragraph, "What exists: a draft", 5⟩,
  ⟨.paragraph, "What's missing: tests", 6⟩, ⟨.heading 2, "Import", 7⟩,
  ⟨.paragraph, "To be planned.", 8⟩]

theorem parse_threeSectionsContent :
    Markdown.parse threeSectionsContent = .ok threeSectionsNodes :=
  parse_of_toOption (by decide +kernel)

/-- Two criteria, one of them checked off. -/
def twoCriteria : List Criterion := [⟨"Finds a note", true, true⟩, ⟨"Is fast", false, true⟩]

theorem detect_precedence_sample : ∃ debt : Document,
    Document.parse threeSectionsContent ⟨"/", ["debt.md"]⟩ "" = .ok debt ∧
    detect "Search" twoCriteria (some debt) = .missing ∧
    detect "Export" twoCriteria (some debt) = .incomplete ∧
    detect "Import" twoCriteria (some debt) = detect "Import" twoCriteria none := by
  obtain ⟨debt, hparse, hnodes⟩ :=
    Document.exists_parse parse_threeSectionsContent ⟨"/", ["debt.md"]⟩ ""
  have hevidence (name text : String) (h : (findSection? threeSectionsNodes (.containing name)).map
      statement = some text) : evidence? name (some debt) = some text := by
    rw [evidence?, Option.bind_some, debtSection?, hnodes]
    exact h
  refine ⟨debt, hparse, ?_, ?_, ?_⟩
  · have htext := hevidence "Search" "search\n❌ missing\nwhat exists: an index" (by decide +kernel)
    obtain ⟨⟨status, hfirst, hdetect⟩, -⟩ := (detect_precedence "Search" (some debt)).1 _ htext
      ⟨.missing, by decide +kernel⟩
    rw [hdetect]
    exact hfirst.unique (find?_marks.mp (by decide +kernel))
  · have htext := hevidence "Export" "export\nwhat exists: a draft\nwhat's missing: tests"
      (by decide +kernel)
    exact ((detect_precedence "Export" (some debt)).2.1 _ htext
      (find?_marks_eq_none.mp (by decide +kernel)) twoCriteria).1 (by decide +kernel)
      (by decide +kernel)
  · have htext := hevidence "Import" "import\nto be planned." (by decide +kernel)
    refine ((detect_precedence "Import" (some debt)).2.2 fun text hmem => ?_).1 twoCriteria
    obtain rfl := Option.some.inj (htext.symm.trans hmem)
    exact ⟨find?_marks_eq_none.mp (by decide +kernel), by decide +kernel, by decide +kernel⟩

end SpecDraft.Status
