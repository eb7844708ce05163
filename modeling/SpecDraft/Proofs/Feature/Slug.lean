import SpecDraft.Proofs.Feature.Naming
import SpecDraft.Proofs.Text.LetterCase

/-!
# Slugs

A slug is the words of a name in lower case, with one hyphen between any two of them
(`toList_slugOf`). A hyphen keeps the words on its two sides apart, whatever stands there, and is
none itself; so the words of a slug are the words that it was made of (`wordsOf_intercalate`), and
the words of two names put together with a hyphen are the words of both (`wordsOf_append`). The laws
of slugs follow (`slugOf_laws`).
-/
set_option autoImplicit false

namespace SpecDraft.Feature

open Text

/-- Whether a character is a small letter from `a` to `z` or a digit from `0` to `9`. -/
def IsAlphanumeric (c : Char) : Prop := 'a' ≤ c ∧ c ≤ 'z' ∨ '0' ≤ c ∧ c ≤ '9'

theorem isSlugChar_iff {c : Char} : isSlugChar c = true ↔ IsAlphanumeric c := by
  simp only [isSlugChar, Bool.or_eq_true, Bool.and_eq_true, decide_eq_true_eq]
  exact Iff.rfl

/-! ## Runs -/

section Runs
variable {p : Char → Bool} {c : Char} {a : List Char}

theorem exists_runsOf (p : Char → Bool) (a : List Char) :
    ∃ first rest, runsOf p a = first :: rest := by
  cases a with
  | nil => exact ⟨[], [], rfl⟩
  | cons c a =>
    rw [runsOf]
    split
    · exact ⟨[], [], rfl⟩
    · split
      · exact ⟨_, _, rfl⟩
      · exact ⟨_, _, rfl⟩

/-- A character of the class prolongs the first run. -/
theorem runsOf_cons_of_pos {first : List Char} {rest : List (List Char)} (hc : p c = true)
    (h : runsOf p a = first :: rest) : runsOf p (c :: a) = (c :: first) :: rest := by
  simp only [runsOf, h, hc, if_true]

/-- Any other character stands before an empty run. -/
theorem runsOf_cons_of_neg (hc : p c = false) (a : List Char) :
    runsOf p (c :: a) = [] :: runsOf p a := by
  obtain ⟨first, rest, h⟩ := exists_runsOf p a
  simp [runsOf, h, hc]

/-- A character of another class keeps the runs on its two sides apart. -/
theorem runsOf_append (hc : p c = false) (a b : List Char) :
    runsOf p (a ++ c :: b) = runsOf p a ++ runsOf p b := by
  induction a with
  | nil => exact runsOf_cons_of_neg hc b
  | cons d a ih =>
    obtain ⟨first, rest, h⟩ := exists_runsOf p a
    rw [List.cons_append]
    by_cases hd : p d = true
    · rw [runsOf_cons_of_pos hd h]
      rw [h, List.cons_append] at ih
      exact runsOf_cons_of_pos hd ih
    · have hd : p d = false := by simpa using hd
      rw [runsOf_cons_of_neg hd, runsOf_cons_of_neg hd, ih, List.cons_append]

theorem runsOf_of_forall (h : ∀ c ∈ a, p c = true) : runsOf p a = [a] := by
  induction a with
  | nil => rfl
  | cons c a ih =>
    obtain ⟨hc, ha⟩ := List.forall_mem_cons.mp h
    exact runsOf_cons_of_pos hc (ih ha)

end Runs

/-! ## Words -/

/-- The words of a text: its runs of small letters and digits. -/
def wordsOf (s : List Char) : List (List Char) := (runsOf isSlugChar s).filter (!·.isEmpty)

/-- Whether a text is a word: a letter or a digit, and then any more of them. -/
def IsWord (word : List Char) : Prop := word ≠ [] ∧ ∀ c ∈ word, IsAlphanumeric c

section Words
variable {s word : List Char} {words : List (List Char)}

theorem isWord_of_mem_wordsOf (h : word ∈ wordsOf s) : IsWord word := by
  obtain ⟨hrun, hfilled⟩ := List.mem_filter.mp h
  refine ⟨?_, fun c hc => isSlugChar_iff.mp (of_mem_runsOf hrun c hc)⟩
  intro hnil
  rw [hnil] at hfilled
  cases hfilled

theorem wordsOf_cons_of_neg {c : Char} (hc : isSlugChar c = false) (s : List Char) :
    wordsOf (c :: s) = wordsOf s := by
  rw [wordsOf, runsOf_cons_of_neg hc, List.filter_cons_of_neg (by simp), wordsOf]

/-- **A hyphen keeps words apart.** -/
theorem wordsOf_append (a b : List Char) : wordsOf (a ++ '-' :: b) = wordsOf a ++ wordsOf b := by
  rw [wordsOf, runsOf_append (by decide), List.filter_append, wordsOf, wordsOf]

theorem wordsOf_of_isWord (h : IsWord word) : wordsOf word = [word] := by
  have hchars : ∀ c ∈ word, isSlugChar c = true := fun c hc => isSlugChar_iff.mpr (h.2 c hc)
  rw [wordsOf, runsOf_of_forall hchars, List.filter_cons_of_pos (by simpa using h.1),
    List.filter_nil]

/-- **Words are found again** after they were joined by hyphens. -/
theorem wordsOf_intercalate (h : ∀ word ∈ words, IsWord word) :
    wordsOf (['-'].intercalate words) = words := by
  induction words with
  | nil => rfl
  | cons first rest ih =>
    obtain ⟨hfirst, hrest⟩ := List.forall_mem_cons.mp h
    cases rest with
    | nil =>
      rw [List.intercalate_singleton]
      exact wordsOf_of_isWord hfirst
    | cons second rest =>
      rw [List.intercalate_cons_cons, List.append_assoc, List.singleton_append, wordsOf_append,
        wordsOf_of_isWord hfirst, ih hrest, List.singleton_append]

/-- There is no word exactly where there is no letter and no digit. -/
theorem wordsOf_eq_nil_iff : wordsOf s = [] ↔ ∀ c ∈ s, isSlugChar c = false := by
  induction s with
  | nil => simp [wordsOf, runsOf]
  | cons c s ih =>
    rw [List.forall_mem_cons]
    by_cases hc : isSlugChar c = true
    · obtain ⟨first, rest, h⟩ := exists_runsOf isSlugChar s
      rw [wordsOf, runsOf_cons_of_pos hc h, List.filter_cons_of_pos (by simp), hc]
      simp
    · have hc : isSlugChar c = false := by simpa using hc
      rw [wordsOf_cons_of_neg hc, ih]
      simp [hc]

end Words

theorem lowerChar_of_isSlugChar {c : Char} (h : isSlugChar c = true ∨ c = '-') :
    lowerChar c = c ∧ c ≠ 'Σ' ∧ c ≠ 'İ' := by
  rcases h with h | rfl
  · have hrange : (97 ≤ c.toNat ∧ c.toNat ≤ 122) ∨ 48 ≤ c.toNat ∧ c.toNat ≤ 57 := by
      simpa [isSlugChar] using h
    refine ⟨?_, ?_, ?_⟩
    · rw [lowerChar, if_pos (by omega), if_neg (by omega)]
    · rintro rfl
      exact absurd h (by decide)
    · rintro rfl
      exact absurd h (by decide)
  · exact ⟨rfl, by decide, by decide⟩

/-! ## Laws -/

section Laws
variable {name : String}

/-- **A slug is the words of the name in lower case**, joined by hyphens. -/
theorem toList_slugOf (name : String) :
    (slugOf name).toList = ['-'].intercalate (wordsOf (lower name).toList) := by
  rw [slugOf, toList_join, List.map_map]
  exact congrArg (['-'].intercalate) (List.map_id'' (fun _ => String.toList_ofList) _)

theorem slugOf_eq_empty_iff : slugOf name = "" ↔ wordsOf (lower name).toList = [] := by
  rw [← String.toList_eq_nil_iff, toList_slugOf]
  constructor
  · intro h
    have hwords := wordsOf_intercalate fun word => isWord_of_mem_wordsOf (s := (lower name).toList)
    rw [h] at hwords
    exact hwords.symm
  · intro h
    rw [h]
    rfl

/-- A slug is in lower case. -/
theorem lower_slugOf (name : String) : lower (slugOf name) = slugOf name := by
  have hchars : lowerFrom false (slugOf name).toList = (slugOf name).toList :=
    lowerFrom_eq_self fun c hc => lowerChar_of_isSlugChar (mem_slugOf name c hc)
  rw [lower, hchars, String.ofList_toList]

theorem slugOf_slugOf (name : String) : slugOf (slugOf name) = slugOf name := by
  rw [← String.toList_inj, toList_slugOf, lower_slugOf, toList_slugOf,
    wordsOf_intercalate fun word => isWord_of_mem_wordsOf]

theorem wordsOf_lower_append (s t : String) : wordsOf (lower (s ++ "-" ++ t)).toList =
    wordsOf (lower s).toList ++ wordsOf (lower t).toList := by
  have hchars : (s ++ "-" ++ t).toList = s.toList ++ '-' :: t.toList := by simp
  have hhyphen : lowerChar '-' = '-' := rfl
  rw [toList_lower, hchars, lowerFrom_append (by decide +kernel) (by decide +kernel), hhyphen,
    wordsOf_append, toList_lower, toList_lower]

theorem slugOf_append {s t : String} (hs : slugOf s ≠ "") (ht : slugOf t ≠ "") :
    slugOf (s ++ "-" ++ t) = slugOf s ++ "-" ++ slugOf t := by
  rw [ne_eq, slugOf_eq_empty_iff] at hs ht
  rw [← String.toList_inj, toList_slugOf, wordsOf_lower_append, intercalate_append hs ht,
    String.toList_append, String.toList_append, toList_slugOf, toList_slugOf]
  rfl

/-- Whether a text is in the form of slugs: words, with one hyphen between any two of them. So every
hyphen stands between two other characters. -/
structure IsSlug (text : List Char) : Prop where
  words : ∃ words, words ≠ [] ∧ (∀ word ∈ words, IsWord word) ∧ text = ['-'].intercalate words
  hyphens : ∀ before after, text = before ++ '-' :: after →
    before ≠ [] ∧ before.getLast? ≠ some '-' ∧ after ≠ [] ∧ after.head? ≠ some '-'

theorem not_mem_of_isWord {word : List Char} (h : IsWord word) : '-' ∉ word := by
  intro hmem
  have hhyphen := h.2 '-' hmem
  exact absurd (isSlugChar_iff.mpr hhyphen) (by decide)

/-- Words that are joined by hyphens leave no room for another one: with two hyphens side by side,
or one at an end, some piece between hyphens would be empty. -/
theorem isSlug_intercalate {words : List (List Char)} (hne : words ≠ [])
    (h : ∀ word ∈ words, IsWord word) : IsSlug (['-'].intercalate words) where
  words := ⟨words, hne, h, rfl⟩
  hyphens before after htext := by
    have hpieces : split '-' before ++ split '-' after = words := by
      rw [← split_append_split, ← htext]
      exact split_intercalate hne fun word hword => not_mem_of_isWord (h word hword)
    have hfilled : [] ∉ split '-' before ++ split '-' after := by
      rw [hpieces]
      exact fun hnil => (h [] hnil).1 rfl
    rw [List.mem_append, not_or] at hfilled
    refine ⟨?_, fun hlast => ?_, ?_, fun hhead => ?_⟩
    · rintro rfl
      exact hfilled.1 List.mem_cons_self
    · obtain ⟨start, rfl⟩ := List.getLast?_eq_some_iff.mp hlast
      apply hfilled.1
      rw [split_append_split]
      exact List.mem_append_right _ List.mem_cons_self
    · rintro rfl
      exact hfilled.2 List.mem_cons_self
    · obtain ⟨rest, rfl⟩ := List.head?_eq_some_iff.mp hhead
      apply hfilled.2
      rw [← List.nil_append ('-' :: rest), split_append_split]
      exact List.mem_cons_self

/-- **The laws of slugs.** A slug is empty, or words of small letters and digits with one hyphen
between any two of them. It is empty exactly when the name has no such letter and no digit in lower
case. The slug of a slug is the slug itself, and the slug of two names with a hyphen between them is
their two slugs with a hyphen between them, if none of these is empty. -/
theorem slugOf_laws (s t : String) :
    (slugOf s = "" ∨ IsSlug (slugOf s).toList) ∧
    (slugOf s = "" ↔ ∀ c ∈ (lower s).toList, ¬ IsAlphanumeric c) ∧
    slugOf (slugOf s) = slugOf s ∧
    (slugOf s ≠ "" → slugOf t ≠ "" → slugOf (s ++ "-" ++ t) = slugOf s ++ "-" ++ slugOf t) := by
  refine ⟨?_, ?_, slugOf_slugOf s, slugOf_append⟩
  · by_cases hempty : slugOf s = ""
    · exact .inl hempty
    · right
      rw [slugOf_eq_empty_iff] at hempty
      rw [toList_slugOf]
      exact isSlug_intercalate hempty fun word => isWord_of_mem_wordsOf
  · rw [slugOf_eq_empty_iff, wordsOf_eq_nil_iff]
    simp only [← isSlugChar_iff, Bool.not_eq_true]

theorem slugOf_laws_sample : slugOf "\u212AİΣ" = "ki" ∧ slugOf "Σ 2.0!" = "2-0" ∧
    slugOf ("\u212AİΣ" ++ "-" ++ "Σ 2.0!") = "ki" ++ "-" ++ "2-0" := by
  have hs : slugOf "\u212AİΣ" = "ki" := by decide +kernel
  have ht : slugOf "Σ 2.0!" = "2-0" := by decide +kernel
  refine ⟨hs, ht, ?_⟩
  have happend := (slugOf_laws "\u212AİΣ" "Σ 2.0!").2.2.2
  rw [hs, ht] at happend
  exact happend (by decide) (by decide)

end Laws

end SpecDraft.Feature
