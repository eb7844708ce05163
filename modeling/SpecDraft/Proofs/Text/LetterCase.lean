import Mathlib
import SpecDraft.Text.Case

/-!
# Lower-case forms

Which characters have a lower-case form in ASCII: those of ASCII, the Kelvin sign, and the dotted
capital I (`ascii_of_lowerChar`). A text whose lower-case form is spelled with other letters than
those two is therefore spelled with the same letters (`lowerFrom_cons`). The form of a capital sigma
depends on the letters around it, but not across a sign that is no letter (`lowerFrom_append`).
-/
set_option autoImplicit false

namespace SpecDraft.Text

/-- Whether a run maps characters beyond ASCII to characters beyond ASCII. -/
def CaseRun.StaysAbove (run : CaseRun) : Prop :=
  128 ≤ run.first + run.shift ∧
    (run.last + run.shift < 0xD800 ∨
      0xDFFF < run.first + run.shift ∧ run.last + run.shift < 0x110000)

instance (run : CaseRun) : Decidable run.StaysAbove := inferInstanceAs (Decidable (_ ∧ _))

/-- Only two characters beyond ASCII have a lower-case form in ASCII: the dotted capital I and the
Kelvin sign. -/
theorem lowerRuns_stayAbove : ∀ run ∈ lowerRuns, run.last < 128 ∨ run.StaysAbove ∨
    run.first = run.last ∧ (run.first = 0x130 ∨ run.first = 0x212A) := by
  decide +kernel

theorem mapCase_lowerRuns {c : Char} (h : 128 ≤ c.toNat) :
    128 ≤ (mapCase lowerRuns c).toNat ∨ c = 'İ' ∨ c = '\u212A' := by
  unfold mapCase
  split
  · rename_i run hfind
    have hmaps := List.find?_some hfind
    have hrun := lowerRuns_stayAbove run (List.mem_of_find?_eq_some hfind)
    simp only [CaseRun.maps, Bool.and_eq_true, decide_eq_true_eq] at hmaps
    obtain ⟨⟨hfirst, hlast⟩, -⟩ := hmaps
    rcases hrun with hascii | ⟨habove, hscalar⟩ | ⟨hsingle, hspecial⟩
    · omega
    · refine .inl ?_
      rw [Char.toNat_ofNat, if_pos (show Nat.isValidChar _ by unfold Nat.isValidChar; omega)]
      omega
    · have hchar : c.toNat = 'İ'.toNat ∨ c.toNat = '\u212A'.toNat := by
        rw [show 'İ'.toNat = 0x130 by decide, show '\u212A'.toNat = 0x212A by decide]
        omega
      exact .inr (hchar.imp Char.toNat_inj.mp Char.toNat_inj.mp)
  · exact .inl h

/-- **A character with a lower-case form in ASCII** is in ASCII itself, but for two. -/
theorem ascii_of_lowerChar {c : Char} (h : (lowerChar c).toNat < 128) :
    c.toNat < 128 ∨ c = 'İ' ∨ c = '\u212A' := by
  by_cases hc : c.toNat < 128
  · exact .inl hc
  · rw [lowerChar, if_neg hc] at h
    rcases mapCase_lowerRuns (Nat.le_of_not_lt hc) with habove | hspecial
    · omega
    · exact .inr hspecial

/-- A letter of ASCII, but for two, is the lower-case form of its own two cases only. -/
theorem eq_of_lowerChar {c letter : Char} (h : lowerChar c = letter) (hascii : letter.toNat < 128)
    (hi : letter ≠ 'i') (hk : letter ≠ 'k') :
    c = letter ∨ 'A'.toNat ≤ c.toNat ∧ c.toNat + 32 = letter.toNat := by
  subst h
  rcases ascii_of_lowerChar hascii with hc | rfl | rfl
  · rw [lowerChar, if_pos hc]
    split
    · rename_i hcapital
      refine .inr ⟨hcapital.1, ?_⟩
      rw [Char.toNat_ofNat, if_pos (show Nat.isValidChar _ by unfold Nat.isValidChar; omega)]
    · exact .inl rfl
  · exact absurd (by decide) hi
  · exact absurd (by decide +kernel) hk

/-- A text whose lower-case form starts with such a letter starts with it in one of its cases. -/
theorem lowerFrom_cons {cased : Bool} {s rest : List Char} {letter : Char}
    (h : lowerFrom cased s = letter :: rest) (hascii : letter.toNat < 128)
    (hi : letter ≠ 'i') (hk : letter ≠ 'k') :
    ∃ c s' cased', s = c :: s' ∧
      (c = letter ∨ 'A'.toNat ≤ c.toNat ∧ c.toNat + 32 = letter.toNat) ∧
      lowerFrom cased' s' = rest := by
  cases s with
  | nil => cases h
  | cons c s =>
    rw [lowerFrom] at h
    split at h
    · -- Neither form of sigma is in ASCII.
      obtain ⟨rfl, -⟩ := List.cons.inj h
      split at hascii <;> exact absurd hascii (by decide)
    split at h
    · exact absurd (List.cons.inj h).1.symm hi
    · obtain ⟨hletter, hrest⟩ := List.cons.inj h
      exact ⟨c, s, _, rfl, eq_of_lowerChar hletter hascii hi hk, hrest⟩

theorem lowerFrom_eq_nil {cased : Bool} {s : List Char} (h : lowerFrom cased s = []) : s = [] := by
  cases s with
  | nil => rfl
  | cons c s =>
    rw [lowerFrom] at h
    split at h
    · cases h
    split at h <;> cases h

theorem toList_lower (s : String) : (lower s).toList = lowerFrom false s.toList :=
  String.toList_ofList

/-- What has no other form in lower case stays. -/
theorem lowerFrom_eq_self {cased : Bool} {s : List Char}
    (h : ∀ c ∈ s, lowerChar c = c ∧ c ≠ 'Σ' ∧ c ≠ 'İ') : lowerFrom cased s = s := by
  induction s generalizing cased with
  | nil => rfl
  | cons c s ih =>
    obtain ⟨⟨hlower, hsigma, hdotted⟩, hs⟩ := List.forall_mem_cons.mp h
    rw [lowerFrom, if_neg hsigma, if_neg hdotted, hlower, ih hs]

section Apart
variable {c : Char}

/-- The look for a cased letter ends at a character that is neither one nor skipped. -/
theorem casedAhead_append (hskipped : isCaseIgnorable c = false) (hcased : isCased c = false)
    (s t : List Char) : casedAhead (s ++ c :: t) = casedAhead s := by
  induction s with
  | nil => simp only [List.nil_append, casedAhead, hskipped, hcased, Bool.false_eq_true, if_false]
  | cons d s ih => rw [List.cons_append, casedAhead, casedAhead, ih]

/-- **Two texts are put into lower case on their own** when a character stands between them that is
no cased letter and is not skipped: a capital sigma does not see across it. -/
theorem lowerFrom_append (hskipped : isCaseIgnorable c = false) (hcased : isCased c = false)
    (cased : Bool) (s t : List Char) :
    lowerFrom cased (s ++ c :: t) = lowerFrom cased s ++ lowerChar c :: lowerFrom false t := by
  have hsigma : c ≠ 'Σ' := by
    rintro rfl
    exact absurd hcased (by decide +kernel)
  have hdotted : c ≠ 'İ' := by
    rintro rfl
    exact absurd hcased (by decide +kernel)
  induction s generalizing cased with
  | nil =>
    simp only [List.nil_append, lowerFrom, hsigma, hdotted, hskipped, hcased, Bool.false_eq_true,
      if_false]
  | cons d s ih =>
    rw [List.cons_append, lowerFrom, lowerFrom, ih, casedAhead_append hskipped hcased]
    split
    · rfl
    · split
      · rfl
      · rfl

end Apart

/-! ## Folded forms -/

/-- Only two of the exceptions lead into ASCII, and both to a letter. -/
theorem foldExceptions_ascii : ∀ entry ∈ foldExceptions,
    Char.ofNat entry.2 = 'i' ∨ Char.ofNat entry.2 = 's' ∨ 128 ≤ (Char.ofNat entry.2).toNat := by
  decide

theorem lowerChar_of_fold {c : Char} (hascii : (fold c).toNat < 128) (hi : fold c ≠ 'i')
    (hs : fold c ≠ 's') : lowerChar c = fold c := by
  unfold fold at hascii hi hs ⊢
  dsimp only at hascii hi hs ⊢
  split at hascii
  · rename_i hlow
    rw [if_pos hlow]
  · rename_i hlow
    rw [if_neg hlow] at hi hs ⊢
    cases hlookup : foldExceptions.lookup (lowerChar c).toNat with
    | none => rfl
    | some n =>
      rw [hlookup] at hascii hi hs
      dsimp only at hascii hi hs
      obtain ⟨before, after, hsplit, -⟩ := List.lookup_eq_some_iff.mp hlookup
      have hmem : ((lowerChar c).toNat, n) ∈ foldExceptions := hsplit ▸ by simp
      rcases foldExceptions_ascii _ hmem with hn | hn | habove
      · exact absurd hn hi
      · exact absurd hn hs
      · exact absurd hascii (Nat.not_lt.mpr habove)

/-- **A sign of ASCII differs from every other character**, whatever the letter case. -/
theorem eq_of_fold {c sign : Char} (h : fold c = sign) (hascii : sign.toNat < 128)
    (hsign : ¬ ('a'.toNat ≤ sign.toNat ∧ sign.toNat ≤ 'z'.toNat)) : c = sign := by
  have hi : sign ≠ 'i' := by
    rintro rfl
    exact hsign (by decide)
  have hk : sign ≠ 'k' := by
    rintro rfl
    exact hsign (by decide)
  have hs : sign ≠ 's' := by
    rintro rfl
    exact hsign (by decide)
  subst h
  have hlow := lowerChar_of_fold hascii hi hs
  rcases eq_of_lowerChar hlow hascii hi hk with hsame | ⟨hcapital, hshift⟩
  · exact hsame
  · -- A capital letter has the form of a small one, and the capitals are 26.
    rw [lowerChar] at hlow
    have hc : c.toNat < 128 := by omega
    rw [if_pos hc] at hlow
    split at hlow
    · rename_i hrange
      refine absurd ?_ hsign
      rw [show 'a'.toNat = 97 by decide, show 'z'.toNat = 122 by decide]
      omega
    · exact hlow

theorem mem_of_inRanges {ranges : List (Nat × Nat)} {n : Nat} (h : inRanges ranges n = true) :
    ∃ run ∈ ranges, run.1 ≤ n ∧ n ≤ run.2 := by
  induction ranges with
  | nil => cases h
  | cons run rest ih =>
    rw [inRanges] at h
    split at h
    · cases h
    · rename_i hfirst
      split at h
      · rename_i hlast
        exact ⟨run, List.mem_cons_self, by omega, hlast⟩
      · obtain ⟨other, hother, hwithin⟩ := ih h
        exact ⟨other, List.mem_cons_of_mem _ hother, hwithin⟩

/-- A blank has no other form. -/
theorem fold_of_isBlank {c : Char} (h : isBlank c = true) : fold c = c := by
  have hblanks : ∀ run ∈ blankRanges, ∀ k ≤ run.2 - run.1,
      fold (Char.ofNat (run.1 + k)) = Char.ofNat (run.1 + k) := by
    decide +kernel
  obtain ⟨run, hrun, hfirst, hlast⟩ := mem_of_inRanges h
  have hform := hblanks run hrun (c.toNat - run.1) (by omega)
  rwa [Nat.add_sub_cancel' hfirst, Char.ofNat_toNat] at hform

/-- A character with the form of a letter that is no blank is no blank either. -/
theorem isBlank_of_fold {c letter : Char} (h : fold c = letter) (hletter : isBlank letter = false) :
    isBlank c = false := by
  cases hblank : isBlank c with
  | false => rfl
  | true =>
    rw [fold_of_isBlank hblank] at h
    rw [h, hletter] at hblank
    cases hblank

end SpecDraft.Text
