import Mathlib.Data.List.Infix
import SpecDraft.Text.Basic

/-!
# Searching up to letter case

A text starts with a pattern when it starts with the same letters (`afterFold?_eq_some_iff`), and a
search along a text stops at the first place where something is recognised
(`firstFrom_eq_some_iff`).
-/
set_option autoImplicit false

namespace SpecDraft.Text

/-- Whether a text departs from a pattern, up to letter case, where both still go on. -/
def departs (pattern text : List Char) : Bool :=
  (pattern.zip text).any fun (p, c) => fold p != fold c

theorem afterFold?_of_departs {pattern before : List Char} (h : departs pattern before = true)
    (s : List Char) : afterFold? pattern (before ++ s) = none := by
  induction before generalizing pattern with
  | nil => simp [departs] at h
  | cons c before ih =>
    cases pattern with
    | nil => cases h
    | cons p pattern =>
      rw [List.cons_append, afterFold?]
      split
      · rename_i hfold
        refine ih ?_
        simpa [departs, hfold] using h
      · rfl

/-- Whether two texts are the same up to letter case. -/
def SameLetters (a b : List Char) : Prop := a.map fold = b.map fold

instance (a b : List Char) : Decidable (SameLetters a b) := inferInstanceAs (Decidable (_ = _))

theorem SameLetters.length_eq {a b : List Char} (h : SameLetters a b) : a.length = b.length := by
  simpa using congrArg List.length h

/-- Whether a text departs from a pattern is a matter of its letters. -/
theorem departs_eq_of_sameLetters {a b : List Char} (pattern : List Char) (h : SameLetters a b) :
    departs pattern a = departs pattern b := by
  have hforms (s : List Char) : departs pattern s =
      (pattern.zip (s.map fold)).any fun pair => fold pair.1 != pair.2 := by
    rw [departs, List.zip_map_right, List.any_map]
    rfl
  rw [hforms, hforms, h]

/-- **A text starts with a pattern** when it starts with the same letters. -/
theorem afterFold?_eq_some_iff {pattern s rest : List Char} :
    afterFold? pattern s = some rest ↔ ∃ here, s = here ++ rest ∧ SameLetters here pattern := by
  induction pattern generalizing s with
  | nil =>
    rw [afterFold?, Option.some.injEq]
    constructor
    · rintro rfl
      exact ⟨[], rfl, rfl⟩
    · rintro ⟨here, rfl, hsame⟩
      rw [List.length_eq_zero_iff.mp hsame.length_eq, List.nil_append]
  | cons p pattern ih =>
    cases s with
    | nil => simp [afterFold?, SameLetters]
    | cons c s =>
      rw [afterFold?]
      constructor
      · intro h
        split at h
        · rename_i hfold
          obtain ⟨here, rfl, hsame⟩ := ih.mp h
          exact ⟨c :: here, rfl, List.cons_eq_cons.mpr ⟨hfold.symm, hsame⟩⟩
        · cases h
      · rintro ⟨here, hsplit, hsame⟩
        cases here with
        | nil => cases hsame
        | cons d here =>
          obtain ⟨rfl, rfl⟩ := List.cons.inj hsplit
          obtain ⟨hfold, hrest⟩ := List.cons.inj hsame
          rw [if_pos hfold.symm]
          exact ih.mpr ⟨here, rfl, hrest⟩

/-- A text that starts with one of several patterns starts with the letters of one of them. -/
theorem afterFoldAny?_some {patterns : List String} {s rest : List Char}
    (h : afterFoldAny? patterns s = some rest) :
    ∃ pattern ∈ patterns, ∃ here, s = here ++ rest ∧ SameLetters here pattern.toList := by
  obtain ⟨pattern, hmem, hpattern⟩ := List.exists_of_findSome?_eq_some h
  exact ⟨pattern, hmem, afterFold?_eq_some_iff.mp hpattern⟩

/-! ## The first place -/

section FirstFrom
variable {α : Type} {recognise : List Char → Option α}

/-- Where something is recognised first: at `here`, and at no place before it. -/
structure FirstAt (recognise : List Char → Option α) (before here : List Char) (a : α) : Prop where
  found : recognise here = some a
  first : ∀ skipped, skipped <:+ before → skipped ≠ [] → recognise (skipped ++ here) = none

section FirstAt
variable {before here : List Char} {a : α}

theorem firstAt_nil (h : recognise here = some a) : FirstAt recognise [] here a where
  found := h
  first := by simp +contextual

theorem firstAt_cons_iff {c : Char} : FirstAt recognise (c :: before) here a ↔
    recognise (c :: (before ++ here)) = none ∧ FirstAt recognise before here a := by
  constructor
  · intro h
    exact ⟨h.first (c :: before) (List.suffix_refl _) (List.cons_ne_nil c before), h.found,
      fun skipped hskipped => h.first skipped (hskipped.trans (List.suffix_cons c before))⟩
  · rintro ⟨hnone, h⟩
    refine ⟨h.found, fun skipped hskipped hne => ?_⟩
    rcases List.suffix_cons_iff.mp hskipped with rfl | hlater
    · exact hnone
    · exact h.first skipped hlater hne

/-- Where the whole text is recognised, no place comes before it. -/
theorem FirstAt.eq_nil {x : α} (h : FirstAt recognise before here a)
    (hwhole : recognise (before ++ here) = some x) : before = [] := by
  by_contra hne
  rw [h.first before (List.suffix_refl _) hne] at hwhole
  cases hwhole

end FirstAt

/-- **What is found in a text** is what is recognised at the first place where anything is. -/
theorem firstFrom_eq_some_iff {s before : List Char} {a : α} :
    firstFrom recognise s = some (before, a) ↔
      ∃ here, s = before ++ here ∧ FirstAt recognise before here a := by
  induction s generalizing before with
  | nil =>
    rw [firstFrom]
    constructor
    · intro h
      obtain ⟨_, ha, hpair⟩ := Option.map_eq_some_iff.mp h
      cases hpair
      exact ⟨[], rfl, firstAt_nil ha⟩
    · rintro ⟨here, hsplit, h⟩
      obtain ⟨rfl, rfl⟩ := List.append_eq_nil_iff.mp hsplit.symm
      rw [h.found, Option.map_some]
  | cons c s ih =>
    rw [firstFrom]
    cases hfound : recognise (c :: s) with
    | some x =>
      constructor
      · intro h
        cases h
        exact ⟨c :: s, rfl, firstAt_nil hfound⟩
      · rintro ⟨here, hsplit, h⟩
        rw [hsplit] at hfound
        obtain rfl := h.eq_nil hfound
        rw [Option.some.inj (hfound.symm.trans h.found)]
    | none =>
      dsimp only
      constructor
      · intro h
        obtain ⟨⟨rest, _⟩, hrest, hpair⟩ := Option.map_eq_some_iff.mp h
        cases hpair
        obtain ⟨here, rfl, hat⟩ := ih.mp hrest
        exact ⟨here, rfl, firstAt_cons_iff.mpr ⟨hfound, hat⟩⟩
      · rintro ⟨here, hsplit, h⟩
        cases before with
        | nil =>
          subst hsplit
          exact absurd (hfound.symm.trans h.found) (by simp)
        | cons d before =>
          obtain ⟨rfl, rfl⟩ := List.cons.inj hsplit
          rw [ih.mpr ⟨here, rfl, (firstAt_cons_iff.mp h).2⟩, Option.map_some]

/-- What is recognised first stands after the text before it. -/
theorem firstFrom_some {s before : List Char} {a : α}
    (h : firstFrom recognise s = some (before, a)) :
    ∃ here, s = before ++ here ∧ recognise here = some a := by
  obtain ⟨here, hsplit, hat⟩ := firstFrom_eq_some_iff.mp h
  exact ⟨here, hsplit, hat.found⟩

/-- Nothing is recognised in a text if it is not recognised at any place. -/
theorem firstFrom_eq_none_iff {s : List Char} :
    firstFrom recognise s = none ↔ ∀ here, here <:+ s → recognise here = none := by
  induction s with
  | nil => simp [firstFrom]
  | cons c s ih =>
    rw [firstFrom]
    cases hfound : recognise (c :: s) with
    | some a =>
      refine iff_of_false (Option.some_ne_none _) fun h => ?_
      exact absurd (h _ (List.suffix_refl _)) (by simp [hfound])
    | none =>
      dsimp only
      rw [Option.map_eq_none_iff, ih]
      constructor
      · intro h here hhere
        rcases List.suffix_cons_iff.mp hhere with rfl | hrest
        · exact hfound
        · exact h here hrest
      · intro h here hhere
        exact h here (hhere.trans (List.suffix_cons c s))

/-- What can be recognised somewhere is recognised there or before. -/
theorem isSome_firstFrom {here : List Char} (before : List Char)
    (h : (recognise here).isSome = true) : (firstFrom recognise (before ++ here)).isSome := by
  rw [Option.isSome_iff_ne_none] at h ⊢
  intro hnone
  exact h (firstFrom_eq_none_iff.mp hnone here (List.suffix_append before here))

/-- What cannot be recognised at the start of a text is recognised in the rest, or nowhere. -/
theorem isSome_firstFrom_append {before : List Char} (s : List Char)
    (h : ∀ here ∈ before.tails, here ≠ [] → recognise (here ++ s) = none) :
    (firstFrom recognise (before ++ s)).isSome = (firstFrom recognise s).isSome := by
  induction before with
  | nil => rfl
  | cons c before ih =>
    rw [List.tails_cons] at h
    obtain ⟨hfirst, hrest⟩ := List.forall_mem_cons.mp h
    have hnone := hfirst (List.cons_ne_nil c before)
    rw [List.cons_append] at hnone ⊢
    rw [firstFrom, hnone]
    dsimp only
    rw [Option.isSome_map, ih hrest]

theorem firstAt_of_firstFrom {before here : List Char} {a : α}
    (h : firstFrom recognise (before ++ here) = some (before, a)) :
    FirstAt recognise before here a := by
  obtain ⟨place, hsplit, hat⟩ := firstFrom_eq_some_iff.mp h
  rwa [List.append_cancel_left hsplit]

/-- What can be recognised somewhere is recognised there first, or before. -/
theorem exists_firstFrom_append {here : List Char} (before : List Char)
    (h : (recognise here).isSome = true) : ∃ skipped between a,
      before = skipped ++ between ∧ firstFrom recognise (before ++ here) = some (skipped, a) := by
  obtain ⟨⟨skipped, a⟩, hfound⟩ := Option.isSome_iff_exists.mp (isSome_firstFrom before h)
  refine ⟨skipped, ?_⟩
  obtain ⟨place, hsplit, hat⟩ := firstFrom_eq_some_iff.mp hfound
  rcases List.append_eq_append_iff.mp hsplit with ⟨late, hskipped, hhere⟩ | ⟨between, hbefore, -⟩
  · by_cases hlate : late = []
    · exact ⟨[], a, by simpa [hlate] using hskipped.symm, hfound⟩
    · -- The place in question would have been found before.
      have hnone := hat.first late ⟨before, hskipped.symm⟩ hlate
      rw [← hhere] at hnone
      rw [hnone] at h
      cases h
  · exact ⟨between, a, hbefore, hfound⟩

/-- A recogniser that goes on from another one finds something at the same place. -/
theorem firstFrom_map {β : Type} (f : α → β) (s : List Char) :
    firstFrom (fun here => (recognise here).map f) s =
      (firstFrom recognise s).map fun found => (found.1, f found.2) := by
  induction s with
  | nil => simp [firstFrom, Option.map_map, Function.comp_def]
  | cons c s ih =>
    rw [firstFrom, firstFrom]
    cases recognise (c :: s) with
    | some a => rfl
    | none =>
      dsimp only [Option.map_none]
      rw [ih, Option.map_map, Option.map_map]
      rfl

end FirstFrom

section Suffix
variable {s rest a b : List Char}

theorem suffix_of_afterFold? {pattern : List Char} (h : afterFold? pattern s = some rest) :
    rest <:+ s := by
  induction pattern generalizing s with
  | nil =>
    cases h
    exact List.suffix_refl rest
  | cons p pattern ih =>
    cases s with
    | nil => cases h
    | cons c s =>
      rw [afterFold?] at h
      split at h
      · exact (ih h).trans (List.suffix_cons c s)
      · cases h

theorem suffix_of_afterFoldAny? {patterns : List String}
    (h : afterFoldAny? patterns s = some rest) : rest <:+ s := by
  obtain ⟨pattern, -, hpattern⟩ := List.exists_of_findSome?_eq_some h
  exact suffix_of_afterFold? hpattern

theorem infix_of_cutFold? {phrase : String} (h : cutFold? phrase s = some (a, b)) :
    a <+: s ∧ b <:+ s := by
  obtain ⟨here, rfl, hhere⟩ := firstFrom_some h
  exact ⟨List.prefix_append a here,
    (suffix_of_afterFold? hhere).trans (List.suffix_append a here)⟩

end Suffix

end SpecDraft.Text
