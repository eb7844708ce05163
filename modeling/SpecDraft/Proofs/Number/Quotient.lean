import SpecDraft.Proofs.Number.Shortest

/-!
# Quotients of whole numbers

A quotient of whole numbers is rounded to the nearest binary64 number. As long as both are exact in
binary64, rounding never carries it over a whole number (`exists_units`): next to each of them the
numbers of the format are closer together than the quotients are.
-/
set_option autoImplicit false

namespace SpecDraft.Binary64

theorem two_mul_scale : 2 * scale = 2 ^ (1074 + 1) := by
  rw [scale_eq, ← pow_succ']

theorem pow_le_scale : 2 ^ 53 ≤ scale := by
  rw [scale_eq]
  exact pow_le_pow_right₀ one_le_two (by decide)

theorem scale_mul_le_unitsLimit : scale * 2 ^ 53 ≤ unitsLimit := by
  rw [scale_eq, unitsLimit_eq, ← pow_add]
  exact pow_le_pow_right₀ one_le_two (by decide)

-- No tactic should try to compute these powers.
attribute [local irreducible] scale unitsLimit

section Quotient
variable {num den : Nat}

/-- The last place of the quotient is less than twice what a numerator of one makes. -/
theorem place_lt (hden : den < 2 ^ 53) (hnum : num < 2 ^ 53) :
    den * 2 ^ (Nat.log2 (num * scale / den) - 52) < 2 * scale := by
  rcases Nat.lt_or_ge (Nat.log2 (num * scale / den)) 52 with hlow | hhigh
  · rw [Nat.sub_eq_zero_of_le (Nat.le_of_lt hlow), Nat.pow_zero, Nat.mul_one]
    have hscale := pow_le_scale
    omega
  · generalize hplace : Nat.log2 (num * scale / den) - 52 = place
    have hne : num * scale / den ≠ 0 := by
      intro hzero
      rw [hzero] at hhigh
      exact absurd hhigh (by decide)
    have hleading : 2 ^ (52 + place) ≤ num * scale / den := by
      rw [show 52 + place = Nat.log2 (num * scale / den) by omega]
      exact Nat.log2_self_le hne
    have hwhole : 2 ^ (52 + place) * den ≤ num * scale :=
      (Nat.mul_le_mul_right den hleading).trans (Nat.div_mul_le_self _ _)
    have hbound : num * scale < 2 ^ 53 * scale :=
      Nat.mul_lt_mul_of_pos_right hnum scale_pos
    rw [Nat.pow_add, Nat.mul_assoc, Nat.mul_comm _ den] at hwhole
    omega

theorem pow_dvd_of_lt {place last : Nat} (h : 2 ^ place < 2 ^ (last + 1)) : 2 ^ place ∣ 2 ^ last :=
  Nat.pow_dvd_pow 2 (Nat.le_of_lt_succ ((Nat.pow_lt_pow_iff_right (by decide)).mp h))

/-- One is a multiple of the last place of the quotient. -/
theorem place_dvd {place : Nat} (hpos : 0 < den) (hplace : den * 2 ^ place < 2 * scale) :
    2 ^ place ∣ scale := by
  rw [two_mul_scale] at hplace
  rw [scale_eq]
  exact pow_dvd_of_lt ((Nat.le_mul_of_pos_left _ hpos).trans_lt hplace)

/-- The rounded quotient lies on the same side of every whole number as the exact one. -/
theorem exists_units (hpos : 0 < den) (hden : den < 2 ^ 53) (hnum : num < 2 ^ 53) :
    ∃ units, ofRatio false num den = .finite false units ∧
      ∀ n, units ≤ scale * n ↔ num ≤ den * n := by
  have hplace := place_lt hden hnum
  rw [ofRatio, ofUnitRatio, Nat.pow_eq]
  generalize Nat.log2 (num * scale / den) - 52 = place at hplace ⊢
  obtain ⟨steps, hsteps⟩ := place_dvd hpos hplace
  have hstep : 0 < den * 2 ^ place := Nat.mul_pos hpos (Nat.two_pow_pos place)
  have hnear := (roundHalfEven_near (num * scale) hstep).2
  have hsides (n : Nat) :
      roundHalfEven (num * scale) (den * 2 ^ place) * 2 ^ place ≤ scale * n ↔
        num ≤ den * n := by
    have hunits : scale * n = steps * n * 2 ^ place := by rw [hsteps]; ring
    have hexact : den * n * scale = steps * n * (den * 2 ^ place) := by rw [hsteps]; ring
    rw [hunits, Nat.mul_le_mul_right_iff (Nat.two_pow_pos place)]
    constructor
    · intro hle
      -- A numerator beyond that is at least one more, which is too much to be rounded away.
      by_contra hover
      have hmore := Nat.mul_le_mul_right scale (show den * n + 1 ≤ num by omega)
      have hrounded := Nat.mul_le_mul_right (den * 2 ^ place) hle
      rw [Nat.add_mul, Nat.one_mul, hexact] at hmore
      omega
    · intro hle
      apply roundHalfEven_le hstep
      rw [← hexact]
      exact Nat.mul_le_mul_right scale hle
  have hlimit : roundHalfEven (num * scale) (den * 2 ^ place) * 2 ^ place < unitsLimit := by
    calc roundHalfEven (num * scale) (den * 2 ^ place) * 2 ^ place
      _ ≤ scale * num := (hsides num).mpr (Nat.le_mul_of_pos_left num hpos)
      _ < scale * 2 ^ 53 := Nat.mul_lt_mul_of_pos_left hnum scale_pos
      _ ≤ unitsLimit := scale_mul_le_unitsLimit
  exact ⟨_, if_pos hlimit, hsides⟩

end Quotient

theorem ofInt?_of_finite {n : Int} {negative : Bool} {units : Nat}
    (h : ofRatio (decide (n < 0)) n.natAbs 1 = .finite negative units) :
    ofInt? n = some (.finite negative units) := by
  -- Opened at a number, the definition would be computed, so it is opened by itself.
  generalize hopen : ofInt? = opened
  delta ofInt? at hopen
  subst hopen
  beta_reduce
  rw [h]

end SpecDraft.Binary64
