import Mathlib.Tactic
import SpecDraft.Number.Binary64

/-!
# Rounding to binary64

`roundHalfEven` gives a nearest integer, and `Binary64.ofUnitRatio` keeps 53 leading bits.
A number of units is `Representable` when those bits hold all of it. What rounding gives is
representable (`ofUnitRatio_representable`), and a fraction that lies within one part in
`2 * 10 ^ 16` of a representable number rounds to it (`ofUnitRatio_of_near`): half of the gap
to a neighbour is always wider than that.
-/
set_option autoImplicit false

namespace SpecDraft

/-! ## The nearest integer -/

/-- Less than half a step away there is only one multiple to round to. -/
theorem roundHalfEven_eq {num den m : Nat} (hlow : 2 * (m * den) < 2 * num + den)
    (hhigh : 2 * num < 2 * (m * den) + den) : roundHalfEven num den = m := by
  have hden : 0 < den := by
    rcases Nat.eq_zero_or_pos den with rfl | h
    · omega
    · exact h
  have hr : num % den < den := Nat.mod_lt num hden
  have hq : num / den * den + num % den = num := Nat.div_add_mod' num den
  have hle : num / den ≤ m := by
    by_contra hlt
    have := Nat.mul_le_mul_right den (show m + 1 ≤ num / den by omega)
    rw [Nat.succ_mul] at this
    omega
  have hge : m ≤ num / den + 1 := by
    by_contra hlt
    have := Nat.mul_le_mul_right den (show num / den + 2 ≤ m by omega)
    rw [Nat.add_mul] at this
    omega
  unfold roundHalfEven
  -- The quotient is `m`, or one less, and then the remainder is more than a half.
  rcases Nat.lt_or_ge (num / den) m with hlt | hge'
  · have hm : m = num / den + 1 := by omega
    have hmd : m * den = num / den * den + den := by rw [hm, Nat.succ_mul]
    have h1 : ¬ 2 * (num % den) < den := by omega
    have h2 : den < 2 * (num % den) := by omega
    simp only [h1, h2, ↓reduceIte]
    exact hm.symm
  · have hm : m = num / den := by omega
    have hmd : m * den = num / den * den := by rw [hm]
    have h1 : 2 * (num % den) < den := by omega
    simp only [h1, ↓reduceIte]
    exact hm.symm

/-- The integer lies at most half a step away. -/
theorem roundHalfEven_near (num : Nat) {den : Nat} (hden : 0 < den) :
    2 * (roundHalfEven num den * den) ≤ 2 * num + den ∧
      2 * num ≤ 2 * (roundHalfEven num den * den) + den := by
  have hr : num % den < den := Nat.mod_lt num hden
  have hq : num / den * den + num % den = num := Nat.div_add_mod' num den
  have hup : (num / den + 1) * den = num / den * den + den := Nat.succ_mul ..
  unfold roundHalfEven
  dsimp only
  split
  · omega
  split
  · omega
  rcases Nat.mod_two_eq_zero_or_one (num / den) with h | h
  · rw [h, Nat.add_zero]
    omega
  · rw [h]
    omega

theorem roundHalfEven_mul_right (num den : Nat) {c : Nat} (hc : 0 < c) :
    roundHalfEven (num * c) (den * c) = roundHalfEven num den := by
  unfold roundHalfEven
  rw [Nat.mul_div_mul_right _ _ hc, Nat.mul_mod_mul_right, ← Nat.mul_assoc]
  simp only [Nat.mul_lt_mul_right hc]

theorem roundHalfEven_le {num den bound : Nat} (hden : 0 < den) (h : num ≤ bound * den) :
    roundHalfEven num den ≤ bound := by
  have hnear := (roundHalfEven_near num hden).1
  by_contra hlt
  have := Nat.mul_le_mul_right den (show bound + 1 ≤ roundHalfEven num den by omega)
  rw [Nat.succ_mul] at this
  omega

theorem le_roundHalfEven {num den bound : Nat} (hden : 0 < den) (h : bound * den ≤ num) :
    bound ≤ roundHalfEven num den := by
  have hnear := (roundHalfEven_near num hden).2
  by_contra hlt
  have := Nat.mul_le_mul_right den (show roundHalfEven num den + 1 ≤ bound by omega)
  rw [Nat.succ_mul] at this
  omega

namespace Binary64

-- The limit is a power that no tactic should try to compute.
attribute [local irreducible] unitsLimit scale

/-! ## Representable numbers -/

/-- A magnitude of at most 53 significant bits, below the limit. -/
structure Fits (units : Nat) : Prop where
  lt : units < unitsLimit
  dvd : 2 ^ (Nat.log2 units - 52) ∣ units

/-- Whether a value is one of those that the format has. -/
def Representable : Binary64 → Prop
  | .finite _ units => Fits units
  | .nan | .infinity _ => True

theorem unitsLimit_eq : unitsLimit = 2 ^ 2098 := by
  unfold unitsLimit
  decide +kernel

theorem unitsLimit_pos : 0 < unitsLimit := by
  rw [unitsLimit_eq]
  positivity

theorem fits_zero : Fits 0 := ⟨unitsLimit_pos, Nat.dvd_zero _⟩

/-- What does not fit becomes an infinity, which is always representable. -/
theorem representable_ite {negative : Bool} {units : Nat}
    (h : 2 ^ (Nat.log2 units - 52) ∣ units) :
    (if units < unitsLimit then finite negative units else infinity negative).Representable := by
  by_cases hlt : units < unitsLimit
  · rw [if_pos hlt]
    exact Fits.mk hlt h
  · rw [if_neg hlt]
    trivial

/-- A significand of 53 bits may be rounded up to the next power of two, which has fewer. -/
theorem pow_dvd_of_significand {m e : Nat} (hm : m ≤ 2 ^ 53) :
    2 ^ (Nat.log2 (m * 2 ^ e) - 52) ∣ m * 2 ^ e := by
  rcases Nat.eq_zero_or_pos m with rfl | hpos
  · simp
  rcases Nat.lt_or_ge m (2 ^ 53) with hlt | hge
  · have hlog : Nat.log2 (m * 2 ^ e) < 53 + e := by
      rw [Nat.log2_lt (Nat.mul_pos hpos (Nat.two_pow_pos e)).ne', Nat.pow_add]
      exact Nat.mul_lt_mul_of_pos_right hlt (Nat.two_pow_pos e)
    exact (Nat.pow_dvd_pow 2 (by omega)).trans (Nat.dvd_mul_left ..)
  · -- Rounding has carried into the next power of two.
    have hm : m * 2 ^ e = 2 ^ (53 + e) := by rw [Nat.pow_add, show m = 2 ^ 53 by omega]
    rw [hm, Nat.log2_two_pow]
    exact Nat.pow_dvd_pow 2 (by omega)

/-- The significand has at most 53 bits before it is rounded. -/
theorem lt_significand (num : Nat) {den : Nat} (hden : 0 < den) :
    num < 2 ^ 53 * (den * 2 ^ (Nat.log2 (num / den) - 52)) := by
  have hlog : num / den < 2 ^ (Nat.log2 (num / den) + 1) := Nat.lt_log2_self
  have hpow : 2 ^ (Nat.log2 (num / den) + 1) ≤ 2 ^ (53 + (Nat.log2 (num / den) - 52)) :=
    Nat.pow_le_pow_right (by decide) (by omega)
  have hlt := (Nat.div_lt_iff_lt_mul hden).mp (Nat.lt_of_lt_of_le hlog hpow)
  rwa [Nat.pow_add, Nat.mul_assoc, Nat.mul_comm _ den] at hlt

/-- What rounding gives is a number of the format. -/
theorem ofUnitRatio_representable (negative : Bool) {num den : Nat} (hden : 0 < den) :
    (ofUnitRatio negative num den).Representable := by
  have hstep : 0 < den * 2 ^ (Nat.log2 (num / den) - 52) :=
    Nat.mul_pos hden (Nat.two_pow_pos _)
  have hm := roundHalfEven_le hstep (lt_significand num hden).le
  unfold ofUnitRatio
  exact representable_ite (pow_dvd_of_significand hm)

theorem ofRatio_representable (negative : Bool) (num : Nat) {den : Nat} (hden : 0 < den) :
    (ofRatio negative num den).Representable :=
  ofUnitRatio_representable negative hden

theorem ofDecimal_representable (negative : Bool) (digits : Nat) (exponent : Int) :
    (ofDecimal negative digits exponent).Representable := by
  unfold ofDecimal
  dsimp only
  generalize ((Nat.toDigits 10 digits).length : Int) + exponent = magnitude
  by_cases hzero : digits = 0
  · rw [if_pos hzero]
    exact fits_zero
  rw [if_neg hzero]
  by_cases hbig : 310 < magnitude
  · rw [if_pos hbig]
    trivial
  rw [if_neg hbig]
  by_cases hsmall : magnitude < -330
  · rw [if_pos hsmall]
    exact fits_zero
  rw [if_neg hsmall]
  by_cases hexp : 0 ≤ exponent
  · rw [if_pos hexp]
    exact ofRatio_representable _ _ Nat.one_pos
  · rw [if_neg hexp]
    exact ofRatio_representable _ _ (Nat.pow_pos (by decide))

/-! ## Rounding back -/

/-- A common factor of both numbers does not matter. -/
theorem ofUnitRatio_mul_right (negative : Bool) (num den : Nat) {c : Nat} (hc : 0 < c) :
    ofUnitRatio negative (num * c) (den * c) = ofUnitRatio negative num den := by
  unfold ofUnitRatio
  rw [Nat.mul_div_mul_right _ _ hc]
  simp only [Nat.mul_right_comm den c, roundHalfEven_mul_right _ _ hc]

theorem ofRatio_mul_right (negative : Bool) (num den : Nat) {c : Nat} (hc : 0 < c) :
    ofRatio negative (num * c) (den * c) = ofRatio negative num den := by
  unfold ofRatio
  rw [Nat.mul_right_comm, ofUnitRatio_mul_right _ _ _ hc]

/-- A fraction whose last place and nearest multiple of it are known. -/
theorem ofUnitRatio_eq (negative : Bool) {num den m e : Nat}
    (hlog : Nat.log2 (num / den) - 52 = e) (hlimit : m * 2 ^ e < unitsLimit)
    (hlow : 2 * (m * (den * 2 ^ e)) < 2 * num + den * 2 ^ e)
    (hhigh : 2 * num < 2 * (m * (den * 2 ^ e)) + den * 2 ^ e) :
    ofUnitRatio negative num den = .finite negative (m * 2 ^ e) := by
  unfold ofUnitRatio
  dsimp only
  rw [hlog, Nat.pow_eq, roundHalfEven_eq hlow hhigh, if_pos hlimit]

/-- A number of the format is its own rounding. -/
theorem ofUnitRatio_self (negative : Bool) {units den : Nat} (hfits : Fits units)
    (hden : 0 < den) : ofUnitRatio negative (units * den) den = .finite negative units := by
  obtain ⟨m, hm⟩ := hfits.dvd
  rw [Nat.mul_comm] at hm
  have hstep : 0 < den * 2 ^ (Nat.log2 units - 52) := Nat.mul_pos hden (Nat.two_pow_pos _)
  have hmul : units * den = m * (den * 2 ^ (Nat.log2 units - 52)) := by
    conv_lhs => rw [hm, Nat.mul_assoc, Nat.mul_comm _ den]
  have hplace : Nat.log2 (units * den / den) - 52 = Nat.log2 units - 52 := by
    rw [Nat.mul_div_cancel _ hden]
  have heq := ofUnitRatio_eq negative hplace (hm ▸ hfits.lt) (by omega) (by omega)
  rw [heq, ← hm]

/-- `num / den` differs from `units` by at most one part in `2 * 10 ^ 16`. -/
structure Near (units num den : Nat) : Prop where
  low : 2 * 10 ^ 16 * (units * den) ≤ 2 * 10 ^ 16 * num + units * den
  high : 2 * 10 ^ 16 * num ≤ 2 * 10 ^ 16 * (units * den) + units * den

/-- A multiple `m` of the last place `den * 2 ^ e` that is near, and below `2 ^ 53` of them, is
less than half of that place away. -/
theorem Near.lt_half {m e num den : Nat} (h : Near (m * 2 ^ e) num den) (hden : 0 < den)
    (hm : m ≤ 2 ^ 53) :
    2 * (m * (den * 2 ^ e)) < 2 * num + den * 2 ^ e ∧
      2 * num < 2 * (m * (den * 2 ^ e)) + den * 2 ^ e := by
  obtain ⟨hlow, hhigh⟩ := h
  have hassoc : m * 2 ^ e * den = m * (den * 2 ^ e) := by rw [Nat.mul_assoc, Nat.mul_comm den]
  have hstep : 0 < den * 2 ^ e := Nat.mul_pos hden (Nat.two_pow_pos e)
  have hlt : m * (den * 2 ^ e) ≤ 2 ^ 53 * (den * 2 ^ e) := Nat.mul_le_mul_right _ hm
  rw [hassoc] at hlow hhigh
  generalize den * 2 ^ e = step at *
  generalize m * step = value at *
  omega

/-- The binary logarithm of a quotient between two powers. -/
theorem log2_div_eq {num den k : Nat} (hden : 0 < den) (hlow : 2 ^ k * den ≤ num)
    (hhigh : num < 2 ^ (k + 1) * den) : Nat.log2 (num / den) = k := by
  have hle : 2 ^ k ≤ num / den := (Nat.le_div_iff_mul_le hden).mpr hlow
  have hlt : num / den < 2 ^ (k + 1) := (Nat.div_lt_iff_lt_mul hden).mpr hhigh
  have hne : num / den ≠ 0 := by
    have := Nat.two_pow_pos k
    omega
  exact (Nat.log2_eq_iff hne).mpr ⟨hle, hlt⟩

theorem pow_add_mul (a e den : Nat) : 2 ^ (a + e) * den = 2 ^ a * (den * 2 ^ e) := by
  rw [Nat.pow_add, Nat.mul_assoc, Nat.mul_comm den]

section RoundingBack
variable {negative : Bool} {units num den m e : Nat}

/-- Where every bit is significant, the last place is one unit. -/
theorem ofUnitRatio_of_near_small (hfits : Fits units) (hsmall : units < 2 ^ 53)
    (hden : 0 < den) (hnear : Near units num den) :
    ofUnitRatio negative num den = .finite negative units := by
  obtain ⟨hlow, hhigh⟩ := Near.lt_half (e := 0) (by simpa using hnear) hden hsmall.le
  have hquot : num / den < 2 ^ 53 := by
    have hstep := Nat.mul_le_mul_right den (show units + 1 ≤ 2 ^ 53 by omega)
    rw [Nat.succ_mul] at hstep
    rw [Nat.pow_zero, Nat.mul_one] at hhigh
    rw [Nat.div_lt_iff_lt_mul hden]
    omega
  have hplace : Nat.log2 (num / den) - 52 = 0 := by
    rcases Nat.eq_zero_or_pos (num / den) with h | h
    · rw [h]
      decide
    · have := (Nat.log2_lt h.ne').mpr hquot
      omega
  have heq := ofUnitRatio_eq negative hplace (by simpa using hfits.lt) hlow hhigh
  rwa [Nat.pow_zero, Nat.mul_one] at heq

/-- A fraction that is not below the power of two under the number has its last place. -/
theorem ofUnitRatio_of_near_above (hlimit : m * 2 ^ e < unitsLimit) (hm : m < 2 ^ 53)
    (hden : 0 < den) (hnear : Near (m * 2 ^ e) num den)
    (habove : 2 ^ 52 * (den * 2 ^ e) ≤ num) :
    ofUnitRatio negative num den = .finite negative (m * 2 ^ e) := by
  obtain ⟨hlow, hhigh⟩ := hnear.lt_half hden hm.le
  have hupper : num < 2 ^ (52 + e + 1) * den := by
    have hstep := Nat.mul_le_mul_right (den * 2 ^ e) (show m + 1 ≤ 2 ^ 53 by omega)
    rw [Nat.succ_mul] at hstep
    rw [show 52 + e + 1 = 53 + e by omega, pow_add_mul]
    omega
  have hlog := log2_div_eq hden (by rwa [pow_add_mul]) hupper
  exact ofUnitRatio_eq _ (by omega) hlimit hlow hhigh

/-- Just below a power of two the last place is half as wide as that of the power. -/
theorem ofUnitRatio_of_near_below (hlimit : 2 ^ 53 * 2 ^ e < unitsLimit)
    (hden : 0 < den) (hnear : Near (2 ^ 53 * 2 ^ e) num den)
    (hbelow : num < 2 ^ 53 * (den * 2 ^ e)) :
    ofUnitRatio negative num den = .finite negative (2 ^ 53 * 2 ^ e) := by
  obtain ⟨hlow, hhigh⟩ := hnear.lt_half hden le_rfl
  have hstep : 0 < den * 2 ^ e := Nat.mul_pos hden (Nat.two_pow_pos e)
  have hlower : 2 ^ (52 + e) * den ≤ num := by
    rw [pow_add_mul]
    generalize den * 2 ^ e = step at *
    omega
  have hupper : num < 2 ^ (52 + e + 1) * den := by
    rwa [show 52 + e + 1 = 53 + e by omega, pow_add_mul]
  have hlog := log2_div_eq hden hlower hupper
  exact ofUnitRatio_eq _ (by omega) hlimit hlow hhigh

/-- **Rounding back.** Half of the distance from a number of the format to its neighbours is more
than one part in `2 * 10 ^ 16`, also below a power of two, where the neighbours are closer. -/
theorem ofUnitRatio_of_near (hfits : Fits units) (hpos : 0 < units) (hden : 0 < den)
    (hnear : Near units num den) : ofUnitRatio negative num den = .finite negative units := by
  have hlow : 2 ^ Nat.log2 units ≤ units := Nat.log2_self_le hpos.ne'
  have hhigh : units < 2 ^ (Nat.log2 units + 1) := Nat.lt_log2_self
  rcases Nat.lt_or_ge (Nat.log2 units) 53 with hsmall | hlarge
  · have hpow : 2 ^ (Nat.log2 units + 1) ≤ 2 ^ 53 :=
      Nat.pow_le_pow_right (by decide) (by omega)
    exact ofUnitRatio_of_near_small hfits (by omega) hden hnear
  · obtain ⟨e, he⟩ := Nat.exists_eq_add_of_le hlarge
    obtain ⟨m, hm⟩ := hfits.dvd
    rw [show Nat.log2 units - 52 = e + 1 by omega, Nat.mul_comm] at hm
    rw [show Nat.log2 units = 52 + (e + 1) by omega, Nat.pow_add, hm] at hlow
    rw [show Nat.log2 units + 1 = 53 + (e + 1) by omega, Nat.pow_add, hm] at hhigh
    have hmlow : 2 ^ 52 ≤ m := Nat.le_of_mul_le_mul_right hlow (Nat.two_pow_pos _)
    have hmhigh : m < 2 ^ 53 := Nat.lt_of_mul_lt_mul_right hhigh
    have hlimit := hfits.lt
    rw [hm] at hnear hlimit ⊢
    by_cases habove : 2 ^ 52 * (den * 2 ^ (e + 1)) ≤ num
    · exact ofUnitRatio_of_near_above hlimit hmhigh hden hnear habove
    · -- A larger significand would put the fraction more than half a place away.
      have hpower : m = 2 ^ 52 := by
        by_contra hne
        have hhalf := (hnear.lt_half hden hmhigh.le).1
        have hstep := Nat.mul_le_mul_right (den * 2 ^ (e + 1)) (show 2 ^ 52 + 1 ≤ m by omega)
        rw [Nat.succ_mul] at hstep
        omega
      have hunits : m * 2 ^ (e + 1) = 2 ^ 53 * 2 ^ e := by
        rw [hpower, Nat.pow_succ]
        ring
      have hstep : 2 ^ 52 * (den * 2 ^ (e + 1)) = 2 ^ 53 * (den * 2 ^ e) := by
        rw [Nat.pow_succ]
        ring
      rw [hunits] at hnear hlimit ⊢
      exact ofUnitRatio_of_near_below hlimit hden hnear (by omega)

end RoundingBack

end Binary64
end SpecDraft
