import SpecDraft.Number.Decimal
import SpecDraft.Proofs.Number.Rounding

/-!
# The shortest decimal reads back

Decimals of one, two, … digits are tried until one reads back as the number they stand for.
Seventeen digits always do (`readBackAt_seventeen`), since a decimal of seventeen digits that
lies nearest to a number is within one part in `2 * 10 ^ 16` of it. Hence the decimal that is
chosen reads back (`ofDecimal_shortest`), also after its trailing zeros are moved into the
exponent.
-/
set_option autoImplicit false

namespace SpecDraft

attribute [local irreducible] Binary64.unitsLimit Binary64.scale

namespace Decimal

/-! ## Magnitudes -/

theorem digitCount_pos {n : Nat} (hn : 0 < n) : 0 < digitCount n := by
  rw [digitCount, if_neg hn.ne']
  exact Nat.length_toDigits_pos

theorem lt_pow_digitCount {n : Nat} (hn : 0 < n) : n < 10 ^ digitCount n := by
  rw [digitCount, if_neg hn.ne']
  exact (Nat.length_toDigits_le_iff (by decide) Nat.length_toDigits_pos).mp le_rfl

theorem pow_digitCount_le {n : Nat} (hn : 0 < n) : 10 ^ (digitCount n - 1) ≤ n := by
  rcases Nat.eq_zero_or_pos (digitCount n - 1) with h | h
  · rw [h]
    exact hn
  · by_contra hlt
    have hle := (Nat.length_toDigits_le_iff (by decide) h).mpr (not_le.mp hlt)
    rw [digitCount, if_neg hn.ne'] at hle h
    omega

/-- The magnitude of a fraction that is at least one. -/
theorem magnitude_spec_ge {num den : Nat} (hden : 0 < den) (hle : den ≤ num) :
    (10 : ℚ) ^ (magnitude num den - 1) ≤ num / den ∧
      (num / den : ℚ) < 10 ^ magnitude num den := by
  have hq : 0 < num / den := Nat.div_pos hle hden
  have hlow := pow_digitCount_le hq
  have hhigh := lt_pow_digitCount hq
  have hdenq : (0 : ℚ) < den := by exact_mod_cast hden
  have hpred : (digitCount (num / den) : ℤ) - 1 = (digitCount (num / den) - 1 : ℕ) := by
    have := digitCount_pos hq
    omega
  rw [magnitude, if_pos hle, hpred, zpow_natCast, zpow_natCast, le_div_iff₀ hdenq,
    div_lt_iff₀ hdenq]
  constructor
  · exact_mod_cast (Nat.mul_le_mul_right den hlow).trans (Nat.div_mul_le_self num den)
  · exact_mod_cast (Nat.div_lt_iff_lt_mul hden).mp hhigh

/-- The magnitude of a fraction below one. -/
theorem magnitude_spec_lt {num den : Nat} (hnum : 0 < num) (hlt : num < den) :
    (10 : ℚ) ^ (magnitude num den - 1) ≤ num / den ∧
      (num / den : ℚ) < 10 ^ magnitude num den := by
  -- `c` is the quotient the other way round, rounded up.
  obtain ⟨c, hc⟩ : ∃ c, c = (den + num - 1) / num - 1 := ⟨_, rfl⟩
  have hbelow : c * num < den := by
    have hmul := Nat.div_mul_le_self (den + num - 1) num
    rw [hc, Nat.sub_mul]
    omega
  have habove : den ≤ (c + 1) * num := by
    have hmul := Nat.lt_div_mul_add (a := den + num - 1) hnum
    have hone : 1 ≤ (den + num - 1) / num := Nat.div_pos (by omega) hnum
    rw [hc, Nat.sub_add_cancel hone]
    omega
  have hpos : 0 < c := by
    rcases Nat.eq_zero_or_pos c with rfl | h
    · omega
    · exact h
  have hlow := pow_digitCount_le hpos
  have hhigh := lt_pow_digitCount hpos
  have hdenq : (0 : ℚ) < den := by exact_mod_cast hnum.trans hlt
  have hneg : (1 : ℤ) - digitCount c - 1 = -(digitCount c : ℤ) := by omega
  have hneg' : (1 : ℤ) - digitCount c = -((digitCount c - 1 : ℕ) : ℤ) := by
    have := digitCount_pos hpos
    omega
  rw [magnitude, if_neg (by omega), ← hc, hneg, hneg', zpow_neg, zpow_neg, zpow_natCast,
    zpow_natCast, inv_le_iff_one_le_mul₀ (by positivity), ← one_div,
    lt_div_iff₀ (by positivity), div_mul_eq_mul_div, div_mul_eq_mul_div, le_div_iff₀ hdenq,
    div_lt_iff₀ hdenq, one_mul]
  constructor
  · have hle : (c + 1) * num ≤ num * 10 ^ digitCount c := by
      rw [Nat.mul_comm]
      exact Nat.mul_le_mul_left num hhigh
    exact_mod_cast habove.trans hle
  · have hle : num * 10 ^ (digitCount c - 1) ≤ c * num := by
      rw [Nat.mul_comm]
      exact Nat.mul_le_mul_right num hlow
    exact_mod_cast hle.trans_lt hbelow

/-- A fraction lies between two neighbouring powers of ten. -/
theorem magnitude_spec {num den : Nat} (hnum : 0 < num) (hden : 0 < den) :
    (10 : ℚ) ^ (magnitude num den - 1) ≤ num / den ∧
      (num / den : ℚ) < 10 ^ magnitude num den := by
  rcases Nat.lt_or_ge num den with h | h
  · exact magnitude_spec_lt hnum h
  · exact magnitude_spec_ge hden h

theorem shifted_den_pos {num den n d : Nat} {power : ℤ} (hden : 0 < den)
    (hgrid : shifted num den power = (n, d)) : 0 < d := by
  unfold shifted at hgrid
  split at hgrid <;> injection hgrid with _ hd <;> subst hd
  · exact hden
  · exact Nat.mul_pos hden (Nat.pow_pos (by decide))

theorem shifted_spec (num : Nat) {den : Nat} (hden : 0 < den) (power : ℤ) :
    ((shifted num den power).1 : ℚ) / (shifted num den power).2 = num / den * 10 ^ power := by
  have hdenq : (den : ℚ) ≠ 0 := by exact_mod_cast hden.ne'
  unfold shifted
  split
  · obtain ⟨k, rfl⟩ := Int.eq_ofNat_of_zero_le ‹0 ≤ power›
    rw [Int.toNat_natCast, zpow_natCast, Nat.pow_eq]
    push_cast
    ring
  · obtain ⟨k, hk⟩ := Int.eq_ofNat_of_zero_le (show 0 ≤ -power by omega)
    rw [show power = -(k : ℤ) by omega, neg_neg, Int.toNat_natCast, zpow_neg, zpow_natCast,
      Nat.pow_eq]
    push_cast
    field_simp

/-- On the grid of `count + 1` digits, the number has that many digits. -/
theorem shifted_bounds {num den n d : Nat} (count : Nat) {exponent : ℤ} (hnum : 0 < num)
    (hden : 0 < den) (hexp : exponent = magnitude num den - (count + 1 : ℕ))
    (hgrid : shifted num den (-exponent) = (n, d)) :
    10 ^ count * d ≤ n ∧ n < 10 ^ (count + 1) * d := by
  obtain ⟨hlow, hhigh⟩ := magnitude_spec hnum hden
  have hspec := shifted_spec num hden (-exponent)
  have hd := shifted_den_pos hden hgrid
  rw [hgrid] at hspec
  have hdq : (0 : ℚ) < d := by exact_mod_cast hd
  have hten : (0 : ℚ) < 10 ^ (-exponent) := by positivity
  have hlow' := mul_le_mul_of_nonneg_right hlow hten.le
  have hhigh' := mul_lt_mul_of_pos_right hhigh hten
  rw [← hspec, ← zpow_add₀ (by norm_num)] at hlow' hhigh'
  rw [show magnitude num den - 1 + -exponent = (count : ℕ) by rw [hexp]; push_cast; ring,
    zpow_natCast, le_div_iff₀ hdq] at hlow'
  rw [show magnitude num den + -exponent = (count + 1 : ℕ) by rw [hexp]; ring,
    zpow_natCast, div_lt_iff₀ hdq] at hhigh'
  exact ⟨by exact_mod_cast hlow', by exact_mod_cast hhigh'⟩

end Decimal

namespace Binary64

/-! ## Reading a decimal -/

theorem scale_eq : scale = 2 ^ 1074 := by
  unfold scale
  decide +kernel

theorem scale_pos : 0 < scale := by
  rw [scale_eq]
  positivity

theorem ofUnitRatio_sign {a : Bool} (b : Bool) {num den units : Nat}
    (h : ofUnitRatio a num den = .finite a units) : ofUnitRatio b num den = .finite b units := by
  unfold ofUnitRatio at h ⊢
  dsimp only at h ⊢
  split at h
  · rw [if_pos ‹_›]
    injection h with _ h
    rw [h]
  · cases h

theorem ofRatio_scale (negative : Bool) {units : Nat} (hfits : Fits units) :
    ofRatio negative units scale = .finite negative units :=
  ofUnitRatio_self negative hfits scale_pos

theorem ofDecimal_zero (negative : Bool) (exponent : Int) :
    ofDecimal negative 0 exponent = .finite negative 0 := by
  rw [ofDecimal, if_pos rfl]

/-- A decimal whose magnitude is not far outside the range is read by exact arithmetic. -/
theorem ofDecimal_eq {negative : Bool} {digits : Nat} {exponent : Int} (hpos : 0 < digits)
    (hlow : -330 ≤ (Nat.toDigits 10 digits).length + exponent)
    (hhigh : (Nat.toDigits 10 digits).length + exponent ≤ 310) :
    ofDecimal negative digits exponent =
      if 0 ≤ exponent then ofRatio negative (digits * 10 ^ exponent.toNat) 1
      else ofRatio negative digits (10 ^ (-exponent).toNat) := by
  rw [ofDecimal, if_neg hpos.ne']
  dsimp only
  rw [if_neg (not_lt.mpr hhigh), if_neg (not_lt.mpr hlow)]
  rfl

theorem ofDecimal_sign {a : Bool} (b : Bool) {digits units : Nat} {exponent : Int}
    (hunits : 0 < units) (h : ofDecimal a digits exponent = .finite a units) :
    ofDecimal b digits exponent = .finite b units := by
  have hne : ∀ sign : Bool, (finite sign 0 : Binary64) ≠ .finite sign units := by
    intro sign heq
    injection heq with _ heq
    omega
  unfold ofDecimal ofRatio at h ⊢
  dsimp only at h ⊢
  split at h
  · exact absurd h (hne a)
  split at h
  · cases h
  split at h
  · exact absurd h (hne a)
  rw [if_neg ‹_›, if_neg ‹_›, if_neg ‹_›]
  split at h
  · rw [if_pos ‹_›]
    exact ofUnitRatio_sign b h
  · rw [if_neg ‹_›]
    exact ofUnitRatio_sign b h

/-- A factor of ten can stand in the digits or in the exponent. -/
theorem ofDecimal_mul_ten (negative : Bool) (digits : Nat) (exponent : Int) :
    ofDecimal negative (digits * 10) exponent = ofDecimal negative digits (exponent + 1) := by
  rcases Nat.eq_zero_or_pos digits with rfl | hpos
  · rw [Nat.zero_mul, ofDecimal_zero, ofDecimal_zero]
  have hlength : (Nat.toDigits 10 (digits * 10)).length = (Nat.toDigits 10 digits).length + 1 := by
    rw [Nat.toDigits_of_base_le (by decide) (by omega), Nat.mul_div_cancel _ (by decide)]
    rw [List.length_append, List.length_singleton]
  have hmagnitude : (((Nat.toDigits 10 digits).length + 1 : ℕ) : Int) + exponent =
      (Nat.toDigits 10 digits).length + (exponent + 1) := by
    push_cast
    ring
  rw [ofDecimal, ofDecimal, if_neg (by omega), if_neg hpos.ne', hlength]
  dsimp only
  rw [hmagnitude]
  refine if_congr Iff.rfl rfl (if_congr Iff.rfl rfl ?_)
  -- The factor stands in both numbers, cancels, or moves from one side of the power to the other.
  rcases lt_trichotomy (exponent + 1) 0 with h | h | h
  · obtain ⟨k, hk⟩ := Int.eq_ofNat_of_zero_le (show 0 ≤ -(exponent + 1) by omega)
    rw [if_neg (by omega), if_neg (by omega), hk, show -exponent = ((k + 1 : ℕ) : Int) by omega,
      Int.toNat_natCast, Int.toNat_natCast, Nat.pow_eq, Nat.pow_eq, Nat.pow_succ]
    exact ofRatio_mul_right _ _ _ (by decide)
  · rw [if_neg (by omega), if_pos (by omega), h, show -exponent = ((1 : ℕ) : Int) by omega,
      Int.toNat_natCast, Nat.pow_eq, Nat.pow_one]
    have := ofRatio_mul_right negative digits 1 (show 0 < 10 by decide)
    simpa using this
  · obtain ⟨k, rfl⟩ := Int.eq_ofNat_of_zero_le (show 0 ≤ exponent by omega)
    rw [if_pos (by omega), if_pos (by omega), show (k : Int) + 1 = ((k + 1 : ℕ) : Int) by omega,
      Int.toNat_natCast, Int.toNat_natCast, Nat.pow_eq, Nat.pow_eq, Nat.pow_succ, Nat.mul_assoc,
      Nat.mul_comm 10]

theorem ofDecimal_mul_pow (negative : Bool) (digits k : Nat) (exponent : Int) :
    ofDecimal negative (digits * 10 ^ k) exponent = ofDecimal negative digits (exponent + k) := by
  induction k generalizing exponent with
  | zero => simp
  | succ k ih =>
    rw [Nat.pow_succ, ← Nat.mul_assoc, ofDecimal_mul_ten, ih]
    congr 1
    push_cast
    ring

end Binary64

namespace Decimal
open Binary64

/-! ## Seventeen digits suffice -/

section Grid
variable {units : Nat}

/-- The magnitudes of the finite numbers of the format. -/
theorem magnitude_range (hpos : 0 < units) (hlimit : units < unitsLimit) :
    -323 ≤ magnitude units scale ∧ magnitude units scale ≤ 309 := by
  obtain ⟨hlow, hhigh⟩ := magnitude_spec hpos scale_pos
  have hscale : (0 : ℚ) < scale := by exact_mod_cast scale_pos
  have hsmall : scale < 10 ^ 324 := by
    unfold scale
    decide +kernel
  have hlarge : unitsLimit < 10 ^ 309 * scale := by
    unfold unitsLimit scale
    decide +kernel
  constructor
  · by_contra hlt
    have hle : (10 : ℚ) ^ magnitude units scale ≤ 10 ^ (-(324 : ℕ) : ℤ) :=
      zpow_le_zpow_right₀ (by norm_num) (by omega)
    have hunits := hhigh.trans_le hle
    rw [zpow_neg, zpow_natCast, ← one_div, lt_div_iff₀ (by positivity), div_mul_eq_mul_div,
      div_lt_one hscale] at hunits
    have hlt : units * 10 ^ 324 < scale := by exact_mod_cast hunits
    have := Nat.le_mul_of_pos_left (10 ^ 324) hpos
    omega
  · by_contra hlt
    have hle : (10 : ℚ) ^ ((309 : ℕ) : ℤ) ≤ 10 ^ (magnitude units scale - 1) :=
      zpow_le_zpow_right₀ (by norm_num) (by omega)
    have hunits := hle.trans hlow
    rw [zpow_natCast, le_div_iff₀ hscale] at hunits
    have hle' : 10 ^ 309 * scale ≤ units := by exact_mod_cast hunits
    omega

/-- The integer nearest to a fraction of at least `10 ^ 16` is near it. -/
theorem near_of_grid {n d den num : Nat} (hd : 0 < d) (hfine : 10 ^ 16 * d ≤ n)
    (hn : units * den = n) (hnum : num = roundHalfEven n d * d) : Near units num den := by
  obtain ⟨hlow, hhigh⟩ := roundHalfEven_near n hd
  constructor <;> omega

/-- A decimal that lies nearest to a number on a fine enough grid rounds back to it. -/
theorem ofRatio_of_grid (hfits : Fits units) (hpos : 0 < units) {exponent : Int} {n d : Nat}
    (hgrid : shifted units scale (-exponent) = (n, d)) (hfine : 10 ^ 16 * d ≤ n) :
    (if 0 ≤ exponent then Binary64.ofRatio false (roundHalfEven n d * 10 ^ exponent.toNat) 1
      else Binary64.ofRatio false (roundHalfEven n d) (10 ^ (-exponent).toNat)) =
      .finite false units := by
  have hd := shifted_den_pos scale_pos hgrid
  rcases Int.lt_trichotomy exponent 0 with h | rfl | h
  · rw [shifted, if_pos (by omega)] at hgrid
    injection hgrid with hn hscale
    rw [if_neg (by omega)]
    exact ofUnitRatio_of_near hfits hpos (Nat.pow_pos (by decide))
      (near_of_grid hd hfine hn (by rw [hscale]))
  · rw [neg_zero, shifted, if_pos le_rfl] at hgrid
    injection hgrid with hn hscale
    rw [if_pos le_rfl]
    exact ofUnitRatio_of_near hfits hpos Nat.one_pos
      (near_of_grid hd hfine hn (by rw [hscale, Int.toNat_zero, Nat.pow_zero, Nat.mul_one]))
  · rw [shifted, if_neg (by omega), neg_neg] at hgrid
    injection hgrid with hn hscale
    rw [if_pos h.le]
    exact ofUnitRatio_of_near hfits hpos Nat.one_pos
      (near_of_grid hd hfine (by omega) (by rw [← hscale, Nat.pow_eq, Nat.mul_assoc, Nat.mul_comm scale]))

/-- **Seventeen digits suffice.** -/
theorem readBackAt_seventeen (hfits : Fits units) (hpos : 0 < units) :
    (readBackAt units scale 17).isSome := by
  obtain ⟨n, d, hgrid⟩ : ∃ n d, shifted units scale (-(magnitude units scale - 17)) = (n, d) :=
    ⟨_, _, rfl⟩
  obtain ⟨hlow, hhigh⟩ := shifted_bounds 16 hpos scale_pos rfl hgrid
  have hd := shifted_den_pos scale_pos hgrid
  obtain ⟨hmin, hmax⟩ := magnitude_range hpos hfits.lt
  have hback := ofRatio_of_grid hfits hpos hgrid hlow
  have hfew := roundHalfEven_le hd hhigh.le
  have hmany := le_roundHalfEven hd hlow
  -- Rounding may carry into an eighteenth digit.
  have hlong : 16 < (Nat.toDigits 10 (roundHalfEven n d)).length := by
    by_contra hle
    have := (Nat.length_toDigits_le_iff (by decide) (by decide)).mp (not_lt.mp hle)
    omega
  have hshort : (Nat.toDigits 10 (roundHalfEven n d)).length ≤ 18 :=
    (Nat.length_toDigits_le_iff (by decide) (by decide)).mpr (by omega)
  have hread : ofDecimal false (roundHalfEven n d) (magnitude units scale - 17) =
      Binary64.ofRatio false units scale := by
    rw [ofDecimal_eq (by omega) (by omega) (by omega), hback, ofRatio_scale false hfits]
  unfold readBackAt
  dsimp only
  rw [Nat.cast_ofNat, hgrid]
  rw [if_pos (beq_iff_eq.mpr hread)]
  rfl

end Grid

/-! ## The shortest one -/

theorem readBackAt_spec {num den count : Nat} {d : Decimal}
    (h : readBackAt num den count = some d) :
    ofDecimal false d.digits d.exponent = Binary64.ofRatio false num den ∧
      d.exponent = magnitude num den - count := by
  unfold readBackAt at h
  dsimp only at h
  generalize (if roundHalfEven _ _ = _ then _ else _) = other at h
  split at h
  · injection h with h
    subst h
    exact ⟨eq_of_beq ‹_›, rfl⟩
  split at h
  · injection h with h
    subst h
    exact ⟨eq_of_beq ‹_›, rfl⟩
  · cases h

/-- The search ends at a decimal that some grid gives, if the last grid gives one. -/
theorem readBackFrom_spec {num den : Nat} : ∀ fuel count : Nat,
    (readBackAt num den (count + fuel)).isSome →
      ofDecimal false (readBackFrom num den fuel count).digits
        (readBackFrom num den fuel count).exponent = Binary64.ofRatio false num den
  | 0, count, hlast => by
    obtain ⟨d, hd⟩ := Option.isSome_iff_exists.mp hlast
    rw [Nat.add_zero] at hd
    obtain ⟨hread, hexp⟩ := readBackAt_spec hd
    rw [readBackFrom, hd, Option.elim_some, ← hexp]
    exact hread
  | fuel + 1, count, hlast => by
    rw [readBackFrom]
    cases hd : readBackAt num den count with
    | some d => exact (readBackAt_spec hd).1
    | none =>
      refine readBackFrom_spec fuel (count + 1) ?_
      rwa [Nat.add_right_comm] at *

theorem stripZeros_spec (negative : Bool) : ∀ (fuel : Nat) (d : Decimal),
    ofDecimal negative (stripZeros fuel d).digits (stripZeros fuel d).exponent =
      ofDecimal negative d.digits d.exponent
  | 0, _ => rfl
  | fuel + 1, d => by
    rw [stripZeros]
    split
    · rw [stripZeros_spec negative fuel, ← ofDecimal_mul_ten, Nat.div_mul_cancel]
      exact Nat.dvd_of_mod_eq_zero (by tauto)
    · rfl

/-- **The shortest decimal reads back**, with either sign. -/
theorem ofDecimal_shortest (negative : Bool) {units : Nat} (hfits : Fits units)
    (hpos : 0 < units) :
    ofDecimal negative (ofRatio units scale).digits (ofRatio units scale).exponent =
      .finite negative units := by
  refine ofDecimal_sign (a := false) negative hpos ?_
  rw [ofRatio, stripZeros_spec, readBackFrom_spec 16 1 (readBackAt_seventeen hfits hpos)]
  exact ofRatio_scale false hfits

theorem digits_ofRatio_pos {units : Nat} (hfits : Fits units) (hpos : 0 < units) :
    0 < (ofRatio units scale).digits := by
  by_contra h
  have hread := ofDecimal_shortest false hfits hpos
  rw [Nat.eq_zero_of_not_pos h, ofDecimal_zero] at hread
  injection hread with _ hread
  omega

end Decimal
end SpecDraft
