/-!
# Binary64 numbers, exactly

A finite binary64 number is a whole multiple of the smallest positive one, `2 ^ (-1074)`.
`Binary64` stores that multiple, so two finite values are equal exactly when they denote the
same number with the same sign, and every operation is computed on integers and rounded once,
to nearest with ties to the even significand.
-/
set_option autoImplicit false

namespace SpecDraft

/-- A binary64 number: not a number, an infinity, or `units` times `2 ^ (-1074)` with a sign. -/
inductive Binary64 where
  | nan
  | infinity (negative : Bool)
  | finite (negative : Bool) (units : Nat)
  deriving DecidableEq, Repr, Inhabited

/-- The quotient `num / den` rounded to the nearest integer, a half going to the even one. -/
def roundHalfEven (num den : Nat) : Nat :=
  let quotient := num / den
  let twice := 2 * (num % den)
  if twice < den then quotient
  else if den < twice then quotient + 1
  else quotient + quotient % 2

namespace Binary64

/-- How many units make one. -/
def scale : Nat := Nat.pow 2 1074

/-- The first number of units that is too large to be finite. -/
def unitsLimit : Nat := Nat.pow 2 2098

/-- Positive zero. -/
def zero : Binary64 := .finite false 0

/-- The binary64 number nearest to `num / den` units, with the given sign. At most 53 leading
bits are kept; what does not fit becomes an infinity. -/
def ofUnitRatio (negative : Bool) (num den : Nat) : Binary64 :=
  let step := Nat.pow 2 (Nat.log2 (num / den) - 52)
  let units := roundHalfEven num (den * step) * step
  if units < unitsLimit then .finite negative units else .infinity negative

/-- The binary64 number nearest to the fraction `num / den`, with the given sign. -/
def ofRatio (negative : Bool) (num den : Nat) : Binary64 :=
  ofUnitRatio negative (num * scale) den

/-- The binary64 number nearest to an integer, or none when it is too large to be finite. -/
def ofInt? (n : Int) : Option Binary64 :=
  match ofRatio (n < 0) n.natAbs 1 with
  | .finite negative units => some (.finite negative units)
  | _ => none

/-- The binary64 number nearest to `digits * 10 ^ exponent`. Magnitudes far outside the range
are settled by their decimal length, without computing the power. -/
def ofDecimal (negative : Bool) (digits : Nat) (exponent : Int) : Binary64 :=
  if digits = 0 then .finite negative 0
  else
    let magnitude : Int := (Nat.toDigits 10 digits).length + exponent
    if 310 < magnitude then .infinity negative
    else if magnitude < -330 then .finite negative 0
    else if 0 ≤ exponent then ofRatio negative (digits * Nat.pow 10 exponent.toNat) 1
    else ofRatio negative digits (Nat.pow 10 (-exponent).toNat)

/-- The signed number of units of a finite value. -/
def signedUnits (negative : Bool) (units : Nat) : Int :=
  if negative then -units else units

/-- Order of two values; none when either is not a number. -/
def compare? : Binary64 → Binary64 → Option Ordering
  | .nan, _ | _, .nan => none
  | .infinity a, .infinity b => some (compare (!a) (!b))
  | .infinity a, .finite _ _ => some (if a then .lt else .gt)
  | .finite _ _, .infinity b => some (if b then .gt else .lt)
  | .finite a m, .finite b n => some (compare (signedUnits a m) (signedUnits b n))

/-- `x ≤ y`, false when either is not a number. -/
def le (x y : Binary64) : Bool :=
  match compare? x y with
  | some .lt | some .eq => true
  | _ => false

/-- Whether the value is zero of either sign. -/
def isZero : Binary64 → Bool
  | .finite _ 0 => true
  | _ => false

/-- Whether the value is a whole number. -/
def isWhole : Binary64 → Bool
  | .finite _ units => units % scale == 0
  | _ => false

/-- The integer part, toward zero, of a finite value. -/
def truncate? : Binary64 → Option Int
  | .finite negative units => some (signedUnits negative (units / scale))
  | _ => none

/-- The least integer that is not below a finite value. -/
def ceiling? : Binary64 → Option Int
  | .finite false units => some ((units + (scale - 1)) / scale : Nat)
  | .finite true units => some (-(units / scale : Nat))
  | _ => none

/-- The sum, rounded. A sum that is exactly zero is positive unless both terms are negative
zeros, and opposite infinities have no sum. -/
def add : Binary64 → Binary64 → Binary64
  | .nan, _ | _, .nan => .nan
  | .infinity a, .infinity b => if a = b then .infinity a else .nan
  | .infinity a, .finite _ _ => .infinity a
  | .finite _ _, .infinity b => .infinity b
  | .finite a m, .finite b n =>
    let total := signedUnits a m + signedUnits b n
    if total = 0 then .finite (a && b) 0 else ofUnitRatio (total < 0) total.natAbs 1

/-- The value with the other sign. -/
def neg : Binary64 → Binary64
  | .nan => .nan
  | .infinity a => .infinity (!a)
  | .finite a m => .finite (!a) m

/-- The difference, rounded. -/
def sub (x y : Binary64) : Binary64 := add x (neg y)

/-- The product with a natural number, rounded. -/
def times (x : Binary64) (n : Nat) : Binary64 :=
  match x with
  | .nan => .nan
  | .infinity negative => if n = 0 then .nan else .infinity negative
  | .finite negative units => ofUnitRatio negative (units * n) 1

/-- The quotient by a positive integer, rounded. -/
def divideBy (x : Binary64) (n : Nat) : Binary64 :=
  match x with
  | .finite negative units => ofUnitRatio negative units n
  | other => other

end Binary64
end SpecDraft
