import SpecDraft.Number.Binary64

/-!
# Decimal texts of binary64 numbers

Four notations are written: the shortest digits that read back (`shortest`), a number of
significant digits (`general`), one digit before the point and an exponent (`exponential`), and a
fixed number of places (`fixed`). Each first chooses digits in exact arithmetic and then lays
them out.
-/
set_option autoImplicit false

namespace SpecDraft

/-- The number `digits * 10 ^ exponent`. -/
structure Decimal where
  digits : Nat
  exponent : Int
  deriving DecidableEq, Repr

namespace Decimal

/-- The decimal digits of a natural number. -/
def digitText (n : Nat) : String := String.ofList (Nat.toDigits 10 n)

/-- How many decimal digits a natural number has, none for zero. -/
def digitCount (n : Nat) : Nat := if n = 0 then 0 else (Nat.toDigits 10 n).length

/-- `n` copies of the digit zero. -/
def zeros (n : Nat) : String := String.ofList (List.replicate n '0')

/-- The `k` with `10 ^ (k - 1) ≤ num / den < 10 ^ k`, for a positive fraction. -/
def magnitude (num den : Nat) : Int :=
  if den ≤ num then digitCount (num / den)
  else 1 - (digitCount ((den + num - 1) / num - 1) : Int)

/-- `num / den * 10 ^ power` as a numerator and a denominator. -/
def shifted (num den : Nat) (power : Int) : Nat × Nat :=
  if 0 ≤ power then (num * Nat.pow 10 power.toNat, den)
  else (num, den * Nat.pow 10 (-power).toNat)

/-- Trailing zeros of the digits moved into the exponent. `fuel` bounds their number. -/
def stripZeros : Nat → Decimal → Decimal
  | 0, d => d
  | fuel + 1, d =>
    if d.digits % 10 = 0 ∧ d.digits ≠ 0 then
      stripZeros fuel ⟨d.digits / 10, d.exponent + 1⟩
    else d

/-- The decimal with `count` significant digits that lies nearest to the positive fraction
`num / den` among those that read back as it, if either neighbour on that grid does. -/
def readBackAt (num den count : Nat) : Option Decimal :=
  let exponent := magnitude num den - count
  let (n, d) := shifted num den (-exponent)
  let below := n / d
  let readsBack (digits : Nat) : Bool :=
    Binary64.ofDecimal false digits exponent == Binary64.ofRatio false num den
  let nearest := roundHalfEven n d
  let other := if nearest = below then below + 1 else below
  if readsBack nearest then some ⟨nearest, exponent⟩
  else if readsBack other then some ⟨other, exponent⟩
  else none

/-- The fewest digits, from `count` on, that read back. `fuel` counts the grids left to try. -/
def readBackFrom (num den : Nat) : Nat → Nat → Decimal
  | 0, count => ⟨(readBackAt num den count).elim 0 (·.digits), magnitude num den - count⟩
  | fuel + 1, count => (readBackAt num den count).getD (readBackFrom num den fuel (count + 1))

/-- The shortest decimal that reads back as the positive fraction `num / den`; seventeen digits
always suffice. -/
def ofRatio (num den : Nat) : Decimal :=
  stripZeros 17 (readBackFrom num den 16 1)

/-- The decimal with `count` significant digits that lies nearest to the positive fraction
`num / den`. -/
def rounded (num den count : Nat) : Decimal :=
  let exponent := magnitude num den - count
  let (n, d) := shifted num den (-exponent)
  let digits := roundHalfEven n d
  if digits = Nat.pow 10 count then ⟨Nat.pow 10 (count - 1), exponent + 1⟩
  else ⟨digits, exponent⟩

/-- What follows the digits of a number without a fraction. -/
structure Ending where
  positional : String
  scientific : String
  deriving DecidableEq, Repr

namespace Ending

/-- Nothing. -/
def plain : Ending := ⟨"", ""⟩

/-- A fraction of one zero, but for exponent notation. -/
def fractional : Ending := ⟨".0", ""⟩

/-- A point. -/
def pointed : Ending := ⟨".", "."⟩

end Ending

/-- Digits in positional notation. -/
def positional (d : Decimal) (ending : Ending) : String :=
  let text := digitText d.digits
  let point := (text.length : Int) + d.exponent
  if point ≤ 0 then "0." ++ zeros (-point).toNat ++ text
  else if 0 ≤ d.exponent then text ++ zeros d.exponent.toNat ++ ending.positional
  else String.ofList (text.toList.take point.toNat) ++ "." ++
    String.ofList (text.toList.drop point.toNat)

/-- One digit, a fraction, and at least two digits of exponent. -/
def withExponent (text : List Char) (exponent : Int) (ending : Ending) : String :=
  let fraction := text.drop 1
  let power := digitText exponent.natAbs
  String.ofList (text.take 1) ++
    (if fraction.isEmpty then ending.scientific else "." ++ String.ofList fraction) ++
    (if exponent < 0 then "e-" else "e+") ++
    (if power.length < 2 then "0" ++ power else power)

/-- Digits in exponent notation. -/
def scientific (d : Decimal) (ending : Ending) : String :=
  let text := (digitText d.digits).toList
  withExponent text ((text.length : Int) + d.exponent - 1) ending

/-- Positional notation for decimal exponents from `-4` to below `limit`, else exponent
notation. -/
def layout (d : Decimal) (limit : Int) (ending : Ending) : String :=
  let exponent := ((digitText d.digits).length : Int) + d.exponent - 1
  if exponent < -4 ∨ limit ≤ exponent then scientific d ending else positional d ending

end Decimal

namespace Binary64

/-- A minus sign for a negative value. -/
def signText (negative : Bool) : String := if negative then "-" else ""

/-- The text of a value, given the layout of its digits: `finite` receives the magnitude as a
fraction. -/
def textWith (finite : Nat → Nat → String) : Binary64 → String
  | .nan => "nan"
  | .infinity negative => signText negative ++ "inf"
  | .finite negative units => signText negative ++ finite units scale

/-- The shortest digits that read back: positional from `1e-4` to below `1e16`, and then always
with a fractional part. -/
def shortest (x : Binary64) : String :=
  x.textWith fun num den =>
    if num = 0 then "0.0" else (Decimal.ofRatio num den).layout 16 .fractional

/-- A number of significant digits: positional from `1e-4` to where the digits end. Zeros at the
end of a fraction are left out, unless all digits are wanted; then there is always a point. -/
def general (count : Nat) (allDigits : Bool) (x : Binary64) : String :=
  let count := max count 1
  x.textWith fun num den =>
    if num = 0 then (if allDigits then "0." ++ Decimal.zeros (count - 1) else "0")
    else
      let digits := Decimal.rounded num den count
      if allDigits then digits.layout count .pointed
      else (Decimal.stripZeros count digits).layout count .plain

/-- One digit before the point, `places` digits after it, and an exponent. -/
def exponential (places : Nat) (ending : Decimal.Ending) (x : Binary64) : String :=
  x.textWith fun num den =>
    if num = 0 then Decimal.withExponent (List.replicate (places + 1) '0') 0 ending
    else (Decimal.rounded num den (places + 1)).scientific ending

/-- Exactly `places` digits after the point. -/
def fixed (places : Nat) (ending : Decimal.Ending) (x : Binary64) : String :=
  x.textWith fun num den =>
    let rounded := roundHalfEven (num * Nat.pow 10 places) den
    let fraction := Decimal.digitText (rounded % Nat.pow 10 places)
    Decimal.digitText (rounded / Nat.pow 10 places) ++
      (if places = 0 then ending.positional
       else "." ++ Decimal.zeros (places - fraction.length) ++ fraction)

end Binary64
end SpecDraft
