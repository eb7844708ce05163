import SpecDraft.Text.Basic

/-!
# Whole numbers as text

A whole number is read from decimal digits of any script, with a sign before them if need be,
single low lines between them, and blanks around them.
-/
set_option autoImplicit false

namespace SpecDraft.Whole

open Text

/-- Whether a character may surround a number: any blank but the ASCII separators. -/
def isPadding (c : Char) : Bool := isBlank c && !(28 ≤ c.toNat && c.toNat ≤ 31)

/-- The largest number of digits that are read. -/
def digitLimit : Nat := 4300

/-- The values of digits that may have single low lines between them, after a first digit. -/
def digitsAfter? : List Char → Option (List Nat)
  | [] => some []
  | '_' :: c :: rest => do return (← digitValue? c) :: (← digitsAfter? rest)
  | c :: rest => do return (← digitValue? c) :: (← digitsAfter? rest)

/-- The values of digits that may have single low lines between them. -/
def digits? : List Char → Option (List Nat)
  | [] => none
  | c :: rest => do return (← digitValue? c) :: (← digitsAfter? rest)

/-- The number that digits denote. -/
def ofDigits (digits : List Nat) : Nat := digits.foldl (fun n digit => n * 10 + digit) 0

/-- The number without a sign that a text denotes. -/
def magnitude? (s : List Char) : Option Nat := do
  let digits ← digits? s
  if digits.length ≤ digitLimit then some (ofDigits digits) else none

/-- The number that a text denotes. -/
def read? (s : String) : Option Int :=
  match dropRight isPadding (s.toList.dropWhile isPadding) with
  | '+' :: rest => (magnitude? rest).map fun n => (n : Int)
  | '-' :: rest => (magnitude? rest).map fun n => -(n : Int)
  | rest => (magnitude? rest).map fun n => (n : Int)

end SpecDraft.Whole
