import SpecDraft.Failure

/-!
# Quantities

An amount that is either a whole number of any size or a binary64 number. A sum is whole as long
as every term is.
-/
set_option autoImplicit false

namespace SpecDraft

/-- A whole number or a binary64 number. -/
inductive Quantity where
  | whole (n : Int)
  | real (x : Binary64)
  deriving DecidableEq, Repr

namespace Quantity

/-- The binary64 number nearest to a whole number; one that is too large has none. -/
def ofWhole (n : Int) : Outcome Binary64 :=
  (Binary64.ofInt? n).elim (.error (.overflow "int too large to convert to float")) .ok

/-- The quantity as a binary64 number. -/
def toReal : Quantity → Outcome Binary64
  | whole n => ofWhole n
  | real x => .ok x

/-- The sum of two quantities. -/
def add : Quantity → Quantity → Outcome Quantity
  | whole a, whole b => .ok (whole (a + b))
  | a, b => do return real (Binary64.add (← a.toReal) (← b.toReal))

/-- The sum of a list of quantities, from left to right. -/
def sum (quantities : List Quantity) : Outcome Quantity := quantities.foldlM add (whole 0)

/-- The quantity as a JSON number. -/
def toJson : Quantity → Json
  | whole n => .int n
  | real x => .real x

/-- The quantity that a JSON number denotes. -/
def ofJson? : Json → Option Quantity
  | .int n => some (whole n)
  | .real x => some (real x)
  | _ => none

end Quantity
end SpecDraft
