import SpecDraft.Json.Reader

/-!
# Extents of values

How long the integers of a value are and how deeply its arrays and objects are nested. A value
beyond the limits is not written.
-/
set_option autoImplicit false

namespace SpecDraft.Json

/-- What in a value is beyond a limit. -/
inductive Excess where
  | longInteger (limit : Nat)
  | deepNesting
  deriving DecidableEq, Repr

/-- The excess of an integer, if it has more digits than the limit allows. -/
def Limits.integerExcess? (limits : Limits) (n : Int) : Option Excess :=
  (limits.exceededBy? (Nat.toDigits 10 n.natAbs).length).map .longInteger

mutual

/-- The first thing in a value, inside `level` arrays and objects, that is beyond the limits. -/
def excess? (limits : Limits) (level : Nat) : Json → Option Excess
  | .int n => limits.integerExcess? n
  | .arr items =>
    if limits.isTooDeep level then some .deepNesting else itemsExcess? limits (level + 1) items
  | .obj members =>
    if limits.isTooDeep level then some .deepNesting
    else membersExcess? limits (level + 1) members
  | .null | .bool _ | .real _ | .str _ => none

/-- The first thing beyond the limits in a list of values. -/
def itemsExcess? (limits : Limits) (level : Nat) : List Json → Option Excess
  | [] => none
  | item :: items => (excess? limits level item).or (itemsExcess? limits level items)

/-- The first thing beyond the limits in the values of members. -/
def membersExcess? (limits : Limits) (level : Nat) : List (String × Json) → Option Excess
  | [] => none
  | (_, value) :: members =>
    (excess? limits level value).or (membersExcess? limits level members)

end

end SpecDraft.Json
