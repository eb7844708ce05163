import SpecDraft.Assoc
import SpecDraft.Number.Decimal

/-!
# JSON values

Values of JSON with integers of any size, binary64 numbers kept apart from integers, and objects
whose members keep their order. A member list names each key once; `put` keeps it so.
-/
set_option autoImplicit false

namespace SpecDraft

/-- A JSON value. -/
inductive Json where
  | null
  | bool (value : Bool)
  | int (value : Int)
  | real (value : Binary64)
  | str (value : String)
  | arr (items : List Json)
  | obj (members : List (String × Json))
  deriving BEq, Repr, Inhabited

/-- The members of an object, in order. -/
abbrev Members := List (String × Json)

namespace Members

/-- The value of a key. -/
def get? (members : Members) (key : String) : Option Json := members.lookup key

/-- Whether a key is present. -/
def has (members : Members) (key : String) : Bool := members.any (·.1 == key)

/-- Gives a key a value: in place when the key is present, at the end when it is not. -/
def put (members : Members) (key : String) (value : Json) : Members :=
  Assoc.put members key value

/-- All members of the second list put into the first, one after the other. -/
def merge (members updates : Members) : Members :=
  updates.foldl (fun acc (key, value) => acc.put key value) members

/-- The members whose keys are not listed. -/
def without (members : Members) (keys : List String) : Members :=
  members.filter fun (key, _) => !keys.contains key

/-- The members of a list of pairs in which later values replace earlier ones. -/
def ofPairs (pairs : List (String × Json)) : Members := merge [] pairs

end Members

namespace Json

/-- A natural number as a value. -/
def nat (n : Nat) : Json := .int n

/-- A list of texts as a value. -/
def strs (items : List String) : Json := .arr (items.map .str)

/-- A text, or null where there is none. -/
def ofText? : Option String → Json
  | some s => .str s
  | none => .null

/-- The text of a string value. -/
def text? : Json → Option String
  | .str s => some s
  | _ => none

/-- The members of an object value. -/
def members? : Json → Option Members
  | .obj members => some members
  | _ => none

/-- The items of an array value. -/
def items? : Json → Option (List Json)
  | .arr items => some items
  | _ => none

/-- Whether the value is null. -/
def isNull : Json → Bool
  | .null => true
  | _ => false

/-- Whether a field is filled in: null, false, zero and what is empty do not count. -/
def isFilled : Json → Bool
  | .null => false
  | .bool value => value
  | .int n => n != 0
  | .real x => !x.isZero
  | .str s => s != ""
  | .arr items => !items.isEmpty
  | .obj members => !members.isEmpty

/-- Whether the value is one of the listed texts. -/
def isOneOf (value : Json) (texts : List String) : Bool :=
  match value with
  | .str s => texts.contains s
  | _ => false

end Json
end SpecDraft
