import SpecDraft.Failure
import SpecDraft.Json.Printer

/-!
# Values as collections

A value of another kind can stand where a list or an object is wanted: a text for the list of its
characters, an object for the list of its keys, and a list of pairs for an object. Whatever
cannot is refused with a message that names its kind, as is a value that is no key or no path.
-/
set_option autoImplicit false

namespace SpecDraft

/-- A value that cannot be a key, or be looked up as one. -/
def Failure.noKey (value : Json) : Failure :=
  .wrongKind ("unhashable type: '" ++ value.kindName ++ "'")

/-- A value that does not consist of items. -/
def Failure.noItems (value : Json) : Failure :=
  .wrongKind ("'" ++ value.kindName ++ "' object is not iterable")

/-- A value that does not have a feature of some name. -/
def Failure.noFeature (value : Json) (name : String) : Failure :=
  .lacking ("no " ++ name ++ " in a value of kind " ++ value.kindName)

/-- A value that is no text. -/
def Failure.noText (value : Json) : Failure :=
  .wrongKind ("no text: a value of kind " ++ value.kindName)

/-- A value that has no fields. -/
def Failure.noFields (value : Json) : Failure :=
  .wrongKind ("no fields in a value of kind " ++ value.kindName)

/-- A value that is no path. -/
def Failure.noPath (value : Json) : Failure :=
  .wrongKind ("expected str, bytes or os.PathLike object, not " ++ value.kindName)

namespace Json

/-- The items that a value consists of. -/
def elements? : Json → Option (List Json)
  | .arr items => some items
  | .str s => some (s.toList.map fun c => .str c.toString)
  | .obj members => some (members.map fun (key, _) => .str key)
  | _ => none

/-- The items that a value consists of, where it must have some. -/
def elements (value : Json) : Outcome (List Json) :=
  match value.elements? with
  | some items => .ok items
  | none => .error (.noItems value)

/-- Whether a value can be looked up as a key. -/
def checkKey : Json → Outcome Unit
  | .arr items => .error (.noKey (.arr items))
  | .obj members => .error (.noKey (.obj members))
  | _ => .ok ()

/-- The text of a key. -/
def keyText : Json → String
  | .str s => s
  | value => value.compact

/-- The member that an item of a list stands for: a pair of a key and a value. `place` is that of
the item. -/
def pairAt (place : Nat) (item : Json) : Outcome (String × Json) :=
  match item.elements? with
  | some [key, value] => do
    key.checkKey
    return (key.keyText, value)
  | some items =>
    .error (.argument ("dictionary update sequence element #" ++ toString place ++
      " has length " ++ toString items.length ++ "; 2 is required"))
  | none =>
    .error (.wrongKind ("cannot convert dictionary update sequence element #" ++
      toString place ++ " to a sequence"))

/-- The members that a value stands for: those of an object, or those that the items of any
other value make as pairs. -/
def toMembers : Json → Outcome Members
  | .obj members => .ok members
  | value => do
    let items ← value.elements
    return Members.ofPairs (← items.zipIdx.mapM fun (item, place) => pairAt place item)

/-- The members of an object in which fields are looked up. -/
def record : Json → Outcome Members
  | .obj members => .ok members
  | value => .error (.noFields value)

/-- The members of an object in which a feature of objects is looked for. -/
def membersFor (feature : String) : Json → Outcome Members
  | .obj members => .ok members
  | value => .error (.noFeature value feature)

end Json

namespace Members

/-- The items of a field; none where the field is missing. -/
def itemsOf (members : Members) (key : String) : Outcome (List Json) :=
  match members.get? key with
  | some value => value.elements
  | none => .ok []

/-- A field with a value that stands in for a missing one. -/
def getOr (members : Members) (key : String) (default : Json) : Json :=
  (members.get? key).getD default

/-- Refuses members with other keys than the listed ones. -/
def checkKnown (members : Members) (keys : List String) : Outcome Unit :=
  match members.find? fun (key, _) => !keys.contains key with
  | some (key, _) =>
    .error (.wrongKind ("unknown field: " ++ key))
  | none => .ok ()

end Members
end SpecDraft
