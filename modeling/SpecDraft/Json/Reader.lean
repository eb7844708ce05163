import SpecDraft.Json.Basic
import SpecDraft.Number.Whole

/-!
# Reading JSON

The reader of JSON texts. Beyond the standard grammar it takes `NaN`, `Infinity` and
`-Infinity`; a number without fraction and exponent is an integer; of two members with one key
the later value counts, at the place of the earlier. Strings hold no raw control characters, and
escaped surrogates pair up; one that stays alone reads as the replacement character.

A reader may have limits on the length of integers and on the nesting. A text is refused for the
first thing in it, from left to right, that is malformed or beyond a limit.
-/
set_option autoImplicit false

namespace SpecDraft.Json

/-- How many digits an integer may have and how deeply arrays and objects may be nested, where
that is limited. -/
structure Limits where
  digits : Option Nat
  depth : Option Nat
  deriving DecidableEq, Repr

namespace Limits

/-- No limits. -/
def unlimited : Limits := ⟨none, none⟩

/-- The limits within which files are read. -/
def standard : Limits := ⟨some Whole.digitLimit, some 985⟩

/-- The limit on digits that a number of digits exceeds, if it does. -/
def exceededBy? (limits : Limits) (digits : Nat) : Option Nat :=
  limits.digits.filter (· < digits)

/-- Whether an array or object inside `level` others is nested too deeply. -/
def isTooDeep (limits : Limits) (level : Nat) : Bool := limits.depth.any (· ≤ level)

end Limits

/-- What holds values inside a text. -/
inductive Container where
  | array
  | object
  deriving DecidableEq, Repr

/-- The name of a container. -/
def Container.name : Container → String
  | .array => "array"
  | .object => "object"

/-- Why a text is not read. -/
inductive Refusal where
  | malformed
  | longInteger (limit digits : Nat)
  | deepNesting (container : Container)
  deriving DecidableEq, Repr

end SpecDraft.Json

namespace SpecDraft.Json.Reader

/-- What is read from the start of a text, and the rest of the text. -/
abbrev Parsed (α : Type) := Except Refusal (α × List Char)

/-- What is read, where nothing is read of a malformed text. -/
def wellFormed {α : Type} : Option (α × List Char) → Parsed α
  | some parsed => .ok parsed
  | none => .error .malformed

/-- The blanks that may stand between the tokens. -/
def isSpace (c : Char) : Bool := c == ' ' || c == '\t' || c == '\n' || c == '\r'

/-- The text without leading blanks. -/
def skip (s : List Char) : List Char := s.dropWhile isSpace

/-- The value of a hexadecimal digit. -/
def hexValue? (c : Char) : Option Nat :=
  if '0' ≤ c ∧ c ≤ '9' then some (c.toNat - 48)
  else if 'a' ≤ c ∧ c ≤ 'f' then some (c.toNat - 87)
  else if 'A' ≤ c ∧ c ≤ 'F' then some (c.toNat - 55)
  else none

/-- The value of four hexadecimal digits. -/
def hexUnit? (a b c d : Char) : Option Nat := do
  let a ← hexValue? a
  let b ← hexValue? b
  let c ← hexValue? c
  let d ← hexValue? d
  return ((a * 16 + b) * 16 + c) * 16 + d

/-- The character of a one-letter escape. -/
def shortEscape? : Char → Option Char
  | '"' => some '"'
  | '\\' => some '\\'
  | '/' => some '/'
  | 'b' => some '\x08'
  | 'f' => some '\x0c'
  | 'n' => some '\n'
  | 'r' => some '\r'
  | 't' => some '\t'
  | _ => none

/-- The code units of a string up to its closing quote, and what follows the quote. -/
def units : List Char → Option (List Nat × List Char)
  | [] => none
  | '"' :: rest => some ([], rest)
  | '\\' :: 'u' :: a :: b :: c :: d :: rest =>
    match hexUnit? a b c d with
    | some unit => (units rest).map fun (us, after) => (unit :: us, after)
    | none => none
  | '\\' :: e :: rest =>
    match shortEscape? e with
    | some c => (units rest).map fun (us, after) => (c.toNat :: us, after)
    | none => none
  | c :: rest =>
    if c = '\\' ∨ c.toNat < 0x20 then none
    else (units rest).map fun (us, after) => (c.toNat :: us, after)

/-- The characters of a sequence of code units: a high and a low surrogate make one character. -/
def characters : List Nat → List Char
  | [] => []
  | [u] => [if 0xD800 ≤ u ∧ u < 0xE000 then '\uFFFD' else Char.ofNat u]
  | u :: v :: rest =>
    if 0xD800 ≤ u ∧ u < 0xDC00 ∧ 0xDC00 ≤ v ∧ v < 0xE000 then
      Char.ofNat (0x10000 + (u - 0xD800) * 0x400 + (v - 0xDC00)) :: characters rest
    else
      (if 0xD800 ≤ u ∧ u < 0xE000 then '\uFFFD' else Char.ofNat u) :: characters (v :: rest)

/-- A string after its opening quote. -/
def string? (s : List Char) : Option (String × List Char) :=
  (units s).map fun (us, rest) => (String.ofList (characters us), rest)

/-- The leading ASCII digits and what follows them. -/
def digits (s : List Char) : List Char × List Char := s.span Char.isDigit

/-- The number that ASCII digits denote. -/
def digitsValue (ds : List Char) : Nat := ds.foldl (fun n c => n * 10 + (c.toNat - 48)) 0

/-- A fraction: a point and at least one digit. -/
def fraction (s : List Char) : List Char × List Char :=
  match s with
  | '.' :: rest =>
    let (ds, after) := digits rest
    if ds.isEmpty then ([], s) else (ds, after)
  | _ => ([], s)

/-- An exponent: a letter, perhaps a sign, and at least one digit. -/
def exponent (s : List Char) : Option Int × List Char :=
  match s with
  | e :: rest =>
    if e = 'e' ∨ e = 'E' then
      let (negative, unsigned) : Bool × List Char :=
        match rest with
        | '-' :: r => (true, r)
        | '+' :: r => (false, r)
        | _ => (false, rest)
      let (ds, after) := digits unsigned
      if ds.isEmpty then (none, s)
      else (some (if negative then -(digitsValue ds : Int) else digitsValue ds), after)
    else (none, s)
  | [] => (none, s)

/-- The digits of an integer part: a lone zero, or digits that do not start with zero. -/
def wholePart (s : List Char) : List Char × List Char :=
  match s with
  | '0' :: rest => (['0'], rest)
  | _ => digits s

/-- A number after its sign. -/
def unsigned (limits : Limits) (negative : Bool) (s : List Char) : Parsed Json :=
  let (whole, afterWhole) := wholePart s
  if whole.isEmpty then .error .malformed
  else
    let (places, afterPlaces) := fraction afterWhole
    let (power, rest) := exponent afterPlaces
    if places.isEmpty ∧ power.isNone then
      match limits.exceededBy? whole.length with
      | some limit => .error (.longInteger limit whole.length)
      | none => .ok (.int (if negative then -(digitsValue whole : Int) else digitsValue whole), rest)
    else
      .ok (.real (Binary64.ofDecimal negative (digitsValue (whole ++ places))
        (power.getD 0 - places.length)), rest)

/-- A number, or one of the names of the values that are no numbers. -/
def number (limits : Limits) : List Char → Parsed Json
  | 'N' :: 'a' :: 'N' :: rest => .ok (.real .nan, rest)
  | 'I' :: 'n' :: 'f' :: 'i' :: 'n' :: 'i' :: 't' :: 'y' :: rest =>
    .ok (.real (.infinity false), rest)
  | '-' :: 'I' :: 'n' :: 'f' :: 'i' :: 'n' :: 'i' :: 't' :: 'y' :: rest =>
    .ok (.real (.infinity true), rest)
  | '-' :: rest => unsigned limits true rest
  | s => unsigned limits false s

mutual

/-- A value at the start of the text, inside `level` arrays and objects. `fuel` bounds the
nesting and the number of members together; one more than the length of the text is enough. -/
def value (limits : Limits) : (fuel level : Nat) → List Char → Parsed Json
  | 0, _, _ => .error .malformed
  | fuel + 1, level, s =>
    match s with
    | '"' :: rest => (wellFormed (string? rest)).map fun (text, after) => (.str text, after)
    | '{' :: rest =>
      if limits.isTooDeep level then .error (.deepNesting .object)
      else
        match skip rest with
        | '}' :: after => .ok (.obj [], after)
        | inner =>
          (members limits fuel (level + 1) inner).map fun (pairs, after) =>
            (.obj (Members.ofPairs pairs), after)
    | '[' :: rest =>
      if limits.isTooDeep level then .error (.deepNesting .array)
      else
        match skip rest with
        | ']' :: after => .ok (.arr [], after)
        | inner =>
          (items limits fuel (level + 1) inner).map fun (items, after) => (.arr items, after)
    | 'n' :: 'u' :: 'l' :: 'l' :: rest => .ok (.null, rest)
    | 't' :: 'r' :: 'u' :: 'e' :: rest => .ok (.bool true, rest)
    | 'f' :: 'a' :: 'l' :: 's' :: 'e' :: rest => .ok (.bool false, rest)
    | _ => number limits s

/-- The items of an array up to its closing bracket. -/
def items (limits : Limits) : (fuel level : Nat) → List Char → Parsed (List Json)
  | 0, _, _ => .error .malformed
  | fuel + 1, level, s =>
    match value limits fuel level s with
    | .error refusal => .error refusal
    | .ok (item, rest) =>
      match skip rest with
      | ']' :: after => .ok ([item], after)
      | ',' :: more =>
        (items limits fuel level (skip more)).map fun (items, after) => (item :: items, after)
      | _ => .error .malformed

/-- The members of an object up to its closing brace, as written. -/
def members (limits : Limits) : (fuel level : Nat) → List Char → Parsed (List (String × Json))
  | 0, _, _ => .error .malformed
  | fuel + 1, level, s =>
    match s with
    | '"' :: quoted =>
      match string? quoted with
      | none => .error .malformed
      | some (key, rest) =>
        match skip rest with
        | ':' :: inner =>
          match value limits fuel level (skip inner) with
          | .error refusal => .error refusal
          | .ok (value, rest) =>
            match skip rest with
            | '}' :: after => .ok ([(key, value)], after)
            | ',' :: more =>
              (members limits fuel level (skip more)).map fun (pairs, after) =>
                ((key, value) :: pairs, after)
            | _ => .error .malformed
        | _ => .error .malformed
    | _ => .error .malformed

end

/-- The value that the whole text denotes, blanks around it aside. -/
def read (limits : Limits) (s : List Char) : Except Refusal Json :=
  match value limits (s.length + 1) 0 (skip s) with
  | .ok (value, rest) => if (skip rest).isEmpty then .ok value else .error .malformed
  | .error refusal => .error refusal

end SpecDraft.Json.Reader

namespace SpecDraft.Json

/-- Reads a JSON text within limits. -/
def read (limits : Limits) (s : String) : Except Refusal Json := Reader.read limits s.toList

/-- Reads a JSON text without limits. -/
def read? (s : String) : Option Json := (read .unlimited s).toOption

end SpecDraft.Json
