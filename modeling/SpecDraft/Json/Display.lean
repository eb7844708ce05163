import SpecDraft.Json.Basic
import SpecDraft.Text.Class

/-!
# Values inside messages

The text of a value as a message shows it: a string stands bare on its own and in quotes inside
a list or an object, null is `None`, and truth values are capitalised.
-/
set_option autoImplicit false

namespace SpecDraft.Json.Display

/-- The digit of a value below sixteen. -/
def hexDigit (n : Nat) : Char := if n < 10 then Char.ofNat (48 + n) else Char.ofNat (87 + n)

/-- The last `count` hexadecimal digits of a number. -/
def hexDigits : Nat → Nat → List Char
  | 0, _ => []
  | count + 1, n => hexDigits count (n / 16) ++ [hexDigit (n % 16)]

/-- The escape of a character by its number, in the shortest of three widths. -/
def escapeNumber (c : Char) : List Char :=
  if c.toNat < 0x100 then '\\' :: 'x' :: hexDigits 2 c.toNat
  else if c.toNat < 0x10000 then '\\' :: 'u' :: hexDigits 4 c.toNat
  else '\\' :: 'U' :: hexDigits 8 c.toNat

/-- A character inside quotes: the quote, backslashes and what has no printed form are escaped,
the latter by its number. -/
def escape (quote c : Char) : List Char :=
  if c = quote ∨ c = '\\' then ['\\', c]
  else if c = '\n' then ['\\', 'n']
  else if c = '\r' then ['\\', 'r']
  else if c = '\t' then ['\\', 't']
  else if Text.isPrintable c then [c]
  else escapeNumber c

/-- A string in single quotes, or in double quotes when it holds a single quote and no double
one. -/
def quoted (s : String) : String :=
  let quote := if s.toList.contains '\'' && !s.toList.contains '"' then '"' else '\''
  String.ofList (quote :: (s.toList.flatMap (escape quote) ++ [quote]))

mutual

/-- A value inside a list or an object. -/
def inner : Json → String
  | .null => "None"
  | .bool true => "True"
  | .bool false => "False"
  | .int n => toString n
  | .real x => x.shortest
  | .str s => quoted s
  | .arr items => "[" ++ String.intercalate ", " (innerItems items) ++ "]"
  | .obj members => "\x7b" ++ String.intercalate ", " (innerMembers members) ++ "\x7d"

/-- The texts of the items of a list. -/
def innerItems : List Json → List String
  | [] => []
  | item :: items => inner item :: innerItems items

/-- The texts of the members of an object. -/
def innerMembers : List (String × Json) → List String
  | [] => []
  | (key, value) :: members => (quoted key ++ ": " ++ inner value) :: innerMembers members

end

end SpecDraft.Json.Display

namespace SpecDraft.Json

/-- The value as a message shows it. -/
def display : Json → String
  | .str s => s
  | value => Display.inner value

/-- The name of the kind of a value, as messages give it. -/
def kindName : Json → String
  | .null => "NoneType"
  | .bool _ => "bool"
  | .int _ => "int"
  | .real _ => "float"
  | .str _ => "str"
  | .arr _ => "list"
  | .obj _ => "dict"

end SpecDraft.Json
