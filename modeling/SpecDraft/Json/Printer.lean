import SpecDraft.Json.Basic

/-!
# Writing JSON

Two layouts of JSON texts. `compact` writes one line of printable ASCII, with a blank after each
comma and colon. `pretty` writes one item per line, indented by two blanks for each level, and
leaves every character from the space on as it is, quotes and backslashes aside.
-/
set_option autoImplicit false

namespace SpecDraft.Json

namespace Printer

/-- The digit of a value below sixteen. -/
def hexDigit (n : Nat) : Char := if n < 10 then Char.ofNat (48 + n) else Char.ofNat (87 + n)

/-- The escape of a code unit by its number. -/
def escapeUnit (unit : Nat) : List Char :=
  ['\\', 'u', hexDigit (unit / 4096 % 16), hexDigit (unit / 256 % 16),
    hexDigit (unit / 16 % 16), hexDigit (unit % 16)]

/-- The escape of a character by the numbers of its code units. -/
def escapeNumbers (c : Char) : List Char :=
  if c.toNat < 0x10000 then escapeUnit c.toNat
  else
    let offset := c.toNat - 0x10000
    escapeUnit (0xD800 + offset / 0x400) ++ escapeUnit (0xDC00 + offset % 0x400)

/-- A character inside a string. Quotes, backslashes and controls are escaped, and with `ascii`
every character outside the printable ASCII range. -/
def escape (ascii : Bool) (c : Char) : List Char :=
  match c with
  | '"' => ['\\', '"']
  | '\\' => ['\\', '\\']
  | '\n' => ['\\', 'n']
  | '\r' => ['\\', 'r']
  | '\t' => ['\\', 't']
  | '\x08' => ['\\', 'b']
  | '\x0c' => ['\\', 'f']
  | _ =>
    if c.toNat < 0x20 ∨ (ascii = true ∧ 0x7F ≤ c.toNat) then escapeNumbers c else [c]

/-- A string in quotes. -/
def quoted (ascii : Bool) (s : String) : List Char :=
  '"' :: (s.toList.flatMap (escape ascii) ++ ['"'])

/-- The text of a number; the values that are no numbers have names. -/
def real : Binary64 → List Char
  | .nan => "NaN".toList
  | .infinity negative => (if negative then "-Infinity" else "Infinity").toList
  | x => x.shortest.toList

/-- The text of an integer. -/
def int (n : Int) : List Char := (toString n).toList

mutual

/-- A value on one line of ASCII. -/
def compact : Json → List Char
  | .null => "null".toList
  | .bool true => "true".toList
  | .bool false => "false".toList
  | .int n => int n
  | .real x => real x
  | .str s => quoted true s
  | .arr [] => "[]".toList
  | .arr (item :: items) => '[' :: (compact item ++ (compactItems items ++ [']']))
  | .obj [] => ['{', '}']
  | .obj ((key, value) :: members) =>
    '{' :: (quoted true key ++ (':' :: ' ' :: (compact value ++
      (compactMembers members ++ ['}']))))

/-- The items after the first, each after a comma and a blank. -/
def compactItems : List Json → List Char
  | [] => []
  | item :: items => ',' :: ' ' :: (compact item ++ compactItems items)

/-- The members after the first, each after a comma and a blank. -/
def compactMembers : List (String × Json) → List Char
  | [] => []
  | (key, value) :: members =>
    ',' :: ' ' :: (quoted true key ++ (':' :: ' ' :: (compact value ++ compactMembers members)))

end

/-- A line break and the indentation of a level. -/
def newLine (level : Nat) : List Char := '\n' :: List.replicate (2 * level) ' '

mutual

/-- A value over several lines, its first line at the given level. -/
def pretty (level : Nat) : Json → List Char
  | .null => "null".toList
  | .bool true => "true".toList
  | .bool false => "false".toList
  | .int n => int n
  | .real x => real x
  | .str s => quoted false s
  | .arr [] => "[]".toList
  | .arr (item :: items) =>
    '[' :: (newLine (level + 1) ++ (pretty (level + 1) item ++
      (prettyItems (level + 1) items ++ (newLine level ++ [']']))))
  | .obj [] => ['{', '}']
  | .obj ((key, value) :: members) =>
    '{' :: (newLine (level + 1) ++ (quoted false key ++ (':' :: ' ' ::
      (pretty (level + 1) value ++
        (prettyMembers (level + 1) members ++ (newLine level ++ ['}']))))))

/-- The items after the first, each after a comma and a line break. -/
def prettyItems (level : Nat) : List Json → List Char
  | [] => []
  | item :: items => ',' :: (newLine level ++ (pretty level item ++ prettyItems level items))

/-- The members after the first, each after a comma and a line break. -/
def prettyMembers (level : Nat) : List (String × Json) → List Char
  | [] => []
  | (key, value) :: members =>
    ',' :: (newLine level ++ (quoted false key ++ (':' :: ' ' ::
      (pretty level value ++ prettyMembers level members))))

end

end Printer

/-- The value on one line of ASCII. -/
def compact (value : Json) : String := String.ofList (Printer.compact value)

/-- The value with one item per line. -/
def pretty (value : Json) : String := String.ofList (Printer.pretty 0 value)

end SpecDraft.Json
