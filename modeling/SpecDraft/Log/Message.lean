import SpecDraft.Number.Quantity

/-!
# Messages with arguments

A message may hold place holders, each of which shows an argument. A place holder is a percent
sign, perhaps a key in parentheses, flags, a width, a precision and a length mark without
meaning, and a letter that says how the argument is shown. Two percent signs in a row stand for
one.

Arguments are taken from left to right while a place holder is read, so that of two faults the
one further left is reported.
-/
set_option autoImplicit false

namespace SpecDraft.Log

/-- The arguments of a message: in a row, or by name. With names, `whole` is what a place holder
without a key takes. -/
inductive Arguments where
  | row (waiting : List Json)
  | named (members : Members) (whole : Option Json)

namespace Arguments

/-- The arguments that a list stands for. An object that is alone in the list and not empty
gives them by name. -/
def ofList : List Json → Arguments
  | [.obj (member :: members)] =>
    named (member :: members) (some (.obj (member :: members)))
  | items => row items

/-- Whether arguments in a row are left over. -/
def areLeft : Arguments → Bool
  | row waiting => !waiting.isEmpty
  | named .. => false

end Arguments

/-- What is left of a message, and of its arguments, while it is filled in. -/
structure Filling where
  rest : List Char
  arguments : Arguments

/-- A step of filling in a message. -/
abbrev Fill (α : Type) := StateT Filling (Except Failure) α

namespace Fill

/-- A message that ends inside a place holder. -/
def unfinished : Failure := .argument "incomplete format"

/-- A place holder that no argument is left for. -/
def argumentMissing : Failure := .wrongKind "not enough arguments for format string"

/-- Arguments that no place holder takes. -/
def argumentsLeft : Failure :=
  .wrongKind "not all arguments converted during string formatting"

/-- The next argument. -/
def argument : Fill Json := do
  let filling ← get
  match filling.arguments with
  | .row (value :: waiting) =>
    set { filling with arguments := .row waiting }
    return value
  | .named members (some value) =>
    set { filling with arguments := .named members none }
    return value
  | .row [] | .named _ none => throw argumentMissing

/-- Drops the next character if it is one of those listed, and says whether it was. -/
def accept (characters : List Char) : Fill Bool := do
  let filling ← get
  match filling.rest with
  | c :: rest =>
    if characters.contains c then
      set { filling with rest }
      return true
    else return false
  | [] => return false

/-- The characters from here on that satisfy a test. -/
def takeWhile (test : Char → Bool) : Fill (List Char) := do
  let filling ← get
  set { filling with rest := filling.rest.dropWhile test }
  return filling.rest.takeWhile test

/-- The next character of a place holder. -/
def character : Fill Char := do
  let filling ← get
  match filling.rest with
  | c :: rest =>
    set { filling with rest }
    return c
  | [] => throw unfinished

/-- A text up to the parenthesis that closes it, with `depth` inner ones open, and what follows.
-/
def enclosed : (depth : Nat) → List Char → Option (List Char × List Char)
  | _, [] => none
  | 0, ')' :: rest => some ([], rest)
  | depth + 1, ')' :: rest =>
    (enclosed depth rest).map fun (inner, after) => (')' :: inner, after)
  | depth, '(' :: rest =>
    (enclosed (depth + 1) rest).map fun (inner, after) => ('(' :: inner, after)
  | depth, c :: rest => (enclosed depth rest).map fun (inner, after) => (c :: inner, after)

/-- The key of a place holder, if it has one: what it names becomes the next argument. -/
def key : Fill Unit := do
  if ← accept ['('] then
    let filling ← get
    let .named members _ := filling.arguments | throw (.wrongKind "format requires a mapping")
    let some (name, rest) := enclosed 0 filling.rest | throw (.argument "incomplete format key")
    let value ← members.require (String.ofList name)
    set (Filling.mk rest (.named members (some value)))

/-- An argument that says how wide or how precise a place holder is, of which `bits` bits are
kept. -/
def extentArgument (bits : Nat) (name : String) : Fill Int := do
  let n ← match ← argument with
    | .int n => pure n
    | .bool value => pure (if value then 1 else 0)
    | _ => throw (.wrongKind "* wants int")
  if -Int.pow 2 bits ≤ n ∧ n < Int.pow 2 bits then return n
  else throw (.overflow (name ++ " too big"))

/-- A width or precision that is written out, of which `bits` bits are kept. -/
def extentWritten (bits : Nat) (name : String) : Fill Nat := do
  let n := Whole.ofDigits ((← takeWhile Char.isDigit).map fun c => c.toNat - 48)
  if n < Nat.pow 2 bits then return n else throw (.argument (name ++ " too big"))

end Fill

/-- How a place holder lays out what it shows. -/
structure Flags where
  left : Bool
  plus : Bool
  blank : Bool
  alternate : Bool
  zero : Bool
  deriving DecidableEq, Repr

namespace Flags

/-- The characters that stand for flags. -/
def characters : List Char := ['-', '+', ' ', '#', '0']

/-- The flags that characters stand for. -/
def ofCharacters (cs : List Char) : Flags where
  left := cs.contains '-'
  plus := cs.contains '+'
  blank := cs.contains ' '
  alternate := cs.contains '#'
  zero := cs.contains '0'

end Flags

/-- A place holder without its key: how its argument is shown. -/
structure Directive where
  flags : Flags
  width : Nat
  precision : Option Nat
  letter : Char
  deriving DecidableEq, Repr

namespace Directive

/-- Reads the flags and the width of a place holder. A negative width is one to the left. -/
def readFlags : Fill (Flags × Nat) := do
  let flags := Flags.ofCharacters (← Fill.takeWhile Flags.characters.contains)
  if ← Fill.accept ['*'] then
    let width ← Fill.extentArgument 63 "width"
    return (if width < 0 then { flags with left := true } else flags, width.natAbs)
  else return (flags, ← Fill.extentWritten 63 "width")

/-- Reads the precision of a place holder, if it has one. -/
def readPrecision : Fill (Option Nat) := do
  if ← Fill.accept ['.'] then
    if ← Fill.accept ['*'] then return some (← Fill.extentArgument 31 "precision").toNat
    else return some (← Fill.extentWritten 31 "precision")
  else return none

/-- Reads a place holder after its percent sign. -/
def read : Fill Directive := do
  Fill.key
  let (flags, width) ← readFlags
  let precision ← readPrecision
  let _ ← Fill.accept ['h', 'l', 'L']
  return { flags, width, precision, letter := ← Fill.character }

/-- What a place holder shows, before it is brought to its width. A number has a sign, which
may be shown when it is not a minus, and perhaps a mark of its base. -/
structure Shown where
  isNumber : Bool
  isNegative : Bool
  mark : List Char
  body : List Char

/-- A shown text. -/
def ofText (text : List Char) : Shown := ⟨false, false, [], text⟩

/-- A shown number, from a text with a minus sign where it is negative. -/
def ofNumber (text : List Char) : Shown :=
  match text with
  | '-' :: body => ⟨true, true, [], body⟩
  | body => ⟨true, false, [], body⟩

/-- The sign that is shown. -/
def signOf (flags : Flags) (shown : Shown) : List Char :=
  if !shown.isNumber then []
  else if shown.isNegative then ['-']
  else if flags.plus then ['+']
  else if flags.blank then [' ']
  else []

/-- What is shown, brought to the width: with blanks after it or before it, or with zeros
between the sign and the digits of a number. -/
def padded (d : Directive) (shown : Shown) : List Char :=
  let head := signOf d.flags shown ++ shown.mark
  let missing := d.width - (head.length + shown.body.length)
  if d.flags.left then head ++ shown.body ++ List.replicate missing ' '
  else if d.flags.zero && shown.isNumber then head ++ List.replicate missing '0' ++ shown.body
  else List.replicate missing ' ' ++ head ++ shown.body

/-- An argument that is no number where one is needed. -/
def notReal (letter : Char) (value : Json) : Failure :=
  .wrongKind ("%" ++ letter.toString ++ " format: a real number is required, not " ++
    value.kindName)

/-- An argument that is no integer where one is needed. -/
def notInteger (letter : Char) (value : Json) : Failure :=
  .wrongKind ("%" ++ letter.toString ++ " format: an integer is required, not " ++
    value.kindName)

/-- The whole number that an argument is shown as: that of a truth value is zero or one, and a
fraction is cut off. -/
def wholeOf (letter : Char) : Json → Outcome Int
  | .bool value => .ok (if value then 1 else 0)
  | .int n => .ok n
  | .real x =>
    match x.truncate?, x with
    | some n, _ => .ok n
    | none, .nan => .error (.argument "cannot convert float NaN to integer")
    | none, _ => .error (.overflow "cannot convert float infinity to integer")
  | value => .error (notReal letter value)

/-- The integer that an argument is. -/
def integerOf (letter : Char) : Json → Outcome Int
  | .bool value => .ok (if value then 1 else 0)
  | .int n => .ok n
  | value => .error (notInteger letter value)

/-- The binary64 number that an argument is shown as. -/
def realOf : Json → Outcome Binary64
  | .bool value => Quantity.ofWhole (if value then 1 else 0)
  | .int n => Quantity.ofWhole n
  | .real x => .ok x
  | value => .error (.wrongKind ("must be real number, not " ++ value.kindName))

/-- An integer in some base, with zeros before it up to the precision. -/
def inBase (d : Directive) (base : Nat) (mark : List Char) (n : Int) : Shown :=
  let digits := Nat.toDigits base n.natAbs
  ⟨true, n < 0, mark, List.replicate (d.precision.getD 0 - digits.length) '0' ++ digits⟩

/-- The text of a binary64 number. -/
def realText (d : Directive) (x : Binary64) : String :=
  let digits := d.precision.getD 6
  let ending := if d.flags.alternate then Decimal.Ending.pointed else .plain
  match d.letter.toLower with
  | 'e' => x.exponential digits ending
  | 'f' => x.fixed digits ending
  | _ => x.general digits d.flags.alternate

/-- A text in ASCII: other characters are escaped by their numbers. -/
def asciiOnly (text : List Char) : List Char :=
  text.flatMap fun c => if c.toNat < 0x80 then [c] else Json.Display.escapeNumber c

/-- The character that an argument is, or is the number of. -/
def characterOf : Json → Outcome Char
  | .str s =>
    match s.toList with
    | [c] => .ok c
    | _ => .error (.wrongKind "%c requires int or char")
  | .bool value => .ok (Char.ofNat (if value then 1 else 0))
  | .int n =>
    if 0 ≤ n ∧ n < 0x110000 then .ok (Char.ofNat n.toNat)
    else .error (.overflow "%c arg not in range(0x110000)")
  | _ => .error (.wrongKind "%c requires int or char")

/-- The hexadecimal digits of a number. -/
def hexText (n : Nat) : String := String.ofList (Nat.toDigits 16 n)

/-- A letter that says nothing, at a place in the message. -/
def letterUnknown (letter : Char) (place : Nat) : Failure :=
  let shown := if 31 ≤ letter.toNat ∧ letter.toNat ≤ 126 then letter else '?'
  .argument ("unsupported format character '" ++ shown.toString ++ "' (0x" ++
    hexText letter.toNat ++ ") at index " ++ toString place)

/-- What a place holder shows of an argument. `place` is that of its letter in the message. -/
def shown (d : Directive) (place : Nat) (value : Json) : Outcome Shown :=
  let cut (text : List Char) : Shown :=
    ofText (d.precision.elim text text.take)
  let mark (c : Char) : List Char := if d.flags.alternate then ['0', c] else []
  match d.letter with
  | 's' => .ok (cut value.display.toList)
  | 'r' => .ok (cut (Json.Display.inner value).toList)
  | 'a' => .ok (cut (asciiOnly (Json.Display.inner value).toList))
  | 'c' => return ofText [← characterOf value]
  | 'd' | 'i' | 'u' => return inBase d 10 [] (← wholeOf d.letter value)
  | 'o' => return inBase d 8 (mark 'o') (← integerOf d.letter value)
  | 'x' => return inBase d 16 (mark 'x') (← integerOf d.letter value)
  | 'X' => do
    let shown := inBase d 16 (mark 'X') (← integerOf d.letter value)
    return { shown with body := shown.body.map Char.toUpper }
  | 'e' | 'f' | 'g' => return ofNumber (realText d (← realOf value)).toList
  | 'E' | 'F' | 'G' =>
    return ofNumber ((realText d (← realOf value)).toList.map Char.toUpper)
  | letter => .error (letterUnknown letter place)

end Directive

/-- Fills in the rest of a message of `size` characters. `fuel` bounds the number of its
characters. -/
def fill (size : Nat) : (fuel : Nat) → Fill (List Char)
  | 0 => return []
  | fuel + 1 => do
    let filling ← get
    match filling.rest with
    | [] => return []
    | '%' :: '%' :: rest =>
      set { filling with rest }
      return '%' :: (← fill size fuel)
    | '%' :: rest =>
      set { filling with rest }
      let directive ← Directive.read
      let place := size - (← get).rest.length - 1
      let shown ← directive.shown place (← Fill.argument)
      return directive.padded shown ++ (← fill size fuel)
    | c :: rest =>
      set { filling with rest }
      return c :: (← fill size fuel)

/-- A message with arguments for its place holders. Without arguments it is taken as it is. -/
def withArguments (message : String) (arguments : List Json) : Outcome String := do
  if arguments.isEmpty then return message
  let text := message.toList
  let (filled, filling) ← (fill text.length text.length).run ⟨text, .ofList arguments⟩
  if filling.arguments.areLeft then throw Fill.argumentsLeft
  return String.ofList filled

end SpecDraft.Log
