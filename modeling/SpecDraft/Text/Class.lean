import SpecDraft.Text.WordTable
import SpecDraft.Text.PrintTable

/-!
# Character classes

The classes of Unicode 14 that the readers of this library distinguish: blanks, decimal digits,
word characters and printable characters.
-/
set_option autoImplicit false

namespace SpecDraft.Text

/-- Whether `n` lies in one of the inclusive ranges, which are listed in increasing order. -/
def inRanges : List (Nat × Nat) → Nat → Bool
  | [], _ => false
  | (first, last) :: rest, n =>
    if n < first then false else if n ≤ last then true else inRanges rest n

/-- Blanks: the ASCII controls from tab to carriage return and from file separator to unit
separator, next line, and every space, line and paragraph separator. -/
def blankRanges : List (Nat × Nat) := [
  (9, 13), (28, 32), (133, 133), (160, 160), (5760, 5760), (8192, 8202), (8232, 8233),
  (8239, 8239), (8287, 8287), (12288, 12288)]

/-- Whether a character is a blank. -/
def isBlank (c : Char) : Bool := inRanges blankRanges c.toNat

/-- The zeros of the decimal digit runs; each run holds ten digits in order. -/
def digitZeros : List Nat := [
  48, 1632, 1776, 1984, 2406, 2534, 2662, 2790, 2918, 3046, 3174, 3302,
  3430, 3558, 3664, 3792, 3872, 4160, 4240, 6112, 6160, 6470, 6608, 6784,
  6800, 6992, 7088, 7232, 7248, 42528, 43216, 43264, 43472, 43504, 43600, 44016,
  65296, 66720, 68912, 69734, 69872, 69942, 70096, 70384, 70736, 70864, 71248, 71360,
  71472, 71904, 72016, 72784, 73040, 73120, 92768, 92864, 93008, 120782, 120792, 120802,
  120812, 120822, 123200, 123632, 125264, 130032]

/-- The value of a decimal digit of any script. -/
def digitValue? (c : Char) : Option Nat :=
  (digitZeros.find? fun first => first ≤ c.toNat && c.toNat < first + 10).map (c.toNat - ·)

/-- Whether a character is a decimal digit of any script. -/
def isDigit (c : Char) : Bool := (digitValue? c).isSome

/-- Whether a character may stand in a word: a letter, a number, or the low line. -/
def isWord (c : Char) : Bool :=
  if c.toNat < 0x3000 then inRanges wordRangesLow c.toNat else inRanges wordRangesHigh c.toNat

/-- Whether a character has a printed form of its own. -/
def isPrintable (c : Char) : Bool :=
  !(if c.toNat < 0x3000 then inRanges unprintableRangesLow c.toNat
    else inRanges unprintableRangesHigh c.toNat)

end SpecDraft.Text
