/-!
# Bytes that are not UTF-8

Where a byte sequence stops being UTF-8, and the text that remains of it when every fault is
replaced. A fault covers the longest run of bytes that could still have begun a character.
-/
set_option autoImplicit false

namespace SpecDraft.Utf8

/-- What is wrong with a run of bytes. -/
inductive Defect where
  | startByte
  | continuationByte
  | endOfData
  deriving DecidableEq, Repr

namespace Defect

/-- The description of a defect. -/
def description : Defect → String
  | startByte => "invalid start byte"
  | continuationByte => "invalid continuation byte"
  | endOfData => "unexpected end of data"

end Defect

/-- The first fault of a byte sequence: its first byte, its place, how many bytes it covers and
what is wrong with them. -/
structure Fault where
  byte : UInt8
  position : Nat
  length : Nat
  defect : Defect
  deriving DecidableEq, Repr

namespace Fault

/-- A digit of a hexadecimal number. -/
def hexDigit (n : Nat) : Char := if n < 10 then Char.ofNat (48 + n) else Char.ofNat (87 + n)

/-- The report of a fault. -/
def message (fault : Fault) : String :=
  let place :=
    if fault.length = 1 then
      "byte 0x" ++ String.ofList [hexDigit (fault.byte.toNat / 16),
        hexDigit (fault.byte.toNat % 16)] ++ " in position " ++ toString fault.position
    else
      "bytes in position " ++ toString fault.position ++ "-" ++
        toString (fault.position + fault.length - 1)
  "'utf-8' codec can't decode " ++ place ++ ": " ++ fault.defect.description

end Fault

/-- What a first byte asks for: its own bits, the number of bytes to follow, and the range of
the first of them. -/
def lead? (b : UInt8) : Option (Nat × Nat × UInt8 × UInt8) :=
  if b < 0x80 then some (b.toNat, 0, 0x80, 0xBF)
  else if b < 0xC2 then none
  else if b < 0xE0 then some (b.toNat - 0xC0, 1, 0x80, 0xBF)
  else if b < 0xF0 then
    some (b.toNat - 0xE0, 2, if b = 0xE0 then 0xA0 else 0x80, if b = 0xED then 0x9F else 0xBF)
  else if b < 0xF5 then
    some (b.toNat - 0xF0, 3, if b = 0xF0 then 0x90 else 0x80, if b = 0xF4 then 0x8F else 0xBF)
  else none

/-- The bytes that continue a character: `count` of them, the first in the given range. Gives
the number of the character and the rest, or a defect and the number of bytes that were good. -/
def continued : (count : Nat) → (first last : UInt8) → (bits : Nat) → List UInt8 →
    Except (Defect × Nat) (Nat × List UInt8)
  | 0, _, _, bits, rest => .ok (bits, rest)
  | _ + 1, _, _, _, [] => .error (.endOfData, 0)
  | count + 1, first, last, bits, b :: rest =>
    if first ≤ b ∧ b ≤ last then
      match continued count 0x80 0xBF (bits * 64 + (b.toNat - 0x80)) rest with
      | .error (defect, good) => .error (defect, good + 1)
      | .ok result => .ok result
    else .error (.continuationByte, 0)

/-- Reads one character: it and the rest, or a defect and the number of bytes that it covers. -/
def next (b : UInt8) (rest : List UInt8) : Except (Defect × Nat) (Char × List UInt8) :=
  match lead? b with
  | none => .error (.startByte, 1)
  | some (bits, count, first, last) =>
    match continued count first last bits rest with
    | .error (defect, good) => .error (defect, good + 1)
    | .ok (code, rest) => .ok (Char.ofNat code, rest)

/-- The first fault from a position on. `fuel` bounds the number of bytes. -/
def faultFrom : (fuel position : Nat) → List UInt8 → Option Fault
  | 0, _, _ => none
  | _, _, [] => none
  | fuel + 1, position, b :: rest =>
    match next b rest with
    | .error (defect, length) => some ⟨b, position, length, defect⟩
    | .ok (_, after) => faultFrom fuel (position + (rest.length + 1 - after.length)) after

/-- The first fault of a byte sequence. -/
def fault? (bytes : ByteArray) : Option Fault := faultFrom bytes.size 0 bytes.toList

/-- The text of a byte sequence with a replacement character for every fault. `fuel` bounds the
number of bytes. -/
def repaired : Nat → List UInt8 → List Char
  | 0, _ => []
  | _, [] => []
  | fuel + 1, b :: rest =>
    match next b rest with
    | .error (_, length) => '\ufffd' :: repaired fuel (rest.drop (length - 1))
    | .ok (c, after) => c :: repaired fuel after

/-- The text of a byte sequence with a replacement character for every fault. -/
def repair (bytes : ByteArray) : String := String.ofList (repaired bytes.size bytes.toList)

end SpecDraft.Utf8
