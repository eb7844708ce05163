/-!
# SHA-256

The 256-bit digest of a sequence of bytes, and its hexadecimal text.
-/
set_option autoImplicit false

namespace SpecDraft.Digest

/-- The round constants. -/
def roundConstants : List UInt32 := [
  0x428a2f98, 0x71374491, 0xb5c0fbcf, 0xe9b5dba5, 0x3956c25b, 0x59f111f1, 0x923f82a4, 0xab1c5ed5,
  0xd807aa98, 0x12835b01, 0x243185be, 0x550c7dc3, 0x72be5d74, 0x80deb1fe, 0x9bdc06a7, 0xc19bf174,
  0xe49b69c1, 0xefbe4786, 0x0fc19dc6, 0x240ca1cc, 0x2de92c6f, 0x4a7484aa, 0x5cb0a9dc, 0x76f988da,
  0x983e5152, 0xa831c66d, 0xb00327c8, 0xbf597fc7, 0xc6e00bf3, 0xd5a79147, 0x06ca6351, 0x14292967,
  0x27b70a85, 0x2e1b2138, 0x4d2c6dfc, 0x53380d13, 0x650a7354, 0x766a0abb, 0x81c2c92e, 0x92722c85,
  0xa2bfe8a1, 0xa81a664b, 0xc24b8b70, 0xc76c51a3, 0xd192e819, 0xd6990624, 0xf40e3585, 0x106aa070,
  0x19a4c116, 0x1e376c08, 0x2748774c, 0x34b0bcb5, 0x391c0cb3, 0x4ed8aa4a, 0x5b9cca4f, 0x682e6ff3,
  0x748f82ee, 0x78a5636f, 0x84c87814, 0x8cc70208, 0x90befffa, 0xa4506ceb, 0xbef9a3f7, 0xc67178f2]

/-- The eight words of a running digest. -/
structure Words where
  a : UInt32
  b : UInt32
  c : UInt32
  d : UInt32
  e : UInt32
  f : UInt32
  g : UInt32
  h : UInt32

/-- The words before the first block. -/
def Words.start : Words :=
  ⟨0x6a09e667, 0xbb67ae85, 0x3c6ef372, 0xa54ff53a, 0x510e527f, 0x9b05688c, 0x1f83d9ab, 0x5be0cd19⟩

/-- Rotation to the right. -/
def rotate (x : UInt32) (n : UInt32) : UInt32 := (x >>> n) ||| (x <<< (32 - n))

/-- The sixty-four words that sixteen words of a block expand to. -/
def expand (block : Array UInt32) : Array UInt32 :=
  (List.range 48).foldl (fun words i =>
    let w15 := words.getD (i + 1) 0
    let w2 := words.getD (i + 14) 0
    let s0 := rotate w15 7 ^^^ rotate w15 18 ^^^ (w15 >>> 3)
    let s1 := rotate w2 17 ^^^ rotate w2 19 ^^^ (w2 >>> 10)
    words.push (words.getD i 0 + s0 + words.getD (i + 9) 0 + s1)) block

/-- One round. -/
def round (w : Words) (constant word : UInt32) : Words :=
  let s1 := rotate w.e 6 ^^^ rotate w.e 11 ^^^ rotate w.e 25
  let choice := (w.e &&& w.f) ^^^ ((~~~ w.e) &&& w.g)
  let t1 := w.h + s1 + choice + constant + word
  let s0 := rotate w.a 2 ^^^ rotate w.a 13 ^^^ rotate w.a 22
  let majority := (w.a &&& w.b) ^^^ (w.a &&& w.c) ^^^ (w.b &&& w.c)
  ⟨t1 + s0 + majority, w.a, w.b, w.c, w.d + t1, w.e, w.f, w.g⟩

/-- The words after a block of sixteen words. -/
def compress (w : Words) (block : Array UInt32) : Words :=
  let r := ((roundConstants.zip (expand block).toList).foldl
    (fun w (constant, word) => round w constant word) w)
  ⟨w.a + r.a, w.b + r.b, w.c + r.c, w.d + r.d, w.e + r.e, w.f + r.f, w.g + r.g, w.h + r.h⟩

/-- Four bytes as a word, the first byte highest. -/
def word (bytes : ByteArray) (i : Nat) : UInt32 :=
  let byte (j : Nat) : UInt32 := ((bytes[i + j]?).getD 0).toUInt32
  (byte 0 <<< 24) ||| (byte 1 <<< 16) ||| (byte 2 <<< 8) ||| byte 3

/-- The bytes followed by a set bit, zeros, and the length in bits in the last eight bytes of a
block. -/
def padded (bytes : ByteArray) : ByteArray :=
  let bits := bytes.size * 8
  let zeros := (119 - bytes.size % 64) % 64
  let tail := (0x80 : UInt8) :: List.replicate zeros 0 ++
    (List.range 8).map fun i => UInt8.ofNat (bits / Nat.pow 256 (7 - i))
  tail.foldl ByteArray.push bytes

/-- The digest of a sequence of bytes. -/
def sha256 (bytes : ByteArray) : Words :=
  let message := padded bytes
  (List.range (message.size / 64)).foldl (fun w block =>
    compress w ((List.range 16).map fun i => word message (block * 64 + i * 4)).toArray) .start

/-- The digit of a value below sixteen. -/
def hexDigit (n : Nat) : Char := if n < 10 then Char.ofNat (48 + n) else Char.ofNat (87 + n)

/-- The eight hexadecimal digits of a word. -/
def hexWord (w : UInt32) : List Char :=
  (List.range 8).map fun i => hexDigit (w.toNat / Nat.pow 16 (7 - i) % 16)

/-- The digest as sixty-four hexadecimal digits. -/
def hexText (bytes : ByteArray) : String :=
  let w := sha256 bytes
  String.ofList ([w.a, w.b, w.c, w.d, w.e, w.f, w.g, w.h].flatMap hexWord)

end SpecDraft.Digest
