import SpecDraft.Json.Printer
import SpecDraft.Json.Reader

/-!
# Strings read back

A string is written character by character, and the reader undoes each escape (`units_escape`). A
character that ASCII text escapes and that sixteen bits do not hold is written as two code units,
which the reader pairs up again. No other character is a surrogate, so that nothing else pairs up
(`characters_writtenUnits`).
-/
set_option autoImplicit false

namespace SpecDraft.Json.Reader

/-! ## Escapes by number -/

theorem hexValue_hexDigit : ∀ n < 16, hexValue? (Printer.hexDigit n) = some n := by decide

/-- Four hexadecimal digits hold a code unit. -/
theorem hexUnit_hexDigit {n : Nat} (h : n < 0x10000) :
    hexUnit? (Printer.hexDigit (n / 4096 % 16)) (Printer.hexDigit (n / 256 % 16))
      (Printer.hexDigit (n / 16 % 16)) (Printer.hexDigit (n % 16)) = some n := by
  have hdigit (k : Nat) : hexValue? (Printer.hexDigit (k % 16)) = some (k % 16) :=
    hexValue_hexDigit (k % 16) (Nat.mod_lt k (by decide))
  have hvalue : ((n / 4096 % 16 * 16 + n / 256 % 16) * 16 + n / 16 % 16) * 16 + n % 16 = n := by
    omega
  simp only [hexUnit?, hdigit, Option.bind_eq_bind, Option.bind_some, Option.pure_def, hvalue]

theorem units_escapeUnit {n : Nat} (h : n < 0x10000) (rest : List Char) :
    units (Printer.escapeUnit n ++ rest) =
      (units rest).map fun (us, after) => (n :: us, after) := by
  rw [Printer.escapeUnit]
  simp only [List.cons_append, List.nil_append, units, hexUnit_hexDigit h]

/-! ## Characters -/

/-- The code units by which a character is written. -/
def writtenUnits (ascii : Bool) (c : Char) : List Nat :=
  if ascii = true ∧ 0x10000 ≤ c.toNat then
    [0xD800 + (c.toNat - 0x10000) / 0x400, 0xDC00 + (c.toNat - 0x10000) % 0x400]
  else [c.toNat]

theorem writtenUnits_of_lt {ascii : Bool} {c : Char} (h : ascii = true → c.toNat < 0x10000) :
    writtenUnits ascii c = [c.toNat] :=
  if_neg fun ⟨hascii, hle⟩ => absurd (h hascii) (Nat.not_lt.mpr hle)

theorem toNat_lt (c : Char) : c.toNat < 0x110000 := by
  rcases c.valid with h | ⟨-, h⟩
  · exact Nat.lt_trans h (by decide)
  · exact h

/-- A character that is not escaped is its own code unit. -/
theorem units_plain {c : Char} (hquote : c ≠ '"') (hslash : c ≠ '\\') (hprint : 0x20 ≤ c.toNat)
    (rest : List Char) :
    units (c :: rest) = (units rest).map fun (us, after) => (c.toNat :: us, after) := by
  rw [units]
  · exact if_neg (by simp [hslash, hprint])
  all_goals simp [hquote, hslash]

/-- The escape of a character by numbers is read as its code units. -/
theorem units_escapeNumbers (c : Char) (rest : List Char) :
    units (Printer.escapeNumbers c ++ rest) =
      (units rest).map fun (us, after) => (writtenUnits true c ++ us, after) := by
  have hbound := toNat_lt c
  by_cases hsmall : c.toNat < 0x10000
  · rw [Printer.escapeNumbers, if_pos hsmall, writtenUnits_of_lt fun _ => hsmall]
    exact units_escapeUnit hsmall rest
  · have hwritten : writtenUnits true c =
        [0xD800 + (c.toNat - 0x10000) / 0x400, 0xDC00 + (c.toNat - 0x10000) % 0x400] :=
      if_pos ⟨rfl, Nat.not_lt.mp hsmall⟩
    rw [Printer.escapeNumbers, if_neg hsmall, hwritten, List.append_assoc,
      units_escapeUnit (by omega), units_escapeUnit (by omega), Option.map_map]
    rfl

/-- The reader takes an escaped character as its code units. -/
theorem units_escape (ascii : Bool) (c : Char) (rest : List Char) :
    units (Printer.escape ascii c ++ rest) =
      (units rest).map fun (us, after) => (writtenUnits ascii c ++ us, after) := by
  unfold Printer.escape
  split
  case h_8 hquote hslash _ _ _ _ _ =>
    split
    · rename_i hescaped
      -- Without `ascii`, only controls are escaped by number, and they are small.
      have hsame : writtenUnits ascii c = writtenUnits true c := by
        cases ascii with
        | true => rfl
        | false =>
          have hcontrol : c.toNat < 0x20 := by simpa using hescaped
          rw [writtenUnits_of_lt (by simp), writtenUnits_of_lt (by omega)]
      rw [hsame]
      exact units_escapeNumbers c rest
    · rename_i hkept
      simp only [not_or, not_and, Nat.not_lt, Nat.not_le] at hkept
      rw [writtenUnits_of_lt fun hascii => Nat.lt_trans (hkept.2 hascii) (by decide)]
      exact units_plain hquote hslash hkept.1 rest
  all_goals cases ascii <;> rfl

theorem units_flatMap (ascii : Bool) (cs rest : List Char) :
    units (cs.flatMap (Printer.escape ascii) ++ '"' :: rest) =
      some (cs.flatMap (writtenUnits ascii), rest) := by
  induction cs with
  | nil => rfl
  | cons c cs ih =>
    rw [List.flatMap_cons, List.append_assoc, units_escape, ih]
    rfl

/-! ## Code units paired up -/

theorem not_surrogate (c : Char) : ¬ (0xD800 ≤ c.toNat ∧ c.toNat < 0xE000) := by
  rcases c.valid with h | ⟨h, -⟩
  · exact fun ⟨hle, _⟩ => absurd h (by simpa using hle)
  · exact fun ⟨_, hlt⟩ => absurd h (by simpa [Nat.not_lt] using Nat.le_of_lt_succ hlt)

theorem characters_cons (c : Char) (us : List Nat) :
    characters (c.toNat :: us) = c :: characters us := by
  have hc := not_surrogate c
  cases us with
  | nil => simp only [characters, if_neg hc, Char.ofNat_toNat]
  | cons v us =>
    have hpair : ¬ (0xD800 ≤ c.toNat ∧ c.toNat < 0xDC00 ∧ 0xDC00 ≤ v ∧ v < 0xE000) := by
      intro ⟨hlow, hhigh, _⟩
      exact hc ⟨hlow, by omega⟩
    rw [characters, if_neg hpair, if_neg hc, Char.ofNat_toNat]

/-- The code units of a character make that character again. -/
theorem characters_writtenUnits (ascii : Bool) (c : Char) (us : List Nat) :
    characters (writtenUnits ascii c ++ us) = c :: characters us := by
  by_cases hpair : ascii = true ∧ 0x10000 ≤ c.toNat
  · have hbound := toNat_lt c
    have hvalue : 0x10000 + (0xD800 + (c.toNat - 0x10000) / 0x400 - 0xD800) * 0x400 +
        (0xDC00 + (c.toNat - 0x10000) % 0x400 - 0xDC00) = c.toNat := by
      omega
    rw [writtenUnits, if_pos hpair, List.cons_append, List.cons_append, List.nil_append,
      characters, if_pos (by omega), hvalue, Char.ofNat_toNat]
  · rw [writtenUnits, if_neg hpair]
    exact characters_cons c us

theorem characters_flatMap (ascii : Bool) (cs : List Char) :
    characters (cs.flatMap (writtenUnits ascii)) = cs := by
  induction cs with
  | nil => rfl
  | cons c cs ih => rw [List.flatMap_cons, characters_writtenUnits, ih]

/-- **Strings read back**, after their opening quote. -/
theorem string_quoted (ascii : Bool) (s : String) (rest : List Char) :
    string? (s.toList.flatMap (Printer.escape ascii) ++ '"' :: rest) = some (s, rest) := by
  rw [string?, units_flatMap, Option.map_some]
  simp only [characters_flatMap, String.ofList_toList]

end SpecDraft.Json.Reader
