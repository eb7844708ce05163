import SpecDraft.Proofs.Json.Layout
import SpecDraft.Proofs.Json.Numeral

/-!
# The characters of written values

What holds of the characters of numbers, of strings and of the blanks in a layout holds of every
text in that layout (`forall_mem_written`). Numbers are printable ASCII, and so are strings that
escape everything else, which makes the line of a value printable ASCII all over
(`printable_compact`): nothing in it can end the line.
-/
set_option autoImplicit false

namespace SpecDraft

/-- The characters of ASCII from the blank to the tilde. -/
def Printable (c : Char) : Prop := 0x20 ≤ c.toNat ∧ c.toNat < 0x7F

instance (c : Char) : Decidable (Printable c) := inferInstanceAs (Decidable (_ ∧ _))

/-- The characters of a known text are tested one by one. -/
theorem printable_of_all {s : List Char} (h : s.all (fun c => decide (Printable c)) = true) :
    ∀ c ∈ s, Printable c := by
  simpa only [List.all_eq_true, decide_eq_true_eq] using h

theorem Printable.of_isDigit {c : Char} (h : c.isDigit = true) : Printable c := by
  rw [Char.isDigit, Bool.and_eq_true, decide_eq_true_iff, decide_eq_true_iff] at h
  have hlow : 48 ≤ c.toNat := h.1
  have hhigh : c.toNat ≤ 57 := h.2
  constructor <;> omega

namespace Decimal

/-! ## Numbers -/

theorem printable_digits {ds : List Char} (h : ∀ c ∈ ds, c.isDigit = true) :
    ∀ c ∈ ds, Printable c :=
  fun c hc => .of_isDigit (h c hc)

theorem printable_digitText (n : Nat) : ∀ c ∈ (digitText n).toList, Printable c := by
  rw [Json.Reader.toList_digitText]
  exact printable_digits Json.Reader.isDigit_of_mem_toDigits

theorem printable_zeros (n : Nat) : ∀ c ∈ (zeros n).toList, Printable c := by
  rw [Json.Reader.toList_zeros]
  exact printable_digits Json.Reader.isDigit_of_mem_zeros

theorem printable_withExponent {text : List Char} (h : ∀ c ∈ text, Printable c) (exponent : Int) :
    ∀ c ∈ (withExponent text exponent .fractional).toList, Printable c := by
  have hfirst : ∀ c ∈ text.take 1, Printable c := fun c hc => h c (List.mem_of_mem_take hc)
  have hrest : ∀ c ∈ text.drop 1, Printable c := fun c hc => h c (List.mem_of_mem_drop hc)
  have hpower : ∀ c ∈ Json.Reader.powerDigits exponent.natAbs, Printable c :=
    printable_digits Json.Reader.isDigit_of_mem_powerDigits
  rw [Json.Reader.toList_withExponent]
  simp only [List.forall_mem_append, List.forall_mem_cons]
  refine ⟨hfirst, ?_, by decide, ?_, hpower⟩
  · split
    · exact List.forall_mem_nil _
    · exact List.forall_mem_cons.mpr ⟨by decide, hrest⟩
  · split <;> decide

theorem printable_positional (d : Decimal) :
    ∀ c ∈ (d.positional .fractional).toList, Printable c := by
  have htext := printable_digitText d.digits
  unfold positional
  dsimp only
  split
  · simp only [String.toList_append, List.forall_mem_append]
    exact ⟨⟨printable_of_all (by decide), printable_zeros _⟩, htext⟩
  split
  · simp only [String.toList_append, List.forall_mem_append]
    exact ⟨⟨htext, printable_zeros _⟩, printable_of_all (by decide)⟩
  · simp only [String.toList_append, String.toList_ofList, List.forall_mem_append]
    exact ⟨⟨fun c hc => htext c (List.mem_of_mem_take hc), printable_of_all (by decide)⟩,
      fun c hc => htext c (List.mem_of_mem_drop hc)⟩

theorem printable_layout (d : Decimal) (limit : Int) :
    ∀ c ∈ (d.layout limit .fractional).toList, Printable c := by
  unfold layout
  dsimp only
  split
  · exact printable_withExponent (printable_digitText d.digits) _
  · exact printable_positional d

end Decimal

namespace Json.Printer

/-- An integer is written with digits, and perhaps with a sign in front. -/
theorem isDigit_of_mem_int {n : Int} {c : Char} (h : c ∈ int n) : c.isDigit = true ∨ c = '-' := by
  rw [int, Int.toString_eq_repr] at h
  cases n with
  | ofNat n => exact .inl (Reader.isDigit_of_mem_toDigits (n := n) c (by simpa [Int.repr] using h))
  | negSucc n =>
    have hsigned : c = '-' ∨ c ∈ Nat.toDigits 10 (n + 1) := by simpa [Int.repr] using h
    exact hsigned.symm.imp_left (Reader.isDigit_of_mem_toDigits c)

theorem printable_int (n : Int) : ∀ c ∈ int n, Printable c := by
  intro c hc
  rcases isDigit_of_mem_int hc with hdigit | rfl
  · exact .of_isDigit hdigit
  · decide

theorem printable_real (x : Binary64) : ∀ c ∈ real x, Printable c := by
  cases x with
  | nan => exact printable_of_all (by decide)
  | infinity negative => cases negative <;> exact printable_of_all (by decide)
  | finite negative units =>
    rw [real, Binary64.shortest, Binary64.textWith]
    · rw [String.toList_append, Reader.toList_signText, List.forall_mem_append]
      refine ⟨by cases negative <;> exact printable_of_all (by decide), ?_⟩
      split
      · exact printable_of_all (by decide)
      · exact Decimal.printable_layout _ 16
    all_goals simp

/-! ## Strings -/

theorem printable_hexDigit : ∀ n < 16, Printable (hexDigit n) := by decide

theorem printable_escapeUnit (unit : Nat) : ∀ c ∈ escapeUnit unit, Printable c := by
  have hdigit (n : Nat) : Printable (hexDigit (n % 16)) :=
    printable_hexDigit (n % 16) (Nat.mod_lt n (by decide))
  simp only [escapeUnit, List.forall_mem_cons]
  exact ⟨by decide, by decide, hdigit _, hdigit _, hdigit _, hdigit _, List.forall_mem_nil _⟩

theorem printable_escapeNumbers (c : Char) : ∀ d ∈ escapeNumbers c, Printable d := by
  unfold escapeNumbers
  split
  · exact printable_escapeUnit c.toNat
  · exact List.forall_mem_append.mpr ⟨printable_escapeUnit _, printable_escapeUnit _⟩

/-- A character that is kept as it is stands for itself. All others are escaped in printable
ASCII. -/
theorem mem_escape {ascii : Bool} {c d : Char} (h : d ∈ escape ascii c) :
    Printable d ∨ d = c ∧ c ≠ '\r' ∧ 0x20 ≤ c.toNat ∧ (ascii = true → c.toNat < 0x7F) := by
  unfold escape at h
  split at h
  case h_8 hreturn _ _ _ =>
    split at h
    · exact .inl (printable_escapeNumbers c d h)
    · rename_i hkept
      obtain rfl := List.mem_singleton.mp h
      simp only [not_or, not_and, Nat.not_lt, Nat.not_le] at hkept
      exact .inr ⟨rfl, hreturn, hkept⟩
  all_goals exact .inl (printable_of_all (by decide) d h)

theorem printable_quoted (s : String) : ∀ c ∈ quoted true s, Printable c := by
  simp only [quoted, List.forall_mem_cons, List.forall_mem_append, List.mem_flatMap]
  refine ⟨by decide, ?_, by decide, List.forall_mem_nil _⟩
  rintro d ⟨c, -, hd⟩
  rcases mem_escape hd with hprintable | ⟨rfl, -, hlow, hhigh⟩
  · exact hprintable
  · exact ⟨hlow, hhigh rfl⟩

end Json.Printer

namespace Json

/-! ## Values -/

/-- Whether a property of characters holds of all that a layout writes: the tokens, the numbers,
the strings and the blanks. -/
structure Layout.Admits (layout : Layout) (p : Char → Prop) : Prop where
  printable : ∀ c, Printable c → p c
  quoted : ∀ s, ∀ c ∈ Printer.quoted layout.ascii s, p c
  blank : ∀ level, ∀ c ∈ layout.opening level ++ layout.between level ++ layout.closing level, p c

section Written
variable {layout : Layout} {p : Char → Prop}

theorem Layout.Admits.opening (h : layout.Admits p) (level : Nat) :
    ∀ c ∈ layout.opening level, p c :=
  fun c hc => h.blank level c (List.mem_append_left _ (List.mem_append_left _ hc))

theorem Layout.Admits.between (h : layout.Admits p) (level : Nat) :
    ∀ c ∈ layout.between level, p c :=
  fun c hc => h.blank level c (List.mem_append_left _ (List.mem_append_right _ hc))

theorem Layout.Admits.closing (h : layout.Admits p) (level : Nat) :
    ∀ c ∈ layout.closing level, p c :=
  fun c hc => h.blank level c (List.mem_append_right _ hc)

/-- A token is printable. -/
theorem Layout.Admits.token (h : layout.Admits p) {s : List Char}
    (hs : ∀ c ∈ s, Printable c) : ∀ c ∈ s, p c :=
  fun c hc => h.printable c (hs c hc)

mutual

/-- **What a layout admits** holds of every character of a value written in it. -/
theorem forall_mem_written (h : layout.Admits p) (level : Nat) :
    ∀ v, ∀ c ∈ written layout level v, p c
  | .null => h.token (s := "null".toList) (printable_of_all (by decide))
  | .bool true => h.token (s := "true".toList) (printable_of_all (by decide))
  | .bool false => h.token (s := "false".toList) (printable_of_all (by decide))
  | .int n => h.token (Printer.printable_int n)
  | .real x => h.token (Printer.printable_real x)
  | .str s => h.quoted s
  | .arr [] => h.token (s := "[]".toList) (printable_of_all (by decide))
  | .arr (item :: items) => by
    simp only [written, List.forall_mem_cons, List.forall_mem_append]
    exact ⟨h.printable _ (by decide), h.opening _, forall_mem_written h _ item,
      forall_mem_writtenItems h _ items, h.closing _, h.printable _ (by decide),
      List.forall_mem_nil _⟩
  | .obj [] => h.token (s := ['{', '}']) (printable_of_all (by decide))
  | .obj ((key, value) :: members) => by
    simp only [written, List.forall_mem_cons, List.forall_mem_append]
    exact ⟨h.printable _ (by decide), h.opening _, h.quoted key, h.printable _ (by decide),
      h.printable _ (by decide), forall_mem_written h _ value,
      forall_mem_writtenMembers h _ members, h.closing _, h.printable _ (by decide),
      List.forall_mem_nil _⟩

theorem forall_mem_writtenItems (h : layout.Admits p) (level : Nat) :
    ∀ items, ∀ c ∈ writtenItems layout level items, p c
  | [] => List.forall_mem_nil _
  | item :: items => by
    simp only [writtenItems, List.forall_mem_cons, List.forall_mem_append]
    exact ⟨h.printable _ (by decide), h.between _, forall_mem_written h _ item,
      forall_mem_writtenItems h _ items⟩

theorem forall_mem_writtenMembers (h : layout.Admits p) (level : Nat) :
    ∀ members, ∀ c ∈ writtenMembers layout level members, p c
  | [] => List.forall_mem_nil _
  | (key, value) :: members => by
    simp only [writtenMembers, List.forall_mem_cons, List.forall_mem_append]
    exact ⟨h.printable _ (by decide), h.between _, h.quoted key, h.printable _ (by decide),
      h.printable _ (by decide), forall_mem_written h _ value,
      forall_mem_writtenMembers h _ members⟩

end

end Written

theorem Layout.oneLine_admits_printable : Layout.oneLine.Admits Printable where
  printable _ hc := hc
  quoted := Printer.printable_quoted
  blank _ := printable_of_all (s := [' ']) (by decide)

/-- **The line of a value** is printable ASCII. -/
theorem printable_compact (value : Json) : ∀ c ∈ value.compact.toList, Printable c := by
  rw [compact, String.toList_ofList, ← written_oneLine 0]
  exact forall_mem_written Layout.oneLine_admits_printable 0 value

end Json
end SpecDraft
