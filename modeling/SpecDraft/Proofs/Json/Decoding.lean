import SpecDraft.File.Access
import SpecDraft.Proofs.Json.Characters

/-!
# Written texts decoded

The bytes of a written value decode to its text. The decoder rewrites carriage returns, so none
may stand in the text: the writer escapes them inside strings and needs them nowhere else
(`Json.return_not_mem_pretty`).
-/
set_option autoImplicit false

namespace SpecDraft

namespace Json

theorem Printer.return_not_mem_quoted (ascii : Bool) (s : String) : '\r' ∉ quoted ascii s := by
  simp only [quoted, List.mem_cons, List.mem_append, List.mem_flatMap, not_or]
  refine ⟨by decide, ?_, by decide⟩
  rintro ⟨c, -, hreturn⟩
  rcases mem_escape hreturn with hprintable | ⟨rfl, hne, -⟩
  · exact absurd hprintable (by decide)
  · exact hne rfl

theorem Printer.return_not_mem_newLine (level : Nat) : '\r' ∉ newLine level := by
  rw [newLine, List.mem_cons, not_or]
  exact ⟨by decide, fun h => absurd (List.eq_of_mem_replicate h) (by decide)⟩

/-- The indented layout breaks lines by a line feed alone. -/
theorem Layout.indented_admits_ne_return : Layout.indented.Admits (· ≠ '\r') where
  printable c hc := by
    rintro rfl
    exact absurd hc (by decide)
  quoted s c hc := by
    rintro rfl
    exact Printer.return_not_mem_quoted false s hc
  blank level c hc := by
    rintro rfl
    have hline := Printer.return_not_mem_newLine level
    simp only [List.mem_append] at hc
    rcases hc with (hc | hc) | hc
    · exact hline hc
    · exact hline hc
    · exact hline hc

theorem return_not_mem_pretty (level : Nat) (value : Json) : '\r' ∉ Printer.pretty level value := by
  rw [← written_indented level value]
  exact fun hreturn =>
    forall_mem_written Layout.indented_admits_ne_return level value '\r' hreturn rfl

end Json

theorem Text.unifyNewlines_of_not_mem {s : List Char} (h : '\r' ∉ s) : unifyNewlines s = s := by
  induction s with
  | nil => rfl
  | cons c s ih =>
    rw [List.mem_cons, not_or] at h
    rw [unifyNewlines, if_neg (Ne.symm h.1), ih h.2]
    exact fun _ heq _ => absurd heq (Ne.symm h.1)

theorem fromUTF8?_toUTF8 (s : String) : String.fromUTF8? s.toUTF8 = some s := by
  rw [String.fromUTF8?, String.toUTF8_eq_toByteArray, dif_pos s.isValidUTF8]
  rfl

/-- **The bytes of a written value decode to its text.** -/
theorem Disk.decodeText?_pretty (value : Json) :
    Disk.decodeText? value.pretty.toUTF8 = some value.pretty := by
  rw [Disk.decodeText?, fromUTF8?_toUTF8, Option.map_some, Json.pretty, String.toList_ofList,
    Text.unifyNewlines_of_not_mem (Json.return_not_mem_pretty 0 value)]

end SpecDraft
