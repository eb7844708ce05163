import SpecDraft.File.Access
import SpecDraft.Proofs.File.Replacement

/-!
# Reading files

When the text of a file and the value of a JSON file are returned, and what they are then.
-/
set_option autoImplicit false

namespace SpecDraft.Disk

variable {disk : Disk} {path : FilePath}

/-- A test for a file succeeds where a file is found. -/
theorem isFile_iff : disk.isFile path = .ok true ↔
    ∃ content modified, disk.status path = .ok (.file content modified) := by
  unfold isFile check status
  split
  · exact ⟨fun h => (by cases h), fun ⟨_, _, h⟩ => (by cases h)⟩
  · cases disk.entry? path with
    | ok entry =>
      cases entry with
      | file content modified => exact ⟨fun _ => ⟨content, modified, rfl⟩, fun _ => rfl⟩
      | directory entries => exact ⟨fun h => (by cases h), fun ⟨_, _, h⟩ => (by cases h)⟩
    | error cause =>
      refine ⟨fun h => ?_, fun ⟨_, _, h⟩ => (by cases h)⟩
      cases cause <;> cases h

theorem readText_ok {limit : Int} {text : String} : disk.readText path limit = .ok text ↔
    ∃ content modified, disk.status path = .ok (.file content modified) ∧
      content.size ≤ limit ∧ decodeText? content = some text := by
  unfold readText
  rw [Action.bind_ok]
  constructor
  · rintro ⟨entry, hstatus, h⟩
    dsimp only at h
    split at h
    · cases h
    · rename_i hsize
      cases entry with
      | directory entries => cases h
      | file content modified =>
        refine ⟨content, modified, Action.mapError_ok.mp hstatus, not_lt.mp hsize, ?_⟩
        dsimp only at h
        split at h
        · cases h
          assumption
        · cases h
  · rintro ⟨content, modified, hstatus, hsize, htext⟩
    refine ⟨.file content modified, Action.mapError_ok.mpr hstatus, ?_⟩
    have hfits : ¬ limit < ((Entry.file content modified).size : Int) := not_lt.mpr hsize
    dsimp only
    rw [if_neg hfits, htext]
    rfl

/-- The text of a file is refused for its size, or as no text. -/
theorem readText_error {content : ByteArray} {modified : Moment} {limit : Int} {failure : Failure}
    (hstatus : disk.status path = .ok (.file content modified))
    (h : disk.readText path limit = .error failure) :
    if limit < content.size then failure = fileTooLarge path content.size limit
    else failure = fileNotText path content := by
  unfold readText at h
  rcases Action.bind_error.mp h with hfailed | ⟨entry, hentry, h⟩
  · rw [hstatus] at hfailed
    cases hfailed
  · rw [hstatus] at hentry
    cases hentry
    dsimp only at h
    by_cases hsize : limit < content.size
    · have hlarge : limit < ((Entry.file content modified).size : Int) := hsize
      rw [if_pos hlarge] at h
      rw [if_pos hsize]
      cases h
      rfl
    · have hfits : ¬ limit < ((Entry.file content modified).size : Int) := hsize
      rw [if_neg hfits] at h
      rw [if_neg hsize]
      split at h
      · cases h
      · cases h
        rfl

theorem readJson_ok {limit : Int} {limits : Json.Limits} {value : Json} :
    disk.readJson path limit limits = .ok value ↔
      ∃ text, disk.readText path limit = .ok text ∧ Json.read limits text = .ok value ∧
        forbiddenIn (value.members?.getD []) = [] := by
  unfold readJson
  simp only [Action.bind_ok, Action.mapError_ok]
  constructor
  · rintro ⟨text, htext, value', hvalue, h⟩
    split at h
    · cases h
      exact ⟨text, htext, hvalue, ‹_›⟩
    · cases h
  · rintro ⟨text, htext, hvalue, hkeys⟩
    refine ⟨text, htext, value, hvalue, ?_⟩
    rw [hkeys]
    rfl

end SpecDraft.Disk
