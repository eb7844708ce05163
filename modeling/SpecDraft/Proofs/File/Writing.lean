import SpecDraft.Proofs.File.Artifact

/-!
# Artifacts that are written as a whole

A write of an artifact puts all the bytes of its content at its destination and changes no other
file, or it fails and changes no file at all (`Writer.write_run`). What is refused before anything
is written leaves not even a directory behind.
-/
set_option autoImplicit false

namespace SpecDraft.Output

section Place
variable {path : String} {target : FilePath} {bytes : ByteArray} {now : Moment}
  {disk after : Disk}

/-- Bytes that cannot be put at a destination change no file. -/
theorem place_error (h : checkedPath path = .ok target) {failure : Failure}
    (hrun : (place target bytes now).run disk = (.error failure, after)) (spot : Location) :
    Disk.SameFile spot disk after := by
  have hmake := Disk.makeDirectories_sameFile target.parent spot
  rcases Action.run_bind_error hrun with hfail | ⟨_, mid, hmade, hreplace⟩
  · exact hmake.of_run hfail
  · exact Entry.SameFile.trans (hmake.of_run hmade)
      (Disk.replaceFile_error_sameFile (replaceable_of_checked h) hreplace spot)

/-- What cannot be put at a destination loses nothing. -/
theorem place_error_keeps (h : checkedPath path = .ok target) {failure : Failure}
    (hrun : (place target bytes now).run disk = (.error failure, after)) (spot : Location) :
    Disk.Keeps spot disk after := by
  have hmake := Disk.makeDirectories_keeps target.parent spot
  rcases Action.run_bind_error hrun with hfail | ⟨_, mid, hmade, hreplace⟩
  · exact hmake.of_run hfail
  · exact Disk.Keeps.trans _ _ _ (hmake.of_run hmade)
      (Disk.replaceFile_error (replaceable_of_checked h) hreplace spot)

/-- Bytes that were put at a destination are there, and no other file has changed. -/
theorem place_ok (h : checkedPath path = .ok target)
    (hrun : (place target bytes now).run disk = (.ok (), after)) :
    after.status target = .ok (.file bytes now) ∧
      ∀ spot, spot ≠ target.parts → Disk.SameFile spot disk after := by
  refine ⟨?_, fun spot hspot => (place_sameFile h hspot bytes now).of_run hrun⟩
  obtain ⟨_, mid, -, hreplace⟩ := Action.run_bind_ok hrun
  obtain ⟨goal, hleads, hwritten⟩ := Disk.replaceFile_ok (replaceable_of_checked h) hreplace
  exact Disk.status_ok.mpr ⟨goal, hleads, hwritten.found⟩

end Place

/-- The contents that may be written, and their bytes. -/
theorem checkedContent_ok {content path : String} {limit : Int} {bytes : ByteArray} :
    checkedContent content path limit = .ok bytes ↔
      Text.allBlank content.toList = false ∧ content.toList.contains '\x00' = false ∧
        content.toUTF8.size ≤ limit ∧ bytes = content.toUTF8 := by
  unfold checkedContent
  dsimp only
  rw [refuse_ok, refuse_ok]
  refine and_congr_right fun _ => and_congr_right fun _ => ?_
  split
  · rename_i hlarge
    exact ⟨fun h => (by cases h), fun ⟨hfits, _⟩ => absurd hlarge (Int.not_lt.mpr hfits)⟩
  · rename_i hfits
    refine ⟨fun h => ?_, fun ⟨_, heq⟩ => ?_⟩
    · cases h
      exact ⟨Int.not_lt.mp hfits, rfl⟩
    · rw [heq]
      rfl

namespace Writer

variable {writer : Writer} {path content : String} {now : Moment} {disk after : Disk}

/-- Whether a writer takes a content for a path: where the path leads, and the bytes. -/
structure Accepts (writer : Writer) (path content : String) (target : FilePath)
    (bytes : ByteArray) : Prop where
  path : checkedPath path = .ok target
  content : checkedContent content target.text writer.limit = .ok bytes

/-- What is not accepted is refused before anything happens. -/
theorem run_write_of_refused (h : ∀ target bytes, ¬ writer.Accepts path content target bytes) :
    ∃ failure, ∀ now disk, (writer.write path content now).run disk = (.error failure, disk) := by
  unfold write
  cases hpath : checkedPath path with
  | error failure => exact ⟨failure, fun _ _ => rfl⟩
  | ok target =>
    cases hcontent : checkedContent content target.text writer.limit with
    | error failure =>
      refine ⟨failure, fun now disk => ?_⟩
      rw [Action.run_bind_of_ok (Action.run_lift _ disk), hcontent]
      exact Action.run_bind_of_error (Action.run_lift _ disk)
    | ok bytes => exact absurd ⟨hpath, hcontent⟩ (h target bytes)

/-- What is accepted is put at its destination; a failure to do so is reported as one to write. -/
theorem run_write {target : FilePath} {bytes : ByteArray}
    (h : writer.Accepts path content target bytes) (now : Moment) (disk : Disk) :
    (writer.write path content now).run disk =
      match (place target bytes now).run disk with
      | (.ok _, after) => (.ok ⟨target.text, bytes.size, Digest.hexText bytes⟩, after)
      | (.error failure, after) => (.error (writeFailure target failure), after) := by
  unfold write
  rw [h.path, Action.run_bind_of_ok (Action.run_lift _ disk), h.content,
    Action.run_bind_of_ok (Action.run_lift _ disk)]
  rcases hplace : (place target bytes now).run disk with ⟨failure | _, after⟩
  · rw [Action.run_bind_of_error (by rw [Action.run_tryCatch, hplace]; rfl)]
  · rw [Action.run_bind_of_ok (by rw [Action.run_tryCatch, hplace])]
    rfl

/-- **A write of an artifact is all or nothing.** For every path, content and limit, and whatever
steps the operating system refuses: when the write fails, every file on the disk is as it was, the
one under the path and the temporary one included, and when the path or the content was not
accepted, the disk is as it was. When it succeeds, the path leads to a file with exactly the bytes
of the content in UTF-8, the report tells their number, which is at most the limit, and their
checksum, and no other file has changed. -/
theorem write_run (writer : Writer) (path content : String) (now : Moment) (disk : Disk) :
    match (writer.write path content now).run disk with
    | (.error _, after) =>
      (∀ spot, Disk.SameFile spot disk after) ∧
        (∀ target, checkedPath path = .ok target → ∀ bytes modified,
          after.status target = .ok (.file bytes modified) ↔
            disk.status target = .ok (.file bytes modified)) ∧
        ((∀ target bytes, ¬ writer.Accepts path content target bytes) → after = disk)
    | (.ok written, after) => ∃ target, writer.Accepts path content target content.toUTF8 ∧
        after.status target = .ok (.file content.toUTF8 now) ∧
        written = ⟨path, content.toUTF8.size, Digest.hexText content.toUTF8⟩ ∧
        (written.size : Int) ≤ writer.limit ∧
        ∀ spot, spot ≠ target.parts → Disk.SameFile spot disk after := by
  by_cases haccepts : ∃ target bytes, writer.Accepts path content target bytes
  · obtain ⟨target, bytes, haccepts⟩ := haccepts
    obtain ⟨-, -, hsize, rfl⟩ := checkedContent_ok.mp haccepts.content
    rw [run_write haccepts]
    rcases hplace : (place target content.toUTF8 now).run disk with ⟨failure | _, after⟩
    · have hsame := place_error haccepts.path hplace
      refine ⟨hsame, fun target' htarget' bytes modified => ?_, fun hrefused => ?_⟩
      · cases haccepts.path.symm.trans htarget'
        exact Disk.status_iff_of_sameFile (place_error_keeps haccepts.path hplace) hsame
          (no_dots_of_checked haccepts.path) bytes modified
      · exact absurd haccepts (hrefused _ _)
    · obtain ⟨hstatus, hothers⟩ := place_ok haccepts.path hplace
      have htext : target.text = path := (checkedPath_iff.mp haccepts.path).1
      exact ⟨target, haccepts, hstatus, by rw [htext], hsize, hothers⟩
  · have hrefused : ∀ target bytes, ¬ writer.Accepts path content target bytes :=
      fun target bytes h => haccepts ⟨target, bytes, h⟩
    obtain ⟨failure, hrun⟩ := run_write_of_refused hrefused
    rw [hrun]
    exact ⟨fun spot => Entry.SameFile.refl spot disk.root, fun _ _ _ _ => Iff.rfl, fun _ => rfl⟩

end Writer
end SpecDraft.Output
