import SpecDraft.Proofs.File.Destination
import SpecDraft.Proofs.File.Files

/-!
# Which files a writer of artifacts changes

A writer changes no file but the one that its path names (`Writer.write_sameFile`), and that one
has the extension of artifacts.
-/
set_option autoImplicit false

namespace SpecDraft.Output

section Write
variable {path : String} {target : FilePath} {place : Location}

theorem name_mem_parts (h : target.parts ≠ []) : target.name ∈ target.parts := by
  rw [Disk.parts_eq h]
  exact List.mem_append_right _ (List.mem_singleton.mpr rfl)

theorem parts_ne_nil_of_checked (h : checkedPath path = .ok target) : target.parts ≠ [] := by
  obtain ⟨-, -, ⟨-, directories, stem, ending, hparts, -⟩, -⟩ := checkedPath_iff.mp h
  rw [hparts]
  exact List.append_ne_nil_of_right_ne_nil _ (List.cons_ne_nil _ _)

/-- No double dots lead to a destination. -/
theorem no_dots_of_checked (h : checkedPath path = .ok target) : ".." ∉ target.parts := by
  obtain ⟨-, hplain, -⟩ := checkedPath_iff.mp h
  exact fun hmem => (hplain.parts ".." hmem).ne_dots rfl

/-- The temporary file of a destination has another name. -/
theorem replaceable_of_checked (h : checkedPath path = .ok target) :
    Disk.Replaceable target ("." ++ target.name ++ ".") where
  named := parts_ne_nil_of_checked h
  no_dots heq := no_dots_of_checked h (heq ▸ name_mem_parts (parts_ne_nil_of_checked h))
  temporary tail := by
    obtain ⟨-, hplain, -⟩ := checkedPath_iff.mp h
    have hname : target.name.length ≠ 0 := fun hzero =>
      (hplain.parts _ (name_mem_parts (parts_ne_nil_of_checked h))).ne_empty
        (String.length_eq_zero_iff.mp hzero)
    have hdot : ".".length = 1 := rfl
    have hdots : "..".length = 2 := rfl
    have hlong : ("." ++ target.name ++ "." ++ tail).length =
        target.name.length + 2 + tail.length := by
      simp only [String.length_append, hdot]
      omega
    refine ⟨fun heq => ?_, fun heq => ?_⟩ <;>
    · rw [heq] at hlong
      omega

/-- Putting bytes at a destination changes no other file. -/
theorem place_sameFile (h : checkedPath path = .ok target) (hplace : place ≠ target.parts)
    (bytes : ByteArray) (now : Moment) :
    Action.Keeps (Disk.SameFile place) (Output.place target bytes now) := by
  refine Action.Keeps.bind (fun _ _ _ hab hbc => Entry.SameFile.trans hab hbc)
    (Disk.makeDirectories_sameFile target.parent place) fun _ disk => ?_
  rcases hrun : (Disk.replaceFile target ("." ++ target.name ++ ".") bytes now).run disk with
    ⟨failure | _, after⟩
  · exact Disk.replaceFile_error_sameFile (replaceable_of_checked h) hrun place
  · obtain ⟨goal, hleads, hothers⟩ := Disk.replaceFile_ok_sameFile (replaceable_of_checked h) hrun
    rw [hleads.eq_parts (no_dots_of_checked h)] at hothers
    exact hothers place hplace

/-- **A writer changes no file** but the one that its path names. -/
theorem Writer.write_sameFile (writer : Writer) (content : String) (now : Moment)
    (hplace : ∀ target, checkedPath path = .ok target → place ≠ target.parts) :
    Action.Keeps (Disk.SameFile place) (writer.write path content now) := by
  have hrefl (disk : Disk) : Disk.SameFile place disk disk := Entry.SameFile.refl place disk.root
  have htrans (a b c : Disk) (hab : Disk.SameFile place a b) (hbc : Disk.SameFile place b c) :
      Disk.SameFile place a c := hab.trans hbc
  unfold write
  cases hchecked : checkedPath path with
  | error failure => exact fun disk => hrefl disk
  | ok target =>
    intro disk
    rw [Action.run_bind_of_ok (Action.run_lift _ disk)]
    refine Action.Keeps.bind htrans (.lift hrefl _) (fun bytes => ?_) disk
    refine Action.Keeps.bind htrans (.tryCatch htrans ?_ fun _ => .throw hrefl _) fun _ => ?_
    · exact place_sameFile hchecked (hplace target hchecked) bytes now
    · exact .pure hrefl _

end Write

end SpecDraft.Output
