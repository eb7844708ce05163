import SpecDraft.Proofs.File.Replacement

/-!
# How changes of a disk fail

A change of a disk fails only because the operating system refuses it, or because a path holds a
null character (`makeDirectories_throws`, `replaceFile_throws`).
-/
set_option autoImplicit false

namespace SpecDraft.Disk

open SpecDraft.Action (Throws)

/-- Whether a failure is one of a disk: the operating system objects, or a path holds a null
character. -/
inductive IsRefusal : Failure → Prop
  | system (error : SystemError) : IsRefusal (.system error)
  | null : IsRefusal nullInPath

section Throws
variable {path target : FilePath} {failure : Failure}

theorem IsRefusal.isOwn (h : IsRefusal failure) : failure.isOwn = false := by
  cases h <;> rfl

theorem attempt_throws (step : WriteStep) (path : FilePath) :
    Throws IsRefusal (attempt step path) := by
  refine .bind .get fun disk => ?_
  split
  · exact .throw (.system _)
  · exact .pure _

theorem locateForWriting_throws (path : FilePath) :
    Throws IsRefusal (locateForWriting path) := by
  intro disk failure disk' h
  rw [run_locateForWriting] at h
  obtain ⟨hresult, -⟩ := Prod.mk.inj h
  split at hresult
  · cases hresult
    exact .null
  · obtain ⟨cause, -, rfl⟩ := Action.mapError_error.mp hresult
    exact .system _

theorem makeDirectory_throws (path : FilePath) : Throws IsRefusal (makeDirectory path) := by
  refine .bind (locateForWriting_throws path) fun place => .bind .get fun disk => ?_
  split
  · exact .throw (.system _)
  · exact .bind (attempt_throws _ _) fun _ => .modify _

/-- A question about what is at a path is refused by the operating system alone. -/
theorem isRefusal_of_check {disk : Disk} {test : Entry → Bool}
    (h : disk.check path test = .error failure) : IsRefusal failure := by
  unfold check at h
  split at h
  · cases h
  split at h <;> cases h
  exact .system _

theorem unlessPresent_throws (path : FilePath) (h : IsRefusal failure) :
    Throws IsRefusal (unlessPresent path failure) := by
  refine .bind .get fun disk => ?_
  split
  · exact .pure _
  · exact .throw (isRefusal_of_check ‹_›)
  · exact .throw h

theorem makeDirectoriesWithin_throws (depth : Nat) (path : FilePath) :
    Throws IsRefusal (makeDirectoriesWithin depth path) := by
  induction depth generalizing path with
  | zero =>
    exact (makeDirectory_throws path).tryCatch fun _ h => unlessPresent_throws path h
  | succ depth ih =>
    refine (makeDirectory_throws path).tryCatch fun failure h => ?_
    split
    · split
      · exact .throw (.system _)
      · refine .bind (ih path.parent) fun _ => ?_
        refine (makeDirectory_throws path).tryCatch fun failure h => ?_
        split
        · exact .throw (.system _)
        · exact unlessPresent_throws path h
    · exact unlessPresent_throws path h

theorem makeDirectories_throws (path : FilePath) : Throws IsRefusal (makeDirectories path) :=
  makeDirectoriesWithin_throws _ path

theorem createFile_throws (path : FilePath) (now : Moment) :
    Throws IsRefusal (createFile path now) :=
  .bind (locateForWriting_throws path) fun _ => .bind (attempt_throws _ _) fun _ =>
    .bind (.modify _) fun _ => .pure _

theorem rename_throws (source target : FilePath) (place : Location) :
    Throws IsRefusal (rename source target place) := by
  refine .bind (locateForWriting_throws target) fun goal => .bind (attempt_throws _ _) fun _ => ?_
  refine .bind .get fun disk => .bind .get fun disk' => ?_
  split
  · exact .throw (.system _)
  · exact .throw (.system _)
  · exact .modify _

/-- **A replacement fails** only because the disk refuses it. -/
theorem replaceFile_throws (target : FilePath) (start : String) (content : ByteArray)
    (now : Moment) : Throws IsRefusal (replaceFile target start content now) := by
  refine .bind .get fun disk => .bind (createFile_throws _ now) fun place => .tryCatch ?_ ?_
  · exact .bind (attempt_throws _ _) fun _ => .bind (.modify _) fun _ =>
      .bind (attempt_throws _ _) fun _ => rename_throws _ _ _
  · exact fun failure h => .bind (.modify _) fun _ => .throw h

end Throws

end SpecDraft.Disk
