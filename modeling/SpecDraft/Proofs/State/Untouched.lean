import SpecDraft.Proofs.File.Artifact
import SpecDraft.Proofs.Session.Frame
import SpecDraft.Proofs.State.Atomic

/-!
# What does not touch the file of a state

Two disks that agree on the file of a store hold the same state for it, or none
(`Untouched.load`). No artifact goes to that file, and so nothing that changes the disk through a
writer touches it (`write_within_file`).
-/
set_option autoImplicit false

namespace SpecDraft.Store

variable {store : Store} {state : State}

/-- Whether the file of a store is the same on two disks: there is none on either, or there is one
on both, with the same bytes and the same time. -/
def Untouched (store : Store) (old new : Disk) : Prop :=
  ∀ content modified, new.status store.file = .ok (.file content modified) ↔
    old.status store.file = .ok (.file content modified)

section Untouched
variable {old mid new : Disk}

theorem Untouched.refl (disk : Disk) : store.Untouched disk disk := fun _ _ => Iff.rfl

theorem Untouched.symm (h : store.Untouched old new) : store.Untouched new old :=
  fun content modified => (h content modified).symm

theorem Untouched.trans (h : store.Untouched old mid) (h' : store.Untouched mid new) :
    store.Untouched old new :=
  fun content modified => (h' content modified).trans (h content modified)

theorem Untouched.isFile_iff (h : store.Untouched old new) :
    new.isFile store.file = .ok true ↔ old.isFile store.file = .ok true := by
  simp only [Disk.isFile_iff, h _ _]

theorem Untouched.holds {members : Members} (h : store.Untouched old new)
    (hholds : store.Holds old members) : store.Holds new members := by
  obtain ⟨content, modified, text, hstatus, hrest⟩ := hholds
  exact ⟨content, modified, text, (h content modified).mpr hstatus, hrest⟩

/-- What was read of a file is read again while the file is the same. -/
theorem Untouched.load {session session' : Session}
    (h : store.Untouched session.disk session'.disk)
    (hload : store.load.run session = (.ok state, session)) :
    store.load.run session' = (.ok state, session') := by
  obtain ⟨-, members, hholds, hrest⟩ := load_ok.mp hload
  exact load_ok.mpr ⟨rfl, members, h.holds hholds, hrest⟩

/-- A state is read only where there is a file. -/
theorem isFile_of_load {session : Session} (h : store.load.run session = (.ok state, session)) :
    session.disk.isFile store.file = .ok true := by
  obtain ⟨-, _, ⟨content, modified, _, hstatus, -⟩, -⟩ := load_ok.mp h
  exact Disk.isFile_iff.mpr ⟨content, modified, hstatus⟩

end Untouched

/-! ## The place of the file -/

theorem parts_file (store : Store) :
    store.file.parts = store.directory.parts ++ [fileName] := by
  rw [file_eq]

/-- The frame of what leaves the place of the file alone. -/
def fileFrame (store : Store) : Disk.Frame where
  Holds := Disk.SameFile store.file.parts
  refl disk := Entry.SameFile.refl _ disk.root
  trans := Entry.SameFile.trans

/-- A directory that no double dots lead to keeps the file of its state at one place. -/
theorem untouched_of_sameFile {old new : Disk} (hdots : ".." ∉ store.directory.parts)
    (h : Disk.SameFile store.file.parts old new) : store.Untouched old new := by
  have hfile : ".." ∉ store.file.parts := by
    rw [parts_file, List.mem_append, List.mem_singleton]
    exact fun hmem => hmem.elim hdots (by decide)
  exact fun content modified =>
    ⟨Disk.status_of_sameFile hfile h, Disk.status_of_sameFile hfile (Entry.SameFile.symm h)⟩

/-- The name of the file does not have the extension of artifacts. -/
theorem file_ne_destination {path : String} {target : FilePath}
    (h : Output.checkedPath path = .ok target) : store.file.parts ≠ target.parts := by
  obtain ⟨-, -, ⟨-, directories, stem, ending, hparts, -, hending⟩, -⟩ :=
    Output.checkedPath_iff.mp h
  rw [parts_file, hparts]
  intro heq
  have hname : fileName = stem ++ ending :=
    List.singleton_inj.mp (List.append_inj' heq rfl).2
  have hends : ending.toList <:+ fileName.toList := by
    rw [hname, String.toList_append]
    exact List.suffix_append _ _
  exact absurd hends
    ((by decide : ∀ ending ∈ Output.extensions, ¬ ending.toList <:+ fileName.toList) _ hending)

/-- **No artifact goes to the file of a state.** -/
theorem write_within_file (store : Store) (writer : Output.Writer) (path content : String)
    (now : Moment) : Action.Keeps store.fileFrame.Holds (writer.write path content now) :=
  writer.write_sameFile content now fun _ => file_ne_destination

end SpecDraft.Store
