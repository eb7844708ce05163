import SpecDraft.Proofs.File.Access
import SpecDraft.Proofs.Json.Decoding
import SpecDraft.Proofs.Json.RoundTrip
import SpecDraft.Proofs.State.Change

/-!
# Reading and writing the file of a state

A state is read exactly when the file holds the text of a valid document (`load_ok`), and reading
changes nothing. Writing puts the text of the state into the file (`save_ok`) or leaves the file
as it was (`save_error`). A state that was written is read again exactly when it is valid and its
text is not larger than what is read (`load_of_stores`).
-/
set_option autoImplicit false

namespace SpecDraft.Store

variable {store : Store} {session session' : Session} {state : State} {members : Members}

/-! ## The path of the file -/

theorem file_eq (store : Store) :
    store.file = { store.directory with parts := store.directory.parts ++ [fileName] } := by
  have hparse : FilePath.parse fileName = ⟨"", [fileName]⟩ := by decide
  rw [file, FilePath.child, hparse]
  rfl

theorem name_file (store : Store) : store.file.name = fileName := by
  rw [file_eq, FilePath.name]
  simp

theorem file_replaceable (store : Store) : Disk.Replaceable store.file (fileName ++ ".") where
  named := by
    rw [file_eq]
    simp
  no_dots := by
    rw [name_file]
    decide
  temporary tail := by
    rw [name_file]
    have hlong : fileName.length < (fileName ++ "." ++ tail).length := by
      simp only [String.length_append]
      exact Nat.lt_of_lt_of_le (by decide : fileName.length < fileName.length + ".".length)
        (Nat.le_add_right _ _)
    refine ⟨fun h => ?_, fun h => ?_⟩
    · rw [h] at hlong
      exact absurd hlong (by decide)
    · rw [h] at hlong
      exact absurd hlong (Nat.lt_irrefl _)

/-! ## Questions and changes -/

theorem run_askDisk {α : Type} (question : Disk → Outcome α) (session : Session) :
    (askDisk question).run session = (question session.disk, session) := by
  unfold askDisk
  rw [Action.run_bind_of_ok (Action.run_get session)]
  cases question session.disk <;> rfl

theorem askDisk_ok {α : Type} {question : Disk → Outcome α} {answer : α} :
    (askDisk question).run session = (.ok answer, session') ↔
      question session.disk = .ok answer ∧ session' = session := by
  rw [run_askDisk, Prod.mk.injEq, eq_comm (a := session)]

/-! ## Reading -/

/-- The file holds the text of an object and is not too large to be read. -/
def Holds (store : Store) (disk : Disk) (members : Members) : Prop :=
  ∃ content modified text, disk.status store.file = .ok (.file content modified) ∧
    content.size ≤ store.limit ∧ Disk.decodeText? content = some text ∧
    Json.read store.limits text = .ok (.obj members)

/-- What a JSON file that can be read has to do with the objects it holds. -/
theorem holds_iff {disk : Disk} : store.Holds disk members ↔
    ∃ text, disk.readText store.file store.limit = .ok text ∧
      Json.read store.limits text = .ok (.obj members) := by
  simp only [Holds, Disk.readText_ok]
  constructor
  · rintro ⟨content, modified, text, hstatus, hsize, htext, hread⟩
    exact ⟨text, ⟨content, modified, hstatus, hsize, htext⟩, hread⟩
  · rintro ⟨text, ⟨content, modified, hstatus, hsize, htext⟩, hread⟩
    exact ⟨content, modified, text, hstatus, hsize, htext, hread⟩

/-- What was read is a valid document, and nothing changed. -/
theorem holds_of_load (h : store.load.run session = (.ok state, session')) :
    session' = session ∧ ∃ members, store.Holds session.disk members ∧ State.Valid members ∧
      State.Reads members state := by
  unfold load isPresent at h
  obtain ⟨present, mid, hasked, hload⟩ := Action.run_bind_ok h
  obtain rfl := (askDisk_ok.mp hasked).2
  cases present with
  | false =>
    obtain ⟨_, _, hthrow, -⟩ := Action.run_bind_ok hload
    cases hthrow
  | true =>
    obtain ⟨value, mid', hvalue, hrest⟩ := Action.run_bind_ok hload
    obtain rfl := (askDisk_ok.mp hvalue).2
    obtain ⟨text, htext, hread, -⟩ :=
      Disk.readJson_ok.mp (Action.mapError_ok.mp (askDisk_ok.mp hvalue).1)
    split at hrest
    · rename_i hviolations
      rw [Action.run_lift] at hrest
      obtain ⟨hstate, rfl⟩ := Prod.mk.inj hrest
      obtain ⟨members, rfl, hvalid⟩ := State.violations_eq_nil_iff.mp hviolations
      exact ⟨rfl, members, holds_iff.mpr ⟨text, htext, hread⟩, hvalid,
        State.reads_of_ofMembers hvalid hstate⟩
    · obtain ⟨_, _, -, hthrow⟩ := Action.run_bind_ok hrest
      cases hthrow

/-- A valid document is read. -/
theorem load_of_holds (hholds : store.Holds session.disk members) (hvalid : State.Valid members)
    (hreads : State.Reads members state) : store.load.run session = (.ok state, session) := by
  obtain ⟨content, modified, text, hstatus, hsize, htext, hread⟩ := hholds
  have hpresent : (askDisk fun disk => disk.isFile store.file).run session = (.ok true, session) :=
    askDisk_ok.mpr ⟨Disk.isFile_iff.mpr ⟨content, modified, hstatus⟩, rfl⟩
  have hvalue : (askDisk fun disk => (disk.readJson store.file store.limit store.limits).mapError
      loadFailure).run session = (.ok (.obj members), session) := by
    refine askDisk_ok.mpr
      ⟨Action.mapError_ok.mpr (Disk.readJson_ok.mpr ⟨text, ?_, hread, ?_⟩), rfl⟩
    · exact Disk.readText_ok.mpr ⟨content, modified, hstatus, hsize, htext⟩
    · exact hvalid.forbidden
  have hviolations : State.violations (.obj members) = [] :=
    State.violations_eq_nil_iff.mpr ⟨members, rfl, hvalid⟩
  unfold load isPresent
  rw [Action.run_bind_of_ok hpresent]
  dsimp only
  rw [if_pos rfl, Action.run_bind_of_ok hvalue, hviolations]
  exact (Action.run_lift _ session).trans (congrArg (·, session) hreads.ofMembers)

/-- **A state is read exactly from a valid document**, and nothing changes. -/
theorem load_ok : store.load.run session = (.ok state, session') ↔
    session' = session ∧ ∃ members, store.Holds session.disk members ∧ State.Valid members ∧
      State.Reads members state := by
  constructor
  · exact holds_of_load
  · rintro ⟨rfl, members, hholds, hvalid, hreads⟩
    exact load_of_holds hholds hvalid hreads

/-! ## Writing -/

theorem writeText_ok {text : String} {now : Moment} {disk disk' : Disk}
    (h : (store.writeText text now).run disk = (.ok (), disk')) :
    disk'.status store.file = .ok (.file text.toUTF8 now) := by
  obtain ⟨_, mid, -, hreplace⟩ := Action.run_bind_ok h
  obtain ⟨goal, hleads, hwritten⟩ := Disk.replaceFile_ok store.file_replaceable hreplace
  exact Disk.status_ok.mpr ⟨goal, hleads, hwritten.found⟩

theorem writeText_error {text : String} {now : Moment} {disk disk' : Disk} {failure : Failure}
    (h : (store.writeText text now).run disk = (.error failure, disk')) (place : Location) :
    Disk.Keeps place disk disk' := by
  have hmake := Disk.makeDirectories_keeps store.directory place
  rcases Action.run_bind_error h with hfail | ⟨_, mid, hmade, hreplace⟩
  · exact hmake.of_run hfail
  · exact Disk.Keeps.trans _ _ _ (hmake.of_run hmade)
      (Disk.replaceFile_error store.file_replaceable hreplace place)

/-- What a write does besides the file. -/
theorem run_save (h : state.toJson.excess? store.limits 0 = none) :
    (store.save state).run session =
      (((store.writeText state.toJson.pretty session.now).run session.disk).1,
        { session with
          disk := ((store.writeText state.toJson.pretty session.now).run session.disk).2 }) := by
  unfold save
  rw [h]
  rfl

theorem run_save_of_excess {excess : Json.Excess}
    (h : state.toJson.excess? store.limits 0 = some excess) :
    (store.save state).run session = (.error (.unwritable excess), session) := by
  unfold save
  rw [h]
  rfl

/-- The file holds the text of a state. -/
structure Stores (store : Store) (disk : Disk) (state : State) : Prop where
  within : state.toJson.excess? store.limits 0 = none
  status : ∃ modified, disk.status store.file = .ok (.file state.toJson.pretty.toUTF8 modified)

/-- **A write that succeeds puts the text of the state into the file.** -/
theorem save_ok (h : (store.save state).run session = (.ok (), session')) :
    store.Stores session'.disk state := by
  cases hexcess : state.toJson.excess? store.limits 0 with
  | some excess =>
    rw [run_save_of_excess hexcess] at h
    cases h
  | none =>
    rw [run_save hexcess] at h
    obtain ⟨hresult, rfl⟩ := Prod.mk.inj h
    exact ⟨hexcess, session.now, writeText_ok (Prod.ext hresult rfl)⟩

/-- **A write that fails leaves the file as it was.** -/
theorem save_error {failure : Failure}
    (h : (store.save state).run session = (.error failure, session')) (place : Location) :
    Disk.Keeps place session.disk session'.disk := by
  cases hexcess : state.toJson.excess? store.limits 0 with
  | some excess =>
    rw [run_save_of_excess hexcess] at h
    cases h
    exact Disk.Keeps.refl place session.disk
  | none =>
    rw [run_save hexcess] at h
    obtain ⟨hresult, rfl⟩ := Prod.mk.inj h
    exact writeText_error (Prod.ext hresult rfl) place

/-- A write has nothing in its way: the directory is there, the operating system refuses nothing,
and neither the file nor the temporary file meets a directory. -/
structure Ready (store : Store) (disk : Disk) : Prop where
  directory : ∃ entries, disk.status store.directory = .ok (.directory entries)
  file : Disk.Ready store.file (fileName ++ ".") disk

/-- **A write succeeds when nothing is in its way.** -/
theorem save_of_ready (h : store.Ready session.disk)
    (hexcess : state.toJson.excess? store.limits 0 = none) :
    ∃ saved, (store.save state).run session = (.ok (), saved) := by
  obtain ⟨entries, hdirectory⟩ := h.directory
  obtain ⟨disk', hreplace⟩ := Disk.replaceFile_of_ready store.file_replaceable h.file
    state.toJson.pretty.toUTF8 session.now
  have hwrite : (store.writeText state.toJson.pretty session.now).run session.disk =
      (.ok (), disk') := by
    unfold writeText
    rw [Action.run_bind_of_ok (Disk.makeDirectories_of_present hdirectory)]
    exact hreplace
  rw [run_save hexcess, hwrite]
  exact ⟨_, rfl⟩

/-- What was written is what is read, if the file is not too large. -/
theorem holds_of_stores (h : store.Stores session.disk state) (hwf : state.toJson.WellFormed) :
    store.Holds session.disk members ↔
      members = state.members ∧ state.toJson.pretty.toUTF8.size ≤ store.limit := by
  obtain ⟨modified, hstatus⟩ := h.status
  have hread := Json.read_pretty hwf h.within
  constructor
  · -- The file that is read is the one that was written.
    rintro ⟨content, modified', text, hstatus', hsize, htext, hread'⟩
    rw [hstatus] at hstatus'
    cases hstatus'
    rw [Disk.decodeText?_pretty] at htext
    cases htext
    rw [hread] at hread'
    cases hread'
    exact ⟨rfl, hsize⟩
  · rintro ⟨rfl, hsize⟩
    exact ⟨_, modified, _, hstatus, hsize, Disk.decodeText?_pretty _, hread⟩

/-- **A state that was written is read again** exactly when it is valid and the file is not too
large. -/
theorem load_of_stores (h : store.Stores session.disk state) (hproper : state.Proper) :
    store.load.run session = (.ok state, session) ↔
      State.violations state.toJson = [] ∧ state.toJson.pretty.toUTF8.size ≤ store.limit := by
  rw [load_ok, State.violations_eq_nil_iff]
  constructor
  · rintro ⟨-, members, hholds, hvalid, -⟩
    obtain ⟨rfl, hsize⟩ := (holds_of_stores h hproper.wellFormed).mp hholds
    exact ⟨⟨_, rfl, hvalid⟩, hsize⟩
  · rintro ⟨⟨_, ⟨⟩, hvalid⟩, hsize⟩
    exact ⟨rfl, _, (holds_of_stores h hproper.wellFormed).mpr ⟨rfl, hsize⟩, hvalid, hproper.reads⟩

/-! ## A store with nothing in its way -/

/-- The store of a project in a directory of the root. -/
def sample : Store where
  directory := ⟨"/", ["p"]⟩
  limit := 1000

/-- A session on a disk with nothing but the directory of the project. -/
def sampleSession : Session := .start ⟨0⟩ ⟨.directory [("p", .directory [])], fun _ _ => none⟩

/-- The state that the sample starts with. -/
def sampleFresh : State := State.fresh ⟨0⟩ sample.directory .null

theorem size_sampleFresh : sampleFresh.toJson.pretty.toUTF8.size = 366 := by decide +kernel

theorem sampleFresh_fits : sampleFresh.toJson.pretty.toUTF8.size ≤ sample.limit := by
  rw [size_sampleFresh]
  decide

theorem sample_ready : sample.Ready sampleSession.disk where
  directory := ⟨[], rfl⟩
  file := {
    refuses := fun _ _ => rfl
    temporary := ⟨["p", ".stackshift-state.json.00000000.tmp"], by decide +kernel, rfl⟩
    target := by
      refine ⟨["p", fileName], ⟨by decide +kernel, rfl⟩, fun found hfound => ?_⟩
      cases hfound }

/-- What is in the way of a store depends on its directory alone. -/
theorem Ready.of_directory {other : Store} {disk : Disk} (h : other.Ready disk)
    (hdirectory : store.directory = other.directory) : store.Ready disk := by
  have hfile : store.file = other.file := congrArg (FilePath.child · fileName) hdirectory
  exact ⟨hdirectory ▸ h.directory, hfile ▸ h.file⟩

/-- Nothing is in the way of the sample on a disk that holds nothing but its file. -/
theorem sample_ready_of_root {disk : Disk} {content : ByteArray} {modified : Moment}
    (hroot : disk.root = .directory [("p", .directory [(fileName, .file content modified)])])
    (hrefuses : ∀ step path, disk.refuses step path = none) : sample.Ready disk := by
  obtain ⟨root, refuses⟩ := disk
  dsimp only at hroot
  subst hroot
  have hbeside : Disk.temporaryBeside
      ⟨.directory [("p", .directory [(fileName, .file content modified)])], refuses⟩ sample.file
        (fileName ++ ".") = ⟨"/", ["p", ".stackshift-state.json.00000000.tmp"]⟩ := rfl
  refine ⟨⟨_, rfl⟩, hrefuses, ?_, ["p", fileName], ⟨by decide +kernel, rfl⟩, fun found hfound => ?_⟩
  · rw [hbeside]
    exact ⟨["p", ".stackshift-state.json.00000000.tmp"], by decide +kernel, rfl⟩
  · cases hfound
    rfl

end SpecDraft.Store
