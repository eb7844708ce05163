import SpecDraft.Proofs.File.Files
import SpecDraft.Proofs.State.Run

/-!
# Operations that are all or nothing

Whatever an operation of a store does, it either stops before anything is written or ends as its
one write ends (`Ends`). So an operation that fails changes no file and leaves none behind, at
whatever point it fails, and one that succeeds leaves the text of what it returns in the file of
the store and changes no other (`run_operation`).
-/
set_option autoImplicit false

namespace SpecDraft.Store

variable {store : Store} {session session' : Session} {state : State} {failure : Failure}
  {result : Except Failure State}

/-! ## Writing -/

theorem writeText_error_sameFile {text : String} {now : Moment} {disk disk' : Disk}
    (h : (store.writeText text now).run disk = (.error failure, disk')) (place : Location) :
    Disk.SameFile place disk disk' := by
  have hmake := Disk.makeDirectories_sameFile store.directory place
  rcases Action.run_bind_error h with hfail | ⟨_, mid, hmade, hreplace⟩
  · exact hmake.of_run hfail
  · exact Entry.SameFile.trans (hmake.of_run hmade)
      (Disk.replaceFile_error_sameFile store.file_replaceable hreplace place)

theorem writeText_ok_sameFile {text : String} {now : Moment} {disk disk' : Disk}
    (h : (store.writeText text now).run disk = (.ok (), disk')) :
    ∃ goal, disk'.Leads store.file goal ∧
      ∀ place, place ≠ goal → Disk.SameFile place disk disk' := by
  obtain ⟨_, mid, hmade, hreplace⟩ := Action.run_bind_ok h
  obtain ⟨goal, hleads, hothers⟩ := Disk.replaceFile_ok_sameFile store.file_replaceable hreplace
  refine ⟨goal, hleads, fun place hne => Entry.SameFile.trans ?_ (hothers place hne)⟩
  exact (Disk.makeDirectories_sameFile store.directory place).of_run hmade

/-- **A write that fails changes no file.** -/
theorem save_error_sameFile (h : (store.save state).run session = (.error failure, session'))
    (place : Location) : Disk.SameFile place session.disk session'.disk := by
  cases hexcess : state.toJson.excess? store.limits 0 with
  | some excess =>
    rw [run_save_of_excess hexcess] at h
    cases h
    exact Entry.SameFile.refl place session.disk.root
  | none =>
    rw [run_save hexcess] at h
    obtain ⟨hresult, rfl⟩ := Prod.mk.inj h
    exact writeText_error_sameFile (Prod.ext hresult rfl) place

/-- **A write that succeeds changes no file but that of the store.** -/
theorem save_ok_sameFile (h : (store.save state).run session = (.ok (), session')) :
    ∃ goal, session'.disk.Leads store.file goal ∧
      ∀ place, place ≠ goal → Disk.SameFile place session.disk session'.disk := by
  cases hexcess : state.toJson.excess? store.limits 0 with
  | some excess =>
    rw [run_save_of_excess hexcess] at h
    cases h
  | none =>
    rw [run_save hexcess] at h
    obtain ⟨hresult, rfl⟩ := Prod.mk.inj h
    exact writeText_ok_sameFile (Prod.ext hresult rfl)

/-! ## How operations end -/

/-- How an operation that writes a state ends, and with which disk: it stops before the write, or
it ends as the write ends. -/
inductive Ends (store : Store) (session : Session) : Except Failure State → Disk → Prop
  | stopped (failure : Failure) : Ends store session (.error failure) session.disk
  | failed {state : State} {failure : Failure} {after : Session} :
      (store.save state).run session = (.error failure, after) →
      Ends store session (.error failure) after.disk
  | saved {state : State} {after : Session} :
      (store.save state).run session = (.ok (), after) → Ends store session (.ok state) after.disk

/-- A change stops when the state cannot be read or changed, or is not valid afterwards. -/
theorem update_ends {change : State → Outcome State}
    (h : (store.update change).run session = (result, session')) :
    Ends store session result session'.disk := by
  unfold update at h
  rcases hload : store.load.run session with ⟨failure | old, mid⟩
  · rw [Action.run_bind_of_error hload] at h
    cases h
    rw [load_disk hload]
    exact .stopped failure
  obtain rfl := load_unchanged hload
  rw [Action.run_bind_of_ok hload] at h
  cases hchange : change old with
  | error failure =>
    rw [Action.run_bind_of_error ((Action.run_lift _ mid).trans (congrArg (·, mid) hchange))] at h
    cases h
    exact .stopped failure
  | ok changed =>
    rw [Action.run_bind_of_ok ((Action.run_lift _ mid).trans (congrArg (·, mid) hchange)),
      Action.run_bind_of_ok (Action.run_get _)] at h
    dsimp only at h
    split at h
    · rcases hsave : (store.save (changed.stamped mid.now)).run mid with ⟨failure | _, after⟩
      · rw [Action.run_bind_of_error hsave] at h
        cases h
        exact .failed hsave
      · rw [Action.run_bind_of_ok hsave] at h
        cases h
        exact .saved hsave
    · cases h
      exact .stopped _

theorem completeStep_ends {name said : Json}
    (h : (store.completeStep name said).run session = (result, session')) :
    Ends store session result session'.disk := by
  unfold completeStep at h
  split at h
  · rw [Action.run_bind_of_ok (Action.run_get _)] at h
    rcases hupdate : (store.update _).run session with ⟨failure | updated, mid⟩
    · rw [Action.run_bind_of_error hupdate] at h
      cases h
      exact update_ends hupdate
    · -- What is left to do is to log, which leaves the disk alone.
      rw [Action.run_bind_of_ok hupdate] at h
      cases h
      have hends : Ends store session (.ok updated) mid.disk := update_ends hupdate
      exact hends
  · cases h
    exact .stopped _

/-- Making the file writes a state only where no file is there to be read. -/
theorem ensure_ends {route : Json} (habsent : session.disk.isFile store.file ≠ .ok true)
    (h : (store.ensure route).run session = (result, session')) :
    Ends store session result session'.disk := by
  unfold ensure at h
  cases hasked : session.disk.isFile store.file with
  | error failure =>
    have hfails : store.isPresent.run session = (.error failure, session) := by
      rw [isPresent, run_askDisk, hasked]
    rw [Action.run_bind_of_error hfails] at h
    cases h
    exact .stopped failure
  | ok present =>
    rw [Action.run_bind_of_ok (isPresent_ok.mpr ⟨hasked, rfl⟩)] at h
    cases present with
    | true => exact absurd hasked habsent
    | false =>
      dsimp only at h
      rw [if_neg Bool.false_ne_true] at h
      by_cases hroute : Route.isKnown route
      · rw [if_pos hroute, Action.run_bind_of_ok (Action.run_get _)] at h
        rcases hsave : (store.save (State.fresh session.now store.directory route)).run session with
          ⟨failure | _, after⟩
        · rw [Action.run_bind_of_error hsave] at h
          cases h
          exact .failed hsave
        · rw [Action.run_bind_of_ok hsave] at h
          cases h
          have hends : Ends store session (.ok _) after.disk := .saved hsave
          exact hends
      · rw [if_neg hroute] at h
        cases h
        exact .stopped _

section Ends
variable {disk : Disk}

/-- An operation that fails changes no file. -/
theorem Ends.error (h : Ends store session (.error failure) disk) (place : Location) :
    Disk.SameFile place session.disk disk := by
  cases h with
  | stopped => exact Entry.SameFile.refl place session.disk.root
  | failed hsave => exact save_error_sameFile hsave place

/-- An operation that succeeds has written what it returns. -/
theorem Ends.ok (h : Ends store session (.ok state) disk) :
    store.Stores disk state ∧ ∃ goal, disk.Leads store.file goal ∧
      ∀ place, place ≠ goal → Disk.SameFile place session.disk disk := by
  cases h with
  | saved hsave => exact ⟨save_ok hsave, save_ok_sameFile hsave⟩

end Ends

/-! ## Operations as data -/

/-- An operation of a store: a call, or a change of the state of any kind. -/
inductive Operation where
  | call (call : Call)
  | update (change : State → Outcome State)

namespace Operation

/-- What an operation does. -/
def action (store : Store) : Operation → Action State
  | call made => made.action store
  | update change => store.update change

/-- Whether the operation makes the file if it is missing. -/
def isEnsure : Operation → Bool
  | call made => made.isEnsure
  | update _ => false

end Operation

variable {operation : Operation}

/-- An operation reads the file that was there, or ends as one that writes. -/
theorem operation_ends (h : (operation.action store).run session = (result, session')) :
    (operation.isEnsure ∧ session.disk.isFile store.file = .ok true ∧
        store.load.run session = (result, session')) ∨
      (¬ (operation.isEnsure ∧ session.disk.isFile store.file = .ok true) ∧
        Ends store session result session'.disk) := by
  cases operation with
  | update change => exact .inr ⟨fun h => Bool.false_ne_true h.1, update_ends h⟩
  | call made =>
    cases made with
    | ensure route =>
      by_cases hpresent : session.disk.isFile store.file = .ok true
      · exact .inl ⟨rfl, hpresent, (ensure_of_present hpresent).symm.trans h⟩
      · exact .inr ⟨fun h => hpresent h.2, ensure_ends hpresent h⟩
    | completeStep name said => exact .inr ⟨fun h => Bool.false_ne_true h.1, completeStep_ends h⟩
    | updateRoute route => exact .inr ⟨fun h => Bool.false_ne_true h.1, update_ends h⟩

theorem operation_keeps (h : (operation.action store).run session = (.error failure, session'))
    (place : Location) : Disk.Keeps place session.disk session'.disk := by
  cases operation with
  | update change => exact update_error h place
  | call made => exact call_error h place

/-- **An operation is all or nothing.** If it fails, at whatever point, then every place of the
disk has the same file as before or none as before, with the same bytes and the same time: nothing
has happened to the file of the store, and no temporary file is left. If it succeeds, the file of
the store holds exactly the text of the state that is returned and no other file has changed;
where the file was there and only had to be read, nothing has changed. -/
theorem run_operation (store : Store) (operation : Operation) (session : Session) :
    match (operation.action store).run session with
    | (.error _, after) =>
      (∀ place, Disk.SameFile place session.disk after.disk) ∧
        (".." ∉ store.directory.parts → ∀ content modified,
          after.disk.status store.file = .ok (.file content modified) ↔
            session.disk.status store.file = .ok (.file content modified))
    | (.ok state, after) =>
      (operation.isEnsure ∧ session.disk.isFile store.file = .ok true → after = session) ∧
        (¬ (operation.isEnsure ∧ session.disk.isFile store.file = .ok true) →
          store.Stores after.disk state ∧ ∃ goal, after.disk.Leads store.file goal ∧
            ∀ place, place ≠ goal → Disk.SameFile place session.disk after.disk) := by
  rcases hrun : (operation.action store).run session with ⟨failure | state, after⟩
  · have hsame : ∀ place, Disk.SameFile place session.disk after.disk := by
      intro place
      rcases operation_ends hrun with ⟨-, -, hload⟩ | ⟨-, hends⟩
      · rw [load_disk hload]
        exact Entry.SameFile.refl place session.disk.root
      · exact hends.error place
    refine ⟨hsame, fun hdots content modified => ?_⟩
    refine Disk.status_iff_of_sameFile (operation_keeps hrun) hsame ?_ content modified
    rw [file_eq, List.mem_append, List.mem_singleton]
    exact fun hmem => hmem.elim hdots (by decide)
  · rcases operation_ends hrun with ⟨hensure, hpresent, hload⟩ | ⟨hwrote, hends⟩
    · exact ⟨fun _ => load_unchanged hload, fun hnot => absurd ⟨hensure, hpresent⟩ hnot⟩
    · exact ⟨fun hread => absurd hread hwrote, fun _ => hends.ok⟩

end SpecDraft.Store
