import SpecDraft.Proofs.State.Recompletion
import SpecDraft.Proofs.Workflow.Commands
import SpecDraft.Proofs.Workflow.Generation
import SpecDraft.Proofs.Workflow.Places

/-!
# Noting the step once more

After everything was made, the step that creates specifications is noted as done where there is a
state that can be read. When it is noted once more, that goes as it went before, and the file of the
state differs in the two times at most (`noteGeneration_again`). The route of the project is the same
before and after (`routeIn_noted`).
-/
set_option autoImplicit false

namespace SpecDraft

/-- The frame of files that are written at some places. -/
def Disk.growing (anchor : String) (places : Set Location) : Disk.Frame where
  Holds := Disk.Grows anchor places
  refl := .refl anchor places
  trans := .trans

namespace Workflow.Project

open Disk

section Noting
variable {project : Project} {reports : Finished} {done : Bool} {session after later : Session}

/-- Whatever noting the step does, it writes at most the file of the state. -/
theorem noteGeneration_grows (hroot : project.root.Plain) {result : Except Failure Bool}
    (h : (project.noteGeneration reports).run session = (result, after)) :
    Grows project.root.anchor {project.store.file.parts} session.disk after.disk := by
  have hwrite (text : String) (now : Moment) :
      (growing project.root.anchor {project.store.file.parts}).law.OfAction
        (onDisk (project.store.writeText text now)) := by
    rw [Store.writeText_eq]
    exact Frame.law_onDisk (install_grows project.store.file_replaceable (state_no_dots hroot) _ now)
  exact (Frame.law_run (noteGeneration_law hwrite reports) h).disk

/-! ## How noting goes -/

/-- A state that cannot be read is not completed. -/
theorem completion_of_unreadable {failure : Failure}
    (h : project.store.stateIn session.disk = .error failure) :
    ∃ after, (project.completion reports).run session = (.error failure, after) ∧
      session.Alike after := by
  obtain ⟨after, hload, halike⟩ := project.store.load_asks session
  rw [h] at hload
  refine ⟨after, (Action.run_bind_of_ok (Action.run_get session)).trans ?_, halike⟩
  exact Action.run_bind_of_error (Action.run_bind_of_error hload)

theorem stateIn_of_load {state : State}
    (h : project.store.load.run session = (.ok state, after)) :
    project.store.stateIn session.disk = .ok state := by
  obtain ⟨after', hload, -⟩ := project.store.load_asks session
  exact congrArg Prod.fst (hload.symm.trans h)

/-- Whether the step cannot be noted, for there is no file or none that can be read. -/
def Unnotable (project : Project) (disk : Disk) : Prop :=
  disk.isFile project.store.file = .ok false ∨ disk.isFile project.store.file = .ok true ∧
    ∃ failure, project.store.stateIn disk = .error failure ∧ failure.isOwn = true

/-- Where the step cannot be noted, nothing is done. -/
theorem noteGeneration_of_unnotable (h : project.Unnotable session.disk) :
    ∃ after, (project.noteGeneration reports).run session = (.ok false, after) ∧
      after.disk = session.disk := by
  rcases h with habsent | ⟨hfile, failure, hstate, hown⟩
  · have hpresent : project.store.isPresent.run session = (.ok false, session) :=
      Store.isPresent_ok.mpr ⟨habsent, rfl⟩
    exact ⟨session, Action.run_bind_of_ok hpresent, rfl⟩
  · obtain ⟨completed, hrun, halike⟩ := completion_of_unreadable hstate
    obtain ⟨after, hdisk, hnote⟩ := run_noteGeneration hfile hrun
    rw [noted, if_pos hown] at hnote
    exact ⟨after, hnote, hdisk.trans halike.disk⟩

/-- **The step is noted, or it cannot be noted.** -/
theorem noteGeneration_cases
    (h : (project.noteGeneration reports).run session = (.ok done, after)) :
    (done = false ∧ project.Unnotable session.disk ∧ after.disk = session.disk) ∨
      (done = true ∧ ∃ state completed, (project.completion reports).run session =
        (.ok state, completed) ∧ after.disk = completed.disk) := by
  by_cases hnote : project.Unnotable session.disk
  · obtain ⟨after', hrun, hdisk⟩ := noteGeneration_of_unnotable hnote
    cases h.symm.trans hrun
    exact .inl ⟨rfl, hnote, hdisk⟩
  obtain ⟨present, mid, hpresent, -⟩ := Action.run_bind_ok h
  obtain ⟨hfile, -⟩ := Store.isPresent_ok.mp hpresent
  cases present with
  | false => exact absurd (.inl hfile) hnote
  | true =>
    rcases hrun : (project.completion reports).run session with ⟨result, completed⟩
    obtain ⟨after', hdisk, hnoted⟩ := run_noteGeneration hfile hrun
    cases result with
    | ok state =>
      cases h.symm.trans hnoted
      exact .inr ⟨rfl, state, completed, rfl, hdisk⟩
    | error failure =>
      -- A failure of this library's own is one to read the state.
      rw [h, noted] at hnoted
      split at hnoted
      · rename_i hown
        refine absurd (.inr ⟨hfile, failure, ?_, hown⟩) hnote
        obtain ⟨after'', hload, -⟩ := project.store.load_asks session
        cases hstate : project.store.stateIn session.disk with
        | error cause =>
          obtain ⟨_, hrun', -⟩ := completion_of_unreadable hstate
          cases hrun.symm.trans hrun'
          rfl
        | ok old =>
          rw [hstate] at hload
          obtain rfl := Store.load_unchanged hload
          have hforeign := Store.completeStep_foreign hload rfl (details_wellFormed reports) hrun
          rw [hown] at hforeign
          cases hforeign
      · cases hnoted

/-! ## Once more -/

/-- How the file of the state differs after its step was noted at another moment: it looks the same,
or it holds the same state with the two times of the other moment. -/
def Renoted (project : Project) (old : Disk) (first : Moment) (new : Disk) (later : Moment) : Prop :=
  new.look project.store.file.parts = old.look project.store.file.parts ∨
    ∃ state : State, project.store.Stores old state ∧
      project.store.Stores new (state.retimed .createSpecs later) ∧
      state.retimed .createSpecs first = state

theorem details_plainly (reports : Finished) : State.Plainly reports.details where
  distinct := (by decide : ["specs_generated", "plans_generated"].Nodup)
  completed := (by decide : "completed" ∉ ["specs_generated", "plans_generated"])
  status := (by decide : "status" ∉ ["specs_generated", "plans_generated"])

/-- **Noting the step once more**, after artifacts were written, goes as it went before. No other
file is touched. -/
theorem noteGeneration_again (hroot : project.root.Plain)
    (h : (project.noteGeneration reports).run session = (.ok done, after))
    (hhere : after.disk.sight project.root.parts = some (.directory []))
    (hlater : Grows project.root.anchor project.artifacts after.disk later.disk)
    (hfits : project.store.Fits after.disk) :
    ∃ last, (project.noteGeneration reports).run later = (.ok done, last) ∧
      (∀ spot, spot ≠ project.store.file.parts → last.disk.look spot = later.disk.look spot) ∧
      project.Renoted after.disk session.now last.disk later.now := by
  have hspares := @spares_state project
  have hfile := hlater.beside hspares.goal.1 hspares.goal.2
  rcases noteGeneration_cases h with ⟨rfl, hnote, hdisk⟩ | ⟨rfl, state, completed, hrun, hdisk⟩
  · obtain ⟨hisFile, hstate⟩ := state_congr hroot hlater hhere
    have hnote' : project.Unnotable later.disk := by
      rwa [Unnotable, hisFile, hstate, hdisk]
    obtain ⟨last, hlast, hsame⟩ := @noteGeneration_of_unnotable project reports _ hnote'
    exact ⟨last, hlast, fun spot _ => by rw [hsame], .inl (by rw [hsame]; exact look_congr hfile)⟩
  · obtain ⟨_, _, _, _, _, _, _, _, hstores⟩ := Store.completeStep_ok hrun
    rw [hdisk] at hlater hfits
    obtain ⟨again, hagain, hreplaces, hself⟩ := Store.completeStep_again hroot.no_dots rfl
      (details_wellFormed reports) (details_plainly reports) hrun hlater hspares
      (hstores.size_le hfits)
    obtain ⟨_, _, _, _, hload, _, _, _, hstores'⟩ := Store.completeStep_ok hagain
    obtain ⟨last, hsame, hlast⟩ := run_noteGeneration (Store.isFile_of_load hload) hagain
    refine ⟨last, hlast, fun spot hspot => ?_, .inr ⟨state, hdisk ▸ hstores, hsame ▸ hstores', hself⟩⟩
    rw [hsame]
    refine look_congr ((hreplaces.sight spot).trans ?_)
    exact if_neg hspot

/-- The route of the project is the same after the step was noted. -/
theorem routeIn_noted (h : (project.noteGeneration reports).run session = (.ok done, after))
    (hfits : project.store.Fits after.disk) (given : Json) :
    project.routeIn given after.disk = project.routeIn given session.disk := by
  rcases noteGeneration_cases h with ⟨-, -, hdisk⟩ | ⟨-, state, completed, hrun, hdisk⟩
  · rw [hdisk]
  obtain ⟨step, old, record, -, hload, hrecord, hstate, hvalid, hstores⟩ :=
    Store.completeStep_ok hrun
  have hproper : state.Proper := by
    rw [hstate]
    exact State.stamped_proper (State.complete_proper (Store.proper_of_load hload) step
      (Store.saidOf_wellFormed (details_wellFormed reports) hrecord) _) _
  have hload' : project.store.load.run completed = (.ok state, completed) :=
    (Store.load_of_stores hstores hproper).mpr ⟨hvalid, hstores.size_le (hdisk ▸ hfits)⟩
  have hroute : state.route = old.route := by
    rw [hstate]
    rfl
  unfold routeIn
  rw [hdisk, Store.isFile_of_load hload, Store.isFile_of_load hload', stateIn_of_load hload,
    stateIn_of_load hload']
  split
  · exact congrArg Except.ok hroute
  · rfl

end Noting
end Workflow.Project
end SpecDraft
