import SpecDraft.Proofs.State.Completion
import SpecDraft.Proofs.State.Untouched
import SpecDraft.Proofs.Workflow.Stages
import SpecDraft.Workflow.Command

/-!
# Generating everything stage by stage

The stages are performed in their order up to the first one that fails (`run_runStages`), and none
of them touches the file of the state (`Performed.within`). The step that creates specifications
is noted as done only after all of them (`noteGeneration_ok`), and so the report and the file of
the state are what `generateAll_run` says.
-/
set_option autoImplicit false

namespace SpecDraft.Workflow

/-! ## Reports -/

/-- The stages in the order in which they are performed. -/
def Stage.all : List Stage := [.constitution, .specifications, .plans]

/-- The command that performs a stage for a route. -/
def Stage.command (route : Json) : Stage → Command
  | .constitution => .createConstitution route .null
  | .specifications => .createSpecifications route
  | .plans => .createPlans route

/-- Whether a report tells of success. -/
def Succeeds (report : Members) : Prop := report.get? "success" = some (.bool true)

/-- Whether a report tells of a failure. -/
def Fails (report : Members) : Prop := report.get? "success" = some (.bool false)

/-- The notes in a report. -/
def notesIn (report : Members) : List Json :=
  ((report.get? "progress").bind Json.items?).getD []

/-- Reports of stages by the names of the stages. -/
def byName (reports : List (Stage × Members)) : Members :=
  reports.map fun (stage, report) => (stage.name, .obj report)

/-- The notes of several stages, one after the other. -/
def allNotes (reports : List (Stage × Members)) : List Json :=
  reports.flatMap fun (_, report) => notesIn report

/-- The reports of the stages that were tried. -/
def Stages.reports (stages : Stages) : List (Stage × Members) :=
  [(.constitution, stages.constitution.constitutionMembers)] ++
  (stages.specifications.map fun ended =>
    (Stage.specifications, ended.specificationMembers)).toList ++
  (stages.plans.map fun ended => (Stage.plans, ended.planMembers)).toList

section Reports

theorem notesIn_constitution (ended : Ended ConstitutionReport) :
    notesIn ended.constitutionMembers = ended.progress.map (·.toJson) := by
  rcases ended with ⟨_ | _, _⟩ <;> rfl

theorem notesIn_specifications (ended : Ended SpecificationReport) :
    notesIn ended.specificationMembers = ended.progress.map (·.toJson) := by
  rcases ended with ⟨_ | _, _⟩ <;> rfl

theorem notesIn_plans (ended : Ended PlanReport) :
    notesIn ended.planMembers = ended.progress.map (·.toJson) := by
  rcases ended with ⟨_ | _, _⟩ <;> rfl

theorem Stages.members_eq (stages : Stages) : stages.members = byName stages.reports := by
  obtain ⟨_, _ | _, _ | _⟩ := stages <;> rfl

theorem Stages.notes_eq (stages : Stages) : stages.notes = .arr (allNotes stages.reports) := by
  obtain ⟨_, _ | _, _ | _⟩ := stages <;>
  simp [Stages.notes, Stages.notesOf, Stages.reports, allNotes, notesIn_constitution,
    notesIn_specifications, notesIn_plans]

end Reports

namespace Project

/-! ## Performing stages -/

/-- Stages that are performed one after the other, each with what it reports. -/
inductive Performed (project : Project) (route : Json) :
    List (Stage × Members) → Session → Session → Prop
  | nil (session : Session) : Performed project route [] session session
  | cons {stage : Stage} {report : Members} {rest : List (Stage × Members)}
      {before mid after : Session} :
      (project.answer (stage.command route)).run before = (.ok (.obj report), mid) →
      Performed project route rest mid after →
      Performed project route ((stage, report) :: rest) before after

section Performed
variable {project : Project} {route : Json} {reports : List (Stage × Members)}
  {before after : Session} {law : Effect.Law}

/-- A stage changes the disk through the writer of its project alone. -/
theorem answer_stage_law
    (hwrite : ∀ path content now, law.OfAction (onDisk (project.writer.write path content now)))
    (stage : Stage) : law.OfAction (project.answer (stage.command route)) := by
  cases stage with
  | constitution =>
    exact .bind (.effect (createConstitution_law hwrite route .null)) fun _ => .pure _
  | specifications =>
    exact .bind (.effect (createSpecifications_law hwrite route)) fun _ => .pure _
  | plans => exact .bind (.effect (createPlans_law hwrite route)) fun _ => .pure _

/-- **No stage touches the file of the state**, by induction on the stages. -/
theorem Performed.within (h : Performed project route reports before after) :
    project.store.fileFrame.Keeps before after := by
  induction h with
  | nil session => exact .refl _ session
  | @cons stage _ _ _ _ _ hstage _ ih =>
    have hlaw : project.store.fileFrame.law.OfAction (project.answer (stage.command route)) :=
      answer_stage_law (fun path content now => Disk.Frame.law_onDisk
        (project.store.write_within_file project.writer path content now)) stage
    exact (Disk.Frame.law_run hlaw hstage).trans ih

/-! ## The run through the stages -/

theorem answer_constitution {ended : Ended ConstitutionReport}
    (h : (project.createConstitution route .null).run before = (ended, after)) :
    (project.answer (Stage.constitution.command route)).run before =
      (.ok (.obj ended.constitutionMembers), after) :=
  Action.run_bind_of_ok (Effect.run_lift h)

theorem answer_specifications {ended : Ended SpecificationReport}
    (h : (project.createSpecifications route).run before = (ended, after)) :
    (project.answer (Stage.specifications.command route)).run before =
      (.ok (.obj ended.specificationMembers), after) :=
  Action.run_bind_of_ok (Effect.run_lift h)

theorem answer_plans {ended : Ended PlanReport}
    (h : (project.createPlans route).run before = (ended, after)) :
    (project.answer (Stage.plans.command route)).run before =
      (.ok (.obj ended.planMembers), after) :=
  Action.run_bind_of_ok (Effect.run_lift h)

/-- Whether the last report tells of a failure and each one before it of success. -/
def FailsLast (reports : List (Stage × Members)) : Prop :=
  ∃ earlier last, reports = earlier ++ [last] ∧ (∀ pair ∈ earlier, Succeeds pair.2) ∧ Fails last.2

/-- Whether each stage is reported, with success. -/
structure AllSucceed (reports : List (Stage × Members)) : Prop where
  stages : reports.map Prod.fst = Stage.all
  success : ∀ pair ∈ reports, Succeeds pair.2

/-- How many specifications and plans there are, as the reports say. -/
def countsIn (reports : List (Stage × Members)) : Members :=
  reports.flatMap fun (_, report) =>
    report.filter fun member => ["specs_generated", "plans_generated"].contains member.1

/-- What comes of the stages that were tried. -/
inductive Tried (stages : Stages) : Prop
  | stopped {stage : Stage} {failure : Failure} : stages.failed? = some (stage, failure) →
      stages.reports.map Prod.fst <+: Stage.all → FailsLast stages.reports → Tried stages
  | finished {reports : Finished} : stages.failed? = none → stages.finished? = some reports →
      AllSucceed stages.reports → reports.details = countsIn stages.reports → Tried stages

/-- **The stages are performed in their order up to the first one that fails.** -/
theorem run_runStages {stages : Stages}
    (h : (project.runStages route).run before = (stages, after)) :
    Performed project route stages.reports before after ∧ Tried stages := by
  unfold runStages at h
  rcases hfirst : (project.createConstitution route .null).run before with ⟨⟨first, notes⟩, mid⟩
  rw [Effect.run_bind hfirst] at h
  cases first with
  | error failure =>
    cases h
    refine ⟨.cons (answer_constitution hfirst) (.nil _), .stopped rfl ⟨_, rfl⟩ ?_⟩
    refine ⟨[], _, rfl, ?_, rfl⟩
    exact fun _ hmem => absurd hmem List.not_mem_nil
  | ok constitution =>
    rcases hsecond : (project.createSpecifications route).run mid with ⟨⟨second, notes'⟩, mid'⟩
    rw [show (!Ended.succeeded ⟨.ok constitution, notes⟩) = false from rfl,
      if_neg Bool.false_ne_true, Effect.run_bind hsecond] at h
    cases second with
    | error failure =>
      cases h
      refine ⟨.cons (answer_constitution hfirst)
        (.cons (answer_specifications hsecond) (.nil _)), .stopped rfl ⟨_, rfl⟩ ?_⟩
      exact ⟨[_], _, rfl, List.forall_mem_singleton.mpr rfl, rfl⟩
    | ok specifications =>
      rcases hthird : (project.createPlans route).run mid' with ⟨⟨third, notes''⟩, mid''⟩
      rw [show (!Ended.succeeded ⟨.ok specifications, notes'⟩) = false from rfl,
        if_neg Bool.false_ne_true, Effect.run_bind hthird] at h
      cases h
      refine ⟨.cons (answer_constitution hfirst)
        (.cons (answer_specifications hsecond) (.cons (answer_plans hthird) (.nil _))), ?_⟩
      cases third with
      | error failure =>
        refine .stopped rfl ⟨_, rfl⟩ ⟨[_, _], _, rfl, ?_, rfl⟩
        exact List.forall_mem_cons.mpr ⟨rfl, List.forall_mem_singleton.mpr rfl⟩
      | ok plans =>
        refine .finished rfl rfl ⟨rfl, ?_⟩ rfl
        exact List.forall_mem_cons.mpr
          ⟨rfl, List.forall_mem_cons.mpr ⟨rfl, List.forall_mem_singleton.mpr rfl⟩⟩

end Performed

/-! ## Noting the step -/

/-- Completes the step that creates specifications, with what the reports tell of. -/
def completion (project : Project) (reports : Finished) : Action State :=
  project.store.completeStep (.str Step.createSpecs.id) (.obj reports.details)

/-- Whether there is a file with a state that can be read. -/
def Readable (project : Project) (session : Session) : Prop :=
  ∃ old, project.store.load.run session = (.ok old, session)

/-- Whether the step that creates specifications is noted: there was a file with a state that could
be read, and now the file holds that state with the step completed. -/
def StepNoted (project : Project) (before : Session) (after : Disk) (record : Members) : Prop :=
  before.disk.isFile project.store.file = .ok true ∧
    ∃ old, project.store.load.run before = (.ok old, before) ∧
      project.store.Stores after
        ((old.complete .createSpecs record before.now).stamped before.now)

section Note
variable {project : Project} {reports : Finished} {record : Members}
  {session session' after : Session}

/-- The same is noted from a session with the same time and the same file. -/
theorem StepNoted.of_untouched (hnow : session'.now = session.now)
    (huntouched : project.store.Untouched session.disk session'.disk) {disk : Disk}
    (h : StepNoted project session disk record) : StepNoted project session' disk record := by
  obtain ⟨hfile, old, hload, hstores⟩ := h
  refine ⟨huntouched.isFile_iff.mpr hfile, old, huntouched.load hload, ?_⟩
  rwa [hnow]

theorem StepNoted.readable {disk : Disk} (h : StepNoted project session disk record) :
    Readable project session := by
  obtain ⟨-, old, hload, -⟩ := h
  exact ⟨old, hload⟩

theorem details_wellFormed (reports : Finished) : (Json.obj reports.details).WellFormed :=
  Members.wellFormed_obj.mpr
    ⟨(by decide : ["specs_generated", "plans_generated"].Nodup),
      List.forall_mem_cons.mpr ⟨trivial, List.forall_mem_singleton.mpr trivial⟩⟩

/-- A step that is completed is noted. -/
theorem StepNoted.of_completion {state : State}
    (h : (project.completion reports).run session = (.ok state, after)) :
    StepNoted project session after.disk reports.details := by
  obtain ⟨step, old, record, hstep, hload, hrecord, rfl, -, hstores⟩ := Store.completeStep_ok h
  cases hstep
  cases hrecord
  exact ⟨Store.isFile_of_load hload, old, hload, hstores⟩

/-- A step that cannot be completed leaves the file as it is. -/
theorem untouched_of_completion (hroot : ".." ∉ project.root.parts) {failure : Failure}
    (h : (project.completion reports).run session = (.error failure, after)) :
    project.store.Untouched session.disk after.disk :=
  Store.untouched_of_sameFile hroot ((Store.completeStep_ends h).error _)

/-- What noting the step comes to, for how completing it went: a failure that is none of this
library's own is passed on. -/
def noted : Except Failure State → Outcome Bool
  | .ok _ => .ok true
  | .error failure => if failure.isOwn then .ok false else .error failure

/-- Where there is a file, noting the step is an attempt to complete it. -/
theorem run_noteGeneration (hfile : session.disk.isFile project.store.file = .ok true)
    {result : Except Failure State} {completed : Session}
    (h : (project.completion reports).run session = (result, completed)) :
    ∃ after, after.disk = completed.disk ∧
      (project.noteGeneration reports).run session = (noted result, after) := by
  have hpresent : project.store.isPresent.run session = (.ok true, session) :=
    Store.isPresent_ok.mpr ⟨hfile, rfl⟩
  have hattempt : (attempted (project.store.completeStep (.str Step.createSpecs.id)
      (.obj reports.details))).run session = (.ok result, completed) := Effect.run_lift h
  unfold noteGeneration
  rw [Action.run_bind_of_ok hpresent]
  dsimp only
  rw [if_pos rfl, Action.run_bind_of_ok hattempt]
  cases result with
  | ok state => exact ⟨_, (Event.report_quiet _ _ completed).disk, rfl⟩
  | error failure =>
    rw [noted]
    dsimp only
    by_cases hown : failure.isOwn
    · rw [if_pos hown, if_pos hown]
      exact ⟨_, (Event.failed_quiet _ _ _ completed).disk, rfl⟩
    · rw [if_neg hown, if_neg hown]
      exact ⟨completed, rfl, rfl⟩

/-- **The step is noted, or there is no state that can be read and the file stays as it is.** -/
theorem noteGeneration_ok (hroot : ".." ∉ project.root.parts) {done : Bool}
    (h : (project.noteGeneration reports).run session = (.ok done, after)) :
    (done = true ∧ StepNoted project session after.disk reports.details) ∨
      (done = false ∧ ¬ Readable project session ∧
        project.store.Untouched session.disk after.disk) := by
  by_cases hfile : session.disk.isFile project.store.file = .ok true
  · rcases hrun : (project.completion reports).run session with ⟨result, completed⟩
    obtain ⟨after', hdisk, hnote⟩ := run_noteGeneration hfile hrun
    rw [hnote] at h
    cases result with
    | ok state =>
      cases h
      exact .inl ⟨rfl, hdisk ▸ .of_completion hrun⟩
    | error failure =>
      rw [noted] at h
      split at h <;> cases h
      rename_i hown
      refine .inr ⟨rfl, fun ⟨old, hload⟩ => ?_, hdisk ▸ untouched_of_completion hroot hrun⟩
      -- A state that can be read is completed, or the failure is none of this library's own.
      have hforeign := Store.completeStep_foreign hload rfl (details_wellFormed reports) hrun
      rw [hown] at hforeign
      cases hforeign
  · obtain ⟨present, mid, hpresent, hrest⟩ := Action.run_bind_ok h
    obtain ⟨hasked, rfl⟩ := Store.isPresent_ok.mp hpresent
    cases present with
    | true => exact absurd hasked hfile
    | false =>
      cases hrest
      exact .inr ⟨rfl, fun ⟨_, hload⟩ => hfile (Store.isFile_of_load hload), .refl _⟩

/-- **Where noting the step fails**, the failure is none of this library's own, and the file stays
as it is. -/
theorem noteGeneration_error (hroot : ".." ∉ project.root.parts) {failure : Failure}
    (h : (project.noteGeneration reports).run session = (.error failure, after)) :
    failure.isOwn = false ∧ project.store.Untouched session.disk after.disk := by
  rcases Action.run_bind_error h with hasked | ⟨present, mid, hpresent, hrest⟩
  · rw [Store.isPresent, Store.run_askDisk] at hasked
    obtain ⟨hfailure, rfl⟩ := Prod.mk.inj hasked
    exact ⟨(Disk.isRefusal_of_check hfailure).isOwn, .refl _⟩
  obtain ⟨hfile, rfl⟩ := Store.isPresent_ok.mp hpresent
  cases present with
  | false => cases hrest
  | true =>
    rcases hrun : (project.completion reports).run mid with ⟨result, completed⟩
    obtain ⟨after', hdisk, hnote⟩ := run_noteGeneration hfile hrun
    rw [hnote] at h
    cases result with
    | ok state => cases h
    | error cause =>
      rw [noted] at h
      split at h <;> cases h
      exact ⟨Bool.eq_false_iff.mpr ‹_›, hdisk ▸ untouched_of_completion hroot hrun⟩

end Note

/-! ## The whole run -/

section Generate
variable {project : Project} {route : Json} {stages : Stages} {before performed after : Session}

theorem run_generate_of_stopped {stage : Stage} {failure : Failure}
    (hstages : (project.runStages route).run before = (stages, performed))
    (hfailed : stages.failed? = some (stage, failure)) :
    (project.generate route).run before = (.ok (.stopped stages stage failure), performed) := by
  unfold generate
  rw [Action.run_bind_of_ok (Effect.run_lift hstages), hfailed]
  rfl

theorem run_generate_of_finished {reports : Finished}
    (hstages : (project.runStages route).run before = (stages, performed))
    (hfailed : stages.failed? = none) (hfinished : stages.finished? = some reports) :
    (project.generate route).run before =
      match (project.noteGeneration reports).run performed with
      | (.ok done, after) => (.ok (.finished stages reports done), after)
      | (.error failure, after) => (.error failure, after) := by
  unfold generate
  rw [Action.run_bind_of_ok (Effect.run_lift hstages), hfailed, hfinished]
  dsimp only
  rcases hnote : (project.noteGeneration reports).run performed with ⟨failure | done, after⟩
  · exact Action.run_bind_of_error hnote
  · exact Action.run_bind_of_ok hnote

theorem run_generateAll_of_ok {generation : Generation}
    (h : (project.generate route).run before = (.ok generation, after)) :
    ∃ duration timed, (project.generateAll route).run before =
      (.ok (.obj (generation.members duration)), timed) ∧ timed.disk = after.disk := by
  rcases htimed : (project.generateAll route).run before with ⟨result, timed⟩
  obtain ⟨mid, hrun, halike⟩ := Action.run_timed htimed
  rw [Action.run_bind_of_ok h] at hrun
  cases hrun
  exact ⟨_, timed, rfl, halike.disk⟩

theorem run_generateAll_of_error {failure : Failure}
    (h : (project.generate route).run before = (.error failure, after)) :
    ∃ timed, (project.generateAll route).run before = (.error failure, timed) ∧
      timed.disk = after.disk := by
  rcases htimed : (project.generateAll route).run before with ⟨result, timed⟩
  obtain ⟨mid, hrun, halike⟩ := Action.run_timed htimed
  rw [Action.run_bind_of_error h] at hrun
  cases hrun
  exact ⟨timed, rfl, halike.disk⟩

/-- What a report on stages of which the last one failed says, and what was done: nothing after
that stage. -/
structure Stops (project : Project) (before performed after : Disk)
    (tried : List (Stage × Members)) (report : Members) : Prop where
  success : Fails report
  failed : FailsLast tried
  results : report.get? "partial_results" = some (.obj (byName tried))
  disk : after = performed
  state : project.store.Untouched before after

/-- What a report on stages that all succeeded says, and what became of the state. -/
structure Finishes (project : Project) (before : Session) (after : Disk)
    (tried : List (Stage × Members)) (report : Members) : Prop where
  success : Succeeds report
  all : AllSucceed tried
  results : report.get? "details" = some (.obj (byName tried))
  step : ∃ done, report.get? "step_completed" = some (.bool done) ∧
    (done = true ↔ StepNoted project before after (countsIn tried)) ∧
    (done = false → ¬ Readable project before ∧ project.store.Untouched before.disk after)

/-- **Everything is made stage by stage**, and the step that creates specifications is completed
only when every stage succeeded. The stages that are tried are the first ones in their order, and
the report holds their notes one after the other. Where it tells of a failure, the last stage that
was tried failed and no other, nothing was done after it, and the file of the state is as it was.
Where it tells of success, every stage succeeded, and it says that the step is completed exactly
when there was a state that could be read and the file now holds that state with the step
completed; else there was none, and the file is as it was. There is no report only where the file
could not be asked for or written after all stages, and that leaves it as it was, too. The root of
a project is a resolved path, which holds no double dots (`FilePath.dots_not_mem_resolve`). -/
theorem generateAll_run (hroot : ".." ∉ project.root.parts) (route : Json) (before : Session) :
    ∃ tried performed, Performed project route tried before performed ∧
      tried.map Prod.fst <+: Stage.all ∧
      match (project.generateAll route).run before with
      | (.ok report, after) => ∃ members : Members, report = .obj members ∧
        members.get? "progress" = some (.arr (allNotes tried)) ∧
        (Stops project before.disk performed.disk after.disk tried members ∨
          Finishes project before after.disk tried members)
      | (.error failure, after) => AllSucceed tried ∧ failure.isOwn = false ∧
        project.store.Untouched before.disk after.disk := by
  rcases hstages : (project.runStages route).run before with ⟨stages, performed⟩
  obtain ⟨hperformed, htried⟩ := run_runStages hstages
  have hnow : performed.now = before.now := hperformed.within.now
  have hkept : project.store.Untouched before.disk performed.disk :=
    Store.untouched_of_sameFile hroot hperformed.within.disk
  refine ⟨stages.reports, performed, hperformed, ?_⟩
  cases htried with
  | stopped hfailed horder hlast =>
    obtain ⟨duration, after, hrun, hdisk⟩ :=
      run_generateAll_of_ok (run_generate_of_stopped hstages hfailed)
    rw [hrun]
    exact ⟨horder, _, rfl, congrArg some stages.notes_eq, .inl {
      success := rfl
      failed := hlast
      results := congrArg (some ∘ Json.obj) stages.members_eq
      disk := hdisk
      state := hdisk ▸ hkept }⟩
  | @finished reports hnone hfinished hall hcounts =>
    refine ⟨hall.stages ▸ List.prefix_rfl, ?_⟩
    have hgenerate := run_generate_of_finished hstages hnone hfinished
    rcases hnote : (project.noteGeneration reports).run performed with ⟨failure | done, noting⟩ <;>
    rw [hnote] at hgenerate
    · obtain ⟨after, hrun, hdisk⟩ := run_generateAll_of_error hgenerate
      obtain ⟨hforeign, huntouched⟩ := noteGeneration_error hroot hnote
      rw [hrun]
      exact ⟨hall, hforeign, hdisk ▸ hkept.trans huntouched⟩
    · obtain ⟨duration, after, hrun, hdisk⟩ := run_generateAll_of_ok hgenerate
      rw [hrun]
      refine ⟨_, rfl, congrArg some stages.notes_eq, .inr
        ⟨rfl, hall, congrArg (some ∘ Json.obj) stages.members_eq, done, rfl, ?_⟩⟩
      rw [← hcounts, hdisk]
      rcases noteGeneration_ok hroot hnote with ⟨rfl, hnoted⟩ | ⟨rfl, hunreadable, huntouched⟩
      · have hbefore := hnoted.of_untouched hnow.symm hkept.symm
        exact ⟨iff_of_true rfl hbefore, fun hfalse => (by cases hfalse)⟩
      · have hbefore : ¬ Readable project before :=
          fun ⟨old, hload⟩ => hunreadable ⟨old, hkept.load hload⟩
        refine ⟨iff_of_false Bool.false_ne_true fun hnoted => ?_, fun _ => ?_⟩
        · exact hbefore hnoted.readable
        · exact ⟨hbefore, hkept.trans huntouched⟩

end Generate

/-- The project in the directory of the sample store. -/
def sample : Project := ⟨FilePath.resolve ⟨"/", []⟩ ⟨"", ["p"]⟩, .standard, []⟩

/-- There is nothing that a constitution could be made from. -/
theorem sample_constitution_fails :
    ((sample.createConstitution (.str "greenfield") .null).run Store.sampleSession).1.succeeded =
      false := by
  decide +kernel

/-- The constitution is made first, and so not every stage of the sample succeeds. -/
theorem sample_not_allSucceed {tried : List (Stage × Members)} {performed : Session}
    (h : Performed sample (.str "greenfield") tried Store.sampleSession performed) :
    ¬ AllSucceed tried := by
  intro hall
  cases h with
  | nil => cases hall.stages
  | cons hstage _ =>
    cases (List.cons.inj hall.stages).1
    rcases hmade : (sample.createConstitution (.str "greenfield") .null).run Store.sampleSession
      with ⟨⟨_ | made, notes⟩, mid⟩
    · have hreport := hstage.symm.trans (answer_constitution hmade)
      cases hreport
      have hsuccess : some (Json.bool false) = some (.bool true) :=
        hall.success _ List.mem_cons_self
      cases hsuccess
    · have hfails := sample_constitution_fails
      rw [hmade] at hfails
      cases hfails

theorem generateAll_run_sample : ".." ∉ sample.root.parts ∧ ∃ report tried performed after,
    (sample.generateAll (.str "greenfield")).run Store.sampleSession = (.ok (.obj report), after) ∧
      Performed sample (.str "greenfield") tried Store.sampleSession performed ∧
      Stops sample Store.sampleSession.disk performed.disk after.disk tried report := by
  have hroot : ".." ∉ sample.root.parts := FilePath.dots_not_mem_resolve _ _
  obtain ⟨tried, performed, hperformed, hrest⟩ :=
    generateAll_run hroot (.str "greenfield") Store.sampleSession
  have hfails := sample_not_allSucceed hperformed
  rcases hrun : (sample.generateAll (.str "greenfield")).run Store.sampleSession with
    ⟨failure | report, after⟩ <;>
  rw [hrun] at hrest
  · exact absurd hrest.2.1 hfails
  · obtain ⟨-, members, rfl, -, hstops | hfinishes⟩ := hrest
    · exact ⟨hroot, members, tried, performed, after, rfl, hperformed, hstops⟩
    · exact absurd hfinishes.all hfails

end Project
end SpecDraft.Workflow
