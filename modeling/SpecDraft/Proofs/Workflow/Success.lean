import SpecDraft.Proofs.Json.Decoding
import SpecDraft.Proofs.Markdown.Heading
import SpecDraft.Proofs.Workflow.Generation
import SpecDraft.Proofs.Workflow.Hooks
import SpecDraft.Proofs.Workflow.Making

/-!
# What a stage did when it succeeded

A stage that succeeded found a route and the documents, and made its artifacts from them
(`createSpecifications_ok`, `createPlans_ok`), or the constitution (`createConstitution_ok`). What it
asked was answered by the disk that it found, and nothing was done to the disk but what the artifacts
needed.
-/
set_option autoImplicit false

namespace SpecDraft.Workflow

/-! ## Jobs that succeeded -/

/-- How performing a job ends, for how the job ended: its failure is the last note. -/
def Ended.of {α : Type} (ended : Except Failure α × Trace) : Ended α where
  outcome := ended.1
  progress := ended.2.progress ++
    match ended.1 with
    | .ok _ => []
    | .error failure => [.ofFailure failure]

theorem Ended.exists_of_succeeded {α : Type} {ended : Ended α} (h : ended.succeeded = true) :
    ∃ x notes, ended = ⟨.ok x, notes⟩ := by
  obtain ⟨failure | x, notes⟩ := ended
  · cases h
  · exact ⟨x, notes, rfl⟩

/-- A trace with one more note. -/
def Trace.noted (trace : Trace) (note : Progress) : Trace :=
  { trace with progress := trace.progress ++ [note] }

namespace Job

/-- Whether a job gives a result, and has noted what a trace says, between two sessions. What
operations do not see of these is left open. -/
def Gives {α : Type} (job : Job α) (trace : Trace) (before : Session) (x : α) (later : Trace)
    (after : Session) : Prop :=
  ∃ start finish, before.Alike start ∧
    (job.run.run trace).run start = ((.ok x, later), finish) ∧ finish.Alike after

section Gives
variable {α β : Type} {job : Job α} {next : α → Job β} {trace later : Trace}
  {before after : Session} {x : α} {y : β}

theorem Gives.bind (h : (job >>= next).Gives trace before y later after) :
    ∃ x between mid, job.Gives trace before x between mid ∧
      (next x).Gives between mid y later after := by
  obtain ⟨start, finish, hstart, hrun, hfinish⟩ := h
  obtain ⟨x, between, mid, hfirst, hrest⟩ := run_bind_ok hrun
  exact ⟨x, between, mid, ⟨start, mid, hstart, hfirst, .refl mid⟩,
    ⟨mid, finish, .refl mid, hrest, hfinish⟩⟩

theorem Gives.pure {z : α} (h : (Pure.pure x : Job α).Gives trace before z later after) :
    z = x ∧ later = trace ∧ before.Alike after := by
  obtain ⟨start, finish, hstart, hrun, hfinish⟩ := h
  cases hrun
  exact ⟨rfl, rfl, hstart.trans hfinish⟩

theorem Gives.alike {mid : Session} (h : job.Gives trace before x later mid) (hmid : mid.Alike after) :
    job.Gives trace before x later after := by
  obtain ⟨start, finish, hstart, hrun, hfinish⟩ := h
  exact ⟨start, finish, hstart, hrun, hfinish.trans hmid⟩

/-- What was asked first was answered by the disk. -/
theorem Gives.asked {action : Action α} {question : Disk → Outcome α}
    (h : ((liftM action : Job α) >>= next).Gives trace before y later after)
    (hasks : action.Asks question) :
    ∃ x, question before.disk = .ok x ∧ (next x).Gives trace before y later after := by
  obtain ⟨start, finish, hstart, hrun, hfinish⟩ := h
  obtain ⟨mid, hasked, hmid⟩ := hasks start
  obtain ⟨x, between, mid', hfirst, hrest⟩ := run_bind_ok hrun
  rw [run_action hasked] at hfirst
  obtain ⟨⟨hanswer, rfl⟩, rfl⟩ := (Prod.mk.inj hfirst).imp_left Prod.mk.inj
  rw [hstart.disk] at hanswer
  exact ⟨x, hanswer, mid, finish, hstart.trans hmid, hrest, hfinish⟩

theorem Gives.noted {phase status message : String} {details : Members} {rest : Job β}
    (h : (do Job.note phase status message details; rest).Gives trace before y later after) :
    rest.Gives (trace.noted ⟨phase, status, message, details⟩) before y later after := h

/-- Whatever leaves alone what operations see may go before a job. -/
theorem Gives.after_quiet {effect : Effect Unit} {rest : Job β} (hquiet : effect.Quiet)
    (h : (do (liftM effect : Job Unit); rest).Gives trace before y later after) :
    rest.Gives trace before y later after := by
  obtain ⟨start, finish, hstart, hrun, hfinish⟩ := h
  rcases heffect : effect.run start with ⟨passed, mid⟩
  have hmid := hquiet start
  rw [heffect] at hmid
  rw [run_bind_of_ok (run_effect heffect trace)] at hrun
  exact ⟨mid, finish, hstart.trans hmid, hrun, hfinish⟩

theorem Gives.operation {name : String} {fields : Members}
    (h : (Operation.run name fields job).Gives trace before x later after) :
    job.Gives trace before x later after := by
  obtain ⟨y, between, mid, hjob, hrest⟩ :=
    (h.after_quiet (Operation.started_quiet name fields)).bind
  have hpure := hrest.after_quiet (Operation.completed_quiet name fields)
  obtain ⟨start, finish, hstart, hrun, hfinish⟩ := hjob
  rw [run_tryCatch] at hrun
  rcases hbody : (job.run.run trace).run start with ⟨⟨failure | z, noted⟩, end'⟩
  all_goals rw [hbody] at hrun
  · cases hrun
  · cases hrun
    obtain ⟨start', finish', hstart', hrun', hfinish'⟩ := hpure
    cases hrun'
    exact ⟨start, finish, hstart, hbody, hfinish.trans (hstart'.trans hfinish')⟩

end Gives
end Job

namespace Project

section Performing
variable {project : Project} {α : Type} {job : Job α} {operation name : String} {route : Json}
  {before after : Session} {x : α} {notes : List Progress}

/-- What is done when a job has ended: a failure is logged. -/
def ending (project : Project) (operation : String) (ended : Except Failure α × Trace) :
    Effect (Ended α) :=
  match ended.1 with
  | .ok x => return ⟨.ok x, ended.2.progress⟩
  | .error failure => do
    Event.failed failure
      [("operation", .str operation), ("root", .str project.root.text), ("route", ended.2.route)]
      []
    return ⟨.error failure, ended.2.progress ++ [.ofFailure failure]⟩

theorem run_ending (project : Project) (operation : String) (ended : Except Failure α × Trace)
    (session : Session) : ∃ after,
      (project.ending operation ended).run session = (.of ended, after) ∧ session.Alike after := by
  obtain ⟨failure | x, trace⟩ := ended
  · exact ⟨_, rfl, Event.failed_quiet _ _ _ session⟩
  · refine ⟨session, ?_, .refl session⟩
    rw [Ended.of, List.append_nil]
    rfl

/-- A job that was performed and succeeded gave its result. -/
theorem perform_ok
    (h : (Metric.measured name (project.perform operation route job)).run before =
      (⟨.ok x, notes⟩, after)) :
    ∃ later : Trace, later.progress = notes ∧ job.Gives ⟨[], route⟩ before x later after := by
  rcases hrun : (job.run.run ⟨[], route⟩).run before with ⟨⟨result, trace⟩, mid⟩
  obtain ⟨performed, hended, hmid⟩ := project.run_ending operation (result, trace) mid
  have hperform : (project.perform operation route job).run before = (.of (result, trace), performed) :=
    (Effect.run_bind hrun).trans hended
  have hmeasured := Metric.completed_quiet name performed
  unfold Metric.measured at h
  rw [Effect.run_bind hperform] at h
  obtain ⟨hended, rfl⟩ := Prod.mk.inj h
  cases result with
  | error failure => cases hended
  | ok y =>
    cases hended
    exact ⟨trace, (List.append_nil _).symm, before, mid, .refl before, hrun, hmid.trans hmeasured⟩

/-- A job that chooses a route first settled one that the project has. -/
theorem chosen {given : Json} {β : Type} {next : Route → Job β} {trace later : Trace} {y : β}
    (h : (project.chooseRoute given >>= next).Gives trace before y later after) :
    ∃ wanted route, project.routeIn given before.disk = .ok wanted ∧
      (next route).Gives { trace with route := .str route.name } before y later after := by
  obtain ⟨route, between, mid, hchoose, hrest⟩ := h.bind
  obtain ⟨wanted, hwanted, hsettle⟩ := hchoose.asked (project.wantedRoute_asks given)
  refine ⟨wanted, route, hwanted, ?_⟩
  split at hsettle
  · obtain ⟨start, finish, hstart, hrun, hfinish⟩ := hsettle
    cases hrun
    obtain ⟨start', finish', hstart', hrun', hfinish'⟩ := hrest
    exact ⟨start', finish', hstart.trans (hfinish.trans hstart'), hrun', hfinish'⟩
  · obtain ⟨start, finish, hstart, hrun, hfinish⟩ := hsettle
    cases hrun

end Performing

/-! ## The stages -/

/-- The path of the constitution. -/
def constitutionFile (project : Project) : FilePath := project.below (memory ++ ["constitution.md"])

section Stages
variable {project : Project} {given : Json} {before after : Session} {notes : List Progress}

/-- What a project asks of the disk before it makes artifacts of features. -/
structure Asked (project : Project) (given : Json) (disk : Disk) (features : List Feature)
    (debt : Option Document) : Prop where
  route : ∃ wanted, project.routeIn given disk = .ok wanted
  features : ∃ document, project.specificationIn disk = .ok document ∧
    Feature.extract document debt = .ok features
  debt : project.debtIn disk = .ok debt

theorem writeConstitution_eq (content : String) :
    project.writeConstitution .null content = project.put project.constitutionFile (pure content) := by
  have hpath : project.writer.directory.child "constitution.md" = project.constitutionFile :=
    project.writer_child (by constructor <;> decide)
  rw [put, pure_bind, ← hpath]
  rfl

/-- **A constitution that was made** was rendered from a template, and written. -/
theorem createConstitution_ok {report : ConstitutionReport}
    (h : (project.createConstitution given .null).run before = (⟨.ok report, notes⟩, after)) :
    (∃ wanted, project.routeIn given before.disk = .ok wanted) ∧
      (∃ document, project.specificationIn before.disk = .ok document) ∧
      ∃ template data content written,
        project.renderedIn template data before.disk = .ok content ∧
        (project.writer.write project.constitutionFile.text content before.now).run before.disk =
          (.ok written, after.disk) := by
  obtain ⟨later, -, hgives⟩ := perform_ok h
  obtain ⟨wanted, route, hwanted, hgives⟩ := chosen hgives.noted
  have hmake := hgives.noted.operation
  unfold makeConstitution readForConstitution at hmake
  simp only [bind_assoc, pure_bind] at hmake
  obtain ⟨document, hdocument, hmake⟩ := hmake.noted.asked project.loadSpecification_asks
  obtain ⟨constitution, -, hmake⟩ :=
    hmake.noted.noted.asked (extractConstitution_asks document route)
  obtain ⟨content, hcontent, hmake⟩ := hmake.noted.asked (project.render_asks _ _)
  obtain ⟨written, between, mid, hwrite, hrest⟩ := hmake.noted.bind
  obtain ⟨-, -, hlast⟩ := (hrest.after_quiet (Event.report_quiet _ _)).noted.pure
  rw [writeConstitution_eq] at hwrite
  obtain ⟨start, finish, hstart, hrun, hfinish⟩ := hwrite
  refine ⟨⟨wanted, hwanted⟩, ⟨document, hdocument⟩, _, _, content, written, hcontent, ?_⟩
  have hput := congrArg (fun ended => (ended.1.1, ended.2.disk)) hrun
  dsimp only at hput
  rw [← hstart.disk, ← hstart.now, (hfinish.trans hlast).disk, ← hput]
  rfl

/-- Whether a stage collected the artifacts of a recipe, with notes of success before and after. -/
def Recipe.Collected {α β : Type} (recipe : Recipe α β) (project : Project) (xs : List α)
    (before : Session) (entries : List β) (notes : List Progress) (after : Session) : Prop :=
  ∃ trace later last, (∀ note ∈ trace.progress, note.status = "completed") ∧
    last.status = "completed" ∧ notes = later.progress ++ [last] ∧
    (Job.collect (recipe.make project) xs).Gives trace before entries later after

theorem Recipe.collected {α β γ : Type} {recipe : Recipe α β} {xs : List α} {entries : List β}
    {trace between later : Trace} {mid : Session} {report report' : γ} {phase message : String}
    {details : Members} (hopening : ∀ note ∈ trace.progress, note.status = "completed")
    (hcollect : (Job.collect (recipe.make project) xs).Gives trace before entries between mid)
    (hrest : (do Job.completed phase message details; pure report : Job γ).Gives between mid report'
      later after) :
    report' = report ∧ recipe.Collected project xs before entries later.progress after := by
  obtain ⟨heq, rfl, halike⟩ := hrest.noted.pure
  exact ⟨heq, trace, between, _, hopening, rfl, rfl, hcollect.alike halike⟩

/-- **Specifications that were made** were made for the features of the documents, by the recipe. -/
theorem createSpecifications_ok {report : SpecificationReport}
    (h : (project.createSpecifications given).run before = (⟨.ok report, notes⟩, after)) :
    ∃ debt, project.Asked given before.disk report.features debt ∧
      (project.specificationRecipe report.route).Collected project report.features before
        report.entries notes after := by
  obtain ⟨later, rfl, hgives⟩ := perform_ok h
  obtain ⟨wanted, route, hwanted, hgives⟩ := chosen hgives
  have hmake := hgives.operation
  unfold makeSpecifications noteFeatures at hmake
  obtain ⟨document, hdocument, hmake⟩ := hmake.asked project.loadSpecification_asks
  obtain ⟨debt, hdebt, hmake⟩ := hmake.asked project.loadDebt_asks
  obtain ⟨features, hfeatures, hmake⟩ := hmake.noted.asked (extractFeatures_asks document debt)
  obtain ⟨entries, between, mid, hcollect, hrest⟩ := hmake.noted.bind
  rw [specifyAll_eq hfeatures] at hcollect
  obtain ⟨rfl, hcollected⟩ := Recipe.collected (by simp [Trace.noted]) hcollect hrest
  exact ⟨debt, ⟨⟨wanted, hwanted⟩, ⟨document, hdocument, hfeatures⟩, hdebt⟩, hcollected⟩

/-- **Plans that were made** were made for the features of the documents that are not complete, by
the recipe. -/
theorem createPlans_ok {report : PlanReport}
    (h : (project.createPlans given).run before = (⟨.ok report, notes⟩, after)) :
    ∃ features debt, project.Asked given before.disk features debt ∧
      (project.planRecipe debt).Collected project (features.filter (·.status != .complete)) before
        report.entries notes after := by
  obtain ⟨later, rfl, hgives⟩ := perform_ok h
  obtain ⟨wanted, route, hwanted, hgives⟩ := chosen hgives
  have hmake := hgives.operation
  unfold makePlans noteFeatures at hmake
  obtain ⟨document, hdocument, hmake⟩ := hmake.asked project.loadSpecification_asks
  obtain ⟨debt, hdebt, hmake⟩ := hmake.asked project.loadDebt_asks
  obtain ⟨features, hfeatures, hmake⟩ := hmake.asked (extractFeatures_asks document debt)
  obtain ⟨plans, ⟨⟩, hmake⟩ := hmake.noted.asked (generatePlans_asks features debt)
  obtain ⟨entries, between, mid, hcollect, hrest⟩ := hmake.noted.bind
  rw [planAll_eq hfeatures] at hcollect
  obtain ⟨rfl, hcollected⟩ := Recipe.collected (by simp [Trace.noted]) hcollect hrest
  exact ⟨features, debt, ⟨⟨wanted, hwanted⟩, ⟨document, hdocument, hfeatures⟩, hdebt⟩, hcollected⟩

/-! ## All stages -/

/-- The three stages when each of them succeeded. -/
structure Passed (project : Project) (given : Json) (before : Session) (reports : Finished)
    (stages : Stages) (afterFirst afterSecond after : Session) : Prop where
  constitution : ∃ notes, stages.constitution = ⟨.ok reports.constitution, notes⟩ ∧
    (project.createConstitution given .null).run before = (⟨.ok reports.constitution, notes⟩, afterFirst)
  specifications : ∃ notes, stages.specifications = some ⟨.ok reports.specifications, notes⟩ ∧
    (project.createSpecifications given).run afterFirst =
      (⟨.ok reports.specifications, notes⟩, afterSecond)
  plans : ∃ notes, stages.plans = some ⟨.ok reports.plans, notes⟩ ∧
    (project.createPlans given).run afterSecond = (⟨.ok reports.plans, notes⟩, after)

theorem Passed.stages_eq {reports : Finished} {stages : Stages} {afterFirst afterSecond : Session}
    (h : project.Passed given before reports stages afterFirst afterSecond after) :
    stages.failed? = none ∧ stages.finished? = some reports := by
  obtain ⟨constitution, specifications, plans⟩ := stages
  obtain ⟨⟨_, rfl, -⟩, ⟨_, rfl, -⟩, ⟨_, rfl, -⟩⟩ := h
  exact ⟨rfl, rfl⟩

/-- Where all stages succeed, they are performed one after the other. -/
theorem Passed.run {reports : Finished} {stages : Stages} {afterFirst afterSecond : Session}
    (h : project.Passed given before reports stages afterFirst afterSecond after) :
    (project.runStages given).run before = (stages, after) := by
  obtain ⟨constitution, specifications, plans⟩ := stages
  obtain ⟨⟨_, rfl, hfirst⟩, ⟨_, rfl, hsecond⟩, ⟨_, rfl, hthird⟩⟩ := h
  unfold runStages
  rw [Effect.run_bind hfirst]
  exact (Effect.run_bind hsecond).trans (Effect.run_bind hthird)

theorem passed_of_run {reports : Finished} {stages : Stages}
    (h : (project.runStages given).run before = (stages, after))
    (hfinished : stages.finished? = some reports) :
    ∃ afterFirst afterSecond,
      project.Passed given before reports stages afterFirst afterSecond after := by
  unfold runStages at h
  rcases hfirst : (project.createConstitution given .null).run before with ⟨⟨first, notes⟩, mid⟩
  rw [Effect.run_bind hfirst] at h
  cases first with
  | error failure =>
    cases h
    cases hfinished
  | ok constitution =>
    rcases hsecond : (project.createSpecifications given).run mid with ⟨⟨second, notes'⟩, mid'⟩
    rw [show (!Ended.succeeded ⟨.ok constitution, notes⟩) = false from rfl,
      if_neg Bool.false_ne_true, Effect.run_bind hsecond] at h
    cases second with
    | error failure =>
      cases h
      cases hfinished
    | ok specifications =>
      rcases hthird : (project.createPlans given).run mid' with ⟨⟨third, notes''⟩, mid''⟩
      rw [show (!Ended.succeeded ⟨.ok specifications, notes'⟩) = false from rfl,
        if_neg Bool.false_ne_true, Effect.run_bind hthird] at h
      cases h
      cases third with
      | error failure => cases hfinished
      | ok plans =>
        cases hfinished
        exact ⟨mid, mid', ⟨notes, rfl, hfirst⟩, ⟨notes', rfl, hsecond⟩, ⟨notes'', rfl, hthird⟩⟩

/-- **Everything that was made with success** was made by all stages, and the step was tried to be
noted after them. -/
theorem generateAll_ok {report : Members}
    (h : (project.generateAll given).run before = (.ok (.obj report), after))
    (hsuccess : Succeeds report) :
    ∃ reports stages afterFirst afterSecond performed done noting duration,
      project.Passed given before reports stages afterFirst afterSecond performed ∧
        (project.noteGeneration reports).run performed = (.ok done, noting) ∧
        after.disk = noting.disk ∧
        report = (Generation.finished stages reports done).members duration := by
  rcases hstages : (project.runStages given).run before with ⟨stages, performed⟩
  obtain ⟨-, htried⟩ := run_runStages hstages
  cases htried with
  | stopped hfailed _ _ =>
    obtain ⟨duration, after', hrun, -⟩ :=
      run_generateAll_of_ok (run_generate_of_stopped hstages hfailed)
    cases h.symm.trans hrun
    cases hsuccess
  | @finished reports hnone hfinished _ _ =>
    have hgenerate := run_generate_of_finished hstages hnone hfinished
    rcases hnote : (project.noteGeneration reports).run performed with ⟨failure | done, noting⟩ <;>
    rw [hnote] at hgenerate
    · obtain ⟨after', hrun, -⟩ := run_generateAll_of_error hgenerate
      cases h.symm.trans hrun
    · obtain ⟨duration, after', hrun, hdisk⟩ := run_generateAll_of_ok hgenerate
      cases h.symm.trans hrun
      obtain ⟨afterFirst, afterSecond, hpassed⟩ := passed_of_run hstages hfinished
      exact ⟨reports, stages, afterFirst, afterSecond, performed, done, noting, duration, hpassed,
        hnote, hdisk, rfl⟩

/-- Where all stages passed and noting the step was no failure, everything was made with success. -/
theorem Passed.generateAll {reports : Finished} {stages : Stages} {done : Bool}
    {afterFirst afterSecond performed noting : Session}
    (h : project.Passed given before reports stages afterFirst afterSecond performed)
    (hnote : (project.noteGeneration reports).run performed = (.ok done, noting)) :
    ∃ duration last, (project.generateAll given).run before =
        (.ok (.obj ((Generation.finished stages reports done).members duration)), last) ∧
      last.disk = noting.disk := by
  obtain ⟨hfailed, hfinished⟩ := h.stages_eq
  have hgenerate := run_generate_of_finished h.run hfailed hfinished
  rw [hnote] at hgenerate
  exact run_generateAll_of_ok hgenerate

end Stages

/-! ## A project where everything is made -/

section Trying
variable (project : Project) (given : Json) (before : Session)

/-- Tries to make the constitution. -/
def tryConstitution : Ended ConstitutionReport × Session :=
  (project.createConstitution given .null).run before

/-- Tries to make the specifications, from what the constitution leaves for operations to see. -/
def trySpecifications : Ended SpecificationReport × Session :=
  (project.createSpecifications given).run (project.tryConstitution given before).2.seen

/-- Tries to make the plans, from what the specifications leave for operations to see. -/
def tryPlans : Ended PlanReport × Session :=
  (project.createPlans given).run (project.trySpecifications given before).2.seen

end Trying

/-- Stages that succeed when each of them sees what the last one left are passed. -/
theorem exists_passed {project : Project} {given : Json} {before : Session}
    (hfirst : (project.tryConstitution given before).1.succeeded = true)
    (hsecond : (project.trySpecifications given before).1.succeeded = true)
    (hthird : (project.tryPlans given before).1.succeeded = true) :
    ∃ reports stages afterFirst afterSecond performed,
      project.Passed given before reports stages afterFirst afterSecond performed ∧
        stages.notes = .arr (((project.tryConstitution given before).1.progress ++
          (project.trySpecifications given before).1.progress ++
          (project.tryPlans given before).1.progress).map (·.toJson)) ∧
        performed.disk = (project.tryPlans given before).2.disk := by
  rcases hconstitution : project.tryConstitution given before with ⟨first, afterFirst⟩
  rcases hspecifications : project.trySpecifications given before with ⟨second, seenSecond⟩
  rcases hplans : project.tryPlans given before with ⟨third, seenThird⟩
  rw [hconstitution] at hfirst
  rw [hspecifications] at hsecond
  rw [hplans] at hthird
  obtain ⟨constitution, notes, rfl⟩ := Ended.exists_of_succeeded hfirst
  obtain ⟨specifications, notes', rfl⟩ := Ended.exists_of_succeeded hsecond
  obtain ⟨plans, notes'', rfl⟩ := Ended.exists_of_succeeded hthird
  rw [tryPlans, hspecifications] at hplans
  rw [trySpecifications, hconstitution] at hspecifications
  -- Nothing but what operations see makes a difference to the stages.
  have hblind : Effect.Law.blind.Holds (project.createSpecifications given) :=
    createSpecifications_law (fun _ _ _ => Effect.Law.blind_onDisk _) given
  have hblind' : Effect.Law.blind.Holds (project.createPlans given) :=
    createPlans_law (fun _ _ _ => Effect.Law.blind_onDisk _) given
  obtain ⟨hsecond', halike⟩ := hblind afterFirst _ afterFirst.alike_seen
  rcases hrun : (project.createSpecifications given).run afterFirst with ⟨ended, afterSecond⟩
  rw [hrun, hspecifications] at hsecond' halike
  obtain rfl := hsecond'
  obtain ⟨hthird', halike'⟩ := hblind' afterSecond _ (halike.trans seenSecond.alike_seen)
  rcases hrun' : (project.createPlans given).run afterSecond with ⟨ended', performed⟩
  rw [hrun', hplans] at hthird' halike'
  obtain rfl := hthird'
  exact ⟨⟨constitution, specifications, plans⟩,
    ⟨⟨.ok constitution, notes⟩, some ⟨.ok specifications, notes'⟩, some ⟨.ok plans, notes''⟩⟩,
    afterFirst, afterSecond, performed,
    ⟨⟨notes, rfl, hconstitution⟩, ⟨notes', rfl, hrun⟩, ⟨notes'', rfl, hrun'⟩⟩, rfl,
    halike'.disk.symm⟩

/-- A specification of a project with one feature. -/
def documentedText : String :=
  "# Purpose\nA purpose that is long enough to be one of a project.\n# Values\n- a\n- b\n- c\n" ++
  "# Code Quality\nx\n# Testing\nx\n# Security\nx\n# Performance\na: 1\nb: 2\nc: 3\n" ++
  "# Features\n## Ab\n"

/-- A project with templates of its own. -/
def documented : Project :=
  ⟨FilePath.resolve ⟨"/", []⟩ ⟨"", ["p"]⟩,
    { Settings.standard with templateDirectory := some ⟨"/", ["t"]⟩ }, []⟩

/-- Its specification and its templates. -/
def documentedDisk : Disk where
  root := .directory
    [("p", .directory [("docs", .directory [("reverse-engineering", .directory
      [("functional-specification.md", .file documentedText.toUTF8 ⟨0⟩)])])]),
     ("t", .directory
      [("constitution-agnostic-template.md", .file "x".toUTF8 ⟨0⟩),
       ("feature-spec-template.md", .file "x".toUTF8 ⟨0⟩),
       ("impl-plan-template.md", .file "x".toUTF8 ⟨0⟩)])]
  refuses _ _ := none

/-- The route that the project is given. -/
def documentedRoute : Json := .str "greenfield"

/-- The session in which nothing was made. -/
def documentedStart : Session := .start ⟨0⟩ documentedDisk

theorem documented_plain : documented.root.Plain :=
  FilePath.plain_resolve (by decide) (by decide)

/-- The nodes of its specification. -/
def documentedNodes : List Markdown.Node := [
  ⟨.heading 1, "Purpose", 1⟩,
  ⟨.paragraph, "A purpose that is long enough to be one of a project.", 2⟩,
  ⟨.heading 1, "Values", 3⟩, ⟨.item false 0, "a", 4⟩, ⟨.item false 0, "b", 5⟩,
  ⟨.item false 0, "c", 6⟩, ⟨.heading 1, "Code Quality", 7⟩, ⟨.paragraph, "x", 8⟩,
  ⟨.heading 1, "Testing", 9⟩, ⟨.paragraph, "x", 10⟩, ⟨.heading 1, "Security", 11⟩,
  ⟨.paragraph, "x", 12⟩, ⟨.heading 1, "Performance", 13⟩, ⟨.paragraph, "a: 1", 14⟩,
  ⟨.paragraph, "b: 2", 15⟩, ⟨.paragraph, "c: 3", 16⟩, ⟨.heading 1, "Features", 17⟩,
  ⟨.heading 2, "Ab", 18⟩]

theorem parse_documentedText : Markdown.parse documentedText = .ok documentedNodes :=
  Markdown.parse_of_toOption (by decide +kernel)

theorem decodeText?_documentedText :
    Disk.decodeText? documentedText.toUTF8 = some documentedText := by
  rw [Disk.decodeText?, fromUTF8?_toUTF8, Option.map_some,
    Text.unifyNewlines_of_not_mem (by decide +kernel), String.ofList_toList]

/-- Parsing, with the nodes of the specification as they are known. -/
theorem parse_eq_update :
    Markdown.parse = Function.update Markdown.parse documentedText (.ok documentedNodes) := by
  rw [← parse_documentedText, Function.update_eq_self]

/-- Decoding, with the text of the specification as it is known: its bytes are compared, which takes
far fewer steps than to decode them. -/
theorem decodeText?_eq_ite : Disk.decodeText? = fun content =>
    if content.data.toList = documentedText.toUTF8.data.toList then some documentedText
    else Disk.decodeText? content := by
  funext content
  split
  · rename_i hbytes
    obtain rfl : content = documentedText.toUTF8 := ByteArray.ext (Array.toList_inj.mp hbytes)
    exact decodeText?_documentedText
  · rfl

/-- Every stage succeeds, no feature is missed, and there is no state where the step could be
noted. -/
theorem documented_succeeds :
    (documented.tryConstitution documentedRoute documentedStart).1.succeeded = true ∧
      (documented.trySpecifications documentedRoute documentedStart).1.succeeded = true ∧
      (documented.tryPlans documentedRoute documentedStart).1.succeeded = true ∧
      ((documented.tryConstitution documentedRoute documentedStart).1.progress ++
        (documented.trySpecifications documentedRoute documentedStart).1.progress ++
        (documented.tryPlans documentedRoute documentedStart).1.progress).all
          (·.status != "error") = true ∧
      ((documented.tryPlans documentedRoute documentedStart).2.disk.isFile
        documented.store.file).toOption = some false := by
  -- All stages load the specification, so they are opened down to where it is decoded and parsed.
  unfold tryPlans trySpecifications tryConstitution createPlans createSpecifications
    createConstitution makePlans makeSpecifications makeConstitution readForConstitution
    loadSpecification Document.load Document.parse Disk.readText
  rw [decodeText?_eq_ite, parse_eq_update]
  decide +kernel

/-- **Everything is made** of the project. -/
theorem documented_passed : ∃ reports stages afterFirst afterSecond performed,
    documented.Passed documentedRoute documentedStart reports stages afterFirst afterSecond
      performed ∧
    (∃ notes : List Progress, stages.notes = .arr (notes.map (·.toJson)) ∧
      ∀ note ∈ notes, note.status ≠ "error") ∧
    performed.disk.isFile documented.store.file = .ok false ∧
    (documented.noteGeneration reports).run performed = (.ok false, performed) := by
  obtain ⟨hfirst, hsecond, hthird, hclean, hfile⟩ := documented_succeeds
  obtain ⟨reports, stages, afterFirst, afterSecond, performed, hpassed, hnotes, hdisk⟩ :=
    exists_passed hfirst hsecond hthird
  have habsent : performed.disk.isFile documented.store.file = .ok false := by
    rw [hdisk]
    cases hasked : (documented.tryPlans documentedRoute documentedStart).2.disk.isFile
      documented.store.file with
    | error failure =>
      rw [hasked] at hfile
      cases hfile
    | ok present =>
      rw [hasked] at hfile
      cases hfile
      rfl
  exact ⟨reports, stages, afterFirst, afterSecond, performed, hpassed,
    ⟨_, hnotes, fun note hnote => bne_iff_ne.mp (List.all_eq_true.mp hclean note hnote)⟩, habsent,
    Action.run_bind_of_ok (Store.isPresent_ok.mpr ⟨habsent, rfl⟩)⟩

end Project
end SpecDraft.Workflow
