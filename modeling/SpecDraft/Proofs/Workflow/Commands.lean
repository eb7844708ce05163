import SpecDraft.Proofs.Workflow.Stages
import SpecDraft.Workflow.Command

/-!
# Laws of the commands

A command changes the disk through the store and the writer of its project and in no other way. So
every law that holds of these two holds of the command (`Project.answer_law`).
-/
set_option autoImplicit false

namespace SpecDraft

section Commands
variable {law : Effect.Law}

namespace Store

variable {store : Store}
  (hwrite : ∀ text now, law.OfAction (onDisk (store.writeText text now)))
include hwrite

theorem save_law (state : State) : law.OfAction (store.save state) := by
  unfold save
  have hrest : law.OfAction (do
      let now := (← get).now
      onDisk (store.writeText state.toJson.pretty now)) :=
    .ask (fun _ => hwrite _ _) fun _ _ h => by rw [h.now]
  split
  · exact .bind (.throw _) fun _ => hrest
  · exact hrest

theorem ensure_law (route : Json) : law.OfAction (store.ensure route) := by
  refine .bind (.askDisk _) fun present => ?_
  cases present with
  | true => exact load_law store
  | false =>
    refine .guarded fun _ => .ask (fun session => ?_) fun _ _ h => by rw [h.now]
    refine .bind (save_law hwrite _) fun _ => ?_
    exact .bind (.quiet (Log.write_quiet _ _ _ _)) fun _ => .pure _

theorem update_law (change : State → Outcome State) : law.OfAction (store.update change) := by
  refine .bind store.load_law fun old => .bind (.outcome _) fun changed => ?_
  refine .ask (fun session => ?_) fun _ _ h => by rw [h.now]
  dsimp only
  split
  · exact .bind (save_law hwrite _) fun _ => .pure _
  · exact .throw _

theorem completeStep_law (name said : Json) : law.OfAction (store.completeStep name said) := by
  unfold completeStep
  split
  · refine .ask (fun session => ?_) fun _ _ h => by rw [h.now]
    refine .bind (update_law hwrite _) fun _ => ?_
    exact .bind (.quiet (Log.write_quiet _ _ _ _)) fun _ => .pure _
  · exact .throw _

end Store

namespace Workflow.Project

variable {project : Project}

theorem reportState_law : law.OfAction project.reportState := by
  refine .bind (.effect (Store.load_law _)) fun result => ?_
  cases result with
  | ok state => exact .ask (fun _ => .pure _) fun _ _ h => by rw [h.disk]
  | error failure =>
    refine .guarded fun _ => .bind (.quiet ?_) fun _ => .pure _
    unfold logUnread
    split
    · exact .pure ()
    · exact Event.failed_quiet _ _ _

theorem guide_law : law.OfAction project.guide := by
  refine .bind (.askDisk _) fun present => ?_
  cases present with
  | false => exact .pure _
  | true =>
    refine .bind (.effect (Store.load_law _)) fun result => ?_
    cases result with
    | ok state => exact .pure _
    | error failure =>
      exact .guarded fun _ => .bind (.quiet (Log.write_quiet _ _ _ _)) fun _ => .pure _

section Write
variable (hstore : ∀ text now, law.OfAction (onDisk (project.store.writeText text now)))

include hstore

theorem startAndReport_law (route : Json) : law.Holds (project.startAndReport route) := by
  have hstart : law.OfAction (project.start route) := by
    refine .bind (.askDisk _) fun existed => ?_
    refine .bind (.operation (Store.ensure_law hstore route) _ _) fun state => ?_
    exact .bind (.quiet (Event.report_quiet _ _)) fun _ => .pure _
  refine law.measured (law.bind hstart fun result => ?_) _
  cases result with
  | ok started => exact law.pure _
  | error failure => exact law.bind (law.quiet (Event.failed_quiet _ _ _)) fun _ => law.pure _

theorem setRoute_law (name : Json) : law.Holds (project.setRoute name) := by
  refine law.measured ?_ _
  split
  · exact law.pure _
  · refine law.bind (Store.update_law hstore _) fun result => ?_
    cases result with
    | ok state => exact law.bind (law.quiet (Event.report_quiet _ _)) fun _ => law.pure _
    | error failure => exact law.bind (law.quiet (Event.failed_quiet _ _ _)) fun _ => law.pure _

theorem completeStep_law (name details : Json) : law.Holds (project.completeStep name details) := by
  refine law.measured (law.bind (Store.completeStep_law hstore name details) fun result => ?_) _
  cases result with
  | ok state => exact law.bind (law.quiet (Event.report_quiet _ _)) fun _ => law.pure _
  | error failure => exact law.bind (law.quiet (Event.failed_quiet _ _ _)) fun _ => law.pure _

theorem noteGeneration_law (reports : Finished) : law.OfAction (project.noteGeneration reports) := by
  refine .bind (.askDisk _) fun present => ?_
  cases present with
  | false => exact .pure _
  | true =>
    refine .bind (.effect (Store.completeStep_law hstore (.str Step.createSpecs.id) _))
      fun result => ?_
    cases result with
    | ok state => exact .bind (.quiet (Event.report_quiet _ _)) fun _ => .pure _
    | error failure =>
      exact .guarded fun _ => .bind (.quiet (Event.failed_quiet _ _ _)) fun _ => .pure _

variable (hwrite : ∀ path content now,
  law.OfAction (onDisk (project.writer.write path content now)))
include hwrite

omit hstore in
theorem runStages_law (route : Json) : law.Holds (project.runStages route) := by
  refine law.bind (createConstitution_law hwrite route .null) fun constitution => ?_
  split
  · exact law.pure _
  refine law.bind (createSpecifications_law hwrite route) fun specifications => ?_
  split
  · exact law.pure _
  exact law.bind (createPlans_law hwrite route) fun _ => law.pure _

theorem generate_law (route : Json) : law.OfAction (project.generate route) := by
  refine .bind (.effect (runStages_law hwrite route)) fun stages => ?_
  split
  · exact .pure _
  · exact .bind (noteGeneration_law hstore _) fun _ => .pure _
  · exact .pure _

theorem generateAll_law (route : Json) : law.OfAction (project.generateAll route) := by
  refine .timed (.bind (generate_law hstore hwrite route) fun generation => ?_) _
  exact .ask (fun _ => .pure _) fun _ _ h => by rw [h.elapsed]

/-- **Every command changes the disk through the store and the writer** of its project alone. -/
theorem answer_law (command : Command) : law.OfAction (project.answer command) := by
  cases command with
  | start route => exact .effect (startAndReport_law hstore route)
  | reportState => exact reportState_law
  | setRoute route => exact .effect (setRoute_law hstore route)
  | completeStep step details => exact .effect (completeStep_law hstore step details)
  | createConstitution route output =>
    exact .bind (.effect (createConstitution_law hwrite route output)) fun _ => .pure _
  | createSpecifications route =>
    exact .bind (.effect (createSpecifications_law hwrite route)) fun _ => .pure _
  | createPlans route => exact .bind (.effect (createPlans_law hwrite route)) fun _ => .pure _
  | generateAll route => exact generateAll_law hstore hwrite route
  | guide => exact guide_law

end Write
end Workflow.Project
end Commands

end SpecDraft
