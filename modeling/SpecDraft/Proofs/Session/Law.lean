import SpecDraft.Proofs.Session.Run
import SpecDraft.Session.Event
import SpecDraft.Session.Operation

/-!
# What holds of a whole because it holds of its parts

Operations see the time, the stopwatch and the disk of a session. Logging, metrics and hooks leave
these three alone, whatever the hooks do (`Hook.trigger_quiet`). A law is a property of effects that
goes on from the parts of an effect to the whole; then it goes on to actions and jobs as well.
-/
set_option autoImplicit false

namespace SpecDraft

/-- Whether two sessions look the same to an operation. -/
structure Session.Alike (a b : Session) : Prop where
  now : b.now = a.now
  elapsed : b.elapsed = a.elapsed
  disk : b.disk = a.disk

section Alike
variable {a b c : Session}

theorem Session.Alike.refl (session : Session) : session.Alike session := ⟨rfl, rfl, rfl⟩

theorem Session.Alike.symm (h : a.Alike b) : b.Alike a := ⟨h.now.symm, h.elapsed.symm, h.disk.symm⟩

theorem Session.Alike.trans (hab : a.Alike b) (hbc : b.Alike c) : a.Alike c :=
  ⟨hbc.now.trans hab.now, hbc.elapsed.trans hab.elapsed, hbc.disk.trans hab.disk⟩

/-- What operations see of a session, where nothing else has happened. -/
def Session.seen (session : Session) : Session :=
  { Session.start session.now session.disk with elapsed := session.elapsed }

theorem Session.alike_seen (session : Session) : session.Alike session.seen := ⟨rfl, rfl, rfl⟩

end Alike

/-! ## Quiet effects -/

/-- Whether an effect leaves alone what operations see. -/
def Effect.Quiet {α : Type} (effect : Effect α) : Prop :=
  ∀ session : Session, session.Alike (effect.run session).2

namespace Effect

variable {α β : Type} {effect : Effect α} {next : α → Effect β}

theorem Quiet.pure (x : α) : Quiet (pure x) := Session.Alike.refl

theorem Quiet.get : Quiet (get : Effect Session) := Session.Alike.refl

theorem Quiet.bind (h : Quiet effect) (hnext : ∀ x, Quiet (next x)) : Quiet (effect >>= next) :=
  fun session => (h session).trans (hnext _ _)

theorem Quiet.forM {act : α → Effect Unit} (h : ∀ x, Quiet (act x)) (xs : List α) :
    Quiet (xs.forM act) := by
  induction xs with
  | nil => exact .pure ()
  | cons x xs ih => exact (h x).bind fun _ => ih

end Effect

theorem Log.write_quiet (level : Level) (logger message : String) (fields : Members) :
    (write level logger message fields).Quiet :=
  fun _ => ⟨rfl, rfl, rfl⟩

namespace Hook

theorem change_quiet (change : HookChange) : (Hook.change change).Quiet := by
  cases change with
  | register event hook =>
    exact .bind (fun _ => ⟨rfl, rfl, rfl⟩) fun _ => Log.write_quiet _ _ _ _
  | unregister event hook => exact fun _ => ⟨rfl, rfl, rfl⟩

theorem call_quiet (event : String) (data : Members) (hook : String) :
    (call event data hook).Quiet := by
  refine .bind (fun _ => ⟨rfl, rfl, rfl⟩) fun _ => .bind .get fun session => ?_
  refine .bind (.forM change_quiet _) fun _ => ?_
  split
  · exact Log.write_quiet _ _ _ _
  · exact .pure ()

/-- **Hooks leave alone what operations see**, whatever they change and however they fail. -/
theorem trigger_quiet (event : String) (data : Members) : (trigger event data).Quiet :=
  .bind .get fun _ => .forM (call_quiet event data) _

end Hook

namespace Event

theorem report_quiet (event : String) (data : Members) : (report event data).Quiet :=
  .bind .get fun _ => .bind (Log.write_quiet _ _ _ _) fun _ => Hook.trigger_quiet _ _

theorem failed_quiet (failure : Failure) (context extra : Members) :
    (failed failure context extra).Quiet :=
  .bind .get fun _ => Log.write_quiet _ _ _ _

end Event

namespace Metric

theorem record_quiet (name : String) (value tags : Json) : (record name value tags).Quiet :=
  fun _ => ⟨rfl, rfl, rfl⟩

theorem completed_quiet (name : String) : (completed name).Quiet :=
  .bind .get fun _ => .bind (record_quiet _ _ _) fun _ => Log.write_quiet _ _ _ _

theorem failed_quiet (name : String) (failure : Failure) : (failed name failure).Quiet :=
  .bind .get fun _ => .bind (record_quiet _ _ _) fun _ => Log.write_quiet _ _ _ _

end Metric

namespace Operation

theorem started_quiet (name : String) (fields : Members) : (started name fields).Quiet :=
  Log.write_quiet _ _ _ _

theorem completed_quiet (name : String) (fields : Members) : (completed name fields).Quiet :=
  .bind .get fun _ => Log.write_quiet _ _ _ _

theorem failed_quiet (name : String) (fields : Members) (failure : Failure) :
    (failed name fields failure).Quiet :=
  .bind .get fun _ => Log.write_quiet _ _ _ _

end Operation

/-- Whoever times an action gets what the action gives, in a session that looks the same. -/
theorem Action.run_timed {α : Type} {action : Action α} {name : String} {result : Except Failure α}
    {session after : Session} (h : (Metric.timed name action).run session = (result, after)) :
    ∃ mid, action.run session = (result, mid) ∧ mid.Alike after := by
  unfold Metric.timed at h
  rcases hrun : action.run session with ⟨failure | x, mid⟩
  · have hfails : (tryCatch action fun failure => do
        Metric.failed name failure
        throw failure : Action α).run session =
          (.error failure, ((Metric.failed name failure).run mid).2) := by
      rw [run_tryCatch, hrun]
      rfl
    rw [run_bind_of_error hfails] at h
    cases h
    exact ⟨mid, rfl, Metric.failed_quiet name failure mid⟩
  · rw [run_bind_of_ok (by rw [run_tryCatch, hrun])] at h
    cases h
    exact ⟨mid, rfl, Metric.completed_quiet name mid⟩

/-! ## Laws -/

/-- A property of effects that the quiet ones have, and that goes on from parts to wholes. What
follows a look at the session must depend on what operations see alone. -/
structure Effect.Law where
  Holds {α : Type} : Effect α → Prop
  quiet {effect : Effect Unit} : effect.Quiet → Holds effect
  pure {α : Type} (x : α) : Holds (pure x : Effect α)
  bind {α β : Type} {effect : Effect α} {next : α → Effect β} :
    Holds effect → (∀ x, Holds (next x)) → Holds (effect >>= next)
  ask {α : Type} {next : Session → Effect α} : (∀ session, Holds (next session)) →
    (∀ a b, a.Alike b → next a = next b) → Holds (get >>= next)

namespace Effect.Law

variable {law : Effect.Law} {α β : Type}

theorem measured {effect : Effect α} (h : law.Holds effect) (name : String) :
    law.Holds (Metric.measured name effect) :=
  law.bind h fun x => law.bind (law.quiet (Metric.completed_quiet name)) fun _ => law.pure x

/-! ### Actions -/

/-- Whether a law holds of an action. -/
def OfAction (law : Effect.Law) (action : Action α) : Prop := law.Holds action.run

section Action
variable {action : Action α} {next : α → Action β}

theorem OfAction.pure (x : α) : law.OfAction (Pure.pure x) := law.pure _

theorem OfAction.throw (failure : Failure) : law.OfAction (throw failure : Action α) := law.pure _

theorem OfAction.bind (h : law.OfAction action) (hnext : ∀ x, law.OfAction (next x)) :
    law.OfAction (action >>= next) := by
  change law.Holds (action.run >>= ExceptT.bindCont next)
  refine law.bind h fun result => ?_
  cases result with
  | ok x => exact hnext x
  | error failure => exact law.pure _

theorem OfAction.tryCatch {handler : Failure → Action α} (h : law.OfAction action)
    (hhandler : ∀ failure, law.OfAction (handler failure)) :
    law.OfAction (tryCatch action handler) := by
  change law.Holds (ExceptT.tryCatch action handler).run
  unfold ExceptT.tryCatch
  refine law.bind h fun result => ?_
  cases result with
  | ok x => exact law.pure _
  | error failure => exact hhandler failure

theorem OfAction.ask {next : Session → Action α} (h : ∀ session, law.OfAction (next session))
    (hnext : ∀ a b, a.Alike b → next a = next b) : law.OfAction (get >>= next) := by
  have hask : law.Holds (get >>= fun session => (next session).run) :=
    law.ask h fun a b hab => by rw [hnext a b hab]
  exact hask

/-- What follows a check is done when the check passes. -/
theorem OfAction.guarded {holds : Bool} {failure : Failure} {rest : PUnit → Action α}
    (h : ∀ passed, law.OfAction (rest passed)) :
    law.OfAction (if holds = true then rest ⟨⟩ else MonadExcept.throw failure >>= rest) := by
  split
  · exact h ⟨⟩
  · exact .bind (.throw failure) h

theorem OfAction.effect {effect : Effect α} (h : law.Holds effect) :
    law.OfAction (liftM effect) :=
  law.bind h fun _ => law.pure _

theorem OfAction.quiet {effect : Effect Unit} (h : effect.Quiet) : law.OfAction (liftM effect) :=
  .effect (law.quiet h)

theorem OfAction.outcome (result : Outcome α) : law.OfAction (liftM result : Action α) := by
  cases result with
  | ok x => exact law.pure _
  | error failure => exact law.pure _

theorem OfAction.askDisk (question : Disk → Outcome α) : law.OfAction (askDisk question) := by
  refine .ask (fun session => ?_) fun a b h => by rw [h.disk]
  split
  · exact .pure _
  · exact .throw _

theorem OfAction.timed (h : law.OfAction action) (name : String) :
    law.OfAction (Metric.timed name action) := by
  refine .bind (.tryCatch h fun failure => ?_) fun x => ?_
  · exact .bind (.quiet (Metric.failed_quiet name failure)) fun _ => .throw failure
  · exact .bind (.quiet (Metric.completed_quiet name)) fun _ => .pure x

theorem OfAction.operation (h : law.OfAction action) (name : String) (fields : Members) :
    law.OfAction (Operation.run name fields action) := by
  refine .bind (.quiet (Operation.started_quiet name fields)) fun _ => .bind ?_ fun x => ?_
  · refine .tryCatch h fun failure => ?_
    exact .bind (.quiet (Operation.failed_quiet name fields failure)) fun _ => .throw failure
  · exact .bind (.quiet (Operation.completed_quiet name fields)) fun _ => .pure x

end Action

/-! ### Jobs -/

open Workflow

/-- Whether a law holds of a job, whatever it has noted before. -/
def OfJob (law : Effect.Law) (job : Job α) : Prop := ∀ trace, law.Holds (job.run.run trace)

section Job
variable {job : Job α} {next : α → Job β}

theorem OfJob.pure (x : α) : law.OfJob (Pure.pure x) := fun _ => law.pure _

theorem OfJob.throw (failure : Failure) : law.OfJob (throw failure : Job α) := fun _ => law.pure _

/-- What a job notes is part of its result. -/
theorem bind_traced {σ τ : Type} {first : StateT Trace Effect σ} {rest : σ → StateT Trace Effect τ}
    (h : ∀ trace, law.Holds (first.run trace))
    (hrest : ∀ x trace, law.Holds ((rest x).run trace)) (trace : Trace) :
    law.Holds ((first >>= rest).run trace) := by
  change law.Holds (first.run trace >>= fun (x, later) => (rest x).run later)
  exact law.bind (h trace) fun (x, later) => hrest x later

theorem OfJob.bind (h : law.OfJob job) (hnext : ∀ x, law.OfJob (next x)) :
    law.OfJob (job >>= next) := by
  change ∀ trace, law.Holds ((job.run >>= ExceptT.bindCont next).run trace)
  refine bind_traced h fun result => ?_
  cases result with
  | ok x => exact hnext x
  | error failure => exact fun _ => law.pure _

theorem OfJob.tryCatch {handler : Failure → Job α} (h : law.OfJob job)
    (hhandler : ∀ failure, law.OfJob (handler failure)) : law.OfJob (tryCatch job handler) := by
  change ∀ trace, law.Holds ((ExceptT.tryCatch job handler).run.run trace)
  unfold ExceptT.tryCatch
  refine bind_traced h fun result => ?_
  cases result with
  | ok x => exact fun _ => law.pure _
  | error failure => exact hhandler failure

/-- What follows a check is done when the check passes. -/
theorem OfJob.guarded {holds : Bool} {failure : Failure} {rest : PUnit → Job α}
    (h : ∀ passed, law.OfJob (rest passed)) :
    law.OfJob (if holds = true then rest ⟨⟩ else MonadExcept.throw failure >>= rest) := by
  split
  · exact h ⟨⟩
  · exact .bind (.throw failure) h

theorem OfJob.action {action : Action α} (h : law.OfAction action) :
    law.OfJob (liftM action : Job α) := by
  intro trace
  change law.Holds (action.run >>= fun result => Pure.pure (result, trace))
  exact law.bind h fun _ => law.pure _

theorem OfJob.effect {effect : Effect α} (h : law.Holds effect) :
    law.OfJob (liftM effect : Job α) := by
  intro trace
  change law.Holds (effect >>= fun x => Pure.pure ((Except.ok x : Except Failure α), trace))
  exact law.bind h fun _ => law.pure _

theorem OfJob.quiet {effect : Effect Unit} (h : effect.Quiet) : law.OfJob (liftM effect) :=
  .effect (law.quiet h)

/-- Notes are no part of a session. -/
theorem OfJob.note (phase status message : String) (details : Members) :
    law.OfJob (Job.note phase status message details) :=
  fun _ => law.pure _

theorem OfJob.settle (route : Json) : law.OfJob (Job.settle route) := fun _ => law.pure _

theorem OfJob.operation (h : law.OfJob job) (name : String) (fields : Members) :
    law.OfJob (Operation.run name fields job) := by
  refine .bind (.quiet (Operation.started_quiet name fields)) fun _ => .bind ?_ fun x => ?_
  · refine .tryCatch h fun failure => ?_
    exact .bind (.quiet (Operation.failed_quiet name fields failure)) fun _ => .throw failure
  · exact .bind (.quiet (Operation.completed_quiet name fields)) fun _ => .pure x

end Job
end Effect.Law
end SpecDraft
