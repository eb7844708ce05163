import SpecDraft.Proofs.Action
import SpecDraft.Workflow.Progress

/-!
# Running effects and jobs

An effect is a function from a session to a result and the session afterwards; a job has its trace
besides. Jobs are taken apart along their steps, as actions are: what a sequence of two did when it
succeeded (`Job.run_bind_ok`), and what an action or an effect does as a part of a job.
-/
set_option autoImplicit false

namespace SpecDraft

namespace Effect

variable {α β : Type} {effect : Effect α} {next : α → Effect β} {session after : Session} {x : α}

theorem run_bind (h : effect.run session = (x, after)) :
    (effect >>= next).run session = (next x).run after := by
  change (match effect.run session with | (x, after) => (next x).run after) = _
  rw [h]

/-- An effect is an action that succeeds. -/
theorem run_lift (h : effect.run session = (x, after)) :
    (liftM effect : Action α).run session = (.ok x, after) := by
  change (match effect.run session with | (x, after) => (Except.ok x, after)) = _
  rw [h]

end Effect

namespace Workflow.Job

variable {α β : Type} {job : Job α} {next : α → Job β} {trace later : Trace}
  {session mid after : Session}

/-- What a sequence of two jobs does once the first one has succeeded. -/
theorem run_bind_of_ok {x : α}
    (h : (job.run.run trace).run session = ((.ok x, later), mid)) :
    ((job >>= next).run.run trace).run session = ((next x).run.run later).run mid := by
  change (match (job.run.run trace).run session with
    | ((result, later), mid) => (ExceptT.bindCont next result).run later |>.run mid) = _
  rw [h]
  rfl

theorem run_bind_of_error {failure : Failure}
    (h : (job.run.run trace).run session = ((.error failure, later), mid)) :
    ((job >>= next).run.run trace).run session = ((.error failure, later), mid) := by
  change (match (job.run.run trace).run session with
    | ((result, later), mid) => (ExceptT.bindCont next result).run later |>.run mid) = _
  rw [h]
  rfl

theorem run_tryCatch (job : Job α) (handler : Failure → Job α) (trace : Trace)
    (session : Session) : ((tryCatch job handler).run.run trace).run session =
      match (job.run.run trace).run session with
      | ((.ok x, later), mid) => ((.ok x, later), mid)
      | ((.error failure, later), mid) => ((handler failure).run.run later).run mid := by
  simp only [tryCatch, tryCatchThe, MonadExceptOf.tryCatch, ExceptT.tryCatch, ExceptT.run,
    ExceptT.mk, bind, StateT.bind, StateT.run]
  rcases (job trace session : (Except Failure α × Trace) × Session) with ⟨⟨_ | _, _⟩, _⟩ <;> rfl

/-- What a sequence of two jobs did when it succeeded. -/
theorem run_bind_ok {y : β}
    (h : ((job >>= next).run.run trace).run session = ((.ok y, later), after)) :
    ∃ x between mid, (job.run.run trace).run session = ((.ok x, between), mid) ∧
      ((next x).run.run between).run mid = ((.ok y, later), after) := by
  rcases hrun : (job.run.run trace).run session with ⟨⟨failure | x, between⟩, mid⟩
  · rw [run_bind_of_error hrun] at h
    cases h
  · rw [run_bind_of_ok hrun] at h
    exact ⟨x, between, mid, rfl, h⟩

/-- An action notes nothing. -/
theorem run_action {action : Action α} {result : Except Failure α}
    (h : action.run session = (result, after)) (trace : Trace) :
    ((liftM action : Job α).run.run trace).run session = ((result, trace), after) := by
  change (match action.run session with | (result, after) => ((result, trace), after)) = _
  rw [h]

/-- An effect notes nothing, and succeeds. -/
theorem run_effect {effect : Effect α} {x : α} (h : effect.run session = (x, after))
    (trace : Trace) :
    ((liftM effect : Job α).run.run trace).run session = ((.ok x, trace), after) := by
  change (match effect.run session with | (x, after) => ((Except.ok x, trace), after)) = _
  rw [h]

end Workflow.Job
end SpecDraft
