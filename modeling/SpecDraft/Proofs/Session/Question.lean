import SpecDraft.Proofs.Session.Law

/-!
# Actions that only ask

An action asks a question about the disk when it gives the answer, or fails with it, and leaves
alone what operations see (`Action.Asks`). Logging and metrics do not count. Questions are put
together as the actions are that ask them.
-/
set_option autoImplicit false

namespace SpecDraft.Action

/-- Whether an action asks a question about the disk, and does nothing else that operations see. -/
def Asks {α : Type} (action : Action α) (question : Disk → Outcome α) : Prop :=
  ∀ session : Session, ∃ after,
    action.run session = (question session.disk, after) ∧ session.Alike after

section Asks
variable {α β : Type} {action : Action α} {next : α → Action β} {question other : Disk → Outcome α}
  {later : α → Disk → Outcome β}

theorem Asks.congr (h : action.Asks question) (heq : ∀ disk, question disk = other disk) :
    action.Asks other := by
  rwa [← funext heq]

theorem Asks.outcome (result : Outcome α) : Asks (liftM result) fun _ => result :=
  fun session => ⟨session, run_lift result session, .refl session⟩

theorem Asks.pure (x : α) : Asks (Pure.pure x) fun _ => .ok x :=
  fun session => ⟨session, rfl, .refl session⟩

theorem Asks.throw (failure : Failure) :
    Asks (MonadExcept.throw failure : Action α) fun _ => .error failure :=
  fun session => ⟨session, rfl, .refl session⟩

theorem Asks.disk (question : Disk → Outcome α) : (askDisk question).Asks question := by
  intro session
  refine ⟨session, ?_, .refl session⟩
  unfold askDisk
  rw [run_bind_of_ok (run_get session)]
  cases question session.disk <;> rfl

theorem Asks.bind (h : action.Asks question) (hnext : ∀ x, (next x).Asks (later x)) :
    (action >>= next).Asks fun disk => question disk >>= fun x => later x disk := by
  intro session
  obtain ⟨mid, hrun, halike⟩ := h session
  dsimp only
  cases hanswer : question session.disk with
  | error failure =>
    rw [hanswer] at hrun
    exact ⟨mid, run_bind_of_error hrun, halike⟩
  | ok x =>
    rw [hanswer] at hrun
    obtain ⟨after, hrest, hafter⟩ := hnext x mid
    rw [halike.disk] at hrest
    exact ⟨after, (run_bind_of_ok hrun).trans hrest, halike.trans hafter⟩

/-- What is asked after a quiet effect is asked. -/
theorem Asks.after_quiet {effect : Effect Unit} (hquiet : effect.Quiet)
    (h : action.Asks question) : Asks (liftM effect >>= fun _ => action) question := by
  intro session
  have hquiet := hquiet session
  rcases heffect : effect.run session with ⟨passed, mid⟩
  rw [heffect] at hquiet
  obtain ⟨after, hrun, halike⟩ := h mid
  rw [hquiet.disk] at hrun
  exact ⟨after, (run_bind_of_ok (Effect.run_lift heffect)).trans hrun, hquiet.trans halike⟩

/-- What follows a check is asked when the check passes. -/
theorem Asks.guarded {holds : Bool} {failure : Failure} {rest : PUnit → Action α}
    (h : (rest ⟨⟩).Asks question) :
    Asks (if holds = true then rest ⟨⟩ else MonadExcept.throw failure >>= rest)
      fun disk => if holds = true then question disk else .error failure := by
  split
  · exact h
  · exact .throw failure

theorem Asks.timed (h : action.Asks question) (name : String) :
    (Metric.timed name action).Asks question := by
  intro session
  rcases htimed : (Metric.timed name action).run session with ⟨result, after⟩
  obtain ⟨mid, hrun, hafter⟩ := run_timed htimed
  obtain ⟨mid', hrun', hmid⟩ := h session
  cases hrun.symm.trans hrun'
  exact ⟨after, rfl, hmid.trans hafter⟩

end Asks
end SpecDraft.Action
