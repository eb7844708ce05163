import SpecDraft.Proofs.Workflow.Commands

/-!
# Hooks disturb nothing

The hooks of an event are called once each, in their order, whatever they do meanwhile
(`Hook.trigger_calls`). What operations see does not hold the hooks, and that an effect depends on
nothing else is a law (`Effect.Law.blind`). So every command has the result, and leaves the files,
that it would without hooks (`Project.answer_of_hooks`).
-/
set_option autoImplicit false

namespace SpecDraft

/-! ## Calls -/

/-- Whether an effect calls hooks, namely these in this order. -/
def Effect.Calls {α : Type} (effect : Effect α) (calls : List HookCall) : Prop :=
  ∀ session : Session, (effect.run session).2.calls = session.calls ++ calls

namespace Effect

variable {α β : Type} {effect : Effect α} {next : α → Effect β} {calls later : List HookCall}

theorem Calls.pure (x : α) : (Pure.pure x : Effect α).Calls [] :=
  fun session => (List.append_nil session.calls).symm

theorem Calls.bind (h : effect.Calls calls) (hnext : ∀ x, (next x).Calls later) :
    (effect >>= next).Calls (calls ++ later) := by
  intro session
  rcases hrun : effect.run session with ⟨x, mid⟩
  have hmid : mid.calls = session.calls ++ calls := by
    rw [← h session, hrun]
  rw [run_bind hrun, hnext x mid, hmid, List.append_assoc]

/-- Looking at the session calls no hook. -/
theorem Calls.after_get {next : Session → Effect β} (h : ∀ session, (next session).Calls calls) :
    (get >>= next).Calls calls := fun session => h session session

theorem Calls.forM {act : α → Effect Unit} {call : α → HookCall}
    (h : ∀ x, (act x).Calls [call x]) (xs : List α) : (xs.forM act).Calls (xs.map call) := by
  induction xs with
  | nil => exact .pure ()
  | cons x xs ih => exact (h x).bind fun _ => ih

end Effect

namespace Hook

theorem write_calls (level : Log.Level) (logger message : String) (fields : Members) :
    (Log.write level logger message fields).Calls [] :=
  fun session => (List.append_nil session.calls).symm

/-- A change to the hooks calls none of them. -/
theorem change_calls (change : HookChange) : (Hook.change change).Calls [] := by
  cases change <;> exact fun session => (List.append_nil session.calls).symm

theorem changes_calls (changes : List HookChange) : (changes.forM change).Calls [] := by
  induction changes with
  | nil => exact .pure ()
  | cons first rest ih => exact (change_calls first).bind fun _ => ih

/-- A hook is called once, whatever it does. -/
theorem call_calls (event : String) (data : Members) (hook : String) :
    (call event data hook).Calls [⟨hook, event, data⟩] := by
  have hnotes : (modify fun session : Session => { session with
      calls := session.calls ++ [⟨hook, event, data⟩] } : Effect Unit).Calls
      [⟨hook, event, data⟩] := fun _ => rfl
  refine hnotes.bind fun _ => .after_get fun session => ?_
  refine .bind (changes_calls (reactionOf session hook).changes) fun _ => ?_
  split
  · exact write_calls _ _ _ _
  · exact .pure ()

/-- **The hooks of an event are called once each**, in the order in which they were registered
when it happened, and with the same data, whatever they change and however they fail. -/
theorem trigger_calls (event : String) (data : Members) (session : Session) :
    ((trigger event data).run session).2.calls =
      session.calls ++ (forEvent session.hooks event).map (⟨·, event, data⟩) :=
  Effect.Calls.forM (call_calls event data) _ session

end Hook

/-! ## Sessions that look the same -/

/-- The law of what depends on nothing but what operations see. -/
def Effect.Law.blind : Effect.Law where
  Holds effect := ∀ a b : Session, a.Alike b → (effect.run a).1 = (effect.run b).1 ∧
    (effect.run a).2.Alike (effect.run b).2
  quiet h a b hab := ⟨rfl, (h a).symm.trans (hab.trans (h b))⟩
  pure _ _ _ hab := ⟨rfl, hab⟩
  bind {_ _ effect next} h hnext a b hab := by
    obtain ⟨hresult, hafter⟩ := h a b hab
    rcases ha : effect.run a with ⟨x, a'⟩
    rcases hb : effect.run b with ⟨y, b'⟩
    rw [ha, hb] at hresult hafter
    cases hresult
    rw [run_bind ha, run_bind hb]
    exact hnext x a' b' hafter
  ask {_ next} h hnext a b hab := by
    have hrest := h a a b hab
    rwa [show (next a).run b = (next b).run b by rw [hnext a b hab]] at hrest

/-- What is done to the disk depends on the disk alone. -/
theorem Effect.Law.blind_onDisk {α : Type} (action : DiskM α) : blind.OfAction (onDisk action) := by
  intro a b hab
  change (action.run a.disk).1 = (action.run b.disk).1 ∧
    Session.Alike { a with disk := (action.run a.disk).2 } { b with disk := (action.run b.disk).2 }
  rw [hab.disk]
  exact ⟨rfl, hab.now, hab.elapsed, rfl⟩

namespace Workflow.Project

/-- **Hooks cannot disturb a project.** Whatever hooks are registered, and whatever each of them
does when it is called, which may depend on all calls so far: it may fail, and register and take
back hooks. When an event happens, the hooks that are registered for it at that time are called
once each, in the order of their registration and with the data of the event; the session looks the
same afterwards. So every command has the result that it has with any other hooks, or with none, and
leaves the same disk. -/
theorem answer_of_hooks (project : Project) (command : Command) (event : String) (data : Members)
    (session : Session) (hooks : List (String × List String))
    (reactions : List (String × Behaviour)) :
    ((Hook.trigger event data).run session).2.calls =
        session.calls ++ (Hook.forEvent session.hooks event).map (⟨·, event, data⟩) ∧
      session.Alike ((Hook.trigger event data).run session).2 ∧
      ((project.answer command).run session).1 =
        ((project.answer command).run { session with hooks, reactions }).1 ∧
      ((project.answer command).run session).2.disk =
        ((project.answer command).run { session with hooks, reactions }).2.disk := by
  have hblind : Effect.Law.blind.OfAction (project.answer command) :=
    answer_law (fun _ _ => Effect.Law.blind_onDisk _) (fun _ _ _ => Effect.Law.blind_onDisk _) command
  obtain ⟨hresult, halike⟩ := hblind session { session with hooks, reactions } ⟨rfl, rfl, rfl⟩
  exact ⟨Hook.trigger_calls event data session, Hook.trigger_quiet event data session, hresult,
    halike.disk.symm⟩

end Workflow.Project
end SpecDraft
