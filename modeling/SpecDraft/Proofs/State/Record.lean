import SpecDraft.Proofs.State.Position

/-!
# What is recorded of completed steps

A step that was completed is listed among the completed ones, and it has a record with the time and
the status of its completion. The record is made of two parts: what is noted with each call, and
what the caller said, which goes over it. So the record says what was noted exactly as far as the
caller said nothing else under the same keys (`Store.records_of_calls`).
-/
set_option autoImplicit false

namespace SpecDraft.Store

/-! ## Calls with their times -/

/-- A call with the moment at which it was made. -/
structure Timed where
  moment : Moment
  event : Event

/-- What a call said about a step that it completed, with the moment of the call. -/
def Timed.word? (step : Step) (timed : Timed) : Option (Moment × Members) :=
  timed.event.said?.bind fun (name, said) =>
    if name = step.id then some (timed.moment, said) else none

/-- What was said about a step when it was completed last, and when that was. -/
def lastWord? (step : Step) (history : List Timed) : Option (Moment × Members) :=
  (history.filterMap (Timed.word? step)).getLast?

/-- The calls of a history, without their times. -/
def events (history : List Timed) : List Event := history.map Timed.event

/-- A sequence of calls on a store with the times of the calls. As in `Calls`, any call may fail,
and between two calls nothing is taken from the disk. -/
inductive TimedCalls (store : Store) (start : Session) : List Timed → Session → Prop
  | nil : TimedCalls store start [] start
  | call {history : List Timed} {last before after : Session} {call : Call}
      {result : Except Failure State} : TimedCalls store start history last →
      (∀ place, Disk.Keeps place last.disk before.disk) → call.WellFormed →
      (call.action store).run before = (result, after) →
      TimedCalls store start (history ++ [⟨before.now, call, result⟩]) after

section Words
variable {step : Step} {history : List Timed} {timed : Timed}

theorem lastWord?_concat_none (h : timed.word? step = none) :
    lastWord? step (history ++ [timed]) = lastWord? step history := by
  rw [lastWord?, List.filterMap_append, List.filterMap_cons_none h, List.filterMap_nil,
    List.append_nil, lastWord?]

theorem lastWord?_concat_some {word : Moment × Members} (h : timed.word? step = some word) :
    lastWord? step (history ++ [timed]) = some word := by
  rw [lastWord?, List.filterMap_append, List.filterMap_cons_some h, List.filterMap_nil,
    List.getLast?_concat]

theorem events_concat (history : List Timed) (timed : Timed) :
    events (history ++ [timed]) = events history ++ [timed.event] := List.map_append

theorem word?_of_said {said : Members} (h : timed.event.said? = some (step.id, said)) :
    timed.word? step = some (timed.moment, said) := by
  rw [Timed.word?, h]
  exact if_pos rfl

theorem word?_of_other {other : Step} {said : Members}
    (h : timed.event.said? = some (other.id, said)) (hne : other ≠ step) :
    timed.word? step = none := by
  rw [Timed.word?, h]
  exact if_neg fun hid => hne (Step.id_injective hid)

theorem word?_of_silent (h : timed.event.said? = none) : timed.word? step = none := by
  rw [Timed.word?, h]
  rfl

end Words

/-! ## Records -/

/-- What the record of a step says after it was completed with some words at some moment. -/
structure Notes (record : Members) (moment : Moment) (said : Members) : Prop where
  status : record.get? "status" = (said.get? "status").or (some (.str "completed"))
  completed : record.get? "completed" = (said.get? "completed").or (some (.str moment.stamp))

/-- Whether a record says that its step was completed at a moment. -/
def IsCompletion (record : Members) (moment : Moment) : Prop :=
  record.get? "status" = some (.str "completed") ∧
    record.get? "completed" = some (.str moment.stamp)

section Notes
variable {record said : Members} {moment : Moment}

/-- What is noted, and then what is said, goes into the record. -/
theorem notes_merge (record : Members) (hsaid : said.keys.Nodup) (moment : Moment) :
    Notes ((record.merge [("completed", .str moment.stamp), ("status", .str "completed")]).merge
      said) moment said := by
  have hkeys : (Members.keys
      [("completed", .str moment.stamp), ("status", .str "completed")]).Nodup :=
    show ["completed", "status"].Nodup by decide
  refine ⟨?_, ?_⟩
  · rw [Members.get?_merge _ hsaid, Members.get?_merge _ hkeys]
    rfl
  · rw [Members.get?_merge _ hsaid, Members.get?_merge _ hkeys]
    rfl

theorem or_some_eq_iff {value : Option Json} {noted : Json} :
    value.or (some noted) = some noted ↔ ∀ other, value = some other → other = noted := by
  cases value with
  | none => simp
  | some other => simp

/-- **A record tells of the completion** exactly when the caller said nothing else about it. -/
theorem Notes.isCompletion_iff (h : Notes record moment said) : IsCompletion record moment ↔
    (∀ value, said.get? "status" = some value → value = .str "completed") ∧
      ∀ value, said.get? "completed" = some value → value = .str moment.stamp := by
  rw [IsCompletion, h.status, h.completed, or_some_eq_iff, or_some_eq_iff]

end Notes

/-- Whether a state has the record of every step that was completed. -/
def Registers (history : List Timed) (state : State) : Prop :=
  ∀ step ∈ completions (events history), ∃ moment said record,
    lastWord? step history = some (moment, said) ∧
      state.details.lookup step.id = some record ∧ Notes record moment said

section Registers
variable {store : Store} {history : List Timed} {timed : Timed} {state old : State}
  {before after start session : Session} {call : Call} {first : State} {route : Json}

theorem registers_nil (state : State) : Registers [] state := by
  intro step hstep
  cases hstep

/-- A call that completed no step leaves the records as they are. -/
theorem Registers.idle (h : Registers history old) (hcompleted : timed.event.completed? = none)
    (hsaid : timed.event.said? = none) (hdetails : state.details = old.details) :
    Registers (history ++ [timed]) state := by
  intro step hstep
  rw [events_concat, completions_concat, hcompleted, Option.toList_none, List.append_nil] at hstep
  rw [lastWord?_concat_none (word?_of_silent hsaid), hdetails]
  exact h step hstep

/-- A call that completed a step makes the record of that step anew, and no other. -/
theorem Registers.complete {step : Step} {said : Members} {now : Moment}
    (h : Registers history old) (hcompleted : timed.event.completed? = some step)
    (hsaid : timed.event.said? = some (step.id, said)) (hmoment : timed.moment = now)
    (hnodup : said.keys.Nodup) :
    Registers (history ++ [timed]) ((old.complete step said now).stamped now) := by
  intro other hother
  by_cases hsame : step = other
  · subst hsame
    refine ⟨timed.moment, said, _, lastWord?_concat_some (word?_of_said hsaid),
      Assoc.lookup_put_self old.details step.id _, ?_⟩
    rw [hmoment]
    exact notes_merge (old.detailsOf step) hnodup now
  · have hid : other.id ≠ step.id := fun hid => hsame (Step.id_injective hid).symm
    rw [events_concat, completions_concat, hcompleted, Option.toList_some, List.mem_append,
      List.mem_singleton] at hother
    obtain ⟨moment, words, record, hword, hrecord, hnotes⟩ :=
      h other (hother.resolve_right (Ne.symm hsame))
    refine ⟨moment, words, record, ?_, ?_, hnotes⟩
    · rw [lastWord?_concat_none (word?_of_other hsaid hsame)]
      exact hword
    · exact (Assoc.lookup_put_ne hid old.details _).trans hrecord

/-- What one call does to the records, for what stands in the file before it. -/
theorem Registers.call_ok {read : State} (h : Registers history old)
    (hold : store.Stands (events history) before.disk old) (hwf : call.WellFormed)
    (hcall : (call.action store).run before = (.ok read, after)) :
    Registers (history ++ [⟨before.now, call, .ok read⟩]) read := by
  cases call with
  | ensure route =>
    have hload := (ensure_of_present hold.stores.isFile).symm.trans hcall
    obtain rfl := load_unchanged hload
    obtain rfl := hold.eq_of_load hload
    exact h.idle rfl rfl rfl
  | updateRoute route =>
    obtain ⟨loaded, hload, rfl, -, -⟩ := updateRoute_ok hcall
    obtain rfl := hold.eq_of_load hload
    exact h.idle rfl rfl rfl
  | completeStep name said =>
    obtain ⟨step, loaded, record, hstep, hload, hrecord, rfl, -, -⟩ := completeStep_ok hcall
    obtain rfl := hold.eq_of_load hload
    refine h.complete hstep ?_ rfl (saidOf_wellFormed hwf hrecord).nodup
    simp only [Event.said?, hstep, hrecord]
    rfl

/-- **Calls leave a state with the record of every step they completed**, by induction on the
calls. -/
theorem TimedCalls.registers (habsent : before.disk.isFile store.file = .ok false)
    (hstart : (store.ensure route).run before = (.ok first, start))
    (h : TimedCalls store start history session) :
    ∃ state, store.Stands (events history) session.disk state ∧ Registers history state := by
  induction h with
  | nil =>
    have hnone : Calls store start [] start := .nil
    obtain ⟨state, hstate⟩ := hnone.stands habsent hstart
    exact ⟨state, hstate, registers_nil state⟩
  | @call history last before after call result _ hkeeps hwf hcall ih =>
    obtain ⟨state, hstate, hregisters⟩ := ih
    have hbefore : store.Stands (events history) before.disk state :=
      { hstate with stores := hstate.stores.of_keeps hkeeps }
    rw [events_concat]
    cases result with
    | ok read => exact ⟨read, hbefore.call_ok hwf hcall, hregisters.call_ok hbefore hwf hcall⟩
    | error failure =>
      refine ⟨state, hbefore.call_error hcall, hregisters.idle ?_ ?_ rfl⟩
      · cases call <;> rfl
      · cases call <;> rfl

/-- **What is recorded of a completed step.** A state was made where there was none, and then any
calls were made, whether they succeeded or failed. Then every entry of the completed steps is a step
that was completed, and it has a record. The record gives the status `completed` and the time of the
call that completed the step last, except where that call said something else under the same keys;
so it tells of that completion exactly when the call did not. -/
theorem records_of_calls (habsent : before.disk.isFile store.file = .ok false)
    (hstart : (store.ensure route).run before = (.ok first, start))
    (h : TimedCalls store start history session) :
    ∃ state, store.Stores session.disk state ∧ ∀ entry ∈ state.completed,
      ∃ step moment said record, entry = .str step.id ∧
        lastWord? step history = some (moment, said) ∧
        state.details.lookup step.id = some record ∧ Notes record moment said ∧
        (IsCompletion record moment ↔
          (∀ value, said.get? "status" = some value → value = .str "completed") ∧
            ∀ value, said.get? "completed" = some value → value = .str moment.stamp) := by
  obtain ⟨state, hstate, hregisters⟩ := h.registers habsent hstart
  refine ⟨state, hstate.stores, fun entry hentry => ?_⟩
  rw [hstate.completed, State.stepNames, List.mem_map] at hentry
  obtain ⟨step, hstep, rfl⟩ := hentry
  obtain ⟨moment, said, record, hword, hrecord, hnotes⟩ :=
    hregisters step (List.mem_eraseDups.mp hstep)
  exact ⟨step, moment, said, record, rfl, hword, hrecord, hnotes, hnotes.isCompletion_iff⟩

end Registers

/-! ## A step completed with a word -/

/-- The state of the sample with its first step completed and something said about it. -/
def sampleSaying (said : Members) : State := (sampleFresh.complete .analyze said ⟨0⟩).stamped ⟨0⟩

/-- The call that completes the first step. -/
def sampleSaid (said : Members) : Timed :=
  ⟨⟨0⟩, .completeStep (.str "analyze") (.obj said), .ok (sampleSaying said)⟩

theorem saidOf_obj (said : Members) : saidOf (.obj said) = .ok said := by
  cases said <;> rfl

theorem roomy_saying {said : Members} (hwf : (Json.obj said).WellFormed)
    (hvalid : State.violations (sampleSaying said).toJson = [])
    (hwithin : (sampleSaying said).toJson.excess? roomy.limits 0 = none) :
    ∃ session, TimedCalls roomy roomyMade [sampleSaid said] session ∧
      roomy.Stores session.disk (sampleSaying said) := by
  obtain ⟨session, hcall⟩ :
      ∃ session, (roomy.completeStep (.str "analyze") (.obj said)).run roomyMade =
        (.ok (sampleSaying said), session) :=
    completeStep_of_ready (show _ = some Step.analyze by decide +kernel) roomyMade_load
      (saidOf_obj said) hvalid roomyMade_ready hwithin
  obtain ⟨_, _, _, -, -, -, -, -, hstores⟩ := completeStep_ok hcall
  have hcallwf : (Call.completeStep (.str "analyze") (.obj said)).WellFormed := hwf
  exact ⟨session, .call .nil (fun place => Disk.Keeps.refl place _) hcallwf hcall, hstores⟩

/-- A word that a caller can give with a step: that the step is not done. -/
def sampleDenial : Members := [("status", .str "in_progress")]

theorem roomy_denial : ∃ session, TimedCalls roomy roomyMade [sampleSaid sampleDenial] session ∧
    roomy.Stores session.disk (sampleSaying sampleDenial) :=
  roomy_saying ⟨List.nodup_singleton "status", trivial, trivial⟩
    (show State.violations (sampleSaying sampleDenial).toJson = [] by decide +kernel)
    (show (sampleSaying sampleDenial).toJson.excess? roomy.limits 0 = none from rfl)

/-- A step can stand among the completed ones with a record that says it is not completed. -/
theorem in_progress_of_denial : ∃ start session state record,
    (roomy.ensure .null).run sampleSession = (.ok sampleFresh, start) ∧
    TimedCalls roomy start [sampleSaid sampleDenial] session ∧ roomy.Stores session.disk state ∧
    .str "analyze" ∈ state.completed ∧ state.details.lookup "analyze" = some record ∧
    record.get? "status" = some (.str "in_progress") := by
  obtain ⟨session, hcalls, hstores⟩ := roomy_denial
  have hmem : .str "analyze" ∈ (sampleSaying sampleDenial).completed := List.mem_singleton_self _
  exact ⟨roomyMade, session, _, _, roomy_ensure, hcalls, hstores, hmem, rfl, rfl⟩

theorem records_of_denial : ∃ session state,
    TimedCalls roomy roomyMade [sampleSaid sampleDenial] session ∧
    roomy.Stores session.disk state ∧ ∀ entry ∈ state.completed,
      ∃ step moment said record, entry = .str step.id ∧
        lastWord? step [sampleSaid sampleDenial] = some (moment, said) ∧
        state.details.lookup step.id = some record ∧ Notes record moment said := by
  obtain ⟨session, hcalls, -⟩ := roomy_denial
  obtain ⟨state, hstores, hrecords⟩ := records_of_calls rfl roomy_ensure hcalls
  refine ⟨session, state, hcalls, hstores, fun entry hentry => ?_⟩
  obtain ⟨step, moment, said, record, hstep, hword, hrecord, hnotes, -⟩ := hrecords entry hentry
  exact ⟨step, moment, said, record, hstep, hword, hrecord, hnotes⟩

end SpecDraft.Store
