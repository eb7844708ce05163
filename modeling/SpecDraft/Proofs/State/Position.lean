import SpecDraft.Proofs.State.Foreign
import SpecDraft.Workflow.Position

/-!
# The position of a project

The step to be done next is read off the step that was completed last, and the steps that are done
off all that were ever completed (`Store.Stands`). The two fit together only as far as steps are
completed in order: `Store.position_of_calls` says when the next step is one that is done already,
and when there is none left although some steps are not done.
-/
set_option autoImplicit false

namespace SpecDraft

/-! ## The order of the steps -/

namespace Step

/-- Whether each step of a list comes after the step before it. -/
def InOrder (steps : List Step) : Prop :=
  ∀ before step after, steps = before ++ step :: after →
    ∀ previous, next? previous = some step → previous ∈ before

section Order
variable {step other next previous : Step} {steps : List Step}

theorem mem_all (step : Step) : step ∈ all := by
  cases step <;> decide

theorem number_injective : Function.Injective number := by
  intro a b h
  cases a <;> cases b <;> first | rfl | cases h

theorem number_of_next? (h : step.next? = some next) : next.number = step.number + 1 := by
  cases step <;> cases h <;> rfl

theorem next?_eq_none_iff : step.next? = none ↔ step = implement := by
  cases step <;> decide

theorem number_le (step : Step) : step.number ≤ implement.number := by
  cases step <;> decide

theorem exists_previous (h : 1 < step.number) : ∃ previous : Step, previous.next? = some step := by
  cases step with
  | analyze => exact absurd h (by decide)
  | reverseEngineer => exact ⟨analyze, rfl⟩
  | createSpecs => exact ⟨reverseEngineer, rfl⟩
  | gapAnalysis => exact ⟨createSpecs, rfl⟩
  | completeSpec => exact ⟨gapAnalysis, rfl⟩
  | implement => exact ⟨completeSpec, rfl⟩

theorem InOrder.mem_of_next? (h : InOrder steps) (hstep : step ∈ steps)
    (hnext : previous.next? = some step) : previous ∈ steps := by
  obtain ⟨before, after, rfl⟩ := List.append_of_mem hstep
  exact List.mem_append_left _ (h before step after rfl previous hnext)

/-- Steps in order leave none out, by induction on how far a step is from one that is there. -/
theorem InOrder.mem_of_number_le (h : InOrder steps) (hstep : step ∈ steps)
    (hle : other.number ≤ step.number) : other ∈ steps := by
  obtain ⟨distance, hdistance⟩ := Nat.exists_eq_add_of_le hle
  induction distance generalizing step with
  | zero =>
    obtain rfl : step = other := number_injective hdistance
    exact hstep
  | succ distance ih =>
    have hpositive : 1 ≤ other.number := by
      cases other <;> decide
    obtain ⟨previous, hprevious⟩ := exists_previous (show 1 < step.number by omega)
    have hnumber := number_of_next? hprevious
    exact ih (h.mem_of_next? hstep hprevious) (by omega) (by omega)

/-- Once the last step is there, so is every step. -/
theorem InOrder.mem_of_implement (h : InOrder steps) (hlast : implement ∈ steps) (step : Step) :
    step ∈ steps :=
  h.mem_of_number_le hlast (number_le step)

end Order
end Step

/-! ## Progress -/

namespace State

variable {state : State} {steps : List Step}

/-- **All is done** exactly when every step is. -/
theorem progress_eq_hundred_iff (h : state.completed = stepNames steps) (hnodup : steps.Nodup) :
    state.progress = 100 ↔ ∀ step, step ∈ steps := by
  have hle : steps.length ≤ 6 :=
    (List.subperm_of_subset hnodup fun step _ => Step.mem_all step).length_le
  have hprogress : state.progress = steps.length * 100 / 6 := by
    rw [progress, h, stepNames, List.length_map]
    rfl
  constructor
  · intro hdone step
    by_contra hstep
    -- One step more would make seven different ones.
    have hmore : (step :: steps).length ≤ 6 := (List.subperm_of_subset
      (List.nodup_cons.mpr ⟨hstep, hnodup⟩) fun step _ => Step.mem_all step).length_le
    rw [List.length_cons] at hmore
    omega
  · intro hall
    have hstages : Step.all.Nodup := by decide
    have hge : 6 ≤ steps.length :=
      (List.subperm_of_subset hstages fun step _ => hall step).length_le
    rw [hprogress, show steps.length = 6 by omega]

end State

namespace Store

/-! ## Where a sequence of calls leaves the state -/

/-- What the file of a store holds after some calls: a state that names the steps that were
completed and the step after the last one. -/
structure Stands (store : Store) (history : List Event) (disk : Disk) (state : State) : Prop where
  stores : store.Stores disk state
  proper : state.Proper
  completed : state.completed = State.stepNames (completions history).eraseDups
  currentStep : state.currentStep = .ofText? ((nextStep? history).map Step.id)

section Stands
variable {store : Store} {history : List Event} {event : Event} {call : Call} {state read : State}
  {start session session' before after : Session} {failure : Failure} {route : Json}

/-- A state that is read from the file is the one that stands there. -/
theorem Stands.eq_of_load (h : store.Stands history before.disk state)
    (hload : store.load.run before = (.ok read, session')) : read = state := by
  obtain ⟨-, members, hholds, -, hreads⟩ := load_ok.mp hload
  rw [(h.stores.contains h.proper).unique hholds.contains] at hreads
  exact Except.ok.inj (hreads.ofMembers.symm.trans h.proper.reads.ofMembers)

/-- A call that completed no step leaves the steps as they are. -/
theorem Stands.idle (h : store.Stands history before.disk state)
    (hevent : event.completed? = none) (hstores : store.Stores after.disk read)
    (hproper : read.Proper) (hcompleted : read.completed = state.completed)
    (hcurrent : read.currentStep = state.currentStep) :
    store.Stands (history ++ [event]) after.disk read where
  stores := hstores
  proper := hproper
  completed := by
    rw [completions_concat, hevent, Option.toList_none, List.append_nil, hcompleted]
    exact h.completed
  currentStep := by
    rw [nextStep?_concat_none hevent, hcurrent]
    exact h.currentStep

theorem Stands.call_error (h : store.Stands history before.disk state)
    (hcall : (call.action store).run before = (.error failure, after)) :
    store.Stands (history ++ [⟨call, .error failure⟩]) after.disk state := by
  refine h.idle ?_ (h.stores.of_keeps (Store.call_error hcall)) h.proper rfl rfl
  cases call <;> rfl

theorem Stands.call_ok (h : store.Stands history before.disk state) (hwf : call.WellFormed)
    (hcall : (call.action store).run before = (.ok read, after)) :
    store.Stands (history ++ [⟨call, .ok read⟩]) after.disk read := by
  have hproper := proper_of_call hwf hcall
  cases call with
  | ensure route =>
    -- The file is there and only read.
    have hload := (ensure_of_present h.stores.isFile).symm.trans hcall
    obtain rfl := load_unchanged hload
    obtain rfl := h.eq_of_load hload
    exact h.idle rfl h.stores hproper rfl rfl
  | updateRoute route =>
    obtain ⟨old, hload, rfl, -, hstores⟩ := updateRoute_ok hcall
    obtain rfl := h.eq_of_load hload
    exact h.idle rfl hstores hproper rfl rfl
  | completeStep name said =>
    obtain ⟨step, old, record, hstep, hload, -, hread, -, hstores⟩ := completeStep_ok hcall
    obtain rfl := h.eq_of_load hload
    have hevent : Event.completed? ⟨.completeStep name said, .ok read⟩ = some step := hstep
    subst hread
    refine ⟨hstores, hproper, ?_, ?_⟩
    · rw [completions_concat, hevent, Option.toList_some]
      exact completed_complete h.completed step record before.now
    · rw [nextStep?_concat_some hevent]
      rfl

/-- **Calls leave a state that names the steps they completed**, by induction on the calls. -/
theorem Calls.stands (habsent : before.disk.isFile store.file = .ok false)
    (hstart : (store.ensure route).run before = (.ok state, start))
    (h : Calls store start history session) :
    ∃ last, store.Stands history session.disk last := by
  induction h with
  | nil =>
    rcases ensure_ok hstart with ⟨hpresent, -, -⟩ | ⟨-, hroute, rfl, hstores⟩
    · rw [habsent] at hpresent
      cases hpresent
    · exact ⟨_, hstores, State.fresh_proper (Route.wellFormed_of_isKnown hroute), rfl, rfl⟩
  | @call history last before after call result _ hkeeps hwf hcall ih =>
    obtain ⟨state, hstate⟩ := ih
    have hbefore : store.Stands history before.disk state :=
      { hstate with stores := hstate.stores.of_keeps hkeeps }
    cases result with
    | ok read => exact ⟨read, hbefore.call_ok hwf hcall⟩
    | error failure => exact ⟨state, hbefore.call_error hcall⟩

end Stands

/-! ## What the position says -/

section Position
variable {store : Store} {history : List Event} {disk : Disk} {state : State}

/-- The step to be done next is one that is done already exactly when it was completed. -/
theorem Stands.mem_completed_iff (h : store.Stands history disk state) :
    state.currentStep ∈ state.completed ↔
      ∃ next, nextStep? history = some next ∧ next ∈ completions history := by
  rw [h.currentStep, h.completed, State.stepNames, List.mem_map]
  cases nextStep? history with
  | none => simp [Json.ofText?]
  | some next =>
    simp only [Option.map_some, Json.ofText?, Json.str.injEq, List.mem_eraseDups,
      Option.some.injEq, exists_eq_left']
    constructor
    · rintro ⟨step, hstep, hid⟩
      exact Step.id_injective hid ▸ hstep
    · intro hnext
      exact ⟨next, hnext, rfl⟩

/-- No step is left to be done next exactly when the last one was completed last. -/
theorem Stands.currentStep_eq_null_iff (h : store.Stands history disk state) :
    state.currentStep = .null ↔ (completions history).getLast? = some .implement := by
  rw [h.currentStep, nextStep?]
  cases (completions history).getLast? with
  | none => simp [Json.ofText?]
  | some step =>
    rw [Option.some.injEq, ← Step.next?_eq_none_iff]
    dsimp only
    cases step.next? <;> simp [Json.ofText?]

theorem nodup_eraseDups (steps : List Step) : steps.eraseDups.Nodup := by
  induction steps using List.reverseRecOn with
  | nil => exact List.nodup_nil
  | append_singleton steps step ih =>
    rw [eraseDups_concat]
    split
    · exact ih
    · rename_i hstep
      refine ih.append (List.nodup_singleton step) ?_
      simpa using hstep

theorem Stands.progress_iff (h : store.Stands history disk state) :
    state.progress = 100 ↔ ∀ step, step ∈ completions history := by
  rw [State.progress_eq_hundred_iff h.completed (nodup_eraseDups _)]
  simp only [List.mem_eraseDups]

/-- Where the steps are completed in order, the next step is done already exactly when a step was
completed again after a later one. -/
theorem Stands.mem_completed_iff_of_inOrder (h : store.Stands history disk state)
    (horder : Step.InOrder (completions history)) :
    state.currentStep ∈ state.completed ↔
      ∃ last step, (completions history).getLast? = some last ∧ step ∈ completions history ∧
        last.number < step.number := by
  rw [h.mem_completed_iff, nextStep?]
  constructor
  · rintro ⟨next, hnext, hmem⟩
    cases hlast : (completions history).getLast? with
    | none =>
      rw [List.getLast?_eq_none_iff.mp hlast] at hmem
      cases hmem
    | some last =>
      rw [hlast] at hnext
      have hnumber := Step.number_of_next? hnext
      exact ⟨last, next, rfl, hmem, by omega⟩
  · rintro ⟨last, step, hlast, hstep, hlt⟩
    rw [hlast]
    dsimp only
    cases hnext : last.next? with
    | none =>
      -- Nothing comes after the last step.
      rw [Step.next?_eq_none_iff.mp hnext] at hlt
      exact absurd hlt (not_lt.mpr (Step.number_le step))
    | some next =>
      have hnumber := Step.number_of_next? hnext
      exact ⟨next, rfl, horder.mem_of_number_le hstep (by omega)⟩

theorem Stands.progress_of_inOrder (h : store.Stands history disk state)
    (horder : Step.InOrder (completions history)) (hnull : state.currentStep = .null) :
    state.progress = 100 :=
  h.progress_iff.mpr
    (horder.mem_of_implement (List.mem_of_getLast? (h.currentStep_eq_null_iff.mp hnull)))

end Position

end Store

/-! ## The report -/

namespace Workflow.Project

variable {project : Project} {session session' : Session} {state : State} {report : Members}

/-- A report is made on the state that was read, or on the failure to read it. -/
theorem reportState_ok (h : project.reportState.run session = (.ok (.obj report), session')) :
    (∃ state mid, project.store.load.run session = (.ok state, mid) ∧
        report = project.stateMembers state mid.disk) ∨
      ∃ failure mid, project.store.load.run session = (.error failure, mid) ∧
        report = unreadMembers failure := by
  unfold reportState at h
  obtain ⟨result, mid, hattempted, hrest⟩ := Action.run_bind_ok h
  have hload : (Except.ok (project.store.load.run session).1,
      (project.store.load.run session).2) = (Except.ok result, mid) := hattempted
  obtain ⟨hresult, hmid⟩ := Prod.mk.inj hload
  have hrun : project.store.load.run session = (result, mid) :=
    Prod.ext (Except.ok.inj hresult) hmid
  cases result with
  | ok state =>
    cases hrest
    exact .inl ⟨state, session', hrun, rfl⟩
  | error failure =>
    refine .inr ⟨failure, mid, hrun, ?_⟩
    dsimp only at hrest
    split at hrest
    · cases hrest
      rfl
    · cases hrest

/-- The report names the end of the work only where there is no step left to be done next. -/
theorem isFilled_of_stateMembers {disk : Disk}
    (h : (project.stateMembers state disk).get? "message" =
      some (.str "All workflow steps are complete")) : state.currentStep.isFilled = false := by
  have hmessage : (if state.currentStep.isFilled then "Current step: " ++ state.currentStep.display
      else "All workflow steps are complete") = "All workflow steps are complete" :=
    Json.str.inj (Option.some.inj h)
  rw [Bool.eq_false_iff]
  intro hfilled
  rw [if_pos hfilled] at hmessage
  have hchars := congrArg String.toList hmessage
  rw [String.toList_append] at hchars
  cases hchars

theorem message_of_unreadMembers (failure : Failure) :
    (unreadMembers failure).get? "message" = some (.str (failureMessage failure)) := by
  cases failure <;> rfl

theorem failureMessage_ne (failure : Failure) :
    failureMessage failure ≠ "All workflow steps are complete" := by
  intro h
  have hchars := congrArg String.toList h
  rw [failureMessage, String.toList_append] at hchars
  cases hchars

end Workflow.Project

namespace Store

/-- What a state says about the position of a project after some calls. Where the steps were
completed in order, the next step is done already only when a step was completed again after a
later one, and none is left only when all are done. -/
structure Position (history : List Event) (state : State) : Prop where
  completed : state.completed = State.stepNames (completions history).eraseDups
  currentStep : state.currentStep = .ofText? ((nextStep? history).map Step.id)
  repeated : state.currentStep ∈ state.completed ↔
    ∃ next, nextStep? history = some next ∧ next ∈ completions history
  ended : state.currentStep = .null ↔ (completions history).getLast? = some .implement
  done : state.progress = 100 ↔ ∀ step, step ∈ completions history
  ordered : Step.InOrder (completions history) →
    (state.currentStep ∈ state.completed ↔
      ∃ last step, (completions history).getLast? = some last ∧ step ∈ completions history ∧
        last.number < step.number) ∧
    (state.currentStep = .null → state.progress = 100)

section Report
variable {store : Store} {history : List Event} {before start session session' : Session}
  {first state : State} {route : Json} {report : Members}

theorem Stands.position {disk : Disk} (h : store.Stands history disk state) :
    Position history state where
  completed := h.completed
  currentStep := h.currentStep
  repeated := h.mem_completed_iff
  ended := h.currentStep_eq_null_iff
  done := h.progress_iff
  ordered horder := ⟨h.mem_completed_iff_of_inOrder horder, h.progress_of_inOrder horder⟩

theorem Stands.eq_null_of_not_isFilled {disk : Disk} (h : store.Stands history disk state)
    (hfilled : state.currentStep.isFilled = false) : state.currentStep = .null := by
  rw [h.currentStep] at hfilled ⊢
  revert hfilled
  cases nextStep? history with
  | none => exact fun _ => rfl
  | some next => cases next <;> exact fun hfilled => absurd hfilled (by decide)

/-- **Where a project stands after any calls.** A state was made where there was none, and then
any steps were completed, in any order and again, among other calls. The step to be done next is
the one after the step that was completed last; whether it is done already, and whether all steps
are done when there is none, depends on the order in which they were completed. A report that
tells of success gives that step and the share of the steps that are done; it says that all is
done only where no step is left to be done next. -/
theorem position_of_calls (habsent : before.disk.isFile store.file = .ok false)
    (hstart : (store.ensure route).run before = (.ok first, start))
    (hcalls : Calls store start history session) :
    ∃ state, store.Stores session.disk state ∧ Position history state ∧
      ∀ project : Workflow.Project, project.store = store → ∀ (report : Members) session',
        project.reportState.run session = (.ok (.obj report), session') →
        (report.get? "success" = some (.bool true) →
          report.get? "state" = some state.toJson ∧
          report.get? "next_suggested_step" = some state.currentStep ∧
          report.get? "progress_percentage" = some (.nat state.progress)) ∧
        (report.get? "message" = some (.str "All workflow steps are complete") →
          state.currentStep = .null) := by
  obtain ⟨state, hstate⟩ := hcalls.stands habsent hstart
  refine ⟨state, hstate.stores, hstate.position, ?_⟩
  rintro project rfl report session' hreport
  rcases project.reportState_ok hreport with
    ⟨read, mid, hload, rfl⟩ | ⟨failure, mid, hload, rfl⟩
  · obtain rfl := hstate.eq_of_load hload
    refine ⟨fun _ => ⟨rfl, rfl, rfl⟩, fun hmessage => ?_⟩
    exact hstate.eq_null_of_not_isFilled (project.isFilled_of_stateMembers hmessage)
  · refine ⟨fun hsuccess => ?_, fun hmessage => ?_⟩
    · cases failure <;> cases hsuccess
    · rw [Workflow.Project.message_of_unreadMembers] at hmessage
      exact absurd (Json.str.inj (Option.some.inj hmessage))
        (Workflow.Project.failureMessage_ne failure)

end Report

/-! ## A run that goes back -/

section Written
variable {store : Store} {session session' : Session} {state : State}

theorem save_disk (h : (store.save state).run session = (.ok (), session')) :
    session'.disk = ((store.writeText state.toJson.pretty session.now).run session.disk).2 := by
  rw [run_save (save_ok h).within] at h
  rw [← (Prod.mk.inj h).2]

theorem update_disk {change : State → Outcome State}
    (h : (store.update change).run session = (.ok state, session')) :
    session'.disk = ((store.writeText state.toJson.pretty session.now).run session.disk).2 := by
  unfold update at h
  obtain ⟨old, mid, hload, hloaded⟩ := Action.run_bind_ok h
  obtain rfl := load_unchanged hload
  obtain ⟨changed, mid', hchange, hrest⟩ := Action.run_bind_ok hloaded
  rw [Action.run_lift] at hchange
  obtain ⟨-, rfl⟩ := Prod.mk.inj hchange
  rw [Action.run_bind_of_ok (Action.run_get _)] at hrest
  dsimp only at hrest
  split at hrest
  · obtain ⟨_, saved, hsave, hpure⟩ := Action.run_bind_ok hrest
    cases hpure
    exact save_disk hsave
  · cases hrest

theorem completeStep_disk {name said : Json}
    (h : (store.completeStep name said).run session = (.ok state, session')) :
    session'.disk = ((store.writeText state.toJson.pretty session.now).run session.disk).2 := by
  unfold completeStep at h
  split at h
  · rw [Action.run_bind_of_ok (Action.run_get _)] at h
    obtain ⟨updated, mid, hupdate, hrest⟩ := Action.run_bind_ok h
    obtain ⟨_, logged, hlog, hpure⟩ := Action.run_bind_ok hrest
    cases hlog
    cases hpure
    have hdisk := update_disk hupdate
    exact hdisk
  · cases h

end Written

/-- The state of the sample with its second step completed first. -/
def sampleAhead : State := (sampleFresh.complete .reverseEngineer [] ⟨0⟩).stamped ⟨0⟩

/-- The state with the first step completed after that. -/
def sampleBack : State := (sampleAhead.complete .analyze [] ⟨0⟩).stamped ⟨0⟩

/-- The call that completes the second step. -/
def sampleAheadEvent : Event := ⟨.completeStep (.str "reverse-engineer") .null, .ok sampleAhead⟩

/-- The call that completes the first step. -/
def sampleBackEvent : Event := ⟨.completeStep (.str "analyze") .null, .ok sampleBack⟩

/-- The two calls. -/
def sampleReturn : List Event := [sampleAheadEvent, sampleBackEvent]

/-- As many bytes as each of the first two states takes. -/
@[irreducible]
def roomyLimit : Int :=
  max sampleFresh.toJson.pretty.toUTF8.size sampleAhead.toJson.pretty.toUTF8.size

/-- The store of the sample with that limit. -/
def roomy : Store := ⟨⟨"/", ["p"]⟩, roomyLimit, .standard⟩

/-- The session after the file was made. -/
def roomyMade : Session := ((roomy.ensure .null).run sampleSession).2

theorem roomy_directory : roomy.directory = sample.directory :=
  (show roomy.directory = ⟨"/", ["p"]⟩ from rfl).trans rfl

theorem le_roomyLimit : sampleFresh.toJson.pretty.toUTF8.size ≤ roomyLimit ∧
    sampleAhead.toJson.pretty.toUTF8.size ≤ roomyLimit := by
  unfold roomyLimit
  exact ⟨le_max_left _ _, le_max_right _ _⟩

theorem roomy_ensure : (roomy.ensure .null).run sampleSession = (.ok sampleFresh, roomyMade) := by
  obtain ⟨saved, hensure⟩ : ∃ saved, (roomy.ensure .null).run sampleSession =
      (.ok (State.fresh sampleSession.now roomy.directory .null), saved) :=
    ensure_of_ready rfl rfl (sample_ready.of_directory roomy_directory) rfl
  rw [roomyMade, hensure, roomy_directory]
  rfl

theorem roomyMade_load : roomy.load.run roomyMade = (.ok sampleFresh, roomyMade) := by
  rcases ensure_ok roomy_ensure with ⟨hpresent, -, -⟩ | ⟨-, -, -, hstores⟩
  · cases hpresent
  · have hvalid : State.violations sampleFresh.toJson = [] :=
      (State.violations_fresh rfl).mpr (by decide)
    exact (load_of_stores hstores (State.fresh_proper trivial)).mpr ⟨hvalid, le_roomyLimit.1⟩

theorem roomyMade_ready : roomy.Ready roomyMade.disk :=
  (@sample_ready_of_root roomyMade.disk sampleFresh.toJson.pretty.toUTF8 ⟨0⟩ rfl
    fun _ _ => rfl).of_directory roomy_directory

/-- The disk after the first of the two steps. -/
def roomyAhead : Disk := ((roomy.writeText sampleAhead.toJson.pretty ⟨0⟩).run roomyMade.disk).2

theorem roomyAhead_ready : roomy.Ready roomyAhead :=
  (@sample_ready_of_root roomyAhead sampleAhead.toJson.pretty.toUTF8 ⟨0⟩ rfl
    fun _ _ => rfl).of_directory roomy_directory

theorem roomy_goAhead : ∃ ahead,
    (roomy.completeStep (.str "reverse-engineer") .null).run roomyMade = (.ok sampleAhead, ahead) :=
  completeStep_of_ready (show _ = some Step.reverseEngineer by decide +kernel) roomyMade_load rfl
    (show State.violations sampleAhead.toJson = [] by decide +kernel) roomyMade_ready
    (show sampleAhead.toJson.excess? roomy.limits 0 = none from rfl)

theorem roomy_goBack {session : Session} (hnow : session.now = ⟨0⟩)
    (hload : roomy.load.run session = (.ok sampleAhead, session))
    (hready : roomy.Ready session.disk) : ∃ back,
    (roomy.completeStep (.str "analyze") .null).run session = (.ok sampleBack, back) := by
  rw [sampleBack, ← hnow]
  refine completeStep_of_ready (show _ = some Step.analyze by decide +kernel) hload rfl ?_ hready ?_
  · rw [hnow]
    exact (show State.violations sampleBack.toJson = [] by decide +kernel)
  · rw [hnow]
    exact (show sampleBack.toJson.excess? roomy.limits 0 = none from rfl)

theorem roomy_return : ∃ session, Calls roomy roomyMade sampleReturn session ∧
    roomy.Stores session.disk sampleBack := by
  obtain ⟨ahead, hahead⟩ := roomy_goAhead
  obtain ⟨_, _, _, -, -, -, -, hvalid, hstores⟩ := completeStep_ok hahead
  have hwf : (Call.completeStep (.str "reverse-engineer") .null).WellFormed := trivial
  have hready : roomy.Ready ahead.disk := by
    rw [completeStep_disk hahead]
    exact roomyAhead_ready
  -- The second step is completed in a session of its own.
  have hstored : roomy.Stores (Session.start ⟨0⟩ ahead.disk).disk sampleAhead := hstores
  have hload : roomy.load.run (.start ⟨0⟩ ahead.disk) = (.ok sampleAhead, .start ⟨0⟩ ahead.disk) :=
    (load_of_stores hstored (proper_of_call hwf hahead)).mpr ⟨hvalid, le_roomyLimit.2⟩
  obtain ⟨back, hback⟩ := roomy_goBack rfl hload hready
  obtain ⟨_, _, _, -, -, -, -, -, hback_stores⟩ := completeStep_ok hback
  have hwf' : (Call.completeStep (.str "analyze") .null).WellFormed := trivial
  have hfirst : Calls roomy roomyMade [sampleAheadEvent] ahead :=
    .call .nil (fun place => Disk.Keeps.refl place _) hwf hahead
  have hkeeps : ∀ place, Disk.Keeps place ahead.disk (Session.start ⟨0⟩ ahead.disk).disk :=
    fun place => Disk.Keeps.refl place _
  exact ⟨back, .call hfirst hkeeps hwf' hback, hback_stores⟩

/-- The step to be done next can be one that is done: the first step was completed after the
second. -/
theorem currentStep_mem_completed_return : ∃ start session state,
    (roomy.ensure .null).run sampleSession = (.ok sampleFresh, start) ∧
    Calls roomy start sampleReturn session ∧ roomy.Stores session.disk state ∧
    state.currentStep ∈ state.completed := by
  obtain ⟨session, hcalls, hstores⟩ := roomy_return
  have hmem : sampleBack.currentStep ∈ sampleBack.completed :=
    (List.mem_cons_self : Json.str "reverse-engineer" ∈
      [.str "reverse-engineer", .str "analyze"])
  exact ⟨roomyMade, session, sampleBack, roomy_ensure, hcalls, hstores, hmem⟩

theorem position_of_return : ∃ session state, Calls roomy roomyMade sampleReturn session ∧
    roomy.Stores session.disk state ∧ Position sampleReturn state := by
  obtain ⟨session, hcalls, -⟩ := roomy_return
  obtain ⟨state, hstores, hposition, -⟩ := position_of_calls rfl roomy_ensure hcalls
  exact ⟨session, state, hcalls, hstores, hposition⟩

end Store
end SpecDraft
