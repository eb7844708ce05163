import SpecDraft.Proofs.State.Call

/-!
# Runs of a store

A run makes the file of a store and then calls the store any number of times. Calls may fail, and
between two calls anything may happen that takes nothing from the disk. What the file says after
a run is read off the calls that succeeded (`run_document`): every call reads what the last one
that succeeded has written, so one call adds one entry to what the file says (`Follows`).
-/
set_option autoImplicit false

namespace SpecDraft.Store

/-- A call with what it returned. -/
structure Event where
  call : Call
  result : Except Failure State

namespace Event

/-- The step that a call completed. -/
def completed? : Event → Option Step
  | ⟨.completeStep name _, .ok _⟩ => name.text?.bind Step.ofId?
  | _ => none

/-- The route that a call changed to. -/
def route? : Event → Option Json
  | ⟨.updateRoute route, .ok _⟩ => some route
  | _ => none

end Event

/-- The steps that were completed, each time they were. -/
def completions (history : List Event) : List Step := history.filterMap Event.completed?

/-- The step to be done next: the one after the step that was completed last. -/
def nextStep? (history : List Event) : Option Step :=
  match (completions history).getLast? with
  | some step => step.next?
  | none => some .analyze

/-- The route that was changed to last. -/
def lastRoute (initial : Json) (history : List Event) : Json :=
  (history.filterMap Event.route?).getLastD initial

section History
variable {history : List Event} {event : Event}

theorem completions_concat (history : List Event) (event : Event) :
    completions (history ++ [event]) = completions history ++ event.completed?.toList := by
  rw [completions, List.filterMap_append]
  cases h : event.completed? <;> simp [completions, h]

theorem nextStep?_concat_some {step : Step} (h : event.completed? = some step) :
    nextStep? (history ++ [event]) = step.next? := by
  rw [nextStep?, completions_concat, h, Option.toList_some, List.getLast?_concat]

theorem nextStep?_concat_none (h : event.completed? = none) :
    nextStep? (history ++ [event]) = nextStep? history := by
  rw [nextStep?, completions_concat, h, Option.toList_none, List.append_nil, nextStep?]

theorem lastRoute_concat_some {route : Json} (initial : Json) (h : event.route? = some route) :
    lastRoute initial (history ++ [event]) = route := by
  rw [lastRoute, List.filterMap_append, List.filterMap_cons_some h, List.filterMap_nil,
    List.getLastD_concat]

theorem lastRoute_concat_none (initial : Json) (h : event.route? = none) :
    lastRoute initial (history ++ [event]) = lastRoute initial history := by
  rw [lastRoute, List.filterMap_append, List.filterMap_cons_none h, List.filterMap_nil,
    List.append_nil, lastRoute]

end History

/-! ## What a state says about the calls before it -/

/-- What a valid state says about the calls that led to it: the first one made a state for a
route, and the others are listed. -/
structure Follows (initial : Json) (first : State) (history : List Event) (state : State) :
    Prop where
  proper : state.Proper
  valid : State.violations state.toJson = []
  completed : state.completed = State.stepNames (completions history).eraseDups
  currentStep : state.currentStep = .ofText? ((nextStep? history).map Step.id)
  route : state.route = lastRoute initial history
  description : state.metadata.routeDescription = Route.describe state.route
  version : state.version = first.version
  created : state.created = first.created
  projectName : state.metadata.projectName = first.metadata.projectName
  projectPath : state.metadata.projectPath = first.metadata.projectPath

section Follows
variable {initial : Json} {first state : State} {history : List Event} {event : Event}

theorem follows_fresh {now : Moment} {project : FilePath} {route : Json}
    (hroute : Route.isKnown route) (hname : project.name ≠ "") :
    Follows route (State.fresh now project route) [] (State.fresh now project route) where
  proper := State.fresh_proper (Route.wellFormed_of_isKnown hroute)
  valid := (State.violations_fresh hroute).mpr hname
  completed := rfl
  currentStep := rfl
  route := rfl
  description := rfl
  version := rfl
  created := rfl
  projectName := rfl
  projectPath := rfl

/-- A call that completed no step and changed no route changed nothing. -/
theorem Follows.idle (h : Follows initial first history state)
    (hcompleted : event.completed? = none) (hroute : event.route? = none) :
    Follows initial first (history ++ [event]) state :=
  { h with
    completed := by
      rw [completions_concat, hcompleted, Option.toList_none, List.append_nil]
      exact h.completed
    currentStep := by
      rw [nextStep?_concat_none hcompleted]
      exact h.currentStep
    route := by
      rw [lastRoute_concat_none initial hroute]
      exact h.route }

theorem Follows.updateRoute (h : Follows initial first history state) {route : Json}
    {now : Moment} (hproper : ((state.withRoute route).stamped now).Proper)
    (hvalid : State.violations ((state.withRoute route).stamped now).toJson = [])
    (hcompleted : event.completed? = none) (hroute : event.route? = some route) :
    Follows initial first (history ++ [event]) ((state.withRoute route).stamped now) where
  proper := hproper
  valid := hvalid
  completed := by
    rw [completions_concat, hcompleted, Option.toList_none, List.append_nil]
    exact h.completed
  currentStep := by
    rw [nextStep?_concat_none hcompleted]
    exact h.currentStep
  route := (lastRoute_concat_some initial hroute).symm
  description := rfl
  version := h.version
  created := h.created
  projectName := h.projectName
  projectPath := h.projectPath

theorem eraseDups_concat (steps : List Step) (step : Step) :
    (steps ++ [step]).eraseDups =
      if step ∈ steps then steps.eraseDups else steps.eraseDups ++ [step] := by
  rw [List.eraseDups_append]
  split
  · simp [List.removeAll, ‹step ∈ steps›]
  · simp [List.removeAll, ‹step ∉ steps›, List.eraseDups_cons]

/-- The completed steps of a state after one more. -/
theorem completed_complete {steps : List Step}
    (h : state.completed = State.stepNames steps.eraseDups) (step : Step) (said : Members)
    (now : Moment) :
    (state.complete step said now).completed = State.stepNames (steps ++ [step]).eraseDups := by
  have hmem : state.isCompleted step ↔ step ∈ steps := by
    rw [State.isCompleted_iff h, List.mem_eraseDups]
  rw [eraseDups_concat, State.complete]
  dsimp only
  by_cases hstep : step ∈ steps
  · rw [if_pos (hmem.mpr hstep), if_pos hstep, h]
  · rw [if_neg (hmem.not.mpr hstep), if_neg hstep, h, State.stepNames, State.stepNames,
      List.map_append]
    rfl

theorem Follows.completeStep (h : Follows initial first history state) {step : Step}
    {said : Members} {now : Moment}
    (hproper : ((state.complete step said now).stamped now).Proper)
    (hvalid : State.violations ((state.complete step said now).stamped now).toJson = [])
    (hcompleted : event.completed? = some step) (hroute : event.route? = none) :
    Follows initial first (history ++ [event]) ((state.complete step said now).stamped now) where
  proper := hproper
  valid := hvalid
  completed := by
    rw [completions_concat, hcompleted, Option.toList_some]
    exact completed_complete h.completed step said now
  currentStep := by
    rw [nextStep?_concat_some hcompleted]
    rfl
  route := by
    rw [lastRoute_concat_none initial hroute]
    exact h.route
  description := h.description
  version := h.version
  created := h.created
  projectName := h.projectName
  projectPath := h.projectPath

end Follows

/-! ## Runs -/

/-- The file, if there is one, is not too large to be read. -/
def Fits (store : Store) (disk : Disk) : Prop :=
  ∀ content modified, disk.status store.file = .ok (.file content modified) →
    content.size ≤ store.limit

/-- A run of a store: where there is no file, one is made for a route, and then calls are made,
whether they succeed or fail. Between two calls nothing is taken from the disk; the clock and
everything else about the session may change. The file is never too large. -/
inductive Run (store : Store) (initial : Json) (first : State) : List Event → Session → Prop
  | start {before after : Session} : before.disk.isFile store.file = .ok false →
      (store.ensure initial).run before = (.ok first, after) → store.Fits after.disk →
      Run store initial first [] after
  | call {history : List Event} {last before after : Session} {call : Call}
      {result : Except Failure State} : Run store initial first history last →
      (∀ place, Disk.Keeps place last.disk before.disk) → call.WellFormed →
      (call.action store).run before = (result, after) → store.Fits after.disk →
      Run store initial first (history ++ [⟨call, result⟩]) after

section Run
variable {store : Store} {initial : Json} {first state : State} {history : List Event}
  {session before after : Session} {call : Call}

theorem Stores.of_keeps {old new : Disk} (h : store.Stores old state)
    (hkeeps : ∀ place, Disk.Keeps place old new) : store.Stores new state := by
  obtain ⟨modified, hstatus⟩ := h.status
  exact ⟨h.within, modified, Disk.status_of_keeps hkeeps hstatus⟩

theorem Stores.size_le {disk : Disk} (h : store.Stores disk state) (hfits : store.Fits disk) :
    state.toJson.pretty.toUTF8.size ≤ store.limit := by
  obtain ⟨modified, hstatus⟩ := h.status
  exact hfits _ modified hstatus

theorem Stores.isFile {disk : Disk} (h : store.Stores disk state) :
    disk.isFile store.file = .ok true := by
  obtain ⟨modified, hstatus⟩ := h.status
  exact Disk.isFile_iff.mpr ⟨_, modified, hstatus⟩

/-- What a run has left in the file: a state that follows from the calls. -/
structure Leaves (store : Store) (initial : Json) (first : State) (history : List Event)
    (disk : Disk) (state : State) : Prop where
  stores : store.Stores disk state
  fits : state.toJson.pretty.toUTF8.size ≤ store.limit
  follows : Follows initial first history state

theorem Leaves.load (h : store.Leaves initial first history before.disk state) :
    store.load.run before = (.ok state, before) :=
  (load_of_stores h.stores h.follows.proper).mpr ⟨h.follows.valid, h.fits⟩

/-- Making the file once more reads the one that is there. -/
theorem Leaves.ensure (h : store.Leaves initial first history before.disk state) (route : Json) :
    (store.ensure route).run before = (.ok state, before) := by
  rw [ensure_of_present h.stores.isFile]
  exact h.load

/-- A call that fails leaves the file as it is. -/
theorem Leaves.call_error {failure : Failure}
    (h : store.Leaves initial first history before.disk state)
    (hcall : (call.action store).run before = (.error failure, after)) :
    store.Leaves initial first (history ++ [⟨call, .error failure⟩]) after.disk state where
  stores := h.stores.of_keeps (Store.call_error hcall)
  fits := h.fits
  follows := by
    cases call <;> exact h.follows.idle rfl rfl

/-- A call that succeeds leaves in the file what follows from it. -/
theorem Leaves.call_ok {returned : State}
    (h : store.Leaves initial first history before.disk state) (hwf : call.WellFormed)
    (hcall : (call.action store).run before = (.ok returned, after))
    (hfits : store.Fits after.disk) :
    store.Leaves initial first (history ++ [⟨call, .ok returned⟩]) after.disk returned := by
  have hproper := proper_of_call hwf hcall
  cases call with
  | ensure route =>
    have hensure := h.ensure route
    obtain ⟨⟨⟩, rfl⟩ := Prod.mk.inj (hensure.symm.trans hcall)
    exact ⟨h.stores, h.fits, h.follows.idle rfl rfl⟩
  | completeStep name said =>
    obtain ⟨step, old, record, hstep, hload, -, rfl, hvalid, hstores⟩ := completeStep_ok hcall
    -- What the call loaded is what the calls before it have left.
    obtain ⟨⟨⟩, -⟩ := Prod.mk.inj (h.load.symm.trans hload)
    exact ⟨hstores, hstores.size_le hfits, h.follows.completeStep hproper hvalid hstep rfl⟩
  | updateRoute route =>
    obtain ⟨old, hload, rfl, hvalid, hstores⟩ := updateRoute_ok hcall
    obtain ⟨⟨⟩, -⟩ := Prod.mk.inj (h.load.symm.trans hload)
    exact ⟨hstores, hstores.size_le hfits, h.follows.updateRoute hproper hvalid rfl rfl⟩

theorem Leaves.of_keeps {old new : Disk} (h : store.Leaves initial first history old state)
    (hkeeps : ∀ place, Disk.Keeps place old new) : store.Leaves initial first history new state :=
  ⟨h.stores.of_keeps hkeeps, h.fits, h.follows⟩

/-- **Every run leaves a state that follows from its calls**, by induction on the run. -/
theorem Run.leaves (hname : store.directory.name ≠ "")
    (h : Run store initial first history session) :
    ∃ state, store.Leaves initial first history session.disk state := by
  induction h with
  | start habsent hensure hfits =>
    rcases ensure_ok hensure with ⟨hpresent, -, -⟩ | ⟨-, hroute, rfl, hstores⟩
    · -- There was no file to read.
      rw [habsent] at hpresent
      cases hpresent
    · exact ⟨_, hstores, hstores.size_le hfits, follows_fresh hroute hname⟩
  | @call history last before after call result _ hkeeps hwf hcall hfits ih =>
    obtain ⟨state, hstate⟩ := ih
    have hbefore := hstate.of_keeps hkeeps
    cases result with
    | ok returned => exact ⟨returned, hbefore.call_ok hwf hcall hfits⟩
    | error failure => exact ⟨state, hbefore.call_error hcall⟩

/-- What a document says about the calls of a run that started by making a file for a route. -/
structure Document (initial : Json) (first : State) (history : List Event) (members : Members) :
    Prop where
  valid : State.violations (.obj members) = []
  completed : members.get? "completedSteps" =
    some (.arr (State.stepNames (completions history).eraseDups))
  currentStep : members.get? "currentStep" = some (.ofText? ((nextStep? history).map Step.id))
  route : members.get? "route" = some (lastRoute initial history)
  known : Route.isKnown (lastRoute initial history)
  version : members.get? "version" = some first.version
  created : members.get? "created" = some first.created
  metadata : ∃ metadata, members.get? "metadata" = some (.obj metadata) ∧
    Members.get? metadata "projectName" = some first.metadata.projectName ∧
    Members.get? metadata "projectPath" = some first.metadata.projectPath ∧
    Members.get? metadata "routeDescription" =
      ((lastRoute initial history).text?.bind Route.descriptionOf?).map Json.str

theorem Follows.document (h : Follows initial first history state) :
    Document initial first history state.members where
  valid := h.valid
  completed := h.completed ▸ h.proper.get?_members rfl
  currentStep := h.currentStep ▸ h.proper.get?_members rfl
  route := h.route ▸ h.proper.get?_members rfl
  known := h.route ▸ State.isKnown_route h.proper.foreign h.valid
  version := h.version ▸ h.proper.get?_members rfl
  created := h.created ▸ h.proper.get?_members rfl
  metadata := by
    refine ⟨state.metadata.members, h.proper.get?_members rfl, ?_, ?_, ?_⟩
    · rw [StateMetadata.get?_projectName, h.projectName]
    · rw [StateMetadata.get?_projectPath, h.projectPath]
    · rw [StateMetadata.get?_routeDescription fun hmem => h.proper.metadata.foreign _ hmem
        (by decide), h.description, h.route, Route.describe]
      cases (lastRoute initial history).text?.bind Route.descriptionOf? <;> rfl

/-- **What the file says after a run.** It holds a valid document that lists the steps that were
completed, each once and in the order in which they were first completed; that names the step
after the one that was completed last, and the route that was changed to last with its
description; and that keeps what was written first about the project. To make the file once more
then returns that state and changes nothing. -/
theorem run_document (hname : store.directory.name ≠ "")
    (h : Run store initial first history session) :
    ∃ members state, store.Holds session.disk members ∧ Document initial first history members ∧
      state.toJson = .obj members ∧
      ∀ before, (∀ place, Disk.Keeps place session.disk before.disk) → ∀ route,
        (store.ensure route).run before = (.ok state, before) := by
  obtain ⟨state, hstate⟩ := h.leaves hname
  refine ⟨state.members, state, ?_, hstate.follows.document, rfl, fun before hkeeps route => ?_⟩
  · exact (holds_of_stores hstate.stores hstate.follows.proper.wellFormed).mpr ⟨rfl, hstate.fits⟩
  · exact (hstate.of_keeps hkeeps).ensure route

end Run

/-! ## A run of the sample -/

/-- The session after the file of the sample was made. -/
def sampleMade : Session := ((sample.ensure .null).run sampleSession).2

theorem sample_run_ensure : (sample.ensure .null).run sampleSession =
    (.ok sampleFresh, sampleMade) := by
  obtain ⟨saved, hensure⟩ := sample_ensure
  rw [sampleMade, hensure]

theorem sampleMade_stores : sample.Stores sampleMade.disk sampleFresh := by
  rcases ensure_ok sample_run_ensure with ⟨hpresent, -, -⟩ | ⟨-, -, -, hstores⟩
  · cases hpresent
  · exact hstores

theorem sampleMade_ready : sample.Ready sampleMade.disk :=
  sample_ready_of_root rfl fun _ _ => rfl

/-- The state of the sample with its first step done. -/
def sampleDone : State := (sampleFresh.complete .analyze [] ⟨0⟩).stamped ⟨0⟩

/-- A call of the sample that succeeded. -/
def sampleEvent : Event := ⟨.completeStep (.str "analyze") .null, .ok sampleDone⟩

theorem sample_completeStep : ∃ saved,
    (sample.completeStep (.str "analyze") .null).run sampleMade = (.ok sampleDone, saved) := by
  have hvalid : State.violations sampleFresh.toJson = [] :=
    (State.violations_fresh rfl).mpr (by decide)
  have hload : sample.load.run sampleMade = (.ok sampleFresh, sampleMade) :=
    (load_of_stores sampleMade_stores (State.fresh_proper trivial)).mpr ⟨hvalid, sampleFresh_fits⟩
  exact completeStep_of_ready (show _ = some Step.analyze by decide +kernel) hload rfl
    (show State.violations sampleDone.toJson = [] by decide +kernel) sampleMade_ready
    (show sampleDone.toJson.excess? sample.limits 0 = none from rfl)

theorem Stores.fits {store : Store} {disk : Disk} {state : State} (h : store.Stores disk state)
    (hsize : state.toJson.pretty.toUTF8.size ≤ store.limit) : store.Fits disk := by
  obtain ⟨modified, hstatus⟩ := h.status
  intro content modified' hstatus'
  rw [hstatus] at hstatus'
  cases hstatus'
  exact hsize

theorem run_document_sample : ∃ session,
    Run sample .null sampleFresh [sampleEvent] session ∧
      ∃ members, sample.Holds session.disk members ∧
        Document .null sampleFresh [sampleEvent] members := by
  obtain ⟨saved, hcomplete⟩ := sample_completeStep
  obtain ⟨_, _, _, _, _, _, _, _, hstores⟩ := completeStep_ok hcomplete
  have hrun : Run sample .null sampleFresh [sampleEvent] saved :=
    .call (.start rfl sample_run_ensure (sampleMade_stores.fits sampleFresh_fits))
      (fun place => Disk.Keeps.refl place _)
      (show (Call.completeStep (.str "analyze") .null).WellFormed from trivial) hcomplete
      (hstores.fits (by decide +kernel))
  obtain ⟨members, _, hholds, hdocument, -⟩ := run_document (by decide) hrun
  exact ⟨saved, hrun, members, hholds, hdocument⟩

end SpecDraft.Store
