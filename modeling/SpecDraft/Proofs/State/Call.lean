import SpecDraft.Proofs.State.Storage

/-!
# Calls of a store

What each call of a store did: when it returned a state, how that state came about and that the
file holds its text now; when it failed, that nothing was lost from the disk.
-/
set_option autoImplicit false

namespace SpecDraft.Store

variable {store : Store} {session session' : Session} {state : State} {failure : Failure}

theorem load_disk (h : store.load.run session = (.error failure, session')) :
    session'.disk = session.disk := by
  unfold load isPresent at h
  rcases Action.run_bind_error h with hasked | ⟨present, mid, hasked, hload⟩
  · rw [run_askDisk] at hasked
    rw [(Prod.mk.inj hasked).2]
  obtain rfl := (askDisk_ok.mp hasked).2
  cases present with
  | false =>
    rcases Action.run_bind_error hload with hthrow | ⟨_, _, hthrow, -⟩
    · cases hthrow
      rfl
    · cases hthrow
  | true =>
    rcases Action.run_bind_error hload with hvalue | ⟨value, mid', hvalue, hrest⟩
    · rw [run_askDisk] at hvalue
      rw [(Prod.mk.inj hvalue).2]
    obtain rfl := (askDisk_ok.mp hvalue).2
    split at hrest
    · rw [Action.run_lift] at hrest
      rw [(Prod.mk.inj hrest).2]
    · cases hrest
      rfl

theorem load_unchanged (h : store.load.run session = (.ok state, session')) : session' = session :=
  (load_ok.mp h).1

/-- A state that was read is proper. -/
theorem proper_of_load (h : store.load.run session = (.ok state, session')) : state.Proper := by
  obtain ⟨-, members, ⟨content, modified, text, -, -, -, hread⟩, -, hreads⟩ := load_ok.mp h
  exact hreads.proper (Members.wellFormed_obj.mp (Json.wellFormed_of_read hread))

/-! ## Changes -/

/-- What a change that succeeded did. -/
theorem update_ok {change : State → Outcome State}
    (h : (store.update change).run session = (.ok state, session')) :
    ∃ old changed, store.load.run session = (.ok old, session) ∧ change old = .ok changed ∧
      state = changed.stamped session.now ∧ State.violations state.toJson = [] ∧
      store.Stores session'.disk state := by
  unfold update at h
  obtain ⟨old, mid, hload, hloaded⟩ := Action.run_bind_ok h
  obtain rfl := load_unchanged hload
  obtain ⟨changed, mid', hchange, hrest⟩ := Action.run_bind_ok hloaded
  rw [Action.run_lift] at hchange
  obtain ⟨hchanged, rfl⟩ := Prod.mk.inj hchange
  rw [Action.run_bind_of_ok (Action.run_get _)] at hrest
  dsimp only at hrest
  split at hrest
  · obtain ⟨_, saved, hsave, hpure⟩ := Action.run_bind_ok hrest
    cases hpure
    exact ⟨old, changed, hload, hchanged, rfl, ‹_›, save_ok hsave⟩
  · cases hrest

theorem update_error {change : State → Outcome State}
    (h : (store.update change).run session = (.error failure, session')) (place : Location) :
    Disk.Keeps place session.disk session'.disk := by
  unfold update at h
  rcases Action.run_bind_error h with hload | ⟨old, mid, hload, hloaded⟩
  · rw [load_disk hload]
    exact Disk.Keeps.refl place session.disk
  obtain rfl := load_unchanged hload
  rcases Action.run_bind_error hloaded with hchange | ⟨changed, mid', hchange, hrest⟩
  · rw [Action.run_lift] at hchange
    rw [(Prod.mk.inj hchange).2]
    exact Disk.Keeps.refl place session'.disk
  rw [Action.run_lift] at hchange
  obtain ⟨-, rfl⟩ := Prod.mk.inj hchange
  rw [Action.run_bind_of_ok (Action.run_get _)] at hrest
  dsimp only at hrest
  split at hrest
  · rcases Action.run_bind_error hrest with hsave | ⟨_, _, -, hpure⟩
    · exact save_error hsave place
    · cases hpure
  · cases hrest
    exact Disk.Keeps.refl place _

theorem updateRoute_ok {route : Json}
    (h : (store.updateRoute route).run session = (.ok state, session')) :
    ∃ old, store.load.run session = (.ok old, session) ∧
      state = (old.withRoute route).stamped session.now ∧ State.violations state.toJson = [] ∧
      store.Stores session'.disk state := by
  obtain ⟨old, changed, hload, hchange, hstate, hvalid, hstores⟩ := update_ok h
  obtain ⟨_, -, hchanged⟩ := Action.bind_ok.mp hchange
  cases hchanged
  exact ⟨old, hload, hstate, hvalid, hstores⟩

theorem completeStep_ok {name said : Json}
    (h : (store.completeStep name said).run session = (.ok state, session')) :
    ∃ step old record, name.text?.bind Step.ofId? = some step ∧
      store.load.run session = (.ok old, session) ∧ saidOf said = .ok record ∧
      state = (old.complete step record session.now).stamped session.now ∧
      State.violations state.toJson = [] ∧ store.Stores session'.disk state := by
  unfold completeStep at h
  split at h
  · rename_i step hstep
    rw [Action.run_bind_of_ok (Action.run_get _)] at h
    obtain ⟨updated, mid, hupdate, hrest⟩ := Action.run_bind_ok h
    obtain ⟨_, logged, hlog, hpure⟩ := Action.run_bind_ok hrest
    cases hlog
    cases hpure
    obtain ⟨old, changed, hload, hchange, hstate, hvalid, hstores⟩ := update_ok hupdate
    obtain ⟨record, hrecord, hchanged⟩ := Action.bind_ok.mp hchange
    cases hchanged
    exact ⟨step, old, record, hstep, hload, hrecord, hstate, hvalid, hstores⟩
  · cases h

theorem completeStep_error {name said : Json}
    (h : (store.completeStep name said).run session = (.error failure, session'))
    (place : Location) : Disk.Keeps place session.disk session'.disk := by
  unfold completeStep at h
  split at h
  · rw [Action.run_bind_of_ok (Action.run_get _)] at h
    rcases Action.run_bind_error h with hupdate | ⟨_, mid, -, hrest⟩
    · exact update_error hupdate place
    · rcases Action.run_bind_error hrest with hlog | ⟨_, _, -, hpure⟩
      · cases hlog
      · cases hpure
  · cases h
    exact Disk.Keeps.refl place session.disk

/-- A change succeeds when its result is valid and nothing is in the way. -/
theorem update_of_ready {change : State → Outcome State} {old changed : State}
    (hload : store.load.run session = (.ok old, session)) (hchange : change old = .ok changed)
    (hvalid : State.violations (changed.stamped session.now).toJson = [])
    (hready : store.Ready session.disk)
    (hexcess : (changed.stamped session.now).toJson.excess? store.limits 0 = none) :
    ∃ saved, (store.update change).run session = (.ok (changed.stamped session.now), saved) := by
  obtain ⟨saved, hsave⟩ := save_of_ready hready hexcess
  have hchanged : (liftM (change old) : Action State).run session = (.ok changed, session) := by
    rw [Action.run_lift, hchange]
  unfold update
  rw [Action.run_bind_of_ok hload, Action.run_bind_of_ok hchanged,
    Action.run_bind_of_ok (Action.run_get session)]
  dsimp only
  rw [hvalid]
  dsimp only
  rw [Action.run_bind_of_ok hsave]
  exact ⟨saved, rfl⟩

theorem completeStep_of_ready {name said : Json} {step : Step} {old : State} {record : Members}
    (hstep : name.text?.bind Step.ofId? = some step)
    (hload : store.load.run session = (.ok old, session)) (hrecord : saidOf said = .ok record)
    (hvalid : State.violations
      ((old.complete step record session.now).stamped session.now).toJson = [])
    (hready : store.Ready session.disk)
    (hexcess : ((old.complete step record session.now).stamped session.now).toJson.excess?
      store.limits 0 = none) :
    ∃ saved, (store.completeStep name said).run session =
      (.ok ((old.complete step record session.now).stamped session.now), saved) := by
  have hchange : (do return old.complete step (← saidOf said) session.now : Outcome State) =
      .ok (old.complete step record session.now) := by
    rw [hrecord]
    rfl
  obtain ⟨saved, hupdate⟩ : ∃ saved, (store.update fun state => do
      return state.complete step (← saidOf said) session.now).run session =
        (.ok ((old.complete step record session.now).stamped session.now), saved) :=
    update_of_ready hload hchange hvalid hready hexcess
  unfold completeStep
  rw [hstep]
  dsimp only
  rw [Action.run_bind_of_ok (Action.run_get session), Action.run_bind_of_ok hupdate]
  exact ⟨_, rfl⟩

/-! ## Making the file -/

theorem isPresent_ok {present : Bool} :
    store.isPresent.run session = (.ok present, session') ↔
      session.disk.isFile store.file = .ok present ∧ session' = session :=
  askDisk_ok

/-- The call read the file that was there, or made it. -/
theorem ensure_ok {route : Json}
    (h : (store.ensure route).run session = (.ok state, session')) :
    (session.disk.isFile store.file = .ok true ∧
        store.load.run session = (.ok state, session) ∧ session' = session) ∨
      (session.disk.isFile store.file = .ok false ∧ Route.isKnown route ∧
        state = State.fresh session.now store.directory route ∧
        store.Stores session'.disk state) := by
  unfold ensure at h
  obtain ⟨present, mid, hpresent, hrest⟩ := Action.run_bind_ok h
  obtain ⟨hfile, rfl⟩ := isPresent_ok.mp hpresent
  cases present with
  | true =>
    -- The file was there and has been read.
    have hload : store.load.run mid = (.ok state, session') := hrest
    obtain rfl := load_unchanged hload
    exact .inl ⟨hfile, hload, rfl⟩
  | false =>
    dsimp only at hrest
    rw [if_neg (by decide)] at hrest
    split at hrest
    · rename_i hroute
      rw [Action.run_bind_of_ok (Action.run_get _)] at hrest
      obtain ⟨_, saved, hsave, hsaved⟩ := Action.run_bind_ok hrest
      obtain ⟨_, logged, hlog, hpure⟩ := Action.run_bind_ok hsaved
      have hstores := save_ok hsave
      cases hlog
      cases hpure
      exact .inr ⟨hfile, hroute, rfl, hstores⟩
    · obtain ⟨_, _, hthrow, -⟩ := Action.run_bind_ok hrest
      cases hthrow

theorem ensure_of_present {route : Json} (hfile : session.disk.isFile store.file = .ok true) :
    (store.ensure route).run session = store.load.run session := by
  unfold ensure
  rw [Action.run_bind_of_ok (isPresent_ok.mpr ⟨hfile, rfl⟩)]
  rfl

theorem ensure_error {route : Json}
    (h : (store.ensure route).run session = (.error failure, session')) (place : Location) :
    Disk.Keeps place session.disk session'.disk := by
  unfold ensure at h
  rcases Action.run_bind_error h with hasked | ⟨present, mid, hpresent, hrest⟩
  · rw [isPresent, run_askDisk] at hasked
    rw [(Prod.mk.inj hasked).2]
    exact Disk.Keeps.refl place session'.disk
  obtain ⟨-, rfl⟩ := isPresent_ok.mp hpresent
  cases present with
  | true =>
    have hload : store.load.run mid = (.error failure, session') := hrest
    rw [load_disk hload]
    exact Disk.Keeps.refl place mid.disk
  | false =>
    dsimp only at hrest
    rw [if_neg (by decide)] at hrest
    split at hrest
    · rw [Action.run_bind_of_ok (Action.run_get _)] at hrest
      rcases Action.run_bind_error hrest with hsave | ⟨_, saved, -, hsaved⟩
      · exact save_error hsave place
      · rcases Action.run_bind_error hsaved with hlog | ⟨_, _, -, hpure⟩
        · cases hlog
        · cases hpure
    · rcases Action.run_bind_error hrest with hthrow | ⟨_, _, hthrow, -⟩
      · cases hthrow
        exact Disk.Keeps.refl place _
      · cases hthrow

/-- Making the file succeeds when nothing is in the way. -/
theorem ensure_of_ready {route : Json} (hfile : session.disk.isFile store.file = .ok false)
    (hroute : Route.isKnown route) (hready : store.Ready session.disk)
    (hexcess : (State.fresh session.now store.directory route).toJson.excess? store.limits 0 =
      none) :
    ∃ saved, (store.ensure route).run session =
      (.ok (State.fresh session.now store.directory route), saved) := by
  obtain ⟨saved, hsave⟩ := save_of_ready hready hexcess
  unfold ensure
  rw [Action.run_bind_of_ok (isPresent_ok.mpr ⟨hfile, rfl⟩)]
  dsimp only
  rw [if_neg (by decide), if_pos hroute, Action.run_bind_of_ok (Action.run_get session),
    Action.run_bind_of_ok hsave]
  exact ⟨_, rfl⟩

/-! ## Calls as data -/

/-- A call of a store: making or reading the file, noting that a step is done, with what the
caller says about it, and changing the route. -/
inductive Call where
  | ensure (route : Json)
  | completeStep (name said : Json)
  | updateRoute (route : Json)

namespace Call

/-- What a call does. -/
def action (store : Store) : Call → Action State
  | ensure route => store.ensure route
  | completeStep name said => store.completeStep name said
  | updateRoute route => store.updateRoute route

/-- Whether what the caller says is a well-formed value. -/
def WellFormed : Call → Prop
  | completeStep _ said => said.WellFormed
  | ensure _ | updateRoute _ => True

/-- Whether the call makes the file if it is missing. -/
def isEnsure : Call → Bool
  | ensure _ => true
  | completeStep .. | updateRoute _ => false

end Call

theorem saidOf_wellFormed {said : Json} (hwf : said.WellFormed) {record : Members}
    (h : saidOf said = .ok record) : record.WellFormed := by
  unfold saidOf at h
  split at h
  · exact Json.toMembers_wellFormed hwf h
  · cases h
    exact Members.wellFormed_nil

section Call
variable {call : Call}

/-- **A call that fails loses nothing.** -/
theorem call_error (h : (call.action store).run session = (.error failure, session'))
    (place : Location) : Disk.Keeps place session.disk session'.disk := by
  cases call with
  | ensure route => exact ensure_error h place
  | completeStep name said => exact completeStep_error h place
  | updateRoute route => exact update_error h place

/-- **A call that succeeds** either read the file that was there or wrote what it returns. What a
change wrote is valid, and what a fresh start wrote is valid if the directory has a name. -/
theorem call_ok (hwf : call.WellFormed)
    (h : (call.action store).run session = (.ok state, session')) :
    (call.isEnsure ∧ session.disk.isFile store.file = .ok true ∧ session' = session ∧
        store.load.run session = (.ok state, session)) ∨
      (¬ (call.isEnsure ∧ session.disk.isFile store.file = .ok true) ∧ state.Proper ∧
        store.Stores session'.disk state ∧
        (State.violations state.toJson = [] ↔ (call.isEnsure → store.directory.name ≠ ""))) := by
  cases call with
  | ensure route =>
    rcases ensure_ok h with ⟨hfile, hload, hsame⟩ | ⟨hfile, hroute, rfl, hstores⟩
    · exact .inl ⟨rfl, hfile, hsame, hload⟩
    · have hproper : (State.fresh session.now store.directory route).Proper :=
        State.fresh_proper (Route.wellFormed_of_isKnown hroute)
      refine .inr ⟨fun hpresent => ?_, hproper, hstores, ?_⟩
      · rw [hfile] at hpresent
        cases hpresent.2
      · rw [State.violations_fresh hroute]
        simp [Call.isEnsure]
  | completeStep name said =>
    obtain ⟨step, old, record, -, hload, hrecord, rfl, hvalid, hstores⟩ := completeStep_ok h
    have hcomplete := State.complete_proper (proper_of_load hload) step
      (saidOf_wellFormed hwf hrecord) session.now
    exact .inr ⟨by simp [Call.isEnsure], State.stamped_proper hcomplete session.now, hstores,
      by simp [hvalid, Call.isEnsure]⟩
  | updateRoute route =>
    obtain ⟨old, hload, rfl, hvalid, hstores⟩ := updateRoute_ok h
    have hold := proper_of_load hload
    -- Any value may be given as the route; that it is known follows from the check of the result.
    have hforeign : ∀ key ∈ ((old.withRoute route).stamped session.now).extra.keys,
        key ∉ State.keys := hold.foreign
    have hknown : Route.isKnown route := State.isKnown_route hforeign hvalid
    have hchanged := State.withRoute_proper hold (Route.wellFormed_of_isKnown hknown)
    exact .inr ⟨by simp [Call.isEnsure], State.stamped_proper hchanged session.now, hstores,
      by simp [hvalid, Call.isEnsure]⟩

theorem proper_of_call (hwf : call.WellFormed)
    (h : (call.action store).run session = (.ok state, session')) : state.Proper := by
  rcases call_ok hwf h with ⟨-, -, -, hload⟩ | ⟨-, hproper, -⟩
  · exact proper_of_load hload
  · exact hproper

/-- **What a call returned can be read again**, in whatever session the call was made, exactly when
it made or changed a file that is not too large, and the directory has a name if the file was made,
or when the call itself only read the file. -/
theorem load_after_call_iff (hwf : call.WellFormed)
    (h : (call.action store).run session = (.ok state, session')) :
    store.load.run session' = (.ok state, session') ↔
      (call.isEnsure ∧ session.disk.isFile store.file = .ok true) ∨
        (state.toJson.pretty.toUTF8.size ≤ store.limit ∧
          (call.isEnsure → store.directory.name ≠ "")) := by
  rcases call_ok hwf h with ⟨hensure, hfile, rfl, hload⟩ | ⟨hwrote, hproper, hstores, hvalid⟩
  · exact ⟨fun _ => .inl ⟨hensure, hfile⟩, fun _ => hload⟩
  · rw [load_of_stores hstores hproper, hvalid, and_comm]
    exact ⟨.inr, fun hor => hor.resolve_left hwrote⟩

end Call

theorem sample_ensure : ∃ saved,
    (sample.ensure .null).run sampleSession = (.ok sampleFresh, saved) :=
  ensure_of_ready rfl rfl sample_ready rfl

theorem load_after_ensure_sample : ∃ saved, (Call.ensure .null).WellFormed ∧
    ((Call.ensure .null).action sample).run sampleSession = (.ok sampleFresh, saved) ∧
      sample.load.run saved = (.ok sampleFresh, saved) := by
  obtain ⟨saved, hensure⟩ := sample_ensure
  refine ⟨saved, trivial, hensure, ?_⟩
  exact (load_after_call_iff (show (Call.ensure .null).WellFormed from trivial) hensure).mpr
    (.inr ⟨sampleFresh_fits, fun _ => by decide⟩)

/-- The store of the same project that reads less than what a fresh state takes. -/
def tight : Store := { sample with limit := 100 }

/-- What was made cannot be read when the file is too large. -/
theorem load_after_ensure_tight : ∃ saved,
    ((Call.ensure .null).action tight).run sampleSession = (.ok sampleFresh, saved) ∧
      tight.load.run saved ≠ (.ok sampleFresh, saved) := by
  have hready : tight.Ready sampleSession.disk := ⟨sample_ready.directory, sample_ready.file⟩
  obtain ⟨saved, hensure⟩ : ∃ saved,
      (tight.ensure .null).run sampleSession = (.ok sampleFresh, saved) :=
    ensure_of_ready rfl rfl hready rfl
  refine ⟨saved, hensure, fun hload => ?_⟩
  rcases ensure_ok hensure with ⟨hfile, -, -⟩ | ⟨-, -, -, hstores⟩
  · cases hfile
  · have hsize := ((load_of_stores hstores (State.fresh_proper trivial)).mp hload).2
    rw [size_sampleFresh] at hsize
    exact absurd hsize (by decide)

end SpecDraft.Store
