import SpecDraft.Proofs.File.Refusal
import SpecDraft.Proofs.State.Call

/-!
# Completing a step of a state that can be read

What a step that is completed makes of a valid state is valid (`complete_valid`). So when the state
of a store can be read and a step cannot be completed all the same, the file could not be written,
and the failure is none of this library's own (`completeStep_foreign`).
-/
set_option autoImplicit false

namespace SpecDraft

namespace State

section Complete
variable {members : Members} {state : State} {now : Moment} {said : Members}

theorem isNoneOr_getD {texts : List String} {value : Option Json} (h : isNoneOr texts value) :
    isNoneOr texts (some (value.getD .null)) := by
  cases value with
  | none => rfl
  | some value => exact h

theorem next_isKnown (step : Step) :
    isNoneOr Step.ids (some (.ofText? (step.next?.map (·.id)))) := by
  cases step <;> decide

/-- The metadata that was read from a valid document describes itself validly. -/
theorem metadataViolations_ofMembers {metadata : Members} (h : metadataViolations metadata = []) :
    metadataViolations (StateMetadata.ofMembers metadata).members = [] := by
  obtain ⟨⟨name, hname, hgetName⟩, ⟨path, hpath, hgetPath⟩, hdescription⟩ :=
    metadataViolations_eq_nil.mp h
  rw [metadataViolations_eq_nil, StateMetadata.get?_projectName, StateMetadata.get?_projectPath,
    StateMetadata.get?_routeDescription]
  · refine ⟨⟨name, hname, ?_⟩, ⟨path, hpath, ?_⟩, fun value hvalue => ?_⟩
    · rw [StateMetadata.ofMembers, hgetName]
      rfl
    · rw [StateMetadata.ofMembers, hgetPath]
      rfl
    · split at hvalue
      · cases hvalue
      · rename_i hnull
        cases hvalue
        cases hget : metadata.get? "routeDescription" with
        | none => simp [StateMetadata.ofMembers, hget, Json.isNull] at hnull
        | some value =>
          rw [StateMetadata.ofMembers, hget]
          exact hdescription value hget
  · exact fun hmem => Members.not_mem_of_mem_keys_without hmem (by decide)

/-- A step that is completed is listed once. -/
theorem exists_steps_complete {steps : List Step} (hsteps : steps.Nodup)
    (hcompleted : state.completed = stepNames steps) (step : Step) (said : Members)
    (now : Moment) : ∃ after : List Step, after.Nodup ∧
      (state.complete step said now).completed = stepNames after := by
  by_cases hstep : step ∈ steps
  · exact ⟨steps, hsteps, (if_pos ((isCompleted_iff hcompleted).mpr hstep)).trans hcompleted⟩
  · refine ⟨steps ++ [step], ?_, ?_⟩
    · exact List.nodup_append.mpr ⟨hsteps, List.nodup_singleton step, by grind⟩
    · refine (if_neg ((isCompleted_iff hcompleted).not.mpr hstep)).trans ?_
      rw [hcompleted, stepNames, stepNames, List.map_append]
      rfl

/-- The members that a state keeps of the document it was read from are allowed ones. -/
theorem not_mem_extra_keys (hvalid : Valid members) (hreads : Reads members state) {key : String}
    (hkey : key ∈ Disk.forbiddenKeys) : key ∉ state.extra.keys := by
  intro hmem
  have hread : key ∈ (members.without keys).keys := hreads.extra ▸ hmem
  rw [Members.keys_without] at hread
  exact forbiddenIn_eq_nil.mp hvalid.forbidden key hkey (List.mem_filter.mp hread).1

/-- The details of a valid document that was read are of steps. -/
theorem mem_ids_of_mem_details (hvalid : Valid members) (hreads : Reads members state)
    {name : String} (hname : name ∈ Assoc.names state.details) : name ∈ Step.ids := by
  obtain ⟨details, hnames, hdetails⟩ := hvalid.details
  have heq : detailMembers state.details = detailMembers details :=
    Json.obj.inj (Option.some.inj (hreads.details.symm.trans hdetails))
  have hsame : Assoc.names state.details = Assoc.names details := by
    rw [← names_detailMembers, heq, names_detailMembers]
  exact hnames name (hsame ▸ hname)

/-- A step that is completed adds details under its own name only. -/
theorem mem_names_details_complete {step : Step} {name : String}
    (hname : name ∈ Assoc.names (state.complete step said now).details) :
    name ∈ Assoc.names state.details ∨ name = step.id := by
  change name ∈ Assoc.names (Assoc.put state.details step.id _) at hname
  rw [Assoc.names_put] at hname
  split at hname
  · exact .inl hname
  · exact (List.mem_append.mp hname).imp_right List.mem_singleton.mp

/-- **A completed step makes a valid state of a valid one.** -/
theorem complete_valid (hvalid : Valid members) (hreads : Reads members state)
    (hproper : state.Proper) (step : Step) (hsaid : said.WellFormed) :
    violations ((state.complete step said now).stamped now).toJson = [] := by
  have hnext := stamped_proper (complete_proper hproper step hsaid now) now
  have hget {key : String} {value : Json} := @Proper.get?_members _ hnext key value
  rw [violations_eq_nil_iff]
  refine ⟨_, rfl, ?_⟩
  exact {
    forbidden := by
      rw [forbiddenIn_eq_nil]
      intro key hkey hmem
      rw [hnext.members_eq, Members.keys_append, List.mem_append, keys_ownMembers] at hmem
      rcases hmem with hown | hextra
      · exact (show ∀ key ∈ Disk.forbiddenKeys, key ∉ keys by decide) key hkey hown
      · exact not_mem_extra_keys hvalid hreads hkey hextra
    version := by
      obtain ⟨text, htext, hversion⟩ := hvalid.version
      rw [hreads.version] at hversion
      exact ⟨text, htext, (hget rfl).trans hversion⟩
    created := by
      obtain ⟨text, htext, hcreated⟩ := hvalid.created
      rw [hreads.created] at hcreated
      exact ⟨text, htext, (hget rfl).trans hcreated⟩
    updated := ⟨now.stamp, now.stamp_ne_empty, hget rfl⟩
    route := by
      rw [hget rfl]
      exact hreads.route ▸ isNoneOr_getD hvalid.route
    currentStep := by
      rw [hget rfl]
      exact next_isKnown step
    completed := by
      obtain ⟨steps, hsteps, hcompleted⟩ := hvalid.completed
      rw [hreads.completed] at hcompleted
      obtain ⟨after, hafter, heq⟩ :=
        exists_steps_complete hsteps (Json.arr.inj (Option.some.inj hcompleted)) step said now
      exact ⟨after, hafter, heq ▸ hget rfl⟩
    metadata := by
      obtain ⟨metadata, hviolations, hmetadata⟩ := hvalid.metadata
      obtain ⟨metadata', hmetadata', heq⟩ := hreads.metadata
      rw [hmetadata'] at hmetadata
      cases hmetadata
      refine ⟨state.metadata.members, heq ▸ metadataViolations_ofMembers hviolations, hget rfl⟩
    details := by
      refine ⟨_, fun name hname => ?_, hget rfl⟩
      rcases mem_names_details_complete hname with hold | rfl
      · exact mem_ids_of_mem_details hvalid hreads hold
      · exact Step.mem_ids_iff.mpr ⟨step, rfl⟩ }

end Complete

end State

namespace Store

section Failures
variable {store : Store} {state old : State} {session after : Session} {failure : Failure}
  {step : Step} {said : Json} {record : Members}

/-- A write of a state fails for the disk, or because the state is beyond the limits on values. -/
theorem save_throws (store : Store) (state : State) :
    Action.Throws (·.isOwn = false) (store.save state) := by
  intro session failure after h
  cases hexcess : state.toJson.excess? store.limits 0 with
  | some excess =>
    rw [run_save_of_excess hexcess] at h
    cases h
    rfl
  | none =>
    rw [run_save hexcess] at h
    obtain ⟨hresult, -⟩ := Prod.mk.inj h
    have hthrows : Action.Throws Disk.IsRefusal
        (store.writeText state.toJson.pretty session.now) :=
      .bind (Disk.makeDirectories_throws _) fun _ => Disk.replaceFile_throws _ _ _ _
    exact (hthrows _ _ _ (Prod.ext hresult rfl)).isOwn

/-- A change whose result is valid fails only for the write. -/
theorem update_foreign {change : State → Outcome State} {changed : State}
    (hload : store.load.run session = (.ok old, session)) (hchange : change old = .ok changed)
    (hvalid : State.violations (changed.stamped session.now).toJson = [])
    (h : (store.update change).run session = (.error failure, after)) :
    failure.isOwn = false := by
  have hchanged : (liftM (change old) : Action State).run session = (.ok changed, session) := by
    rw [Action.run_lift, hchange]
  unfold update at h
  rw [Action.run_bind_of_ok hload, Action.run_bind_of_ok hchanged,
    Action.run_bind_of_ok (Action.run_get session)] at h
  dsimp only at h
  rw [hvalid] at h
  exact Action.Throws.bind (save_throws store _) (fun _ => .pure _) _ _ _ h

/-- **A step of a state that can be read** is completed unless the file cannot be written, and that
failure is none of this library's own. -/
theorem completeStep_foreign (hload : store.load.run session = (.ok old, session))
    (hrecord : saidOf said = .ok record) (hsaid : said.WellFormed)
    (h : (store.completeStep (.str step.id) said).run session = (.error failure, after)) :
    failure.isOwn = false := by
  obtain ⟨-, members, -, hvalid, hreads⟩ := load_ok.mp hload
  have hcomplete : State.violations
      ((old.complete step record session.now).stamped session.now).toJson = [] :=
    State.complete_valid hvalid hreads (proper_of_load hload) step
      (saidOf_wellFormed hsaid hrecord)
  unfold completeStep at h
  rw [Step.ofId?_text_id] at h
  dsimp only at h
  rw [Action.run_bind_of_ok (Action.run_get session)] at h
  rcases Action.run_bind_error h with hupdate | ⟨_, mid, -, hrest⟩
  · have hchange : (do return old.complete step (← saidOf said) session.now : Outcome State) =
        .ok (old.complete step record session.now) := by
      rw [hrecord]
      rfl
    exact update_foreign hload hchange hcomplete hupdate
  · rcases Action.run_bind_error hrest with hlog | ⟨_, _, -, hpure⟩
    · cases hlog
    · cases hpure

end Failures

end Store
end SpecDraft
