import SpecDraft.Proofs.State.Storage

/-!
# Written states read back

Any state with a valid description is read back after it was written, foreign members that take
the place of fields included. The description of the state that is read differs in one point: a
route description that is explicitly null is left out.
-/
set_option autoImplicit false

namespace SpecDraft

namespace StateMetadata

/-- Metadata that is read and described again loses a null description and nothing else. -/
theorem get?_members_ofMembers {metadata : Members}
    (hvalid : State.metadataViolations metadata = []) (key : String) : (ofMembers metadata).members.get? key =
      (metadata.get? key).filter fun value => !(key == "routeDescription" && value.isNull) := by
  obtain ⟨⟨name, -, hname⟩, ⟨path, -, hpath⟩, -⟩ := State.metadataViolations_eq_nil.mp hvalid
  by_cases hkey : key ∈ keys
  · simp only [keys, List.mem_cons, List.not_mem_nil, or_false] at hkey
    rcases hkey with rfl | rfl | rfl
    · rw [get?_projectName, ofMembers, hname]
      rfl
    · rw [get?_projectPath, ofMembers, hpath]
      rfl
    · rw [get?_routeDescription fun hmem => Members.not_mem_of_mem_keys_without hmem (by decide),
        ofMembers]
      cases metadata.get? "routeDescription" with
      | none => rfl
      | some value => cases value <;> rfl
  · have hne : (key == "routeDescription") = false := by
      rw [beq_eq_false_iff_ne]
      rintro rfl
      exact hkey (by decide)
    rw [get?_members_of_not_mem hkey, ofMembers, Members.get?_without_of_not_mem hkey, hne]
    cases metadata.get? key <;> rfl

end StateMetadata

namespace State

section Reread
variable {state loaded : State}

/-- The members of a state start with those of its fields. -/
theorem exists_keys_members (state : State) : ∃ new, state.members.keys = keys ++ new :=
  Members.keys_merge state.ownMembers state.extra

theorem exists_field {key : String} (h : key ∈ keys) (state : State) :
    ∃ value, state.members.get? key = some value := by
  obtain ⟨new, hkeys⟩ := exists_keys_members state
  rw [← Members.mem_keys_iff, hkeys]
  exact List.mem_append_left new h

theorem get?_ownMembers (h : Reads state.members loaded) {key : String} (hkey : key ∈ keys)
    (hne : key ≠ "metadata") : Members.get? loaded.ownMembers key = state.members.get? key := by
  have hroute : state.members.get? "route" = some loaded.route := by
    obtain ⟨value, hvalue⟩ := exists_field (show "route" ∈ keys by decide) state
    rw [hvalue, ← h.route, hvalue, Option.getD_some]
  have hstep : state.members.get? "currentStep" = some loaded.currentStep := by
    obtain ⟨value, hvalue⟩ := exists_field (show "currentStep" ∈ keys by decide) state
    rw [hvalue, ← h.currentStep, hvalue, Option.getD_some]
  simp only [keys, List.mem_cons, List.not_mem_nil, or_false] at hkey
  rcases hkey with rfl | rfl | rfl | rfl | rfl | rfl | rfl | rfl
  · rw [h.version]
    rfl
  · rw [h.created]
    rfl
  · rw [h.updated]
    rfl
  · rw [hroute]
    rfl
  · rw [hstep]
    rfl
  · rw [h.completed]
    rfl
  · exact absurd rfl hne
  · rw [h.details]
    rfl

/-- A state that is read from the members of another one has these members, in their order, but
for its own metadata. -/
theorem Reads.members_eq (h : Reads state.members loaded) (hwf : state.toJson.WellFormed) :
    loaded.members = state.members.put "metadata" (.obj loaded.metadata.members) := by
  have hmembers := Members.wellFormed_obj.mp hwf
  have hproper := h.proper hmembers
  obtain ⟨new, hkeys⟩ := exists_keys_members state
  have hnew : ∀ key ∈ new, key ∉ keys := by
    have hnodup := hkeys ▸ hmembers.nodup
    exact fun key hnew hkey => (List.nodup_append.mp hnodup).2.2 key hkey key hnew rfl
  have hnames : loaded.members.keys =
      (state.members.put "metadata" (.obj loaded.metadata.members)).keys := by
    rw [hproper.members_eq, Members.keys_append, keys_ownMembers, h.extra, Members.keys_without,
      Members.keys_put, hkeys, if_pos (List.mem_append_left new (by decide)), List.filter_append,
      List.filter_eq_nil_iff.mpr (by simp), List.filter_eq_self.mpr (by simpa using hnew),
      List.nil_append]
  have hnodup := (Members.wellFormed_obj.mp hproper.wellFormed).nodup
  -- The keys agree in their order, so it remains to compare what stands under each.
  refine Assoc.ext_of_names hnames hnodup fun key => ?_
  change loaded.members.get? key =
    (state.members.put "metadata" (.obj loaded.metadata.members)).get? key
  rw [hproper.members_eq, Members.get?_append]
  by_cases hkey : key ∈ keys
  · by_cases hmetadata : key = "metadata"
    · subst hmetadata
      rw [Members.get?_put_self]
      rfl
    · obtain ⟨value, hvalue⟩ := exists_field hkey state
      rw [get?_ownMembers h hkey hmetadata, Members.get?_put_ne hmetadata, hvalue, Option.some_or]
  · have hmetadata : key ≠ "metadata" := by
      rintro rfl
      exact hkey (by decide)
    have hown : Members.get? loaded.ownMembers key = none :=
      Members.get?_eq_none_iff.mpr (by rwa [keys_ownMembers])
    rw [hown, Option.none_or, h.extra, Members.get?_without_of_not_mem hkey,
      Members.get?_put_ne hmetadata]

end Reread

end State

namespace Store

section Reread
variable {store : Store} {state : State} {session saved : Session}

/-- What is read after a state with a valid description was written. -/
theorem load_of_save (hwf : state.toJson.WellFormed) (hvalid : State.Valid state.members)
    (hfit : state.toJson.pretty.toUTF8.size ≤ store.limit)
    (hsave : (store.save state).run session = (.ok (), saved)) :
    ∃ loaded, store.load.run saved = (.ok loaded, saved) ∧ State.Reads state.members loaded := by
  obtain ⟨loaded, hreads⟩ := hvalid.reads
  have hholds := (holds_of_stores (save_ok hsave) hwf).mpr ⟨rfl, hfit⟩
  exact ⟨loaded, load_ok.mpr ⟨rfl, _, hholds, hvalid, hreads⟩, hreads⟩

/-- **Written states read back.** A state with a valid description, within the limits on values
and on the size of the file, is written when nothing is in the way, and after every write that
succeeds it is read again. The state that is read has the same description, member by member and
in the same order, but for the metadata: there a route description that is null is left out, and
the foreign members, in their order, come first. -/
theorem save_load_roundTrip (hwf : state.toJson.WellFormed)
    (hvalid : State.violations state.toJson = [])
    (hlimits : state.toJson.excess? store.limits 0 = none)
    (hfit : state.toJson.pretty.toUTF8.size ≤ store.limit) :
    (∀ session, store.Ready session.disk →
      ∃ saved, (store.save state).run session = (.ok (), saved)) ∧
    ∀ session saved, (store.save state).run session = (.ok (), saved) →
      ∃ loaded metadata, store.load.run saved = (.ok loaded, saved) ∧
        state.members.get? "metadata" = some (.obj metadata) ∧
        loaded.members = state.members.put "metadata" (.obj loaded.metadata.members) ∧
        loaded.metadata.extra = Members.without metadata StateMetadata.keys ∧
        ∀ key, loaded.metadata.members.get? key = (Members.get? metadata key).filter
          fun value => !(key == "routeDescription" && value.isNull) := by
  refine ⟨fun session hready => save_of_ready hready hlimits, fun session saved hsave => ?_⟩
  obtain ⟨members, heq, hmembers⟩ := State.violations_eq_nil_iff.mp hvalid
  cases heq
  obtain ⟨loaded, hload, hreads⟩ := load_of_save hwf hmembers hfit hsave
  obtain ⟨metadata, hmetadata, hloaded⟩ := hreads.metadata
  refine ⟨loaded, metadata, hload, hmetadata, hreads.members_eq hwf, by rw [hloaded]; rfl,
    fun key => ?_⟩
  obtain ⟨metadata', hviolations, hmetadata'⟩ := hmembers.metadata
  rw [hmetadata] at hmetadata'
  cases hmetadata'
  rw [hloaded]
  exact StateMetadata.get?_members_ofMembers hviolations key

end Reread

/-- A state in which a foreign member takes the place of the metadata, with a description of the
route that is null. -/
def overridden : State :=
  { State.fresh ⟨0⟩ ⟨"/", ["p"]⟩ .null with
    extra := [("metadata", .obj [("projectName", .str "p"), ("projectPath", .str "/p"),
      ("routeDescription", .null)])] }

theorem overridden_wellFormed : overridden.toJson.WellFormed := by
  have hfresh : (State.fresh ⟨0⟩ ⟨"/", ["p"]⟩ .null).Proper := State.fresh_proper trivial
  refine Members.wellFormed_obj.mpr (hfresh.ownMembers.merge fun pair hpair => ?_)
  obtain rfl := List.mem_singleton.mp hpair
  exact Members.wellFormed_obj.mpr ⟨by decide, by simp [Json.WellFormed]⟩

theorem overridden_valid : State.violations overridden.toJson = [] := by decide +kernel

theorem overridden_fits : overridden.toJson.pretty.toUTF8.size ≤ sample.limit := by
  decide +kernel

theorem overridden_within : overridden.toJson.excess? sample.limits 0 = none := rfl

theorem save_load_overridden : ∃ saved loaded metadata,
    (sample.save overridden).run sampleSession = (.ok (), saved) ∧
      sample.load.run saved = (.ok loaded, saved) ∧
      overridden.members.get? "metadata" = some (.obj metadata) ∧
      loaded.members = overridden.members.put "metadata" (.obj loaded.metadata.members) := by
  obtain ⟨hsave, hload⟩ := save_load_roundTrip overridden_wellFormed overridden_valid
    overridden_within overridden_fits
  obtain ⟨saved, hsaved⟩ := hsave sampleSession sample_ready
  obtain ⟨loaded, metadata, hloaded, hmetadata, hmembers, -⟩ := hload sampleSession saved hsaved
  exact ⟨saved, loaded, metadata, hsaved, hloaded, hmetadata, hmembers⟩

/-- A description of the route that is null is written and not read. -/
theorem null_description_lost : ∃ saved loaded old new,
    State.violations overridden.toJson = [] ∧
      overridden.toJson.pretty.toUTF8.size ≤ sample.limit ∧
      (sample.save overridden).run sampleSession = (.ok (), saved) ∧
      sample.load.run saved = (.ok loaded, saved) ∧
      overridden.members.get? "metadata" = some (.obj old) ∧
      loaded.members.get? "metadata" = some (.obj new) ∧
      Members.get? old "routeDescription" = some .null ∧
      Members.get? new "routeDescription" = none := by
  obtain ⟨_, ⟨⟩, hmembers⟩ := State.violations_eq_nil_iff.mp overridden_valid
  obtain ⟨saved, hsave⟩ := save_of_ready sample_ready overridden_within
  obtain ⟨loaded, hload, hreads⟩ := load_of_save overridden_wellFormed hmembers overridden_fits
    hsave
  obtain ⟨metadata, hviolations, hmetadata⟩ := hmembers.metadata
  obtain ⟨metadata', hmetadata', hloaded⟩ := hreads.metadata
  rw [hmetadata] at hmetadata'
  cases hmetadata'
  refine ⟨saved, loaded, metadata, loaded.metadata.members, overridden_valid, overridden_fits,
    hsave, hload, hmetadata, ?_, ?_, ?_⟩
  · rw [hreads.members_eq overridden_wellFormed, Members.get?_put_self]
  · cases hmetadata
    rfl
  · rw [hloaded, StateMetadata.get?_members_ofMembers hviolations]
    cases hmetadata
    rfl

end Store
end SpecDraft
