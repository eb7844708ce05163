import SpecDraft.Proofs.File.Replacement
import SpecDraft.Proofs.Json.Collection
import SpecDraft.Proofs.State.Encoding
import SpecDraft.State.Store

/-!
# Changes of states

A fresh state is proper, and valid exactly when its project has a name (`violations_fresh`).
Completing a step and changing the route keep a state proper.
-/
set_option autoImplicit false

namespace SpecDraft

theorem Moment.stamp_ne_empty (now : Moment) : now.stamp ≠ "" := by
  intro h
  have hlist := congrArg String.toList h
  simp [stamp] at hlist

theorem FilePath.text_ne_empty {path : FilePath} (h : path.name ≠ "") : path.text ≠ "" := by
  have hparts : path.parts ≠ [] := by
    rintro hnil
    rw [name, hnil] at h
    exact h rfl
  have hsize : path.name.utf8ByteSize ≠ 0 := by
    rwa [ne_eq, String.utf8ByteSize_eq_zero_iff]
  have hjoin := Disk.size_join_le "/" path.parent.parts path.name
  rw [← Disk.parts_eq hparts] at hjoin
  rw [text, if_neg (by simp [hparts]), ne_eq, ← String.utf8ByteSize_eq_zero_iff,
    String.utf8ByteSize_append]
  omega

theorem Route.wellFormed_describe (route : Json) : (describe route).WellFormed :=
  Json.wellFormed_ofText? _

theorem Route.wellFormed_of_isKnown {route : Json} (h : isKnown route) : route.WellFormed := by
  cases route with
  | null => trivial
  | str text => trivial
  | _ => cases h

theorem isNoneOr_iff_isKnown {route : Json} :
    State.isNoneOr Route.names (some route) ↔ Route.isKnown route := by
  cases route with
  | null => exact ⟨fun _ => rfl, fun _ => rfl⟩
  | _ => exact Iff.rfl

theorem Route.describe_text (route : Json) :
    describe route = .null ∨ ∃ text, describe route = .str text := by
  unfold describe
  cases route.text?.bind descriptionOf? with
  | none => exact .inl rfl
  | some text => exact .inr ⟨text, rfl⟩

namespace State

/-- The route that a valid state says is known. -/
theorem isKnown_route {state : State} (hforeign : ∀ key ∈ state.extra.keys, key ∉ keys)
    (hvalid : violations state.toJson = []) : Route.isKnown state.route := by
  obtain ⟨_, ⟨⟩, h⟩ := violations_eq_nil_iff.mp hvalid
  have hroute : state.members.get? "route" = some state.route := by
    rw [State.members, Members.get?_merge_of_not_mem fun hmem => hforeign _ hmem (by decide)]
    rfl
  have hknown := h.route
  rwa [hroute, isNoneOr_iff_isKnown] at hknown

section Fresh
variable {now : Moment} {project : FilePath} {route : Json}

theorem fresh_proper (hroute : route.WellFormed) : (fresh now project route).Proper where
  version := trivial
  created := trivial
  updated := trivial
  route := hroute
  currentStep := trivial
  completed := by simp [fresh]
  metadata := {
    projectName := trivial
    projectPath := trivial
    routeDescription := Route.wellFormed_describe route
    extra := Members.wellFormed_nil
    foreign := by simp [fresh] }
  steps := List.nodup_singleton _
  records := by
    intro pair hpair
    obtain rfl := List.mem_singleton.mp hpair
    exact ⟨show ["started", "status"].Nodup by decide, by simp [Json.WellFormed]⟩
  extra := Members.wellFormed_nil
  foreign := by simp [fresh]

/-- **A fresh state is valid exactly when its project has a name.** -/
theorem violations_fresh (hroute : Route.isKnown route) :
    violations (fresh now project route).toJson = [] ↔ project.name ≠ "" := by
  have hmetadata : (fresh now project route).members.get? "metadata" =
      some (.obj (fresh now project route).metadata.members) := rfl
  rw [violations_eq_nil_iff]
  constructor
  · rintro ⟨_, ⟨⟩, h⟩
    obtain ⟨metadata, hmembers, hget⟩ := h.metadata
    rw [hmetadata] at hget
    cases hget
    obtain ⟨⟨text, htext, hname⟩, -⟩ := metadataViolations_eq_nil.mp hmembers
    rw [StateMetadata.get?_projectName] at hname
    cases hname
    exact htext
  · intro hname
    have hstamp : ∃ text, text ≠ "" ∧ some (Json.str now.stamp) = some (.str text) :=
      ⟨_, now.stamp_ne_empty, rfl⟩
    refine ⟨_, rfl, ?_, ⟨formatVersion, by decide, rfl⟩, hstamp, hstamp, ?_, rfl,
      ⟨[], List.nodup_nil, rfl⟩, ⟨_, ?_, hmetadata⟩, ⟨_, ?_, rfl⟩⟩
    · rw [forbiddenIn_eq_nil]
      exact (show ∀ key ∈ Disk.forbiddenKeys, key ∉ keys by decide)
    · exact isNoneOr_iff_isKnown.mpr hroute
    · rw [metadataViolations_eq_nil, StateMetadata.get?_projectName, StateMetadata.get?_projectPath,
        StateMetadata.get?_routeDescription (by simp [fresh])]
      refine ⟨⟨_, hname, rfl⟩, ⟨_, FilePath.text_ne_empty hname, rfl⟩, fun value hvalue => ?_⟩
      split at hvalue
      · cases hvalue
      · cases hvalue
        exact Route.describe_text route
    · simp [fresh, Step.ids, Step.all, Step.id]

end Fresh

section Complete
variable {state : State}

theorem withRoute_proper (h : state.Proper) {route : Json} (hroute : route.WellFormed) :
    (state.withRoute route).Proper :=
  { h with
    route := hroute
    metadata := { h.metadata with routeDescription := Route.wellFormed_describe route } }

theorem Proper.detailsOf (h : state.Proper) (step : Step) :
    Members.WellFormed (state.detailsOf step) := by
  unfold State.detailsOf
  cases hlookup : state.details.lookup step.id with
  | none => exact Members.wellFormed_nil
  | some record => exact h.records _ (Assoc.mem_of_lookup hlookup)

theorem complete_proper (h : state.Proper) (step : Step) {said : Members}
    (hsaid : said.WellFormed) (now : Moment) : (state.complete step said now).Proper where
  version := h.version
  created := h.created
  updated := h.updated
  route := h.route
  currentStep := Json.wellFormed_ofText? _
  completed value hvalue := by
    unfold complete at hvalue
    dsimp only at hvalue
    split at hvalue
    · exact h.completed value hvalue
    · rcases List.mem_append.mp hvalue with hvalue | hvalue
      · exact h.completed value hvalue
      · rw [List.mem_singleton.mp hvalue]
        trivial
  metadata := h.metadata
  steps := Assoc.nodup_names_put h.steps step.id _
  records pair hpair := by
    rcases Assoc.mem_put hpair with rfl | hpair
    · refine Members.WellFormed.merge (Members.WellFormed.merge (h.detailsOf step) ?_) hsaid.values
      simp [Json.WellFormed]
    · exact h.records pair hpair
  extra := h.extra
  foreign := h.foreign

theorem stamped_proper (h : state.Proper) (now : Moment) : (state.stamped now).Proper :=
  { h with updated := trivial }

end Complete

end State
end SpecDraft
