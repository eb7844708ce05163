import SpecDraft.Proofs.Json.Members
import SpecDraft.State.Validation

/-!
# Valid documents

What a value without violations looks like, as one structure (`Valid`): version and times are
texts, route and steps are known, each step is done once, the metadata names the project, and what
is known about a step is an object (`violations_eq_nil_iff`).
-/
set_option autoImplicit false

namespace SpecDraft

namespace Step

theorem id_injective : Function.Injective id := by
  intro a b h
  cases a <;> cases b <;> first | rfl | exact absurd h (by decide)

theorem mem_ids_iff {name : String} : name ∈ ids ↔ ∃ step : Step, step.id = name := by
  rw [ids, List.mem_map]
  constructor
  · rintro ⟨step, -, h⟩
    exact ⟨step, h⟩
  · rintro ⟨step, h⟩
    exact ⟨step, by cases step <;> decide, h⟩

theorem ofId?_text_id (step : Step) : (Json.str step.id).text?.bind ofId? = some step := by
  cases step <;> rfl

end Step

namespace State

/-- The list that names steps. -/
def stepNames (steps : List Step) : List Json := steps.map fun step => .str step.id

theorem isCompleted_iff {state : State} {steps : List Step} (h : state.completed = stepNames steps)
    {step : Step} : state.isCompleted step ↔ step ∈ steps := by
  simp only [isCompleted, h, stepNames, List.any_map, List.any_eq_true, Function.comp_apply,
    Json.text?, Option.some_beq_some, beq_iff_eq]
  constructor
  · rintro ⟨other, hmem, hid⟩
    exact Step.id_injective hid ▸ hmem
  · intro hmem
    exact ⟨step, hmem, rfl⟩

/-- What a document without violations holds. -/
structure Valid (members : Members) : Prop where
  forbidden : Disk.forbiddenIn members = []
  version : ∃ text, text ≠ "" ∧ members.get? "version" = some (.str text)
  created : ∃ text, text ≠ "" ∧ members.get? "created" = some (.str text)
  updated : ∃ text, text ≠ "" ∧ members.get? "updated" = some (.str text)
  route : isNoneOr Route.names (members.get? "route")
  currentStep : isNoneOr Step.ids (members.get? "currentStep")
  completed : ∃ steps : List Step, steps.Nodup ∧
    members.get? "completedSteps" = some (.arr (stepNames steps))
  metadata : ∃ metadata, metadataViolations metadata = [] ∧
    members.get? "metadata" = some (.obj metadata)
  details : ∃ details, (∀ name ∈ Assoc.names details, name ∈ Step.ids) ∧
    members.get? "stepDetails" = some (.obj (detailMembers details))

theorem expect_eq_nil {holds : Bool} {violation : String} :
    expect holds violation = [] ↔ holds = true := by
  cases holds <;> simp [expect]

theorem names_iff {members : Members} {key : String} :
    names members key = true ↔ ∃ text, text ≠ "" ∧ members.get? key = some (.str text) := by
  unfold names
  cases members.get? key with
  | none => simp
  | some value => cases value <;> simp [isName, and_comm]

theorem forbiddenIn_eq_nil {members : Members} :
    Disk.forbiddenIn members = [] ↔ ∀ key ∈ Disk.forbiddenKeys, key ∉ members.keys := by
  rw [Disk.forbiddenIn, List.filter_eq_nil_iff]
  simp only [Bool.not_eq_true, Members.has_eq_false_iff]

theorem keyViolations_eq_nil {members : Members} :
    keyViolations members = [] ↔ Disk.forbiddenIn members = [] := by
  unfold keyViolations
  split
  · simp [‹Disk.forbiddenIn members = []›]
  · rename_i h
    simpa using h

theorem completedViolations_cons {seen : List String} {first : Json} {rest : List Json} :
    completedViolations seen (first :: rest) = [] ↔
      ∃ step : Step, first = .str step.id ∧ step.id ∉ seen ∧
        completedViolations (step.id :: seen) rest = [] := by
  constructor
  · intro h
    cases first with
    | str name =>
      rw [completedViolations] at h
      split at h
      · cases h
      split at h
      · cases h
      · rename_i hknown hnew
        obtain ⟨step, rfl⟩ := Step.mem_ids_iff.mp (by simpa using hknown)
        exact ⟨step, rfl, by simpa using hnew, h⟩
    | _ => simp [completedViolations] at h
  · rintro ⟨step, rfl, hnew, hrest⟩
    have hknown : Step.ids.contains step.id = true := by
      simpa using Step.mem_ids_iff.mpr ⟨step, rfl⟩
    have hfirst : seen.contains step.id = false := by simpa using hnew
    rw [completedViolations]
    simp only [hknown, hfirst, Bool.not_true, Bool.false_eq_true, if_false]
    exact hrest

/-- A list of completed steps is accepted when it names steps, each once and none seen before. -/
theorem completedViolations_eq_nil {seen : List String} {steps : List Json} :
    completedViolations seen steps = [] ↔
      ∃ named : List Step, named.Nodup ∧ (∀ step ∈ named, step.id ∉ seen) ∧
        steps = stepNames named := by
  induction steps generalizing seen with
  | nil => exact ⟨fun _ => ⟨[], List.nodup_nil, by simp, rfl⟩, fun _ => rfl⟩
  | cons first rest ih =>
    rw [completedViolations_cons]
    simp only [ih]
    constructor
    · rintro ⟨step, rfl, hnew, named, hnodup, hseen, rfl⟩
      have hstep : step ∉ named := fun hmem => hseen step hmem List.mem_cons_self
      refine ⟨step :: named, List.nodup_cons.mpr ⟨hstep, hnodup⟩, fun other hother => ?_, rfl⟩
      rcases List.mem_cons.mp hother with rfl | hother
      · exact hnew
      · exact fun hmem => hseen other hother (List.mem_cons_of_mem _ hmem)
    · rintro ⟨named, hnodup, hseen, heq⟩
      cases named with
      | nil => cases heq
      | cons step named =>
        obtain ⟨rfl, rfl⟩ := List.cons.inj heq
        obtain ⟨hnew, hnodup⟩ := List.nodup_cons.mp hnodup
        refine ⟨step, rfl, hseen step List.mem_cons_self, named, hnodup, fun other hother => ?_, rfl⟩
        rw [List.mem_cons, not_or]
        refine ⟨fun hid => hnew (Step.id_injective hid ▸ hother), ?_⟩
        exact hseen other (List.mem_cons_of_mem _ hother)

theorem detailViolations_cons {name : String} {record : Json} {members : Members} :
    detailViolations ((name, record) :: members) = [] ↔
      name ∈ Step.ids ∧ (∃ own, record = .obj own) ∧ detailViolations members = [] := by
  rw [detailViolations, List.flatMap_cons, List.append_eq_nil_iff, ← detailViolations]
  dsimp only
  by_cases hknown : name ∈ Step.ids
  · rw [if_neg (by simpa using hknown), expect_eq_nil]
    cases record with
    | obj own => simp [Json.members?, hknown]
    | _ => simp [Json.members?]
  · rw [if_pos (by simpa using hknown)]
    simp [hknown]

/-- What is known about steps is accepted when the steps exist and each has an object. -/
theorem detailViolations_eq_nil {members : Members} :
    detailViolations members = [] ↔
      ∃ details, (∀ name ∈ Assoc.names details, name ∈ Step.ids) ∧
        members = detailMembers details := by
  induction members with
  | nil => exact ⟨fun _ => ⟨[], by simp, rfl⟩, fun _ => rfl⟩
  | cons pair members ih =>
    obtain ⟨name, record⟩ := pair
    rw [detailViolations_cons, ih]
    constructor
    · rintro ⟨hknown, ⟨own, rfl⟩, details, hnames, rfl⟩
      refine ⟨(name, own) :: details, fun other hother => ?_, rfl⟩
      rcases List.mem_cons.mp hother with rfl | hother
      · exact hknown
      · exact hnames other hother
    · rintro ⟨details, hnames, heq⟩
      cases details with
      | nil => cases heq
      | cons pair details =>
        obtain ⟨hpair, rfl⟩ := List.cons.inj heq
        obtain ⟨rfl, rfl⟩ := Prod.mk.inj hpair
        exact ⟨hnames _ List.mem_cons_self, ⟨_, rfl⟩, details,
          fun other hother => hnames other (List.mem_cons_of_mem _ hother), rfl⟩

/-- Metadata is accepted when it names the project and where it is, and describes the route by a
text or not at all. -/
theorem metadataViolations_eq_nil {metadata : Members} :
    metadataViolations metadata = [] ↔
      (∃ text, text ≠ "" ∧ metadata.get? "projectName" = some (.str text)) ∧
      (∃ text, text ≠ "" ∧ metadata.get? "projectPath" = some (.str text)) ∧
      ∀ value, metadata.get? "routeDescription" = some value →
        value = .null ∨ ∃ text, value = .str text := by
  unfold metadataViolations
  rw [List.append_eq_nil_iff, List.append_eq_nil_iff, expect_eq_nil, expect_eq_nil, names_iff,
    names_iff, and_assoc]
  cases metadata.get? "routeDescription" with
  | none => simp
  | some value => cases value <;> simp

section Fields
variable {members : Members}

theorem completed_iff :
    (match members.get? "completedSteps" with
      | some (.arr steps) => completedViolations [] steps
      | _ => ["completedSteps must be an array"]) = [] ↔
      ∃ steps : List Step, steps.Nodup ∧
        members.get? "completedSteps" = some (.arr (stepNames steps)) := by
  constructor
  · intro h
    split at h
    · obtain ⟨steps, hnodup, -, rfl⟩ := completedViolations_eq_nil.mp h
      exact ⟨steps, hnodup, ‹_›⟩
    · cases h
  · rintro ⟨steps, hnodup, heq⟩
    rw [heq]
    exact completedViolations_eq_nil.mpr ⟨steps, hnodup, by simp, rfl⟩

theorem metadata_iff :
    (match members.get? "metadata" with
      | some (.obj metadata) => metadataViolations metadata
      | _ => ["Missing or invalid metadata"]) = [] ↔
      ∃ metadata, metadataViolations metadata = [] ∧
        members.get? "metadata" = some (.obj metadata) := by
  constructor
  · intro h
    split at h
    · exact ⟨_, h, ‹_›⟩
    · cases h
  · rintro ⟨metadata, hmetadata, heq⟩
    rw [heq]
    exact hmetadata

theorem details_iff :
    (match members.get? "stepDetails" with
      | some (.obj details) => detailViolations details
      | _ => ["Missing or invalid stepDetails"]) = [] ↔
      ∃ details, (∀ name ∈ Assoc.names details, name ∈ Step.ids) ∧
        members.get? "stepDetails" = some (.obj (detailMembers details)) := by
  constructor
  · intro h
    split at h
    · obtain ⟨details, hnames, rfl⟩ := detailViolations_eq_nil.mp h
      exact ⟨details, hnames, ‹_›⟩
    · cases h
  · rintro ⟨details, hnames, heq⟩
    rw [heq]
    exact detailViolations_eq_nil.mpr ⟨details, hnames, rfl⟩

end Fields

/-- **A value without violations is a valid document.** -/
theorem violations_eq_nil_iff {value : Json} :
    violations value = [] ↔ ∃ members, value = .obj members ∧ Valid members := by
  cases value with
  | obj members =>
    have hfields : violations (.obj members) = [] ↔ Valid members := by
      rw [violations, memberViolations]
      simp only [List.append_eq_nil_iff, keyViolations_eq_nil, expect_eq_nil, names_iff]
      constructor
      · rintro ⟨⟨⟨⟨⟨⟨⟨⟨hkeys, hversion⟩, hcreated⟩, hupdated⟩, hroute⟩, hstep⟩, hcompleted⟩,
          hmetadata⟩, hdetails⟩
        exact ⟨hkeys, hversion, hcreated, hupdated, hroute, hstep, completed_iff.mp hcompleted,
          metadata_iff.mp hmetadata, details_iff.mp hdetails⟩
      · intro h
        exact ⟨⟨⟨⟨⟨⟨⟨⟨h.forbidden, h.version⟩, h.created⟩, h.updated⟩, h.route⟩, h.currentStep⟩,
          completed_iff.mpr h.completed⟩, metadata_iff.mpr h.metadata⟩, details_iff.mpr h.details⟩
    rw [hfields]
    exact ⟨fun h => ⟨members, rfl, h⟩, fun ⟨_, heq, h⟩ => by cases heq; exact h⟩
  | _ => simp [violations]

end State
end SpecDraft
