import SpecDraft.Proofs.Json.WellFormed
import SpecDraft.Proofs.State.Document

/-!
# States as documents

A state reads back from the members that describe it (`Proper.reads`), as long as its foreign
members have other keys than its fields (`Proper`), and every state that was read is of that kind
(`Reads.proper`).
-/
set_option autoImplicit false

namespace SpecDraft

namespace StateMetadata

/-- Well-formed metadata whose foreign members have keys of their own. -/
structure Proper (metadata : StateMetadata) : Prop where
  projectName : metadata.projectName.WellFormed
  projectPath : metadata.projectPath.WellFormed
  routeDescription : metadata.routeDescription.WellFormed
  extra : metadata.extra.WellFormed
  foreign : ∀ key ∈ metadata.extra.keys, key ∉ keys

section
variable {metadata : StateMetadata}

/-- The foreign members come first. -/
theorem members_eq (h : ∀ key ∈ metadata.extra.keys, key ∉ keys) :
    metadata.members = metadata.extra ++ ([("projectName", metadata.projectName),
      ("projectPath", metadata.projectPath)] ++
        if metadata.routeDescription.isNull then []
        else [("routeDescription", metadata.routeDescription)]) := by
  have hname : "projectName" ∉ metadata.extra.keys := fun hmem => h _ hmem (by decide)
  have hpath : "projectPath" ∉ metadata.extra.keys := fun hmem => h _ hmem (by decide)
  have hdescription : "routeDescription" ∉ metadata.extra.keys := fun hmem => h _ hmem (by decide)
  have hnamed : Members.put (Members.put metadata.extra "projectName" metadata.projectName)
      "projectPath" metadata.projectPath = metadata.extra ++
        [("projectName", metadata.projectName), ("projectPath", metadata.projectPath)] := by
    rw [Members.put_of_not_mem hname, Members.put_of_not_mem, List.append_assoc]
    · rfl
    · simpa using hpath
  unfold members
  dsimp only
  rw [hnamed]
  split
  · rw [List.append_nil]
  · rw [Members.put_of_not_mem, List.append_assoc]
    simpa using hdescription

theorem Proper.wellFormed (h : metadata.Proper) : metadata.members.WellFormed := by
  have hnamed := (h.extra.put h.projectName "projectName").put h.projectPath "projectPath"
  unfold members
  dsimp only
  split
  · exact hnamed
  · exact hnamed.put h.routeDescription "routeDescription"

theorem get?_members_of_not_mem {key : String} (h : key ∉ keys) :
    metadata.members.get? key = metadata.extra.get? key := by
  simp only [keys, List.mem_cons, List.not_mem_nil, or_false, not_or] at h
  unfold members
  dsimp only
  split
  · rw [Members.get?_put_ne h.2.1, Members.get?_put_ne h.1]
  · rw [Members.get?_put_ne h.2.2, Members.get?_put_ne h.2.1, Members.get?_put_ne h.1]

theorem get?_projectName : metadata.members.get? "projectName" = some metadata.projectName := by
  unfold members
  dsimp only
  split
  · rw [Members.get?_put_ne (by decide), Members.get?_put_self]
  · rw [Members.get?_put_ne (by decide), Members.get?_put_ne (by decide), Members.get?_put_self]

theorem get?_projectPath : metadata.members.get? "projectPath" = some metadata.projectPath := by
  unfold members
  dsimp only
  split
  · rw [Members.get?_put_self]
  · rw [Members.get?_put_ne (by decide), Members.get?_put_self]

/-- There is no description in the members where there is none in the metadata. -/
theorem get?_routeDescription (h : "routeDescription" ∉ metadata.extra.keys) :
    metadata.members.get? "routeDescription" =
      if metadata.routeDescription.isNull then none else some metadata.routeDescription := by
  unfold members
  dsimp only
  split
  · rw [Members.get?_put_ne (by decide), Members.get?_put_ne (by decide),
      Members.get?_eq_none_iff.mpr h]
  · rw [Members.get?_put_self]

theorem eq_null_of_isNull {value : Json} (h : value.isNull) : value = .null := by
  cases value <;> first | rfl | cases h

/-- Metadata reads back. -/
theorem ofMembers_members (h : ∀ key ∈ metadata.extra.keys, key ∉ keys) :
    ofMembers metadata.members = metadata := by
  have hdescription := get?_routeDescription fun hmem => h _ hmem (by decide)
  have hextra : metadata.members.without keys = metadata.extra := by
    rw [members_eq h, Members.without_append, Members.without_eq_self h, Members.without_eq_nil,
      List.append_nil]
    split <;> simp [keys]
  rw [ofMembers, get?_projectName, get?_projectPath, hdescription, hextra]
  obtain ⟨projectName, projectPath, routeDescription, extra⟩ := metadata
  dsimp only
  split
  · rename_i hnull
    rw [eq_null_of_isNull hnull]
    rfl
  · rfl

theorem proper_ofMembers {members : Members} (h : members.WellFormed) :
    (ofMembers members).Proper where
  projectName := h.getD (Json.wellFormed_str "") "projectName"
  projectPath := h.getD (Json.wellFormed_str "") "projectPath"
  routeDescription := h.getD Json.wellFormed_null "routeDescription"
  extra := h.filter _
  foreign _ := Members.not_mem_of_mem_keys_without

end

end StateMetadata

namespace State

/-! ## What a state says about the steps -/

theorem names_detailMembers (details : List (String × Members)) :
    (detailMembers details).keys = Assoc.names details := by
  rw [Members.keys, Assoc.names, detailMembers, List.map_map]
  rfl

/-- The records of the steps read back. -/
theorem detailsOfJson_detailMembers (details : List (String × Members)) :
    detailsOfJson (.obj (detailMembers details)) = .ok details := by
  change ((detailMembers details).mapM _ : Outcome (List (String × Members))) = _
  induction details with
  | nil => rfl
  | cons pair details ih =>
    obtain ⟨step, record⟩ := pair
    rw [detailMembers, List.map_cons, List.mapM_cons]
    rw [detailMembers] at ih
    rw [ih]
    rfl

theorem detailMembers_wellFormed {details : List (String × Members)}
    (hnames : (Assoc.names details).Nodup)
    (hrecords : ∀ pair ∈ details, Members.WellFormed pair.2) :
    (detailMembers details).WellFormed where
  nodup := by rwa [names_detailMembers]
  values pair hpair := by
    obtain ⟨⟨step, record⟩, hmem, rfl⟩ := List.mem_map.mp hpair
    exact Members.wellFormed_obj.mpr (hrecords _ hmem)

theorem names_nodup_of_wellFormed {details : List (String × Members)}
    (h : (detailMembers details).WellFormed) :
    (Assoc.names details).Nodup ∧ ∀ pair ∈ details, Members.WellFormed pair.2 := by
  refine ⟨names_detailMembers details ▸ h.nodup, fun pair hpair => ?_⟩
  obtain ⟨step, record⟩ := pair
  exact Members.wellFormed_obj.mp (h.values (step, .obj record) (List.mem_map_of_mem hpair))

/-! ## Reading members -/

/-- What a state that is read from members has to do with them. -/
structure Reads (members : Members) (state : State) : Prop where
  version : members.get? "version" = some state.version
  created : members.get? "created" = some state.created
  updated : members.get? "updated" = some state.updated
  route : (members.get? "route").getD .null = state.route
  currentStep : (members.get? "currentStep").getD .null = state.currentStep
  completed : members.get? "completedSteps" = some (.arr state.completed)
  metadata : ∃ metadata, members.get? "metadata" = some (.obj metadata) ∧
    state.metadata = .ofMembers metadata
  details : members.get? "stepDetails" = some (.obj (detailMembers state.details))
  extra : state.extra = members.without keys

theorem Reads.ofMembers {members : Members} {state : State} (h : Reads members state) :
    ofMembers members = .ok state := by
  obtain ⟨hversion, hcreated, hupdated, hroute, hstep, hcompleted, ⟨metadata, hmetadata, heq⟩,
    hdetails, hextra⟩ := h
  unfold State.ofMembers
  simp only [Members.require, hversion, hcreated, hupdated, hcompleted, hmetadata, hdetails,
    Option.getD_some, detailsOfJson_detailMembers, metadataOf, Json.elements, Json.elements?,
    Json.membersFor, hroute, hstep]
  obtain ⟨version, created, updated, route, currentStep, completed, metadata', details, extra⟩ :=
    state
  cases heq
  cases hextra
  rfl

/-- A valid document can be read. -/
theorem Valid.reads {members : Members} (h : Valid members) : ∃ state, Reads members state := by
  obtain ⟨version, -, hversion⟩ := h.version
  obtain ⟨created, -, hcreated⟩ := h.created
  obtain ⟨updated, -, hupdated⟩ := h.updated
  obtain ⟨steps, -, hcompleted⟩ := h.completed
  obtain ⟨metadata, -, hmetadata⟩ := h.metadata
  obtain ⟨details, -, hdetails⟩ := h.details
  exact ⟨⟨.str version, .str created, .str updated, _, _, stepNames steps, .ofMembers metadata,
    details, _⟩, hversion, hcreated, hupdated, rfl, rfl, hcompleted, ⟨metadata, hmetadata, rfl⟩,
    hdetails, rfl⟩

/-! ## Proper states -/

/-- A state of well-formed values that names each step once in its details, and whose foreign
members have keys of their own. -/
structure Proper (state : State) : Prop where
  version : state.version.WellFormed
  created : state.created.WellFormed
  updated : state.updated.WellFormed
  route : state.route.WellFormed
  currentStep : state.currentStep.WellFormed
  completed : ∀ value ∈ state.completed, value.WellFormed
  metadata : state.metadata.Proper
  steps : (Assoc.names state.details).Nodup
  records : ∀ pair ∈ state.details, Members.WellFormed pair.2
  extra : state.extra.WellFormed
  foreign : ∀ key ∈ state.extra.keys, key ∉ keys

section Proper
variable {state : State} {members : Members}

theorem keys_ownMembers (state : State) : Members.keys state.ownMembers = keys := rfl

theorem Proper.ownMembers (h : state.Proper) : Members.WellFormed state.ownMembers where
  nodup := by
    rw [keys_ownMembers]
    decide
  values := by
    simp only [State.ownMembers, List.forall_mem_cons, List.not_mem_nil, false_implies,
      implies_true, and_true]
    exact ⟨h.version, h.created, h.updated, h.route, h.currentStep,
      Json.itemsWellFormed_iff.mpr h.completed, Members.wellFormed_obj.mpr h.metadata.wellFormed,
      Members.wellFormed_obj.mpr (detailMembers_wellFormed h.steps h.records)⟩

theorem Proper.wellFormed (h : state.Proper) : state.toJson.WellFormed :=
  Members.wellFormed_obj.mpr (h.ownMembers.merge h.extra.values)

theorem Proper.members_eq (h : state.Proper) : state.members = state.ownMembers ++ state.extra := by
  refine Members.merge_of_disjoint (List.nodup_append.mpr ⟨h.ownMembers.nodup, h.extra.nodup, ?_⟩)
  rintro key hown other hextra rfl
  exact h.foreign key hextra hown

/-- The members of a proper state hold its fields. -/
theorem Proper.get?_members (h : state.Proper) {key : String} {value : Json}
    (hget : Members.get? state.ownMembers key = some value) :
    state.members.get? key = some value := by
  rw [h.members_eq, Members.get?_append, hget, Option.some_or]

/-- **A proper state reads back** from the members that describe it. -/
theorem Proper.reads (h : state.Proper) : Reads state.members state := by
  have hown {key : String} {value : Json} := @Proper.get?_members state h key value
  refine ⟨hown rfl, hown rfl, hown rfl, ?_, ?_, hown rfl, ⟨_, hown rfl, ?_⟩, hown rfl, ?_⟩
  · rw [hown rfl, Option.getD_some]
  · rw [hown rfl, Option.getD_some]
  · exact (StateMetadata.ofMembers_members h.metadata.foreign).symm
  · rw [h.members_eq, Members.without_append, Members.without_eq_self h.foreign,
      Members.without_eq_nil, List.nil_append]
    rw [keys_ownMembers]
    exact fun key hkey => hkey

/-- **Whatever is read from well-formed members is proper.** -/
theorem Reads.proper (h : Reads members state) (hwf : members.WellFormed) : state.Proper := by
  obtain ⟨metadata, hmetadata, heq⟩ := h.metadata
  have hdetails := names_nodup_of_wellFormed (Members.wellFormed_obj.mp (hwf.get? h.details))
  exact {
    version := hwf.get? h.version
    created := hwf.get? h.created
    updated := hwf.get? h.updated
    route := h.route ▸ hwf.getD Json.wellFormed_null "route"
    currentStep := h.currentStep ▸ hwf.getD Json.wellFormed_null "currentStep"
    completed := Json.itemsWellFormed_iff.mp (hwf.get? h.completed)
    metadata := heq ▸
      StateMetadata.proper_ofMembers (Members.wellFormed_obj.mp (hwf.get? hmetadata))
    steps := hdetails.1
    records := hdetails.2
    extra := h.extra ▸ hwf.filter _
    foreign := fun key hkey => Members.not_mem_of_mem_keys_without (h.extra ▸ hkey) }

/-- A state is read from valid members in one way. -/
theorem reads_of_ofMembers (hvalid : Valid members) (h : ofMembers members = .ok state) :
    Reads members state := by
  obtain ⟨state', hreads⟩ := hvalid.reads
  rw [hreads.ofMembers] at h
  cases h
  exact hreads

end Proper

end State
end SpecDraft
