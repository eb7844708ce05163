import SpecDraft.Proofs.Json.Refusal
import SpecDraft.Proofs.State.Run
import SpecDraft.Workflow.Position

/-!
# Which files are accepted

The schema of a state, said of the members of an object (`State.Schema`), and what becomes of a
file with any content (`load_of_file`): a state is returned exactly when the content is not too
large, is the text of an object and the object meets the schema, and every other file is refused
for its size or as an invalid state with a list of what is wrong. The report on how far a project
has come tells of success exactly when the state is read.
-/
set_option autoImplicit false

namespace SpecDraft

/-! ## The schema -/

/-- Whether a member is there and is a text that is not empty. -/
def Members.Names (members : Members) (key : String) : Prop :=
  ∃ text, text ≠ "" ∧ members.get? key = some (.str text)

/-- Whether a member is missing, null, or a text that is accepted. -/
def Members.MayBe (members : Members) (key : String) (accepted : String → Prop) : Prop :=
  ∀ value, members.get? key = some value → value = .null ∨ ∃ text, accepted text ∧ value = .str text

namespace State

/-- What the members of an object must be to describe a state. -/
structure Schema (members : Members) : Prop where
  allowed : ∀ key ∈ ["__proto__", "constructor", "prototype"], key ∉ members.keys
  version : members.Names "version"
  created : members.Names "created"
  updated : members.Names "updated"
  route : members.MayBe "route" fun text => ∃ route : Route, text = route.name
  currentStep : members.MayBe "currentStep" fun text => ∃ step : Step, text = step.id
  completedSteps : ∃ steps : List Step, steps.Nodup ∧
    members.get? "completedSteps" = some (.arr (steps.map fun step => .str step.id))
  metadata : ∃ metadata : Members, members.get? "metadata" = some (.obj metadata) ∧
    metadata.Names "projectName" ∧ metadata.Names "projectPath" ∧
    metadata.MayBe "routeDescription" fun _ => True
  stepDetails : ∃ details : Members, members.get? "stepDetails" = some (.obj details) ∧
    ∀ pair ∈ details, (∃ step : Step, pair.1 = step.id) ∧ ∃ record, pair.2 = .obj record

section Schema
variable {members : Members}

theorem isNoneOr_iff {texts : List String} {key : String} :
    isNoneOr texts (members.get? key) = true ↔ members.MayBe key (· ∈ texts) := by
  unfold Members.MayBe
  cases members.get? key with
  | none => simp [isNoneOr]
  | some value => cases value <;> simp [isNoneOr, Json.isOneOf]

theorem mem_routeNames_iff {name : String} :
    name ∈ Route.names ↔ ∃ route : Route, name = route.name := by
  constructor
  · intro h
    obtain ⟨route, -, rfl⟩ := List.mem_map.mp h
    exact ⟨route, rfl⟩
  · rintro ⟨route, rfl⟩
    cases route <;> decide

theorem mem_stepIds_iff {name : String} : name ∈ Step.ids ↔ ∃ step : Step, name = step.id := by
  simp only [Step.mem_ids_iff, eq_comm]

/-- Objects for steps are the records that are known about steps. -/
theorem records_iff {details : Members} :
    (∀ pair ∈ details, (∃ step : Step, pair.1 = step.id) ∧ ∃ record, pair.2 = .obj record) ↔
      ∃ records, (∀ name ∈ Assoc.names records, name ∈ Step.ids) ∧
        details = detailMembers records := by
  rw [← detailViolations_eq_nil]
  induction details with
  | nil => exact ⟨fun _ => rfl, fun _ => by simp⟩
  | cons pair details ih =>
    obtain ⟨name, record⟩ := pair
    rw [detailViolations_cons, List.forall_mem_cons, ih, mem_stepIds_iff, and_assoc]

/-- **A document is valid exactly when it meets the schema.** -/
theorem valid_iff_schema : Valid members ↔ Schema members := by
  constructor
  · intro h
    obtain ⟨metadata, hmetadata, hget⟩ := h.metadata
    obtain ⟨hname, hpath, hdescription⟩ := metadataViolations_eq_nil.mp hmetadata
    obtain ⟨records, hrecords, hdetails⟩ := h.details
    refine ⟨forbiddenIn_eq_nil.mp h.forbidden, h.version, h.created, h.updated, ?_, ?_,
      h.completed, ⟨metadata, hget, hname, hpath, ?_⟩,
      ⟨_, hdetails, records_iff.mpr ⟨records, hrecords, rfl⟩⟩⟩
    · simpa only [mem_routeNames_iff] using isNoneOr_iff.mp h.route
    · simpa only [mem_stepIds_iff] using isNoneOr_iff.mp h.currentStep
    · simpa only [Members.MayBe, true_and] using hdescription
  · intro h
    obtain ⟨metadata, hget, hname, hpath, hdescription⟩ := h.metadata
    obtain ⟨details, hdetails, hall⟩ := h.stepDetails
    obtain ⟨records, hrecords, rfl⟩ := records_iff.mp hall
    refine ⟨forbiddenIn_eq_nil.mpr h.allowed, h.version, h.created, h.updated, ?_, ?_,
      h.completedSteps, ⟨metadata, ?_, hget⟩, ⟨records, hrecords, hdetails⟩⟩
    · exact isNoneOr_iff.mpr (by simpa only [mem_routeNames_iff] using h.route)
    · exact isNoneOr_iff.mpr (by simpa only [mem_stepIds_iff] using h.currentStep)
    · refine metadataViolations_eq_nil.mpr ⟨hname, hpath, ?_⟩
      simpa only [Members.MayBe, true_and] using hdescription

/-- Whatever meets the schema is read as a state. -/
theorem Schema.ofMembers (h : Schema members) : ∃ state, ofMembers members = .ok state := by
  obtain ⟨state, hreads⟩ := (valid_iff_schema.mpr h).reads
  exact ⟨state, hreads.ofMembers⟩

end Schema

end State

/-! ## The content of a file -/

namespace Disk

variable {disk : Disk} {path : FilePath} {content : ByteArray} {modified : Moment}

/-- Whether a content is refused, if at all, for what it says, and neither for the digits of its
integers nor for its nesting. -/
def WithinLimits (limits : Json.Limits) (content : ByteArray) : Prop :=
  ∀ text refusal, decodeText? content = some text → Json.read limits text = .error refusal →
    refusal = .malformed

/-- Where nothing is limited, every content is within the limits. -/
theorem withinLimits_unlimited (content : ByteArray) : WithinLimits .unlimited content :=
  fun _ _ _ h => Json.malformed_of_read_unlimited h

/-- A JSON file is refused for its size, or as one that is not valid. -/
theorem readJson_error {limit : Int} {limits : Json.Limits} {failure : Failure}
    (hstatus : disk.status path = .ok (.file content modified))
    (hwithin : WithinLimits limits content)
    (h : disk.readJson path limit limits = .error failure) :
    if limit < content.size then failure = fileTooLarge path content.size limit
    else ∃ summary, failure = .access summary path.text .invalid := by
  unfold readJson at h
  rcases Action.bind_error.mp h with hread | ⟨text, hread, h⟩
  · have hcause := readText_error hstatus hread
    by_cases hsize : limit < content.size
    · rwa [if_pos hsize] at hcause ⊢
    · rw [if_neg hsize] at hcause ⊢
      exact ⟨_, hcause⟩
  · obtain ⟨content', modified', hstatus', hsize, htext⟩ := readText_ok.mp hread
    rw [hstatus] at hstatus'
    cases hstatus'
    rw [if_neg (not_lt.mpr hsize)]
    rcases Action.bind_error.mp h with hvalue | ⟨value, -, h⟩
    · -- Within the limits, the only reason left is that the text is malformed.
      obtain ⟨refusal, hrefused, rfl⟩ := Action.mapError_error.mp hvalue
      rw [hwithin text refusal htext hrefused]
      exact ⟨_, rfl⟩
    · split at h
      · cases h
      · cases h
        exact ⟨_, rfl⟩

end Disk

/-! ## Loading -/

namespace Store

variable {store : Store} {session session' : Session} {content : ByteArray} {modified : Moment}
  {state : State} {failure : Failure} {members : Members}

/-- A content that is not too large and is the text of an object that meets the schema. -/
structure Accepts (store : Store) (content : ByteArray) (members : Members) : Prop where
  size : content.size ≤ store.limit
  text : ∃ text, Disk.decodeText? content = some text ∧
    Json.read store.limits text = .ok (.obj members)
  schema : State.Schema members

/-- The reasons for which the state in a file is refused: its size, or else what is wrong with
it, which is never nothing. -/
inductive Refuses (store : Store) (content : ByteArray) : Failure → Prop
  | tooLarge (summary path : String) :
      store.limit < content.size → Refuses store content (.access summary path .tooLarge)
  | invalid (summary : String) (violations : List String) :
      content.size ≤ store.limit → violations ≠ [] →
      Refuses store content (.validation summary violations)

/-- A file of the store holds the members of an accepted content, and only those. -/
theorem holds_and_valid_iff
    (hstatus : session.disk.status store.file = .ok (.file content modified)) :
    store.Holds session.disk members ∧ State.Valid members ↔ store.Accepts content members := by
  constructor
  · rintro ⟨⟨content', modified', text, hstatus', hsize, htext, hread⟩, hvalid⟩
    rw [hstatus] at hstatus'
    cases hstatus'
    exact ⟨hsize, ⟨text, htext, hread⟩, State.valid_iff_schema.mp hvalid⟩
  · intro h
    obtain ⟨text, htext, hread⟩ := h.text
    exact ⟨⟨content, modified, text, hstatus, h.size, htext, hread⟩,
      State.valid_iff_schema.mpr h.schema⟩

/-- What is read from a file is the state that the members of its content make. -/
theorem load_ok_of_file
    (hstatus : session.disk.status store.file = .ok (.file content modified)) :
    store.load.run session = (.ok state, session') ↔
      session' = session ∧ ∃ members, store.Accepts content members ∧
        State.ofMembers members = .ok state := by
  rw [load_ok]
  constructor
  · rintro ⟨hsame, members, hholds, hvalid, hreads⟩
    exact ⟨hsame, members, (holds_and_valid_iff hstatus).mp ⟨hholds, hvalid⟩, hreads.ofMembers⟩
  · rintro ⟨hsame, members, haccepts, hstate⟩
    obtain ⟨hholds, hvalid⟩ := (holds_and_valid_iff hstatus).mpr haccepts
    exact ⟨hsame, members, hholds, hvalid, State.reads_of_ofMembers hvalid hstate⟩

/-- A file that is not read is refused for its size or for what is wrong with it. -/
theorem refuses_of_load
    (hstatus : session.disk.status store.file = .ok (.file content modified))
    (hwithin : Disk.WithinLimits store.limits content)
    (h : store.load.run session = (.error failure, session')) : store.Refuses content failure := by
  have hpresent : store.isPresent.run session = (.ok true, session) :=
    askDisk_ok.mpr ⟨Disk.isFile_iff.mpr ⟨content, modified, hstatus⟩, rfl⟩
  unfold load at h
  rw [Action.run_bind_of_ok hpresent] at h
  rcases Action.run_bind_error h with hvalue | ⟨value, mid, hvalue, hrest⟩
  · -- The file was not read as JSON.
    rw [run_askDisk] at hvalue
    have hresult := (Prod.mk.inj hvalue).1
    cases hjson : session.disk.readJson store.file store.limit store.limits with
    | ok value =>
      rw [hjson] at hresult
      cases hresult
    | error cause =>
      rw [hjson] at hresult
      have hcause := Disk.readJson_error hstatus hwithin hjson
      by_cases hsize : store.limit < content.size
      · rw [if_pos hsize] at hcause
        rw [hcause] at hresult
        cases hresult
        exact .tooLarge _ _ hsize
      · rw [if_neg hsize] at hcause
        obtain ⟨summary, rfl⟩ := hcause
        cases hresult
        exact .invalid _ _ (not_lt.mp hsize) (List.cons_ne_nil _ _)
  · obtain ⟨hjson, rfl⟩ := askDisk_ok.mp hvalue
    obtain ⟨text, htext, -⟩ := Disk.readJson_ok.mp (Action.mapError_ok.mp hjson)
    obtain ⟨content', modified', hstatus', hsize, -⟩ := Disk.readText_ok.mp htext
    rw [hstatus] at hstatus'
    cases hstatus'
    split at hrest
    · -- What has no violations can be read as a state.
      rename_i hviolations
      obtain ⟨members, rfl, hvalid⟩ := State.violations_eq_nil_iff.mp hviolations
      obtain ⟨state, hreads⟩ := hvalid.reads
      rw [Action.run_lift] at hrest
      have hfailed := (Prod.mk.inj hrest).1
      rw [show (Json.obj members).members?.getD [] = members from rfl, hreads.ofMembers] at hfailed
      cases hfailed
    · rename_i hviolations
      cases hrest
      exact .invalid _ _ hsize hviolations

theorem Refuses.isOwn (h : store.Refuses content failure) : failure.isOwn := by
  cases h <;> rfl

end Store

/-! ## Reporting -/

namespace Workflow.Project

variable {project : Project} {session session' : Session} {state : State} {failure : Failure}

/-- The report on a state that was read tells of success. -/
theorem reportState_of_ok (h : project.store.load.run session = (.ok state, session')) :
    ∃ report : Members, project.reportState.run session = (.ok (.obj report), session') ∧
      report.get? "success" = some (.bool true) := by
  have hattempted : (attempted project.store.load).run session = (.ok (.ok state), session') := by
    change (Except.ok (project.store.load.run session).1, (project.store.load.run session).2) = _
    rw [h]
  unfold reportState
  rw [Action.run_bind_of_ok hattempted]
  exact ⟨_, rfl, rfl⟩

/-- The report on a state that was refused does not. -/
theorem reportState_of_error (h : project.store.load.run session = (.error failure, session'))
    (hown : failure.isOwn) :
    ∃ (report : Members) (session'' : Session),
      project.reportState.run session = (.ok (.obj report), session'') ∧
      report.get? "success" = some (.bool false) := by
  have hattempted : (attempted project.store.load).run session =
      (.ok (.error failure), session') := by
    change (Except.ok (project.store.load.run session).1, (project.store.load.run session).2) = _
    rw [h]
  unfold reportState
  rw [Action.run_bind_of_ok hattempted]
  dsimp only
  rw [if_pos hown]
  refine ⟨unreadMembers failure, ((project.logUnread failure).run session').2, rfl, ?_⟩
  cases failure <;> rfl

end Workflow.Project

namespace Store

variable {store : Store} {session : Session} {content : ByteArray} {modified : Moment}

/-- **What becomes of a file with any content.** A state is returned exactly when the content is
not too large, decodes as the text of an object, and the object meets the schema; it is then the
state that the object makes. Every other content is refused for its size or with a list of what
is wrong with it. In either case the report on the project is made, and it tells of success
exactly when a state is returned. -/
theorem load_of_file (hstatus : session.disk.status store.file = .ok (.file content modified))
    (hwithin : Disk.WithinLimits store.limits content) :
    (∀ state session', store.load.run session = (.ok state, session') ↔
      session' = session ∧ ∃ members, store.Accepts content members ∧
        State.ofMembers members = .ok state) ∧
    (∀ members, store.Accepts content members → ∃ state, State.ofMembers members = .ok state) ∧
    ((¬ ∃ members, store.Accepts content members) →
      ∃ failure session', store.load.run session = (.error failure, session') ∧
        store.Refuses content failure) ∧
    ∀ project : Workflow.Project, project.store = store →
      ∃ (report : Members) (session' : Session) (success : Bool),
        project.reportState.run session = (.ok (.obj report), session') ∧
        report.get? "success" = some (.bool success) ∧
        (success ↔ ∃ state session', store.load.run session = (.ok state, session')) := by
  refine ⟨fun state session' => load_ok_of_file hstatus,
    fun members haccepts => haccepts.schema.ofMembers, fun hnone => ?_, ?_⟩
  · rcases hrun : store.load.run session with ⟨failure | state, after⟩
    · exact ⟨failure, after, rfl, refuses_of_load hstatus hwithin hrun⟩
    · obtain ⟨-, members, haccepts, -⟩ := (load_ok_of_file hstatus).mp hrun
      exact absurd ⟨members, haccepts⟩ hnone
  · rintro project rfl
    rcases hrun : project.store.load.run session with ⟨failure | state, after⟩
    · obtain ⟨report, session', hreport, hsuccess⟩ :=
        project.reportState_of_error hrun (refuses_of_load hstatus hwithin hrun).isOwn
      refine ⟨report, session', false, hreport, hsuccess, fun h => absurd h Bool.false_ne_true, ?_⟩
      rintro ⟨state, after', hload⟩
      cases hload
    · obtain ⟨report, hreport, hsuccess⟩ := project.reportState_of_ok hrun
      exact ⟨report, after, true, hreport, hsuccess, fun _ => ⟨state, after, rfl⟩, fun _ => rfl⟩

/-! ## The file of the sample -/

/-- A project with the store of the sample. -/
def sampleProject : Workflow.Project :=
  ⟨sample.directory, { Settings.standard with maxStateBytes := sample.limit }, []⟩

theorem sample_load : sample.load.run sampleMade = (.ok sampleFresh, sampleMade) :=
  (load_of_stores sampleMade_stores (State.fresh_proper trivial)).mpr
    ⟨(State.violations_fresh rfl).mpr (by decide), sampleFresh_fits⟩

/-- What was written as a state is within the limits within which it was written. -/
theorem Stores.withinLimits {state : State} {disk : Disk} (h : store.Stores disk state)
    (hproper : state.Proper) :
    Disk.WithinLimits store.limits state.toJson.pretty.toUTF8 := by
  intro text refusal htext hrefused
  rw [Disk.decodeText?_pretty] at htext
  cases htext
  rw [Json.read_pretty hproper.wellFormed h.within] at hrefused
  cases hrefused

theorem load_of_file_sample : ∃ content modified,
    sampleMade.disk.status sample.file = .ok (.file content modified) ∧
      Disk.WithinLimits sample.limits content ∧ (∃ members, sample.Accepts content members) ∧
      ∃ (report : Members) (session' : Session),
        sampleProject.reportState.run sampleMade = (.ok (.obj report), session') ∧
        report.get? "success" = some (.bool true) := by
  obtain ⟨modified, hstatus⟩ := sampleMade_stores.status
  have hwithin := sampleMade_stores.withinLimits (State.fresh_proper trivial)
  obtain ⟨hload, -, -, hreport⟩ := load_of_file hstatus hwithin
  obtain ⟨-, members, haccepts, -⟩ := (hload sampleFresh sampleMade).mp sample_load
  obtain ⟨report, session', success, hrun, hget, hsuccess⟩ := hreport sampleProject rfl
  have htrue : success = true := hsuccess.mpr ⟨sampleFresh, sampleMade, sample_load⟩
  exact ⟨_, modified, hstatus, hwithin, ⟨members, haccepts⟩, report, session', hrun, htrue ▸ hget⟩

end Store
end SpecDraft
