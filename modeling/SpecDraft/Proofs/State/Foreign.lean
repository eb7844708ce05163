import SpecDraft.Proofs.State.Run

/-!
# What calls leave alone

Other tools may write into the file of a store. Starting from any file that is accepted, a sequence
of calls keeps every foreign member, at the top and in the metadata, keeps what the file says about
the origin of the project, and keeps the record of every step that was not completed; the record of
a completed step keeps what was not said anew (`calls_keep`). One call is looked at through the
state that it read and the state that it wrote; the rest is an induction on the calls.
-/
set_option autoImplicit false

namespace SpecDraft

namespace State

/-! ## Foreign members -/

/-- What two documents have in common: the foreign members at the top, the version, the time of
the start, and the metadata except for the description of the route. -/
structure SameForeign (old new : Members) : Prop where
  foreign : ∀ key, key ∉ keys → new.get? key = old.get? key
  version : new.get? "version" = old.get? "version"
  created : new.get? "created" = old.get? "created"
  metadata : ∃ before after : Members, old.get? "metadata" = some (.obj before) ∧
    new.get? "metadata" = some (.obj after) ∧
    ∀ key, key ≠ "routeDescription" → after.get? key = before.get? key

section SameForeign
variable {members a b c : Members}

theorem SameForeign.refl (h : Valid members) : SameForeign members members := by
  obtain ⟨metadata, -, hmetadata⟩ := h.metadata
  exact ⟨fun _ _ => rfl, rfl, rfl, metadata, metadata, hmetadata, hmetadata, fun _ _ => rfl⟩

theorem SameForeign.trans (hab : SameForeign a b) (hbc : SameForeign b c) : SameForeign a c := by
  obtain ⟨first, second, hfirst, hsecond, hleft⟩ := hab.metadata
  obtain ⟨second', third, hsecond', hthird, hright⟩ := hbc.metadata
  rw [hsecond] at hsecond'
  cases hsecond'
  exact {
    foreign := fun key hkey => (hbc.foreign key hkey).trans (hab.foreign key hkey)
    version := hbc.version.trans hab.version
    created := hbc.created.trans hab.created
    metadata := ⟨first, third, hfirst, hthird, fun key hkey =>
      (hright key hkey).trans (hleft key hkey)⟩ }

end SameForeign

/-- What a change of a state leaves alone: everything but the route, the steps and the time. -/
structure SameOrigin (old new : State) : Prop where
  version : new.version = old.version
  created : new.created = old.created
  projectName : new.metadata.projectName = old.metadata.projectName
  projectPath : new.metadata.projectPath = old.metadata.projectPath
  metadataExtra : new.metadata.extra = old.metadata.extra
  extra : new.extra = old.extra

theorem sameOrigin_withRoute (state : State) (route : Json) (now : Moment) :
    SameOrigin state ((state.withRoute route).stamped now) :=
  ⟨rfl, rfl, rfl, rfl, rfl, rfl⟩

theorem sameOrigin_complete (state : State) (step : Step) (said : Members) (now : Moment) :
    SameOrigin state ((state.complete step said now).stamped now) :=
  ⟨rfl, rfl, rfl, rfl, rfl, rfl⟩

/-- Two objects with the same member by default, and with the member, have it in common. -/
theorem get?_eq_of_getD_eq {old new : Members} {key : String} {default : Json}
    (h : (new.get? key).getD default = (old.get? key).getD default)
    (hold : (old.get? key).isSome) (hnew : (new.get? key).isSome) :
    new.get? key = old.get? key := by
  obtain ⟨value, hvalue⟩ := Option.isSome_iff_exists.mp hold
  obtain ⟨value', hvalue'⟩ := Option.isSome_iff_exists.mp hnew
  rw [hvalue, hvalue'] at h ⊢
  exact congrArg some h

/-- A member that is foreign to both is the same where the foreign members are. -/
theorem get?_eq_of_without_eq {old new : Members} {listed : List String} {key : String}
    (h : new.without listed = old.without listed) (hkey : key ∉ listed) :
    new.get? key = old.get? key := by
  rw [← Members.get?_without_of_not_mem hkey, h, Members.get?_without_of_not_mem hkey]

/-- **What a change of the state leaves alone stays in the document.** -/
theorem sameForeign_of_reads {members members' : Members} {old new : State}
    (hvalid : Valid members) (hreads : Reads members old) (hvalid' : Valid members')
    (hreads' : Reads members' new) (h : SameOrigin old new) : SameForeign members members' := by
  obtain ⟨before, hbefore, hget⟩ := hvalid.metadata
  obtain ⟨after, hafter, hget'⟩ := hvalid'.metadata
  obtain ⟨⟨name, -, hname⟩, ⟨path, -, hpath⟩, -⟩ := metadataViolations_eq_nil.mp hbefore
  obtain ⟨⟨name', -, hname'⟩, ⟨path', -, hpath'⟩, -⟩ := metadataViolations_eq_nil.mp hafter
  -- The metadata of the two states is that of the two documents.
  have hold : old.metadata = .ofMembers before := by
    obtain ⟨_, hsame, heq⟩ := hreads.metadata
    rw [hget] at hsame
    cases hsame
    exact heq
  have hnew : new.metadata = .ofMembers after := by
    obtain ⟨_, hsame, heq⟩ := hreads'.metadata
    rw [hget'] at hsame
    cases hsame
    exact heq
  refine ⟨fun key hkey => ?_, ?_, ?_, before, after, hget, hget', fun key hkey => ?_⟩
  · exact get?_eq_of_without_eq (hreads'.extra.symm.trans (h.extra.trans hreads.extra)) hkey
  · rw [hreads'.version, hreads.version, h.version]
  · rw [hreads'.created, hreads.created, h.created]
  · by_cases hmanaged : key ∈ StateMetadata.keys
    · have hproject := h.projectName
      have hplace := h.projectPath
      rw [hold, hnew] at hproject hplace
      simp only [StateMetadata.keys, List.mem_cons, List.not_mem_nil, or_false] at hmanaged
      rcases hmanaged with rfl | rfl | rfl
      · exact get?_eq_of_getD_eq hproject (by rw [hname]; rfl) (by rw [hname']; rfl)
      · exact get?_eq_of_getD_eq hplace (by rw [hpath]; rfl) (by rw [hpath']; rfl)
      · exact absurd rfl hkey
    · have hextra := h.metadataExtra
      rw [hold, hnew] at hextra
      exact get?_eq_of_without_eq hextra hmanaged

/-! ## Records of steps -/

/-- What a document says about the step of a name. -/
def recordIn? (members : Members) (name : String) : Option Json :=
  ((members.get? "stepDetails").bind Json.members?).bind (Members.get? · name)

/-- The record of the step of a name in a document; empty where there is none. -/
def recordIn (members : Members) (name : String) : Members :=
  ((recordIn? members name).bind Json.members?).getD []

theorem get?_detailMembers (details : List (String × Members)) (name : String) :
    (detailMembers details).get? name = (details.lookup name).map Json.obj := by
  induction details with
  | nil => rfl
  | cons pair details ih =>
    obtain ⟨step, record⟩ := pair
    change Members.get? ((step, .obj record) :: detailMembers details) name = _
    by_cases hstep : step = name
    · subst hstep
      rw [Members.get?_cons_self, Assoc.lookup_cons_self]
      rfl
    · rw [Members.get?_cons_ne hstep, Assoc.lookup_cons_ne hstep, ih]

theorem recordIn?_of_reads {members : Members} {state : State} (h : Reads members state)
    (name : String) : recordIn? members name = (state.details.lookup name).map Json.obj := by
  rw [recordIn?, h.details]
  exact get?_detailMembers state.details name

theorem recordIn_of_reads {members : Members} {state : State} (h : Reads members state)
    (step : Step) : recordIn members step.id = state.detailsOf step := by
  rw [recordIn, recordIn?_of_reads h, State.detailsOf]
  cases state.details.lookup step.id <;> rfl

/-- What the record of a step keeps of an older one, and what it has from what was said about the
step, one saying after the other. The last saying with a key counts; when the step was completed
and that it is done is noted anew each time, unless the last saying says otherwise. -/
structure Recorded (old : Members) (sayings : List Members) (record : Members) : Prop where
  kept : ∀ key, key ≠ "completed" → key ≠ "status" →
    record.get? key = (sayings.reverse.findSome? (·.get? key)).or (old.get? key)
  completed : ∀ said, sayings.getLast? = some said → ∃ now : Moment,
    record.get? "completed" = (said.get? "completed").or (some (.str now.stamp))
  status : ∀ said, sayings.getLast? = some said →
    record.get? "status" = (said.get? "status").or (some (.str "completed"))

theorem recorded_nil (old : Members) : Recorded old [] old :=
  ⟨fun _ _ _ => rfl, fun _ hlast => (by cases hlast), fun _ hlast => (by cases hlast)⟩

/-- Completing a step once more adds one saying. -/
theorem Recorded.concat {old record said : Members} {sayings : List Members}
    (h : Recorded old sayings record) (hsaid : said.keys.Nodup) (now : Moment) :
    Recorded old (sayings ++ [said]) ((record.merge
      [("completed", .str now.stamp), ("status", .str "completed")]).merge said) := by
  have hget (key : String) := Members.get?_merge
    (record.merge [("completed", .str now.stamp), ("status", .str "completed")]) hsaid key
  have hnoted (key : String) := Members.get?_merge record
    (show (Members.keys [("completed", .str now.stamp), ("status", .str "completed")]).Nodup by
      simp [Members.keys, Assoc.names]) key
  refine ⟨fun key hcompleted hstatus => ?_, fun last hlast => ⟨now, ?_⟩, fun last hlast => ?_⟩
  · rw [hget, hnoted, h.kept key hcompleted hstatus, List.reverse_append, List.reverse_singleton,
      List.singleton_append, List.findSome?_cons,
      Members.get?_cons_ne (Ne.symm hcompleted), Members.get?_cons_ne (Ne.symm hstatus)]
    cases said.get? key <;> rfl
  · rw [List.getLast?_concat] at hlast
    cases hlast
    rw [hget, hnoted]
    rfl
  · rw [List.getLast?_concat] at hlast
    cases hlast
    rw [hget, hnoted]
    rfl

end State

namespace Store

/-! ## What was said in a sequence of calls -/

/-- What a call that completed a step said, with the name of the step. -/
def Event.said? : Event → Option (String × Members)
  | ⟨.completeStep name said, .ok _⟩ =>
    (name.text?.bind Step.ofId?).bind fun step =>
      (saidOf said).toOption.map fun record => (step.id, record)
  | _ => none

/-- What was said about the step of a name, each time that it was completed. -/
def sayings (name : String) (history : List Event) : List Members :=
  (history.filterMap Event.said?).filterMap fun (step, said) =>
    if step = name then some said else none

section Sayings
variable {history : List Event} {event : Event} {name : String} {said : Members}

theorem sayings_concat_none (h : event.said? = none) :
    sayings name (history ++ [event]) = sayings name history := by
  simp [sayings, h]

theorem sayings_concat_self (h : event.said? = some (name, said)) :
    sayings name (history ++ [event]) = sayings name history ++ [said] := by
  simp [sayings, h]

theorem sayings_concat_ne {step : String} (h : event.said? = some (step, said))
    (hne : step ≠ name) : sayings name (history ++ [event]) = sayings name history := by
  simp [sayings, h, hne]

end Sayings

/-- What a document says about the steps after a sequence of calls that began with an older one. -/
structure Records (original : Members) (history : List Event) (members : Members) : Prop where
  untouched : ∀ name, sayings name history = [] →
    State.recordIn? members name = State.recordIn? original name
  completed : ∀ name, sayings name history ≠ [] → ∃ record,
    State.recordIn? members name = some (.obj record) ∧
      State.Recorded (State.recordIn original name) (sayings name history) record

section Records
variable {original members members' : Members} {history : List Event} {event : Event}

theorem records_nil (original : Members) : Records original [] original :=
  ⟨fun _ _ => rfl, fun _ h => absurd rfl h⟩

theorem Records.recorded (h : Records original history members) (name : String) :
    State.Recorded (State.recordIn original name) (sayings name history)
      (State.recordIn members name) := by
  by_cases hnone : sayings name history = []
  · have hsame : State.recordIn members name = State.recordIn original name := by
      rw [State.recordIn, State.recordIn, h.untouched name hnone]
    rw [hnone, hsame]
    exact State.recorded_nil _
  · obtain ⟨record, hrecord, hrecorded⟩ := h.completed name hnone
    have hsame : State.recordIn members name = record := by
      rw [State.recordIn, hrecord]
      rfl
    rwa [hsame]

/-- A call that completed no step leaves the records alone. -/
theorem Records.idle (h : Records original history members) (hevent : event.said? = none)
    (hsame : ∀ name, State.recordIn? members' name = State.recordIn? members name) :
    Records original (history ++ [event]) members' where
  untouched name hnone := by
    rw [sayings_concat_none hevent] at hnone
    exact (hsame name).trans (h.untouched name hnone)
  completed name hsome := by
    rw [sayings_concat_none hevent] at hsome ⊢
    rw [hsame name]
    exact h.completed name hsome

/-- A call that completed a step adds to the record of that step. -/
theorem Records.complete (h : Records original history members) {old : State} {step : Step}
    {said : Members} {now : Moment} (hevent : event.said? = some (step.id, said))
    (hsaid : said.keys.Nodup) (hreads : State.Reads members old)
    (hreads' : State.Reads members' ((old.complete step said now).stamped now)) :
    Records original (history ++ [event]) members' := by
  have hrecord (name : String) := State.recordIn?_of_reads hreads' name
  have hself : State.recordIn? members' step.id = some (.obj
      (((State.recordIn members step.id).merge
        [("completed", .str now.stamp), ("status", .str "completed")]).merge said)) := by
    rw [hrecord, State.recordIn_of_reads hreads]
    exact congrArg (Option.map Json.obj) (Assoc.lookup_put_self old.details step.id _)
  have hother (name : String) (hne : step.id ≠ name) :
      State.recordIn? members' name = State.recordIn? members name := by
    rw [hrecord, State.recordIn?_of_reads hreads]
    exact congrArg (Option.map Json.obj) (Assoc.lookup_put_ne (Ne.symm hne) old.details _)
  refine ⟨fun name hnone => ?_, fun name hsome => ?_⟩
  · by_cases hname : step.id = name
    · subst hname
      rw [sayings_concat_self hevent] at hnone
      exact absurd hnone (List.append_ne_nil_of_right_ne_nil _ (List.cons_ne_nil _ _))
    · rw [sayings_concat_ne hevent hname] at hnone
      exact (hother name hname).trans (h.untouched name hnone)
  · by_cases hname : step.id = name
    · subst hname
      rw [sayings_concat_self hevent]
      exact ⟨_, hself, (h.recorded step.id).concat hsaid now⟩
    · rw [sayings_concat_ne hevent hname] at hsome ⊢
      rw [hother name hname]
      exact h.completed name hsome

end Records

/-! ## Sequences of calls -/

/-- The file holds the text of an object, whatever its size. -/
def Contains (store : Store) (disk : Disk) (members : Members) : Prop :=
  ∃ content modified text, disk.status store.file = .ok (.file content modified) ∧
    Disk.decodeText? content = some text ∧ Json.read store.limits text = .ok (.obj members)

/-- A sequence of calls on a store, of which any may fail. Between two calls nothing is taken from
the disk; the clock and everything else about the session may change. -/
inductive Calls (store : Store) (start : Session) : List Event → Session → Prop
  | nil : Calls store start [] start
  | call {history : List Event} {last before after : Session} {call : Call}
      {result : Except Failure State} : Calls store start history last →
      (∀ place, Disk.Keeps place last.disk before.disk) → call.WellFormed →
      (call.action store).run before = (result, after) →
      Calls store start (history ++ [⟨call, result⟩]) after

section Contains
variable {store : Store} {disk disk' : Disk} {state : State} {members members' : Members}

theorem Holds.contains (h : store.Holds disk members) : store.Contains disk members := by
  obtain ⟨content, modified, text, hstatus, -, htext, hread⟩ := h
  exact ⟨content, modified, text, hstatus, htext, hread⟩

/-- The file holds one object. -/
theorem Contains.unique (h : store.Contains disk members) (h' : store.Contains disk members') :
    members' = members := by
  obtain ⟨content, modified, text, hstatus, htext, hread⟩ := h
  obtain ⟨content', modified', text', hstatus', htext', hread'⟩ := h'
  rw [hstatus] at hstatus'
  cases hstatus'
  rw [htext] at htext'
  cases htext'
  rw [hread] at hread'
  cases hread'
  rfl

theorem Contains.of_keeps (h : store.Contains disk members)
    (hkeeps : ∀ place, Disk.Keeps place disk disk') : store.Contains disk' members := by
  obtain ⟨content, modified, text, hstatus, htext, hread⟩ := h
  exact ⟨content, modified, text, Disk.status_of_keeps hkeeps hstatus, htext, hread⟩

theorem Contains.isFile (h : store.Contains disk members) : disk.isFile store.file = .ok true := by
  obtain ⟨content, modified, -, hstatus, -, -⟩ := h
  exact Disk.isFile_iff.mpr ⟨content, modified, hstatus⟩

theorem Stores.contains (h : store.Stores disk state) (hproper : state.Proper) :
    store.Contains disk state.members := by
  obtain ⟨modified, hstatus⟩ := h.status
  exact ⟨_, modified, _, hstatus, Disk.decodeText?_pretty _,
    Json.read_pretty hproper.wellFormed h.within⟩

end Contains

/-- What a sequence of calls leaves of a document. -/
structure Leftover (store : Store) (original : Members) (history : List Event) (disk : Disk)
    (members : Members) : Prop where
  contains : store.Contains disk members
  valid : State.Valid members
  foreign : State.SameForeign original members
  records : Records original history members

section Calls
variable {store : Store} {original members : Members} {history : List Event}
  {start session session' before after : Session} {call : Call} {state first : State}

theorem leftover_nil (hcontains : store.Contains session.disk original)
    (hvalid : State.Valid original) : store.Leftover original [] session.disk original :=
  ⟨hcontains, hvalid, State.SameForeign.refl hvalid, records_nil original⟩

/-- A state that was read from the file is what the document describes. -/
theorem Leftover.reads (h : store.Leftover original history before.disk members)
    (hload : store.load.run before = (.ok state, session')) : State.Reads members state := by
  obtain ⟨-, members', hholds, -, hreads⟩ := load_ok.mp hload
  rwa [h.contains.unique hholds.contains] at hreads

theorem Leftover.call_error {failure : Failure}
    (h : store.Leftover original history before.disk members)
    (hcall : (call.action store).run before = (.error failure, after)) :
    store.Leftover original (history ++ [⟨call, .error failure⟩]) after.disk members where
  contains := h.contains.of_keeps (Store.call_error hcall)
  valid := h.valid
  foreign := h.foreign
  records := by
    refine h.records.idle ?_ fun _ => rfl
    cases call <;> rfl

/-- A state that was written is left in the file. -/
theorem Leftover.written {event : Event} {old new : State}
    (h : store.Leftover original history before.disk members) (hreads : State.Reads members old)
    (hsame : State.SameOrigin old new) (hproper : new.Proper)
    (hvalid : State.violations new.toJson = []) (hstores : store.Stores after.disk new)
    (hrecords : Records original (history ++ [event]) new.members) :
    store.Leftover original (history ++ [event]) after.disk new.members := by
  obtain ⟨_, ⟨⟩, hdocument⟩ := State.violations_eq_nil_iff.mp hvalid
  refine ⟨hstores.contains hproper, hdocument, h.foreign.trans ?_, hrecords⟩
  exact State.sameForeign_of_reads h.valid hreads hdocument hproper.reads hsame

/-- A call that succeeds leaves a document with the same foreign members. -/
theorem Leftover.call_ok (h : store.Leftover original history before.disk members)
    (hwf : call.WellFormed) (hcall : (call.action store).run before = (.ok state, after)) :
    ∃ members', store.Leftover original (history ++ [⟨call, .ok state⟩]) after.disk members' := by
  have hproper := proper_of_call hwf hcall
  cases call with
  | ensure route =>
    -- The file is there and only read.
    have hload := (ensure_of_present h.contains.isFile).symm.trans hcall
    obtain rfl := load_unchanged hload
    exact ⟨members, h.contains, h.valid, h.foreign, h.records.idle rfl fun _ => rfl⟩
  | updateRoute route =>
    obtain ⟨old, hload, rfl, hvalid, hstores⟩ := updateRoute_ok hcall
    have hreads := h.reads hload
    refine ⟨_, h.written hreads (State.sameOrigin_withRoute old route _) hproper hvalid hstores ?_⟩
    refine h.records.idle rfl fun name => ?_
    rw [State.recordIn?_of_reads hproper.reads, State.recordIn?_of_reads hreads]
    rfl
  | completeStep name said =>
    obtain ⟨step, old, record, hstep, hload, hrecord, rfl, hvalid, hstores⟩ := completeStep_ok hcall
    have hreads := h.reads hload
    refine ⟨_, h.written hreads (State.sameOrigin_complete old step record _) hproper hvalid
      hstores ?_⟩
    have hnodup : record.keys.Nodup := (saidOf_wellFormed hwf hrecord).nodup
    refine h.records.complete ?_ hnodup hreads hproper.reads
    simp only [Event.said?, hstep, hrecord]
    rfl

/-- **Every sequence of calls leaves a document with the same foreign members**, by induction on
the calls. -/
theorem Calls.leftover (h : Calls store start history session)
    (hcontains : store.Contains start.disk original) (hvalid : State.Valid original) :
    ∃ members, store.Leftover original history session.disk members := by
  induction h with
  | nil => exact ⟨original, leftover_nil hcontains hvalid⟩
  | @call history last before after call result _ hkeeps hwf hcall ih =>
    obtain ⟨members, hmembers⟩ := ih
    have hbefore : store.Leftover original history before.disk members :=
      { hmembers with contains := hmembers.contains.of_keeps hkeeps }
    cases result with
    | ok state => exact hbefore.call_ok hwf hcall
    | error failure => exact ⟨members, hbefore.call_error hcall⟩

/-- **What others wrote into the file survives.** Start with any file that is accepted, and make
any calls, whether they succeed or fail. Then the file still holds a valid document. Its members
that are foreign to states, and the members of its metadata other than the description of the
route, are those of the first document, with the same values and no others; version and time of
the start are the same. The record of every step that was not completed is the same, and that of a
completed step keeps its entries except for those that were said anew, of which the last counts,
and for the time and the status that are noted with each completion. -/
theorem calls_keep (hload : store.load.run start = (.ok first, session'))
    (hholds : store.Holds start.disk original) (h : Calls store start history session) :
    ∃ members, store.Contains session.disk members ∧ State.Valid members ∧
      State.SameForeign original members ∧ Records original history members := by
  obtain ⟨-, members, hmembers, hvalid, -⟩ := load_ok.mp hload
  rw [hholds.contains.unique hmembers.contains] at hvalid
  obtain ⟨members', hleft⟩ := h.leftover hholds.contains hvalid
  exact ⟨members', hleft.contains, hleft.valid, hleft.foreign, hleft.records⟩

end Calls

/-! ## Calls on a file that others have written into -/

/-- The state that the sample starts with, with members that other tools have added. -/
def sampleShared : State :=
  { sampleFresh with
    metadata := { sampleFresh.metadata with extra := [("owner", .str "others")] }
    extra := [("tool", .obj [("runs", .arr [.int 1, .int 2])])] }

/-- A session on a disk with that state. -/
def sampleSharedSession : Session :=
  .start ⟨0⟩ ⟨.directory [("p", .directory
    [(fileName, .file sampleShared.toJson.pretty.toUTF8 ⟨0⟩)])], fun _ _ => none⟩

/-- The store of the sample, which reads no more than that state takes. -/
def sharing : Store := { sample with limit := sampleShared.toJson.pretty.toUTF8.size }

theorem sampleShared_stores : sharing.Stores sampleSharedSession.disk sampleShared :=
  ⟨rfl, ⟨0⟩, rfl⟩

theorem sampleShared_proper : sampleShared.Proper :=
  have hfresh : sampleFresh.Proper := State.fresh_proper trivial
  { hfresh with
    metadata := { hfresh.metadata with
      extra := Members.wellFormed_obj.mp ⟨List.nodup_singleton "owner", trivial, trivial⟩
      foreign := by decide }
    extra := Members.wellFormed_obj.mp ⟨List.nodup_singleton "tool",
      ⟨List.nodup_singleton "runs", ⟨trivial, trivial, trivial⟩, trivial⟩, trivial⟩
    foreign := by decide }

theorem sampleShared_load :
    sharing.load.run sampleSharedSession = (.ok sampleShared, sampleSharedSession) :=
  (load_of_stores sampleShared_stores sampleShared_proper).mpr
    ⟨by decide +kernel, Int.le_refl _⟩

theorem sampleShared_ready : sharing.Ready sampleSharedSession.disk :=
  (sample_ready_of_root rfl fun _ _ => rfl).of_directory rfl

/-- What is said about the first step when it is completed. -/
def sampleNote : Members := [("note", .str "done")]

/-- The state with the first step completed. -/
def sampleNoted : State := (sampleShared.complete .analyze sampleNote ⟨0⟩).stamped ⟨0⟩

/-- The call that completes the first step. -/
def sampleNoteEvent : Event := ⟨.completeStep (.str "analyze") (.obj sampleNote), .ok sampleNoted⟩

theorem calls_keep_sample : ∃ session members,
    Calls sharing sampleSharedSession [sampleNoteEvent] session ∧
      sharing.Contains session.disk members ∧
      members.get? "tool" = some (.obj [("runs", .arr [.int 1, .int 2])]) ∧
      (State.recordIn members "analyze").get? "note" = some (.str "done") := by
  obtain ⟨session, hcall⟩ : ∃ session, (sharing.completeStep (.str "analyze") (.obj sampleNote)).run
      sampleSharedSession = (.ok sampleNoted, session) :=
    completeStep_of_ready (show _ = some Step.analyze by decide +kernel) sampleShared_load rfl
      (show State.violations sampleNoted.toJson = [] by decide +kernel) sampleShared_ready
      (show sampleNoted.toJson.excess? sharing.limits 0 = none from rfl)
  have hwf : (Call.completeStep (.str "analyze") (.obj sampleNote)).WellFormed :=
    ⟨List.nodup_singleton "note", trivial, trivial⟩
  have hcalls : Calls sharing sampleSharedSession [sampleNoteEvent] session :=
    .call .nil (fun place => Disk.Keeps.refl place _) hwf hcall
  have hholds : sharing.Holds sampleSharedSession.disk sampleShared.members :=
    (holds_of_stores sampleShared_stores sampleShared_proper.wellFormed).mpr
      ⟨rfl, Int.le_refl _⟩
  obtain ⟨members, hcontains, -, hforeign, hrecords⟩ :=
    calls_keep sampleShared_load hholds hcalls
  refine ⟨session, members, hcalls, hcontains, ?_, ?_⟩
  · exact (hforeign.foreign "tool" (by decide)).trans rfl
  · exact (hrecords.recorded "analyze").kept "note" (by decide) (by decide)

end Store
end SpecDraft
