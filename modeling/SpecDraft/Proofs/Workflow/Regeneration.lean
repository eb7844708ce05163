import SpecDraft.Proofs.Workflow.Noting
import SpecDraft.Proofs.Workflow.Repetition

/-!
# Making everything once more

Where everything was made with success, the disk has what the stages rely on (`furnished`). So all of
it is made once more with the same result, and no file looks different afterwards, apart from two
times in the file of the state (`generateAll_again`).
-/
set_option autoImplicit false

namespace SpecDraft.Workflow.Project

open Disk

section Furnishing
variable {project : Project} {given : Json} {disk after : Disk}

/-- Where the constitution was written, the directory of the artifacts is there. -/
theorem memory_of_written (hroot : project.root.Plain) {content : String} {now : Moment}
    {written : Output.Written}
    (h : (project.writer.write project.constitutionFile.text content now).run disk =
      (.ok written, after)) : after.sight (project.root.parts ++ memory) = some (.directory []) := by
  have hrun := project.writer.write_run project.constitutionFile.text content now disk
  rw [h] at hrun
  obtain ⟨target, haccepts, hstatus, -⟩ := hrun
  have hplain := constitution_plain hroot
  rw [Output.eq_of_checked hplain haccepts.path] at hstatus
  have habove := sight_parent_of_status hplain.no_dots (by simp [constitutionFile, below]) hstatus
  rwa [constitutionFile, below_parent] at habove

end Furnishing

section Again
variable {project : Project} {given : Json} {before mid later : Session}

/-- The disk has what the stages rely on, and has a directory for artifacts when the constitution
was made. -/
theorem furnished (hroot : project.root.Plain) {report : ConstitutionReport} {notes : List Progress}
    (h : (project.createConstitution given .null).run before = (⟨.ok report, notes⟩, mid)) :
    ∃ wanted, project.Furnished given wanted ∅ before.disk ∧
      mid.disk.sight (project.root.parts ++ memory) = some (.directory []) := by
  obtain ⟨⟨wanted, hwanted⟩, ⟨document, hdocument⟩, template, data, content, written, hcontent,
    hwrite⟩ := createConstitution_ok h
  refine ⟨wanted, ⟨hwanted, docs_of_specificationIn hroot hdocument, ?_, ?_⟩,
    memory_of_written hroot hwrite⟩
  · exact fun path hpath => leads_of_renderedIn hcontent hpath
  · exact fun place hplace => hplace.elim

/-! ### Where the stages write -/

theorem disjoint_constitution (directory : String) :
    Disjoint {project.constitutionFile.parts} (project.numbered directory) := by
  rw [Set.disjoint_singleton_left]
  rintro ⟨name, -, heq⟩
  have hnames := List.append_cancel_left heq
  exact absurd (congrArg List.length hnames) (by simp [memory])

theorem disjoint_numbered :
    Disjoint (project.numbered "specifications") (project.numbered "plans") := by
  rw [Set.disjoint_left]
  rintro place ⟨name, -, rfl⟩ ⟨other, -, heq⟩
  have hnames := List.append_cancel_left (List.append_cancel_left heq)
  exact absurd (List.cons.inj hnames).1 (by decide)

theorem state_subset_elsewhere {hroot : project.root.Plain} {wanted : Json}
    {directories places : Set Location} (h : places ⊆ project.artifacts) :
    {project.store.file.parts} ⊆ (rerun hroot given wanted directories).elsewhere places := by
  rintro place rfl
  exact ⟨.inr rfl, fun hmem => spares_state.goal.1 (h hmem)⟩

/-- What the disk has between the stages, and where each stage wrote. -/
structure Laid (project : Project) (given wanted : Json)
    (before afterFirst afterSecond performed : Disk) : Prop where
  ready : project.Furnished given wanted ∅ before
  memory : afterFirst.sight (project.root.parts ++ memory) = some (.directory [])
  first : Grows project.root.anchor {project.constitutionFile.parts} before afterFirst
  second : Grows project.root.anchor (project.numbered "specifications") afterFirst afterSecond
  third : Grows project.root.anchor (project.numbered "plans") afterSecond performed

/-- The directory of the artifacts, which the later stages need. -/
def memoryPlaces (project : Project) : Set Location := {project.root.parts ++ memory}

theorem constitution_subset : {project.constitutionFile.parts} ⊆ project.artifacts :=
  Set.singleton_subset_iff.mpr constitution_mem_artifacts

theorem specifications_subset : project.numbered "specifications" ⊆ project.artifacts :=
  numbered_subset (.inl rfl)

theorem plans_subset : project.numbered "plans" ⊆ project.artifacts := numbered_subset (.inr rfl)

/-- A furnished disk with a directory for artifacts. -/
theorem Furnished.with_memory {wanted : Json} {disk : Disk} (h : project.Furnished given wanted ∅ disk)
    (hmemory : disk.sight (project.root.parts ++ memory) = some (.directory [])) :
    project.Furnished given wanted project.memoryPlaces disk :=
  { h with others := by rintro _ rfl; exact hmemory }

theorem Passed.laid (hroot : project.root.Plain) {reports : Finished} {stages : Stages}
    {afterFirst afterSecond performed : Session}
    (h : project.Passed given before reports stages afterFirst afterSecond performed) :
    ∃ wanted, project.Laid given wanted before.disk afterFirst.disk afterSecond.disk performed.disk := by
  obtain ⟨⟨_, -, hfirst⟩, ⟨_, -, hsecond⟩, ⟨_, -, hthird⟩⟩ := h
  obtain ⟨wanted, hready, hmemory⟩ := furnished hroot hfirst
  have hfirstGrows : Grows project.root.anchor {project.constitutionFile.parts} before.disk
      afterFirst.disk :=
    (createConstitution_repeats : (rerun hroot given wanted ∅).Repeats _ _ _).grows hfirst rfl hready
  have hreadySecond := (hready.of_grows hroot (hfirstGrows.mono constitution_subset)).with_memory hmemory
  have hspecifications : (rerun hroot given wanted project.memoryPlaces).Repeats _ _ _ :=
    createSpecifications_repeats rfl
  have hplans : (rerun hroot given wanted project.memoryPlaces).Repeats _ _ _ :=
    createPlans_repeats rfl
  exact ⟨wanted, hready, hmemory, hfirstGrows, hspecifications.grows hsecond rfl hreadySecond,
    hplans.grows hthird rfl (hspecifications.ready hsecond rfl hreadySecond)⟩

section Laid
variable {wanted : Json} {old afterFirst afterSecond performed : Disk}

theorem Laid.grows (h : project.Laid given wanted old afterFirst afterSecond performed) :
    Grows project.root.anchor project.artifacts old performed :=
  (h.first.mono constitution_subset).trans
    ((h.second.mono specifications_subset).trans (h.third.mono plans_subset))

theorem Laid.readySecond (h : project.Laid given wanted old afterFirst afterSecond performed)
    (hroot : project.root.Plain) :
    project.Furnished given wanted project.memoryPlaces afterFirst :=
  (h.ready.of_grows hroot (h.first.mono constitution_subset)).with_memory h.memory

theorem Laid.readyThird (h : project.Laid given wanted old afterFirst afterSecond performed)
    (hroot : project.root.Plain) :
    project.Furnished given wanted project.memoryPlaces afterSecond :=
  (h.readySecond hroot).of_grows hroot (h.second.mono specifications_subset)

/-- After the step was noted the disk has what the stages rely on still. -/
theorem Laid.ready_noted (h : project.Laid given wanted old afterFirst afterSecond performed)
    (hroot : project.root.Plain) {noted : Disk}
    (hnoted : Grows project.root.anchor {project.store.file.parts} performed noted)
    (hroute : project.routeIn given noted = project.routeIn given performed) :
    project.Furnished given wanted project.memoryPlaces noted := by
  have hperformed := (h.readyThird hroot).of_grows hroot (h.third.mono plans_subset)
  exact ⟨hroute.trans hperformed.route, hnoted.directory hperformed.docs,
    fun path hpath => (hperformed.templates path hpath).of_grows hnoted,
    fun place hplace => hnoted.directory (hperformed.others place hplace)⟩

end Laid

/-- **The stages are passed once more** as they were passed before, and no file looks different
afterwards. -/
theorem Passed.again (hroot : project.root.Plain) {reports : Finished} {stages : Stages}
    {afterFirst afterSecond performed : Session}
    (h : project.Passed given before reports stages afterFirst afterSecond performed)
    (hnoted : Grows project.root.anchor {project.store.file.parts} performed.disk later.disk)
    (hroute : project.routeIn given later.disk = project.routeIn given performed.disk) :
    ∃ afterFirst' afterSecond' performed',
      project.Passed given later reports stages afterFirst' afterSecond' performed' ∧
      Grows project.root.anchor project.artifacts later.disk performed'.disk ∧
      ∀ spot, performed'.disk.look spot = later.disk.look spot := by
  obtain ⟨wanted, hlaid⟩ := h.laid hroot
  obtain ⟨⟨firstNotes, hfirstStage, hfirst⟩, ⟨secondNotes, hsecondStage, hsecond⟩,
    ⟨thirdNotes, hthirdStage, hthird⟩⟩ := h
  have hready := hlaid.ready_noted hroot hnoted hroute
  have hconstitution : (rerun hroot given wanted ∅).Repeats _ _ _ := createConstitution_repeats
  have hspecifications : (rerun hroot given wanted project.memoryPlaces).Repeats _ _ _ :=
    createSpecifications_repeats rfl
  have hplans : (rerun hroot given wanted project.memoryPlaces).Repeats _ _ _ :=
    createPlans_repeats rfl
  -- What was written since the constitution was written is no constitution.
  obtain ⟨afterFirst', hfirst', hgrows, hlook⟩ := hconstitution.again hfirst rfl hlaid.ready
    { hready with others := fun _ hplace => hplace.elim }
    ((hlaid.second.mono (Rerun.subset_elsewhere specifications_subset (disjoint_constitution _))).trans
      ((hlaid.third.mono (Rerun.subset_elsewhere plans_subset (disjoint_constitution _))).trans
        (hnoted.mono (state_subset_elsewhere constitution_subset))))
  have hready' := hready.of_grows hroot (hgrows.mono constitution_subset)
  obtain ⟨afterSecond', hsecond', hgrows', hlook'⟩ := hspecifications.again hsecond rfl
    (hlaid.readySecond hroot) hready'
    ((hlaid.third.mono (Rerun.subset_elsewhere plans_subset disjoint_numbered)).trans
      ((hnoted.mono (state_subset_elsewhere specifications_subset)).trans
        (hgrows.mono (Rerun.subset_elsewhere constitution_subset (disjoint_constitution _).symm))))
  have hready'' := hready'.of_grows hroot (hgrows'.mono specifications_subset)
  obtain ⟨performed', hthird', hgrows'', hlook''⟩ := hplans.again hthird rfl
    (hlaid.readyThird hroot) hready''
    ((hnoted.mono (state_subset_elsewhere plans_subset)).trans
      ((hgrows.mono (Rerun.subset_elsewhere constitution_subset (disjoint_constitution _).symm)).trans
        (hgrows'.mono (Rerun.subset_elsewhere specifications_subset disjoint_numbered.symm))))
  refine ⟨afterFirst', afterSecond', performed', ⟨⟨firstNotes, hfirstStage, hfirst'⟩,
    ⟨secondNotes, hsecondStage, hsecond'⟩, ⟨thirdNotes, hthirdStage, hthird'⟩⟩, ?_, fun spot => ?_⟩
  · exact (hgrows.mono constitution_subset).trans
      ((hgrows'.mono specifications_subset).trans (hgrows''.mono plans_subset))
  · rw [hlook'', hlook', hlook]

theorem Passed.now {reports : Finished} {stages : Stages} {afterFirst afterSecond performed : Session}
    (h : project.Passed given before reports stages afterFirst afterSecond performed) :
    performed.now = before.now :=
  (run_runStages h.run).1.within.now

/-- A file that holds the same state looks the same. -/
theorem look_of_stores (hroot : project.root.Plain) {state : State} {old new : Disk}
    (hold : project.store.Stores old state) (hnew : project.store.Stores new state) :
    new.look project.store.file.parts = old.look project.store.file.parts := by
  have hlook {disk : Disk} (h : project.store.Stores disk state) :
      disk.look project.store.file.parts = some (.file state.toJson.pretty.toUTF8 ⟨0⟩) := by
    obtain ⟨modified, hstatus⟩ := h.status
    obtain ⟨place, hleads, hfound⟩ := status_ok.mp hstatus
    rw [hleads.eq_parts (state_no_dots hroot)] at hfound
    have hsight : disk.sight project.store.file.parts =
        some (.file state.toJson.pretty.toUTF8 modified) := Entry.sight_eq_file.mpr hfound
    rw [look, hsight]
    rfl
  rw [hlook hold, hlook hnew]

/-- **Making everything once more changes nothing.** Whatever documents and earlier artifacts there
are, and whether there is a state that can be read or none: when everything was made with success,
and the file of the state, if there is one, is not too large to be read, then it is made once more
with success for the same route, at any later time. The report is the same apart from the duration.
Every place on the disk looks as it did, so that no file is created or removed and every artifact has
the same bytes. Only the file of the state may differ, in the time of the last change and that of the
completion of the step; and at the same time it does not differ either. The root of a project is a
resolved path, which is plain (`FilePath.plain_resolve`). -/
theorem generateAll_again (hroot : project.root.Plain) {report : Members}
    (h : (project.generateAll given).run before = (.ok (.obj report), mid))
    (hsuccess : Succeeds report) (hfits : project.store.Fits mid.disk)
    (hlater : later.disk = mid.disk) :
    ∃ generation : Generation, ∃ first second last, report = generation.members first ∧
      (project.generateAll given).run later = (.ok (.obj (generation.members second)), last) ∧
      (∀ spot, spot ≠ project.store.file.parts → last.disk.look spot = mid.disk.look spot) ∧
      project.Renoted mid.disk before.now last.disk later.now ∧
      (later.now = before.now → ∀ spot, last.disk.look spot = mid.disk.look spot) := by
  obtain ⟨reports, stages, afterFirst, afterSecond, performed, done, noting, duration, hpassed, hnote,
    hnoting, rfl⟩ := generateAll_ok h hsuccess
  obtain ⟨wanted, hlaid⟩ := hpassed.laid hroot
  rw [hnoting] at hfits hlater ⊢
  have hnoted := noteGeneration_grows hroot hnote
  have hroute := routeIn_noted hnote hfits given
  have hready := hlaid.ready_noted hroot hnoted hroute
  rw [← hlater] at hnoted hroute
  obtain ⟨afterFirst', afterSecond', performed', hpassed', hgrows, hlook⟩ :=
    hpassed.again hroot hnoted hroute
  rw [hlater] at hgrows hlook
  obtain ⟨noting', hnote', hlook', hrenoted⟩ :=
    noteGeneration_again hroot hnote hready.root hgrows hfits
  obtain ⟨duration', last, hrun, hdisk⟩ := hpassed'.generateAll hnote'
  rw [hpassed.now, hpassed'.now] at hrenoted
  have hothers (spot : Location) (hspot : spot ≠ project.store.file.parts) :
      noting'.disk.look spot = noting.disk.look spot := (hlook' spot hspot).trans (hlook spot)
  refine ⟨.finished stages reports done, duration, duration', last, rfl, hrun, ?_, ?_, ?_⟩
  all_goals rw [hdisk]
  · exact hothers
  · exact hrenoted
  · intro hnow spot
    by_cases hspot : spot = project.store.file.parts
    · subst hspot
      rcases hrenoted with hsame | ⟨state, hold, hnew, hself⟩
      · exact hsame
      · rw [hnow, hself] at hnew
        exact look_of_stores hroot hold hnew
    · exact hothers spot hspot

/-- Everything is made of the documented project a second time, one microsecond later. -/
theorem generateAll_again_documented : documented.root.Plain ∧
    ∃ (report : Members) (mid later last : Session) (generation : Generation) (first second : String),
      (documented.generateAll documentedRoute).run documentedStart = (.ok (.obj report), mid) ∧
      Succeeds report ∧ documented.store.Fits mid.disk ∧ later.disk = mid.disk ∧
      later.now ≠ documentedStart.now ∧ report = generation.members first ∧
      (documented.generateAll documentedRoute).run later =
        (.ok (.obj (generation.members second)), last) ∧
      ∀ spot, spot ≠ documented.store.file.parts → last.disk.look spot = mid.disk.look spot := by
  obtain ⟨reports, stages, _, _, performed, hpassed, -, habsent, hnote⟩ := documented_passed
  obtain ⟨duration, mid, hrun, hdisk⟩ := hpassed.generateAll hnote
  have hfits : documented.store.Fits mid.disk := by
    intro content modified hstatus
    rw [hdisk] at hstatus
    cases habsent.symm.trans (isFile_iff.mpr ⟨content, modified, hstatus⟩)
  obtain ⟨generation, first, second, last, hreport, hagain, hsame, -, -⟩ :=
    @generateAll_again documented documentedRoute documentedStart mid { mid with now := ⟨1⟩ }
      documented_plain _ hrun rfl hfits rfl
  exact ⟨documented_plain, _, mid, { mid with now := ⟨1⟩ }, last, generation, first, second, hrun, rfl,
    hfits, rfl, (by decide : (⟨1⟩ : Moment) ≠ ⟨0⟩), hreport, hagain, hsame⟩

end Again
end SpecDraft.Workflow.Project
