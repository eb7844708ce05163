import SpecDraft.Proofs.Workflow.Tally

/-!
# Specifications and plans cover the features

Every feature of the documents gets a specification, or a note tells why not, and the numbers in the
report add up (`createSpecifications_covers`). Where everything was made and no error was noted, the
plans are those of the features that are not complete, in the same order, and each is named after the
specification of its feature (`coverage`).
-/
set_option autoImplicit false

namespace SpecDraft.Workflow.Project

open Disk

/-! ## What the recipes ask -/

section Questions
variable {project : Project} {disk : Disk}

/-- The text of a plan, as it is read from a disk. -/
def planIn (project : Project) (debt : Option Document) (feature : Feature) (disk : Disk) :
    Outcome String := do
  let data ← (Plan.ofFeature feature debt).templateData
  project.renderedIn .implPlan data disk

/-- The text of a specification, as it is read from a disk. -/
def specIn (project : Project) (route : Route) (feature : Feature) (disk : Disk) : Outcome String :=
  project.renderedIn .featureSpec (feature.templateData route.name) disk

theorem specIn_asks (route : Route) (feature : Feature) :
    ((project.specificationRecipe route).text feature).Asks (project.specIn route feature) :=
  project.render_asks _ _

theorem planIn_asks (debt : Option Document) (feature : Feature) :
    ((project.planRecipe debt).text feature).Asks (project.planIn debt feature) :=
  .bind (.outcome _) fun data => project.render_asks .implPlan data

theorem rendered_steady (hhere : disk.sight project.root.parts = some (.directory []))
    {template : Template.Bundled} {data : Members} {content : String}
    (h : project.renderedIn template data disk = .ok content) {new : Disk}
    (hgrows : Grows project.root.anchor project.artifacts disk new) (template' : Template.Bundled)
    (data' : Members) : project.renderedIn template' data' new = project.renderedIn template' data' disk :=
  renderedIn_congr (hgrows.mono Set.subset_union_left) hhere (fun _ hpath => leads_of_renderedIn h hpath)
    template' data'

theorem specIn_steady (hhere : disk.sight project.root.parts = some (.directory [])) (route : Route) :
    Recipe.Steady project (project.specIn route) disk :=
  fun ⟨_, _, h⟩ _ hgrows _ => rendered_steady hhere h hgrows _ _

theorem planIn_steady (hhere : disk.sight project.root.parts = some (.directory []))
    (debt : Option Document) : Recipe.Steady project (project.planIn debt) disk := by
  rintro ⟨feature, content, h⟩ new hgrows other
  obtain ⟨data, -, hrendered⟩ := Action.bind_ok.mp h
  exact congrArg ((Plan.ofFeature other debt).templateData >>= ·)
    (funext fun data => rendered_steady hhere hrendered hgrows .implPlan data)

end Questions

/-! ## What a stage collected -/

section Collected
variable {project : Project} {α β : Type} {recipe : Recipe α β}
  {question : α → Disk → Outcome String} {xs : List α} {entries : List β} {notes : List Progress}
  {before after : Session}

/-- A stage that collected artifacts has a tally of them, and its notes of errors are those of the
artifacts that were missed. -/
theorem Recipe.Collected.tally (h : recipe.Collected project xs before entries notes after)
    (hfits : recipe.Fits xs) (hroot : project.root.Plain)
    (hasks : ∀ x, (recipe.text x).Asks (question x))
    (hsteady : Recipe.Steady project question before.disk) :
    ∃ tally : Tally α, tally.map Prod.fst = xs ∧ entries = tally.made.map (recipe.report project) ∧
      notes.filter (·.status == "error") = tally.missed.map recipe.note ∧
      recipe.Leaves project question before.disk before.now tally before.disk after.disk := by
  obtain ⟨trace, later, last, hopening, hlast, rfl, hcollect⟩ := h
  obtain ⟨tally, hxs, hentries, hnotes, -, hleaves⟩ := recipe.run_collect hfits hroot
    (fun x _ => hasks x) hsteady (.refl _ _ _) (.inl rfl) hcollect
  refine ⟨tally, hxs, hentries, ?_, hleaves⟩
  have hopening' : trace.progress.filter (·.status == "error") = [] := by
    refine List.filter_eq_nil_iff.mpr fun note hnote => ?_
    rw [hopening note hnote]
    decide
  have hmissed : (tally.missed.map recipe.note).filter (·.status == "error") =
      tally.missed.map recipe.note := by
    refine List.filter_eq_self.mpr fun note hnote => ?_
    obtain ⟨pair, -, rfl⟩ := List.mem_map.mp hnote
    rfl
  have hlast' : [last].filter (·.status == "error") = [] := by
    rw [List.filter_cons_of_neg (by rw [hlast]; decide), List.filter_nil]
  rw [List.filter_append, hnotes, List.filter_append, hopening', hmissed, hlast', List.nil_append,
    List.append_nil]

end Collected

/-! ## Specifications -/

/-- The note that tells why a feature got no specification. -/
def missedSpecification (missed : Feature × Failure) : Progress :=
  ⟨"generation", "error",
    "Failed to generate spec for " ++ missed.1.name ++ ": " ++ missed.2.message, []⟩

/-- What a report on specifications tells, with its notes, of the features of the documents. -/
structure Covers (project : Project) (before after : Session) (report : SpecificationReport)
    (notes : List Progress) : Prop where
  /-- The features are those of the documents, which stay as they are. -/
  features : ∃ document debt, project.specificationIn before.disk = .ok document ∧
    project.debtIn before.disk = .ok debt ∧ Feature.extract document debt = .ok report.features ∧
    project.specificationIn after.disk = .ok document ∧ project.debtIn after.disk = .ok debt
  /-- Each feature is tried once, in order: it has an entry and a file, or it has a note, and no
  other file is touched. -/
  tally : ∃ tally : Tally Feature, tally.map Prod.fst = report.features ∧
    report.entries = tally.made.map (fun feature =>
      ⟨feature, (project.writer.specificationPath feature.id feature.slug).text⟩) ∧
    notes.filter (·.status == "error") = tally.missed.map missedSpecification ∧
    (∀ feature ∈ tally.made, ∃ content,
      project.renderedIn .featureSpec (feature.templateData report.route.name) before.disk =
        .ok content ∧
      after.disk.status (project.writer.specificationPath feature.id feature.slug) =
        .ok (.file content.toUTF8 before.now)) ∧
    ∀ spot, (∀ feature ∈ tally.made,
      spot ≠ (project.writer.specificationPath feature.id feature.slug).parts) →
        Disk.SameFile spot before.disk after.disk
  /-- No two entries are about one file. -/
  paths : (report.entries.map (·.path)).Nodup
  /-- The numbers that are reported add up. -/
  count : (report.members (.arr (notes.map (·.toJson)))).get? "features_count" =
      some (.nat (report.entries.length + (notes.filter (·.status == "error")).length)) ∧
    (report.members (.arr (notes.map (·.toJson)))).get? "specs_generated" =
      some (.nat report.entries.length)
  stats : ∃ complete incomplete missing,
    (report.members (.arr (notes.map (·.toJson)))).get? "stats" =
      some (.obj [("complete", .nat complete), ("partial", .nat incomplete),
        ("missing", .nat missing)]) ∧
    complete + incomplete + missing =
      report.entries.length + (notes.filter (·.status == "error")).length

section Specifications
variable {project : Project} {given : Json} {before after : Session}

/-- Every feature has one of the three states. -/
theorem count_statuses (features : List Feature) :
    (features.filter (·.status == .complete)).length +
      (features.filter (·.status == .incomplete)).length +
      (features.filter (·.status == .missing)).length = features.length := by
  induction features with
  | nil => rfl
  | cons feature rest ih =>
    rw [List.length_cons, ← ih]
    cases hstatus : feature.status <;>
    · simp only [List.filter_cons, hstatus]
      simp
      omega

/-- **The specifications cover the features.** -/
theorem createSpecifications_covers (hroot : project.root.Plain) {report : SpecificationReport}
    {notes : List Progress}
    (h : (project.createSpecifications given).run before = (⟨.ok report, notes⟩, after)) :
    project.Covers before after report notes := by
  obtain ⟨debt, ⟨-, ⟨document, hdocument, hextract⟩, hdebt⟩, hcollected⟩ := createSpecifications_ok h
  have hdocs := docs_of_specificationIn hroot hdocument
  have hhere := sight_above hdocs (List.prefix_append _ _)
  have hfits : (project.specificationRecipe report.route).Fits report.features :=
    specificationRecipe_fits hextract
  obtain ⟨tally, htally, hentries, hnotes, hleaves⟩ := hcollected.tally hfits hroot
    (specIn_asks report.route) (specIn_steady hhere report.route)
  have hmade : ∀ feature ∈ tally.made, feature ∈ report.features :=
    fun feature hfeature => htally ▸ tally.made_sublist.subset hfeature
  have hpath : ∀ feature ∈ tally.made, project.writer.specificationPath feature.id feature.slug =
      (project.specificationRecipe report.route).target project feature :=
    fun feature hfeature =>
      specificationPath_eq (Feature.named_of_extract hextract feature (hmade feature hfeature))
  have hgrows : Grows project.root.anchor project.written before.disk after.disk :=
    hleaves.grows.mono Set.subset_union_left
  have hcount : report.features.length =
      report.entries.length + (notes.filter (·.status == "error")).length := by
    rw [← htally, List.length_map, tally.length_eq, hentries, hnotes, List.length_map,
      List.length_map]
  refine ⟨⟨document, debt, hdocument, hdebt, hextract, ?_, ?_⟩, ⟨tally, htally, ?_, hnotes, ?_, ?_⟩,
    ?_, ⟨congrArg (some ∘ Json.nat) hcount, rfl⟩, ⟨_, _, _, rfl, (count_statuses report.features).trans hcount⟩⟩
  · exact (specificationIn_congr hroot hgrows hdocs).trans hdocument
  · exact (debtIn_congr hroot hgrows hdocs).trans hdebt
  · rw [hentries]
    exact List.map_congr_left fun feature hfeature => by rw [hpath feature hfeature]; rfl
  · intro feature hfeature
    rw [hpath feature hfeature]
    exact hleaves.files feature hfeature
  · intro spot hspot
    exact hleaves.others spot fun feature hfeature => hpath feature hfeature ▸ hspot feature hfeature
  · rw [hentries, List.map_map]
    exact hfits.texts_nodup hroot (htally ▸ tally.made_sublist)

end Specifications

/-! ## Plans -/

/-- Whether a note in a report is one of an error. -/
def IsError (note : Json) : Prop :=
  ∃ members : Members, note = .obj members ∧ members.get? "status" = some (.str "error")

/-- Whether a plan is the one for a specification: it is about the same feature, and the name of its
file is that of the specification with a word before the extension. -/
structure IsPlanFor (project : Project) (specification : SpecificationEntry) (plan : PlanEntry) :
    Prop where
  id : plan.plan.featureId = specification.feature.id
  name : plan.plan.featureName = specification.feature.name
  paths : ∃ stem,
    specification.path = (project.writer.specifications.child (stem ++ ".md")).text ∧
    plan.path = (project.writer.plans.child (stem ++ "-impl-plan.md")).text

/-- How the specifications and the plans of one run agree. -/
structure Agree (project : Project) (reports : Finished) : Prop where
  specifications : reports.specifications.entries.map (·.feature) = reports.specifications.features
  plans : List.Forall₂ project.IsPlanFor
    (reports.specifications.entries.filter fun entry =>
      entry.feature.status == .incomplete || entry.feature.status == .missing)
    reports.plans.entries
  count : ∃ incomplete missing, (Members.get? reports.specifications.stats "partial" =
      some (.nat incomplete)) ∧
    (Members.get? reports.specifications.stats "missing" = some (.nat missing)) ∧
    (reports.plans.members .null).get? "plans_generated" = some (.nat (incomplete + missing))

section Plans
variable {project : Project} {given : Json} {before : Session}

/-- Notes that are no errors when they are reported are no errors. -/
theorem filter_errors_eq_nil {notes : List Progress}
    (h : ∀ note ∈ notes.map (·.toJson), ¬ IsError note) : notes.filter (·.status == "error") = [] := by
  refine List.filter_eq_nil_iff.mpr fun note hnote herror => ?_
  refine h note.toJson (List.mem_map_of_mem hnote) ⟨_, rfl, ?_⟩
  rw [← eq_of_beq herror]
  rfl

/-- The features that are not complete are the ones that are partial or missing. -/
theorem filter_incomplete (features : List Feature) :
    features.filter (fun feature => feature.status == .incomplete || feature.status == .missing) =
      features.filter (·.status != .complete) :=
  List.filter_congr fun feature _ => by cases feature.status <;> rfl

theorem length_incomplete (features : List Feature) :
    (features.filter (·.status != .complete)).length =
      (features.filter (·.status == .incomplete)).length +
        (features.filter (·.status == .missing)).length := by
  have hsplit : features.length = (features.filter (·.status == .complete)).length +
      (features.filter (·.status != .complete)).length := List.length_eq_length_filter_add _
  have hstatuses := count_statuses features
  omega

/-- What is reported of a plan is about the specification of the feature. -/
theorem isPlanFor_report {debt : Option Document} {feature : Feature}
    (hnamed : Feature.Named feature.id feature.slug) :
    project.IsPlanFor
      ⟨feature, (project.writer.specificationPath feature.id feature.slug).text⟩
      ((project.planRecipe debt).report project feature) where
  id := rfl
  name := rfl
  paths := by
    refine ⟨feature.id ++ "-" ++ feature.slug, ?_, ?_⟩
    · rw [Output.Writer.specificationPath]
    · rw [Recipe.report, ← planPath_eq hnamed, Output.Writer.planPath, planRecipe]

/-- **The plans that were made without errors** are those of the features that are not complete. -/
theorem Passed.agree (hroot : project.root.Plain) {reports : Finished} {stages : Stages}
    {afterFirst afterSecond performed : Session}
    (h : project.Passed given before reports stages afterFirst afterSecond performed)
    (herrors : ∀ note ∈ allNotes stages.reports, ¬ IsError note) : project.Agree reports := by
  obtain ⟨⟨firstNotes, hfirstStage, hfirst⟩, ⟨secondNotes, hsecondStage, hsecond⟩,
    ⟨thirdNotes, hthirdStage, hthird⟩⟩ := h
  have hnotes : allNotes stages.reports = firstNotes.map (·.toJson) ++
      (secondNotes.map (·.toJson) ++ thirdNotes.map (·.toJson)) := by
    obtain ⟨constitution, specifications, plans⟩ := stages
    cases hfirstStage
    cases hsecondStage
    cases hthirdStage
    simp [allNotes, Stages.reports, notesIn_constitution, notesIn_specifications, notesIn_plans]
  rw [hnotes, List.forall_mem_append, List.forall_mem_append] at herrors
  obtain ⟨⟨document, debt, -, -, hextract, hdocument, hdebt⟩, ⟨tally, htally, hentries, hmissed, -⟩, -⟩ :=
    createSpecifications_covers hroot hsecond
  obtain ⟨features, debt', ⟨-, ⟨document', hdocument', hextract'⟩, hdebt'⟩, hcollected⟩ :=
    createPlans_ok hthird
  -- The documents are the same for both stages, and so are the features.
  cases hdocument.symm.trans hdocument'
  cases hdebt.symm.trans hdebt'
  cases hextract.symm.trans hextract'
  have hhere := sight_above (docs_of_specificationIn hroot hdocument) (List.prefix_append _ _)
  obtain ⟨planTally, hplanTally, hplanEntries, hplanMissed, -⟩ := hcollected.tally
    (planRecipe_fits hextract) hroot (planIn_asks debt) (planIn_steady hhere debt)
  rw [filter_errors_eq_nil herrors.2.1] at hmissed
  rw [filter_errors_eq_nil herrors.2.2] at hplanMissed
  rw [Tally.made_of_missed (List.map_eq_nil_iff.mp hmissed.symm), htally] at hentries
  rw [Tally.made_of_missed (List.map_eq_nil_iff.mp hplanMissed.symm), hplanTally] at hplanEntries
  refine ⟨?_, ?_, _, _, rfl, rfl, ?_⟩
  · rw [hentries, List.map_map]
    exact List.map_id _
  · have hfilter : reports.specifications.entries.filter (fun entry =>
        entry.feature.status == .incomplete || entry.feature.status == .missing) =
          (reports.specifications.features.filter (·.status != .complete)).map fun feature =>
            ⟨feature, (project.writer.specificationPath feature.id feature.slug).text⟩ := by
      rw [hentries, List.filter_map, ← filter_incomplete]
      rfl
    rw [hfilter, hplanEntries, List.forall₂_map_left_iff, List.forall₂_map_right_iff,
      List.forall₂_same]
    exact fun feature hfeature => isPlanFor_report
      (Feature.named_of_extract hextract feature (List.mem_of_mem_filter hfeature))
  · have hlength : reports.plans.entries.length =
        (reports.specifications.features.filter (·.status != .complete)).length := by
      rw [hplanEntries, List.length_map]
    exact congrArg (some ∘ Json.nat) (hlength.trans (length_incomplete _))

/-- **Specifications and plans cover the features exactly.** When making the specifications succeeds,
each feature of the documents has one entry and one file, or one note of an error, and the numbers add
up. When everything is made with success and without a note of an error, the plans are those of the
features that are not complete. The root of a project is a resolved path, which is plain
(`FilePath.plain_resolve`). -/
theorem coverage (hroot : project.root.Plain) (given : Json) (before : Session) :
    (∀ report notes after, (project.createSpecifications given).run before =
      (⟨.ok report, notes⟩, after) → project.Covers before after report notes) ∧
    ∀ report after, (project.generateAll given).run before = (.ok (.obj report), after) →
      Succeeds report → (∀ note ∈ notesIn report, ¬ IsError note) →
        ∃ stages reports done duration, stages.finished? = some reports ∧
          report = (Generation.finished stages reports done).members duration ∧
          project.Agree reports := by
  refine ⟨fun report notes after h => createSpecifications_covers hroot h, ?_⟩
  intro report after h hsuccess herrors
  obtain ⟨reports, stages, afterFirst, afterSecond, performed, done, noting, duration, hpassed, -, -,
    rfl⟩ := generateAll_ok h hsuccess
  refine ⟨stages, reports, done, duration, hpassed.stages_eq.2, rfl,
    hpassed.agree hroot fun note hnote => herrors note ?_⟩
  have hnotes : notesIn ((Generation.finished stages reports done).members duration) =
      allNotes stages.reports :=
    congrArg (fun notes => ((some notes).bind Json.items?).getD []) stages.notes_eq
  rwa [hnotes]

/-- The one feature of the documented project has a specification and a plan. -/
theorem coverage_documented : documented.root.Plain ∧
    (∃ before report notes after,
      (documented.createSpecifications documentedRoute).run before = (⟨.ok report, notes⟩, after) ∧
        documented.Covers before after report notes) ∧
    ∃ report after, (documented.generateAll documentedRoute).run documentedStart =
      (.ok (.obj report), after) ∧ Succeeds report ∧ (∀ note ∈ notesIn report, ¬ IsError note) ∧
      ∃ stages reports done duration, stages.finished? = some reports ∧
        report = (Generation.finished stages reports done).members duration ∧
        documented.Agree reports := by
  obtain ⟨reports, stages, afterFirst, afterSecond, performed, hpassed, ⟨notes, hnotes, hclean⟩, -,
    hnote⟩ := documented_passed
  obtain ⟨duration, after, hrun, -⟩ := hpassed.generateAll hnote
  obtain ⟨specificationNotes, -, hsecond⟩ := hpassed.specifications
  have herrors : ∀ note ∈ notesIn ((Generation.finished stages reports false).members duration),
      ¬ IsError note := by
    rintro note hnote ⟨members, rfl, hstatus⟩
    have hprogress : notesIn ((Generation.finished stages reports false).members duration) =
        notes.map (·.toJson) := congrArg (fun notes => ((some notes).bind Json.items?).getD []) hnotes
    rw [hprogress, List.mem_map] at hnote
    obtain ⟨progress, hmem, heq⟩ := hnote
    cases heq
    exact hclean progress hmem (Json.str.inj (Option.some.inj hstatus))
  have hcovers := coverage documented_plain documentedRoute
  exact ⟨documented_plain,
    ⟨afterFirst, _, _, _, hsecond, (hcovers afterFirst).1 _ _ _ hsecond⟩,
    ⟨_, after, hrun, rfl, herrors, (hcovers documentedStart).2 _ _ hrun rfl herrors⟩⟩

end Plans
end SpecDraft.Workflow.Project
