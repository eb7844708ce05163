import SpecDraft.Proofs.Session.Repeat
import SpecDraft.Proofs.Workflow.Success

/-!
# Performing a stage once more

Each stage repeats what it did when it succeeded: later, with other artifacts written meanwhile and
the state changed, it gives the same report and notes, and the artifacts look as they did
(`createConstitution_repeats`, `createSpecifications_repeats`, `createPlans_repeats`).
-/
set_option autoImplicit false

namespace SpecDraft.Workflow.Project

open Disk

/-! ## What two runs have in common -/

/-- Whether a disk has what the stages rely on: a route, the directory of the documents, that of
the templates, and some others. -/
structure Furnished (project : Project) (given wanted : Json) (directories : Set Location)
    (disk : Disk) : Prop where
  route : project.routeIn given disk = .ok wanted
  docs : disk.sight (project.root.parts ++ docs) = some (.directory [])
  templates : ∀ path, project.settings.templateDirectory = some path → LeadsToDirectory disk path
  others : ∀ place ∈ directories, disk.sight place = some (.directory [])

section Furnished
variable {project : Project} {given wanted : Json} {directories : Set Location} {disk old new : Disk}

theorem Furnished.root (h : project.Furnished given wanted directories disk) :
    disk.sight project.root.parts = some (.directory []) :=
  sight_above h.docs (List.prefix_append _ _)

/-- Directories are there still when files were written. -/
theorem LeadsToDirectory.of_grows {anchor : String} {places : Set Location} {path : FilePath}
    (h : LeadsToDirectory old path) (hgrows : Grows anchor places old new) :
    LeadsToDirectory new path := by
  obtain ⟨here, hfollow, hhere⟩ := h
  exact ⟨here, hgrows.follow hfollow, hgrows.directory hhere⟩

theorem Furnished.of_grows (hroot : project.root.Plain)
    (hgrows : Grows project.root.anchor project.artifacts old new)
    (h : project.Furnished given wanted directories old) :
    project.Furnished given wanted directories new where
  route := (routeIn_congr hroot hgrows h.root given).trans h.route
  docs := hgrows.directory h.docs
  templates path hpath := (h.templates path hpath).of_grows hgrows
  others place hplace := hgrows.directory (h.others place hplace)

end Furnished

/-- Two runs of stages on a disk that is furnished: between them the state may be written. -/
def rerun {project : Project} (hroot : project.root.Plain) (given wanted : Json)
    (directories : Set Location) : Rerun where
  anchor := project.root.anchor
  artifacts := project.artifacts
  others := {project.store.file.parts}
  ready := project.Furnished given wanted directories
  ready_of_grows hgrows h := h.of_grows hroot hgrows

section Asking
variable {project : Project} {hroot : project.root.Plain} {given wanted : Json}
  {directories : Set Location} {failing : Prop}

theorem elsewhere_subset {places : Set Location} :
    (rerun hroot given wanted directories).elsewhere places ⊆ project.written :=
  Set.sdiff_subset

theorem loadSpecification_repeats :
    (rerun hroot given wanted directories).OfAction failing ∅ project.loadSpecification :=
  .asks project.loadSpecification_asks fun _ _ hold _ hgrows _ =>
    specificationIn_congr hroot (hgrows.mono elsewhere_subset) hold.docs

theorem loadDebt_repeats :
    (rerun hroot given wanted directories).OfAction failing ∅ project.loadDebt :=
  .asks project.loadDebt_asks fun _ _ hold _ hgrows _ =>
    debtIn_congr hroot (hgrows.mono elsewhere_subset) hold.docs

theorem render_repeats (template : Template.Bundled) (data : Members) :
    (rerun hroot given wanted directories).OfAction failing ∅ (project.render template data) :=
  .asks (project.render_asks template data) fun _ _ hold _ hgrows _ =>
    renderedIn_congr (hgrows.mono elsewhere_subset) hold.root hold.templates template data

theorem wantedRoute_repeats :
    (rerun hroot given wanted directories).OfAction failing ∅ (project.wantedRoute given) :=
  .asks (project.wantedRoute_asks given) fun _ _ hold hnew _ _ => hnew.route.trans hold.route.symm

theorem chooseRoute_repeats :
    (rerun hroot given wanted directories).OfJob ∅ (project.chooseRoute given) := by
  refine .ask_bind (.action wantedRoute_repeats) (fun wanted _ => ?_) (Set.empty_subset _)
  split
  · exact .ask_bind (.settle _) (fun _ _ => .pure _) (Set.empty_subset _)
  · exact .throw _

/-- What performs a job repeats what the job does. -/
theorem perform_repeats {α : Type} {places : Set Location} {job : Job α}
    (h : (rerun hroot given wanted directories).OfJob places job) (operation : String)
    (route : Json) : (rerun hroot given wanted directories).Repeats places
      (fun ended => ended.succeeded = true) (project.perform operation route job) := by
  have hended (ended : Except Failure α × Trace) (session : Session) : ∃ after,
      (project.ending operation ended).run session = (.of ended, after) ∧ session.Alike after :=
    project.run_ending operation ended session
  refine (h ⟨[], route⟩).bind_alike hended fun ended hok => ?_
  obtain ⟨failure | x, trace⟩ := ended
  · cases hok
  · exact ⟨x, rfl⟩

end Asking

/-! ## Making artifacts -/

section Making
variable {project : Project} {hroot : project.root.Plain} {given wanted : Json}
  {directories : Set Location}

/-- An announcement, and the refusal of an artifact, write nothing. -/
theorem announce_repeats (kind id : String) (written : Output.Written) :
    (rerun hroot given wanted directories).OfJob ∅ (announce kind id written) :=
  .quiet (Event.report_quiet _ _)

theorem skip_repeats (stage : Stage) (id phase prelude : String) (failure : Failure) :
    (rerun hroot given wanted directories).OfJob ∅ (skip stage id phase prelude failure) := by
  unfold skip
  split
  · exact .ask_bind (.quiet (Event.failed_quiet _ _ _)) (fun _ _ => .note _ _ _ _)
      (Set.empty_subset _)
  · exact .ask_bind (.throw _) (fun _ _ => .ask_bind (.quiet (Event.failed_quiet _ _ _))
      (fun _ _ => .note _ _ _ _) (Set.empty_subset _)) (Set.empty_subset _)

/-- The places where a recipe puts the artifacts of some inputs. -/
def Recipe.places {α β : Type} (recipe : Recipe α β) (project : Project) (xs : List α) :
    Set Location :=
  {place | ∃ x ∈ xs, place = (recipe.target project x).parts}

namespace Recipe

variable {α β : Type} {recipe : Recipe α β} {xs : List α} {x : α}

theorem places_cons : recipe.places project (x :: xs) =
    {(recipe.target project x).parts} ∪ recipe.places project xs := by
  ext place
  simp [places]

theorem Fits.places_subset (h : recipe.Fits xs) : recipe.places project xs ⊆ project.artifacts := by
  rintro place ⟨x, hx, rfl⟩
  exact h.mem_artifacts hx

/-- Making an artifact in a directory that is there repeats what it did, also when it failed. -/
theorem Fits.make_repeats (h : recipe.Fits xs) (hx : x ∈ xs)
    (hmemory : project.root.parts ++ memory ∈ directories)
    (htext : (rerun hroot given wanted directories).OfAction True ∅ (recipe.text x)) :
    (rerun hroot given wanted directories).OfJob {(recipe.target project x).parts}
      (recipe.make project x) := by
  have hput : (rerun hroot given wanted directories).OfAction True
      {(recipe.target project x).parts}
      (project.put (recipe.target project x) (recipe.text x)) := by
    have hspares : Spares (recipe.target project x) ("." ++ (recipe.target project x).name ++ ".")
        ((rerun hroot given wanted directories).elsewhere {(recipe.target project x).parts}) :=
      spares_numbered h.directory
    refine .ask_bind htext (fun content => ?_) (Set.singleton_subset_iff.mpr (h.mem_artifacts hx))
    refine .write (h.plain hroot hx) rfl (h.mem_artifacts hx) hspares
      (fun _ disk hready => ?_) content
    rw [target, below_parent, below_parent]
    exact hready.others _ hmemory
  refine .bind_ask (.attempt hput) fun result => ?_
  cases result with
  | ok written => exact .ask_bind (announce_repeats _ _ _) (fun _ _ => .pure _) (Set.empty_subset _)
  | error failure =>
    exact .ask_bind (skip_repeats _ _ _ _ _) (fun _ _ => .pure _) (Set.empty_subset _)

/-- **Making artifacts one after the other** repeats what it did, by induction on the inputs: no
artifact is put where another one is. -/
theorem Fits.collect_repeats (h : recipe.Fits xs)
    (hmemory : project.root.parts ++ memory ∈ directories)
    (htext : ∀ x ∈ xs, (rerun hroot given wanted directories).OfAction True ∅ (recipe.text x)) :
    (rerun hroot given wanted directories).OfJob (recipe.places project xs)
      (Job.collect (recipe.make project) xs) := by
  induction xs with
  | nil => exact (Rerun.OfJob.pure []).widen (Set.empty_subset _) h.places_subset
  | cons x rest ih =>
    obtain ⟨hfirst, hrest⟩ := List.forall_mem_cons.mp htext
    rw [places_cons]
    refine .bind (h.make_repeats List.mem_cons_self hmemory hfirst) (fun made _ => ?_)
      h.tail.places_subset ?_
    · exact .bind_ask (ih h.tail hrest) fun _ => .pure _
    · rw [Set.disjoint_singleton_left]
      rintro ⟨y, hy, heq⟩
      exact h.ne_first hy heq.symm

end Recipe

/-- The places of the numbered artifacts in a directory. -/
def numbered (project : Project) (directory : String) : Set Location :=
  {place | ∃ name, Feature.isNumbered name = true ∧
    place = project.root.parts ++ (memory ++ [directory, name])}

theorem numbered_subset {directory : String}
    (h : directory = "specifications" ∨ directory = "plans") :
    project.numbered directory ⊆ project.artifacts := by
  rintro place ⟨name, hname, rfl⟩
  exact below_mem_artifacts.mpr (.inr ⟨directory, name, h, hname, rfl⟩)

theorem Recipe.Fits.places_numbered {α β : Type} {recipe : Recipe α β} {xs : List α}
    (h : recipe.Fits xs) : recipe.places project xs ⊆ project.numbered recipe.directory := by
  rintro place ⟨x, hx, rfl⟩
  exact ⟨_, h.isNumbered x hx, recipe.target_parts project x⟩

/-! ## The stages -/

theorem constitution_mem_artifacts : project.constitutionFile.parts ∈ project.artifacts :=
  below_mem_artifacts.mpr (.inl rfl)

theorem constitution_plain (hroot : project.root.Plain) : project.constitutionFile.Plain :=
  below_plain hroot <| List.forall_mem_cons.mpr ⟨by constructor <;> decide,
    List.forall_mem_cons.mpr ⟨by constructor <;> decide,
      List.forall_mem_singleton.mpr (by constructor <;> decide)⟩⟩

theorem writeConstitution_repeats (content : String) :
    (rerun hroot given wanted directories).OfAction False {project.constitutionFile.parts}
      (project.writeConstitution .null content) := by
  have hspares : Spares project.constitutionFile ("." ++ project.constitutionFile.name ++ ".")
      ((rerun hroot given wanted directories).elsewhere {project.constitutionFile.parts}) :=
    spares_constitution
  rw [writeConstitution_eq, put, pure_bind]
  exact .write (constitution_plain hroot) rfl constitution_mem_artifacts hspares
    (fun hfailing => hfailing.elim) content

/-- **Making the constitution** repeats what it did. -/
theorem createConstitution_repeats : (rerun hroot given wanted directories).Repeats
    {project.constitutionFile.parts} (fun ended => ended.succeeded = true)
    (project.createConstitution given .null) := by
  have hwithin : {project.constitutionFile.parts} ⊆ project.artifacts :=
    Set.singleton_subset_iff.mpr constitution_mem_artifacts
  refine .measured (perform_repeats ?_ _ _) _
  refine .ask_bind (.note _ _ _ _) (fun _ _ => ?_) hwithin
  refine .ask_bind chooseRoute_repeats (fun route _ => ?_) hwithin
  refine .ask_bind (.note _ _ _ _) (fun _ _ => .operation ?_ _ _ hwithin) hwithin
  refine .ask_bind ?_ (fun document _ => .ask_bind (.note _ _ _ _) (fun _ _ => ?_) hwithin) hwithin
  · refine .ask_bind (.note _ _ _ _) (fun _ _ => ?_) (Set.empty_subset _)
    refine .ask_bind (.action loadSpecification_repeats) (fun document _ => ?_) (Set.empty_subset _)
    exact .ask_bind (.note _ _ _ _) (fun _ _ => .pure _) (Set.empty_subset _)
  refine .ask_bind (.action (.asks (extractConstitution_asks document route)
    fun _ _ _ _ _ _ => rfl)) (fun constitution _ => ?_) hwithin
  refine .ask_bind (.note _ _ _ _) (fun _ _ => ?_) hwithin
  refine .ask_bind (.action (render_repeats _ _)) (fun content _ => ?_) hwithin
  refine .ask_bind (.note _ _ _ _) (fun _ _ => ?_) hwithin
  refine .bind_ask (.action (writeConstitution_repeats content)) fun written => ?_
  refine .ask_bind (.quiet (Event.report_quiet _ _)) (fun _ _ => ?_) (Set.empty_subset _)
  exact .ask_bind (.note _ _ _ _) (fun _ _ => .pure _) (Set.empty_subset _)

theorem extractFeatures_repeats (document : Document) (debt : Option Document) :
    (rerun hroot given wanted directories).OfAction False ∅ (extractFeatures document debt) :=
  .asks (extractFeatures_asks document debt) fun _ _ _ _ _ _ => rfl

theorem generatePlans_repeats (features : List Feature) (debt : Option Document) :
    (rerun hroot given wanted directories).OfAction False ∅ (generatePlans features debt) :=
  .asks (generatePlans_asks features debt) fun _ _ _ _ _ _ => rfl

theorem makeSpecifications_repeats (hmemory : project.root.parts ++ memory ∈ directories)
    (route : Route) : (rerun hroot given wanted directories).OfJob
      (project.numbered "specifications") (project.makeSpecifications route) := by
  have hwithin : project.numbered "specifications" ⊆ project.artifacts := numbered_subset (.inl rfl)
  refine .ask_bind (.action loadSpecification_repeats) (fun document _ => ?_) hwithin
  refine .ask_bind (.action loadDebt_repeats) (fun debt _ => ?_) hwithin
  refine .ask_bind (.note _ _ _ _) (fun _ _ => ?_) hwithin
  refine .ask_bind (.action (extractFeatures_repeats document debt)) (fun features hextract => ?_)
    hwithin
  refine .ask_bind (.note _ _ _ _) (fun _ _ => ?_) hwithin
  obtain ⟨-, hfeatures⟩ := hextract.of_asks (extractFeatures_asks document debt)
  have hfits : (project.specificationRecipe route).Fits features :=
    specificationRecipe_fits hfeatures
  rw [specifyAll_eq hfeatures]
  refine .bind_ask ((hfits.collect_repeats hmemory fun _ _ => render_repeats _ _).widen
    hfits.places_numbered hwithin) fun entries => ?_
  exact .ask_bind (.note _ _ _ _) (fun _ _ => .pure _) (Set.empty_subset _)

/-- **Making the specifications** repeats what it did, below a directory for artifacts. -/
theorem createSpecifications_repeats (hmemory : project.root.parts ++ memory ∈ directories) :
    (rerun hroot given wanted directories).Repeats (project.numbered "specifications")
      (fun ended => ended.succeeded = true) (project.createSpecifications given) := by
  have hwithin : project.numbered "specifications" ⊆ project.artifacts := numbered_subset (.inl rfl)
  refine .measured (perform_repeats ?_ _ _) _
  refine .ask_bind chooseRoute_repeats (fun route _ => ?_) hwithin
  exact .operation (makeSpecifications_repeats hmemory route) _ _ hwithin

theorem makePlans_repeats (hmemory : project.root.parts ++ memory ∈ directories) (route : Route) :
    (rerun hroot given wanted directories).OfJob (project.numbered "plans")
      (project.makePlans route) := by
  have hwithin : project.numbered "plans" ⊆ project.artifacts := numbered_subset (.inr rfl)
  refine .ask_bind (.action loadSpecification_repeats) (fun document _ => ?_) hwithin
  refine .ask_bind (.action loadDebt_repeats) (fun debt _ => ?_) hwithin
  refine .ask_bind (.action (extractFeatures_repeats document debt)) (fun features hextract => ?_)
    hwithin
  refine .ask_bind (.note _ _ _ _) (fun _ _ => ?_) hwithin
  refine .ask_bind (.action (generatePlans_repeats features debt)) (fun plans hplans => ?_) hwithin
  refine .ask_bind (.note _ _ _ _) (fun _ _ => ?_) hwithin
  obtain ⟨-, hfeatures⟩ := hextract.of_asks (extractFeatures_asks document debt)
  obtain ⟨-, ⟨⟩⟩ := hplans.of_asks (generatePlans_asks features debt)
  have hfits : (project.planRecipe debt).Fits (features.filter (·.status != .complete)) :=
    planRecipe_fits hfeatures
  rw [planAll_eq hfeatures]
  refine .bind_ask ((hfits.collect_repeats hmemory fun _ _ => ?_).widen
    hfits.places_numbered hwithin) fun entries => ?_
  · exact .ask_bind (.outcome _) (fun _ => render_repeats _ _) (Set.empty_subset _)
  · exact .ask_bind (.note _ _ _ _) (fun _ _ => .pure _) (Set.empty_subset _)

/-- **Making the plans** repeats what it did, below a directory for artifacts. -/
theorem createPlans_repeats (hmemory : project.root.parts ++ memory ∈ directories) :
    (rerun hroot given wanted directories).Repeats (project.numbered "plans")
      (fun ended => ended.succeeded = true) (project.createPlans given) := by
  have hwithin : project.numbered "plans" ⊆ project.artifacts := numbered_subset (.inr rfl)
  refine .measured (perform_repeats ?_ _ _) _
  refine .ask_bind chooseRoute_repeats (fun route _ => ?_) hwithin
  exact .operation (makePlans_repeats hmemory route) _ _ hwithin

end Making
end SpecDraft.Workflow.Project
