import SpecDraft.Proofs.Workflow.Places
import SpecDraft.Workflow.Generation

/-!
# Making artifacts one by one

Specifications and plans are made alike. A recipe (`Recipe`) says what goes where, and the
artifacts of all features are made by one recipe, one after the other (`specifyAll_eq`,
`planAll_eq`).
-/
set_option autoImplicit false

namespace SpecDraft.Workflow

/-- What the jobs for some inputs make, one after the other. -/
def Job.collect {α β : Type} (job : α → Job (Option β)) : List α → Job (List β)
  | [] => return []
  | x :: rest => do
    let made ← job x
    return made.toList ++ (← collect job rest)

section Collect
variable {α β γ : Type} {job other : α → Job (Option β)} {xs : List α}

theorem Job.collect_congr (h : ∀ x ∈ xs, job x = other x) : collect job xs = collect other xs := by
  induction xs with
  | nil => rfl
  | cons x rest ih =>
    obtain ⟨hfirst, hrest⟩ := List.forall_mem_cons.mp h
    rw [collect, collect, hfirst, ih hrest]

theorem Job.collect_map (job : α → Job (Option β)) (f : γ → α) (xs : List γ) :
    collect job (xs.map f) = collect (fun x => job (f x)) xs := by
  induction xs with
  | nil => rfl
  | cons x rest ih => rw [List.map_cons, collect, collect, ih]

end Collect

namespace Project

/-- How artifacts of one kind are made: in which directory and under which name each is put, its
text, the entry that reports it, and how it is spoken of. -/
structure Recipe (α β : Type) where
  stage : Stage
  kind : String
  phase : String
  directory : String
  id : α → String
  name : α → String
  text : α → Action String
  entry : α → String → β
  prelude : α → String

/-- Puts a text at a path. -/
def put (project : Project) (target : FilePath) (text : Action String) : Action Output.Written := do
  let content ← text
  onDisk (project.writer.write target.text content (← get).now)

namespace Recipe

variable {α β : Type}

/-- The path of an artifact. -/
def target (recipe : Recipe α β) (project : Project) (x : α) : FilePath :=
  project.below (memory ++ [recipe.directory] ++ [recipe.name x])

/-- Makes an artifact, if that is possible. -/
def make (recipe : Recipe α β) (project : Project) (x : α) : Job (Option β) := do
  match ← liftM (attempt (project.put (recipe.target project x) (recipe.text x))) with
  | .ok written =>
    announce recipe.kind (recipe.id x) written
    return some (recipe.entry x written.path)
  | .error failure =>
    skip recipe.stage (recipe.id x) recipe.phase (recipe.prelude x) failure
    return none

/-- Whether the artifacts of some inputs have names that start with a digit, all different, in one
of the directories for such. -/
structure Fits (recipe : Recipe α β) (xs : List α) : Prop where
  directory : recipe.directory = "specifications" ∨ recipe.directory = "plans"
  isName : ∀ x ∈ xs, FilePath.IsName (recipe.name x)
  isNumbered : ∀ x ∈ xs, Feature.isNumbered (recipe.name x) = true
  distinct : (xs.map recipe.name).Nodup

section Fits
variable {recipe : Recipe α β} {project : Project} {xs : List α} {x y : α}

theorem Fits.tail (h : recipe.Fits (x :: xs)) : recipe.Fits xs where
  directory := h.directory
  isName := (List.forall_mem_cons.mp h.isName).2
  isNumbered := (List.forall_mem_cons.mp h.isNumbered).2
  distinct := (List.nodup_cons.mp h.distinct).2

theorem target_parts (recipe : Recipe α β) (project : Project) (x : α) :
    (recipe.target project x).parts =
      project.root.parts ++ (memory ++ [recipe.directory, recipe.name x]) := by
  rw [target, below_parts, List.append_assoc]
  rfl

theorem Fits.mem_artifacts (h : recipe.Fits xs) (hx : x ∈ xs) :
    (recipe.target project x).parts ∈ project.artifacts := by
  rw [target_parts, below_mem_artifacts]
  exact .inr ⟨recipe.directory, recipe.name x, h.directory, h.isNumbered x hx, rfl⟩

theorem Fits.plain (h : recipe.Fits xs) (hroot : project.root.Plain) (hx : x ∈ xs) :
    (recipe.target project x).Plain := by
  refine below_plain hroot ?_
  have hmemory : ∀ part ∈ memory, FilePath.IsName part := by
    unfold memory
    exact List.forall_mem_cons.mpr
      ⟨by constructor <;> decide, List.forall_mem_singleton.mpr (by constructor <;> decide)⟩
  have hdirectory : FilePath.IsName recipe.directory := by
    rcases h.directory with heq | heq <;> rw [heq] <;> constructor <;> decide
  exact List.forall_mem_append.mpr ⟨List.forall_mem_append.mpr
    ⟨hmemory, List.forall_mem_singleton.mpr hdirectory⟩, List.forall_mem_singleton.mpr (h.isName x hx)⟩

theorem parts_injective (h : (recipe.target project x).parts = (recipe.target project y).parts) :
    recipe.name x = recipe.name y := by
  rw [target_parts, target_parts] at h
  have hlast := List.append_cancel_left (List.append_cancel_left h)
  exact (List.cons.inj (List.cons.inj hlast).2).1

/-- The place of the first artifact is not that of another one. -/
theorem Fits.ne_first (h : recipe.Fits (x :: xs)) (hy : y ∈ xs) :
    (recipe.target project y).parts ≠ (recipe.target project x).parts := fun heq =>
  (List.nodup_cons.mp h.distinct).1 (List.mem_map.mpr ⟨y, hy, parts_injective heq⟩)

/-- No two artifacts have one path. -/
theorem Fits.texts_nodup (h : recipe.Fits xs) (hroot : project.root.Plain) {kept : List α}
    (hkept : kept.Sublist xs) : (kept.map fun x => (recipe.target project x).text).Nodup := by
  refine List.Nodup.map_on (fun x hx y hy heq => ?_) ((List.Nodup.of_map _ h.distinct).sublist hkept)
  have hparse := congrArg FilePath.parse heq
  rw [(h.plain hroot (hkept.subset hx)).parse_text, (h.plain hroot (hkept.subset hy)).parse_text]
    at hparse
  exact List.inj_on_of_nodup_map h.distinct (hkept.subset hx) (hkept.subset hy)
    (parts_injective (congrArg FilePath.parts hparse))

end Fits
end Recipe

/-! ## The two recipes -/

/-- How the specifications of features are made. -/
def specificationRecipe (project : Project) (route : Route) : Recipe Feature SpecificationEntry where
  stage := .specifications
  kind := "feature_spec"
  phase := "generation"
  directory := "specifications"
  id := Feature.id
  name feature := Feature.fileName feature.id feature.slug ".md"
  text feature := project.render .featureSpec (feature.templateData route.name)
  entry := SpecificationEntry.mk
  prelude feature := "Failed to generate spec for " ++ feature.name

/-- How the plans for features are made. -/
def planRecipe (project : Project) (debt : Option Document) : Recipe Feature PlanEntry where
  stage := .plans
  kind := "impl_plan"
  phase := "writing"
  directory := "plans"
  id := Feature.id
  name feature := Feature.fileName feature.id feature.slug "-impl-plan.md"
  text feature := do
    let data ← ((Plan.ofFeature feature debt).templateData : Action Members)
    project.render .implPlan data
  entry feature path := ⟨Plan.ofFeature feature debt, path⟩
  prelude feature := "Failed to write plan for " ++ feature.name

section Recipes
variable {project : Project} {route : Route} {document : Document} {debt : Option Document}
  {features : List Feature} {feature : Feature}

/-- Names of files about features that were extracted are in order for a recipe. -/
theorem Recipe.fits_of_extract {β : Type} {recipe : Recipe Feature β}
    (h : Feature.extract document debt = .ok features) {kept : List Feature}
    (hkept : kept.Sublist features)
    (hdirectory : recipe.directory = "specifications" ∨ recipe.directory = "plans")
    {ending : String} (hending : '/' ∉ ending.toList)
    (hname : ∀ feature, recipe.name feature = Feature.fileName feature.id feature.slug ending) :
    recipe.Fits kept := by
  have hnamed : ∀ feature ∈ kept, Feature.Named feature.id feature.slug :=
    fun feature hfeature => Feature.named_of_extract h feature (hkept.subset hfeature)
  have hids : (kept.map (·.id)).Nodup := (Feature.ids_nodup h).sublist (hkept.map _)
  refine ⟨hdirectory, fun feature hfeature => ?_, fun feature hfeature => ?_, ?_⟩
  · rw [hname]
    exact (hnamed feature hfeature).isName hending
  · rw [hname]
    exact (hnamed feature hfeature).isNumbered ending
  · rw [funext hname]
    exact Feature.fileNames_nodup hnamed hids ending

theorem specificationRecipe_fits (h : Feature.extract document debt = .ok features) :
    (project.specificationRecipe route).Fits features :=
  Recipe.fits_of_extract h (List.Sublist.refl features) (.inl rfl) (by decide) fun _ => rfl

theorem planRecipe_fits (h : Feature.extract document debt = .ok features) :
    (project.planRecipe debt).Fits (features.filter (·.status != .complete)) :=
  Recipe.fits_of_extract h List.filter_sublist (.inr rfl) (by decide) fun _ => rfl

theorem specificationPath_eq (hnamed : Feature.Named feature.id feature.slug) :
    project.writer.specificationPath feature.id feature.slug =
      (project.specificationRecipe route).target project feature := by
  rw [Output.Writer.specificationPath, writer_specifications]
  exact child_below project _ (hnamed.isName (by decide : '/' ∉ ".md".toList))

theorem planPath_eq (hnamed : Feature.Named feature.id feature.slug) :
    project.writer.planPath feature.id feature.slug =
      (project.planRecipe debt).target project feature := by
  rw [Output.Writer.planPath, writer_plans]
  exact child_below project _ (hnamed.isName (by decide : '/' ∉ "-impl-plan.md".toList))

theorem specify_eq (hnamed : Feature.Named feature.id feature.slug) :
    project.specify route feature = (project.specificationRecipe route).make project feature := by
  have hwrite : project.writeSpecification route feature =
      project.put ((project.specificationRecipe route).target project feature)
        ((project.specificationRecipe route).text feature) := by
    rw [← specificationPath_eq hnamed]
    rfl
  rw [specify, Recipe.make, hwrite]
  rfl

/-- **The specifications of features are made by one recipe.** -/
theorem specifyAll_eq (h : Feature.extract document debt = .ok features) :
    project.specifyAll route features =
      Job.collect ((project.specificationRecipe route).make project) features := by
  rw [← Job.collect_congr fun feature hfeature =>
    specify_eq (Feature.named_of_extract h feature hfeature)]
  clear h
  induction features with
  | nil => rfl
  | cons feature rest ih => rw [specifyAll, Job.collect, ih]

/-- The slug of a feature is found by its identifier. -/
theorem slugFor_eq (hids : (features.map (·.id)).Nodup) (hfeature : feature ∈ features) :
    slugFor features feature.id = feature.slug := by
  have hfound : features.find? (·.id == feature.id) = some feature := by
    have hsome : (features.find? (·.id == feature.id)).isSome := by
      rw [List.find?_isSome]
      exact ⟨feature, hfeature, beq_self_eq_true feature.id⟩
    obtain ⟨other, hother⟩ := Option.isSome_iff_exists.mp hsome
    have hid : other.id = feature.id := by simpa using List.find?_some hother
    rw [hother, List.inj_on_of_nodup_map hids (List.mem_of_find?_eq_some hother) hfeature hid]
  rw [slugFor, hfound]
  rfl

theorem plan_eq (hnamed : Feature.Named feature.id feature.slug)
    (hslug : slugFor features feature.id = feature.slug) :
    project.plan features (Plan.ofFeature feature debt) =
      (project.planRecipe debt).make project feature := by
  have hwrite : project.writePlan feature.slug (Plan.ofFeature feature debt) =
      project.put ((project.planRecipe debt).target project feature)
        ((project.planRecipe debt).text feature) := by
    rw [← planPath_eq hnamed]
    exact (bind_assoc _ _ _).symm
  rw [plan, Recipe.make, show (Plan.ofFeature feature debt).featureId = feature.id from rfl, hslug,
    hwrite]
  rfl

/-- **The plans are made by one recipe**, for the features that are not complete. -/
theorem planAll_eq (h : Feature.extract document debt = .ok features) :
    project.planAll features (Plan.ofFeatures features debt) =
      Job.collect ((project.planRecipe debt).make project)
        (features.filter (·.status != .complete)) := by
  have hids := Feature.ids_nodup h
  have hcollect (plans : List (String × Plan)) :
      project.planAll features plans = Job.collect (fun pair => project.plan features pair.2) plans := by
    induction plans with
    | nil => rfl
    | cons pair rest ih => rw [planAll, Job.collect, ih]
  rw [Plan.ofFeatures_eq hids, hcollect, Job.collect_map]
  refine Job.collect_congr fun feature hfeature => ?_
  have hmem := List.mem_of_mem_filter hfeature
  exact plan_eq (Feature.named_of_extract h feature hmem) (slugFor_eq hids hmem)

end Recipes
end Project
end SpecDraft.Workflow
