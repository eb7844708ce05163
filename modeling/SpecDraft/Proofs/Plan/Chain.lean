import Mathlib.Logic.Relation
import SpecDraft.Proofs.Feature.Naming

/-!
# Chains of tasks

A plan can be carried out from its first task to its last: no task waits for one that does not
stand before it (`Ready`). This is what the check of a plan asks of the dependencies
(`taskIssues_eq_nil_iff`), and where the tasks have distinct identifiers nothing waits for itself,
not even through others (`Ready.acyclic`). The plans for features are such chains
(`plans_chained`).
-/
set_option autoImplicit false

namespace SpecDraft.Plan

/-! ## Tasks in order -/

/-- Whether tasks can be done in their order when the given ones have been done: each waits only for
tasks that are done when its turn comes. -/
def Ready (done : List String) : List PlanTask → Prop
  | [] => True
  | task :: tasks => (∀ d ∈ task.dependencies, d ∈ done) ∧ Ready (task.id :: done) tasks

/-- A task waits for the task of an identifier. -/
def Waits (tasks : List PlanTask) (waiting first : String) : Prop :=
  ∃ task ∈ tasks, task.id = waiting ∧ first ∈ task.dependencies

section Ready
variable {done : List String} {tasks before after : List PlanTask} {task : PlanTask}

theorem issues_task_eq_nil_iff : task.issues done = [] ↔
    task.category ∈ PlanTask.categories ∧ ∀ d ∈ task.dependencies, d ∈ done := by
  simp [PlanTask.issues, ite_eq_left_iff]

/-- **What the check of tasks asks for**: known categories, and an order in which the tasks can be
done. -/
theorem taskIssues_eq_nil_iff : taskIssues done tasks = [] ↔
    (∀ task ∈ tasks, task.category ∈ PlanTask.categories) ∧ Ready done tasks := by
  induction tasks generalizing done with
  | nil => simp [taskIssues, Ready]
  | cons task tasks ih =>
    rw [taskIssues, List.append_eq_nil_iff, issues_task_eq_nil_iff, ih, List.forall_mem_cons, Ready]
    tauto

/-- Tasks that wait for nothing but what has been done can be done in any order. -/
theorem ready_of_done (h : ∀ task ∈ tasks, ∀ d ∈ task.dependencies, d ∈ done) :
    Ready done tasks := by
  induction tasks generalizing done with
  | nil => trivial
  | cons task tasks ih =>
    obtain ⟨htask, htasks⟩ := List.forall_mem_cons.mp h
    exact ⟨htask, ih fun other hother d hd => List.mem_cons_of_mem _ (htasks other hother d hd)⟩

theorem ready_append : Ready done (before ++ after) ↔
    Ready done before ∧ Ready ((before.map (·.id)).reverse ++ done) after := by
  induction before generalizing done with
  | nil => simp [Ready]
  | cons task before ih => simp [Ready, ih, and_assoc]

/-- A task can come last when it waits for tasks before it. -/
theorem Ready.concat (h : Ready done tasks)
    (htask : ∀ d ∈ task.dependencies, d ∈ tasks.map (·.id) ∨ d ∈ done) :
    Ready done (tasks ++ [task]) := by
  refine ready_append.mpr ⟨h, fun d hd => ?_, trivial⟩
  rw [List.mem_append, List.mem_reverse]
  exact htask d hd

/-- Each task waits only for tasks that stand before it. -/
theorem Ready.mem_before (h : Ready [] (before ++ task :: after)) :
    ∀ d ∈ task.dependencies, d ∈ before.map (·.id) := by
  intro d hd
  have hmem := (ready_append.mp h).2.1 d hd
  simpa using hmem

/-- Where a task waits for another one, that one has a smaller place. -/
theorem Ready.idxOf_lt (h : Ready [] tasks) (hids : (tasks.map (·.id)).Nodup)
    {waiting first : String} (hwaits : Waits tasks waiting first) :
    (tasks.map (·.id)).idxOf first < (tasks.map (·.id)).idxOf waiting := by
  obtain ⟨task, htask, rfl, hfirst⟩ := hwaits
  obtain ⟨before, after, rfl⟩ := List.append_of_mem htask
  have hbefore := h.mem_before first hfirst
  have hfresh : task.id ∉ before.map (·.id) := by
    intro hmem
    rw [List.map_append, List.map_cons] at hids
    exact (List.nodup_append.mp hids).2.2 _ hmem _ List.mem_cons_self rfl
  rw [List.map_append, List.map_cons, List.idxOf_append_of_mem hbefore,
    List.idxOf_append_of_notMem hfresh, List.idxOf_cons_self, Nat.add_zero]
  exact List.idxOf_lt_length_of_mem hbefore

/-- **No task waits for itself**, directly or through others. -/
theorem Ready.acyclic (h : Ready [] tasks) (hids : (tasks.map (·.id)).Nodup) (id : String) :
    ¬ Relation.TransGen (Waits tasks) id id := by
  have hfalls {waiting first : String} (hpath : Relation.TransGen (Waits tasks) waiting first) :
      (tasks.map (·.id)).idxOf first < (tasks.map (·.id)).idxOf waiting := by
    induction hpath with
    | single hwaits => exact h.idxOf_lt hids hwaits
    | tail _ hwaits ih => exact (h.idxOf_lt hids hwaits).trans ih
  exact fun hcycle => (hfalls hcycle).false

end Ready

/-! ## The tasks for a feature -/

theorem taskId_injective : Function.Injective taskId := by
  intro a b h
  have hdigits : Nat.toDigits 10 a = Nat.toDigits 10 b := by
    have hchars := congrArg String.toList h
    simpa [taskId] using hchars
  have hvalue := congrArg (Nat.ofDigitChars 10 · 0) hdigits
  simpa only [Nat.ofDigitChars_ten_toDigits] using hvalue

/-- The task of a story: what it is about, and that it waits for the design alone. -/
def Implements (story : UserStory) (task : PlanTask) : Prop :=
  task.description = "Implement: " ++ story.goal ∧ task.category = "backend" ∧
    task.dependencies = ["T1"]

/-- The tasks for stories, the first of them at a place. -/
def storyTasks (stories : List UserStory) (place : Nat) : List PlanTask :=
  (stories.zipIdx place).map fun (story, place) => storyTask story place

section Tasks
variable (stories : List UserStory) (place : Nat)

theorem ids_storyTasks :
    (storyTasks stories place).map (·.id) = (List.range' place stories.length).map taskId := by
  rw [storyTasks, List.map_map, ← List.zipIdx_map_snd place stories, List.map_map]
  rfl

theorem implements_storyTasks : List.Forall₂ Implements stories (storyTasks stories place) := by
  induction stories generalizing place with
  | nil => exact .nil
  | cons story stories ih => exact .cons ⟨rfl, rfl, rfl⟩ (ih (place + 1))

theorem hours_storyTasks :
    (storyTasks stories place).map (·.hours) = List.replicate stories.length (.whole 4) := by
  induction stories generalizing place with
  | nil => rfl
  | cons story stories ih => exact congrArg (Quantity.whole 4 :: ·) (ih (place + 1))

theorem mem_storyTasks {task : PlanTask} (h : task ∈ storyTasks stories place) :
    task.category = "backend" ∧ task.dependencies = ["T1"] := by
  obtain ⟨pair, -, rfl⟩ := List.mem_map.mp h
  exact ⟨rfl, rfl⟩

end Tasks

section Feature
variable (feature : Feature)

/-- The tasks that build a feature. -/
def buildTasks : List PlanTask := designTask feature.name :: storyTasks feature.stories 2

/-- The task to test what was built. -/
def lastTest : PlanTask :=
  testTask feature.name (feature.stories.length + 2) (storyTasks feature.stories 2)

/-- The task to document what was tested. -/
def lastDocument : PlanTask :=
  documentTask feature.name (feature.stories.length + 3) (buildTasks feature ++ [lastTest feature])

theorem tasksOf_eq :
    tasksOf feature = buildTasks feature ++ [lastTest feature] ++ [lastDocument feature] := rfl

theorem mem_tasksOf {task : PlanTask} : task ∈ tasksOf feature ↔
    task = designTask feature.name ∨ task ∈ storyTasks feature.stories 2 ∨
      task = lastTest feature ∨ task = lastDocument feature := by
  simp [tasksOf_eq, buildTasks]

/-- The tasks are numbered. -/
theorem ids_tasksOf :
    (tasksOf feature).map (·.id) = (List.range' 1 (feature.stories.length + 3)).map taskId := by
  have hrange (n : Nat) :
      List.range' 1 (n + 3) = 1 :: List.range' 2 n ++ [n + 2] ++ [n + 3] := by
    rw [List.range'_succ, List.range'_concat, List.range'_concat]
    simp [Nat.add_comm]
  rw [tasksOf_eq, buildTasks, hrange]
  simp only [List.map_append, List.map_cons, List.map_nil, ids_storyTasks]
  rfl

theorem category_tasksOf : ∀ task ∈ tasksOf feature, task.category ∈ PlanTask.categories := by
  intro task htask
  have hlisted : task.category ∈ ["backend", "testing", "documentation"] := by
    rcases (mem_tasksOf feature).mp htask with rfl | hstory | rfl | rfl
    · exact List.mem_cons_self
    · rw [(mem_storyTasks _ _ hstory).1]
      exact List.mem_cons_self
    · exact List.mem_cons_of_mem _ List.mem_cons_self
    · exact List.mem_cons_of_mem _ (List.mem_cons_of_mem _ List.mem_cons_self)
  revert hlisted
  generalize task.category = category
  revert category
  decide

theorem ready_tasksOf : Ready [] (tasksOf feature) := by
  have hbuild : Ready [] (buildTasks feature) := by
    refine ⟨fun d hd => absurd hd List.not_mem_nil, ready_of_done fun task htask d hd => ?_⟩
    rw [(mem_storyTasks _ _ htask).2] at hd
    exact hd
  have htest : Ready [] (buildTasks feature ++ [lastTest feature]) :=
    hbuild.concat fun d hd => .inl (List.mem_cons_of_mem _ hd)
  exact htest.concat fun d hd => .inl hd

end Feature

section Hours

theorem sum_whole (numbers : List Int) :
    Quantity.sum (numbers.map .whole) = .ok (.whole numbers.sum) := by
  have hfold (total : Int) : (numbers.map Quantity.whole).foldlM Quantity.add (.whole total) =
      Except.ok (.whole (total + numbers.sum)) := by
    induction numbers generalizing total with
    | nil => simp; rfl
    | cons n numbers ih =>
      rw [List.map_cons, List.foldlM_cons, List.sum_cons, ← Int.add_assoc]
      exact ih (total + n)
  rw [Quantity.sum, hfold, Int.zero_add]

theorem hours_tasksOf (feature : Feature) : Quantity.sum ((tasksOf feature).map (·.hours)) =
    .ok (.whole (6 + 4 * feature.stories.length)) := by
  have hhours : (tasksOf feature).map (·.hours) =
      (2 :: List.replicate feature.stories.length (4 : Int) ++ [3, 1]).map Quantity.whole := by
    simp only [tasksOf_eq, buildTasks, List.map_append, List.map_cons, List.map_nil,
      hours_storyTasks, List.map_replicate, List.append_assoc]
    rfl
  have hsum : (2 :: List.replicate feature.stories.length (4 : Int) ++ [3, 1]).sum =
      (6 + 4 * feature.stories.length : Int) := by
    rw [List.cons_append, List.sum_cons, List.sum_append, List.sum_replicate, nsmul_eq_mul]
    simp
    omega
  rw [hhours, sum_whole, hsum]

end Hours

/-! ## The plan for a feature -/

/-- What a plan for a feature is like. -/
structure Chained (feature : Feature) (plan : Plan) : Prop where
  /-- Nothing is wrong with the plan. -/
  valid : plan.issues = []
  /-- The tasks are numbered in order. -/
  numbered : plan.tasks.map (·.id) = (List.range' 1 (feature.stories.length + 3)).map taskId
  /-- No two tasks have one identifier. -/
  distinct : (plan.tasks.map (·.id)).Nodup
  /-- Each task waits only for tasks before it. -/
  ordered : ∀ before task after, plan.tasks = before ++ task :: after →
    ∀ d ∈ task.dependencies, d ∈ before.map (·.id)
  /-- No task waits for itself, not even through others. -/
  acyclic : ∀ id, ¬ Relation.TransGen (Waits plan.tasks) id id
  /-- After the design there is a task for each story, then one that tests all of these, and one
  that documents, after everything else. -/
  shape : ∃ design built test document, plan.tasks = design :: built ++ [test] ++ [document] ∧
    design.id = "T1" ∧ design.dependencies = [] ∧ List.Forall₂ Implements feature.stories built ∧
    test.category = "testing" ∧ test.dependencies = built.map (·.id) ∧
    document.category = "documentation" ∧
    document.dependencies = (design :: built ++ [test]).map (·.id)
  /-- Six hours, and four for each story. -/
  hours : plan.totalHours = .ok (.whole (6 + 4 * feature.stories.length))
  /-- The risk of depending on others is there for features that do. -/
  risk : dependencyRisk ∈ plan.risks ↔ feature.dependencies ≠ []

/-- Nothing is wrong with the risks of a plan. -/
theorem issues_risksOf (feature : Feature) : (risksOf feature).flatMap Risk.issues = [] := by
  have hrisks : risksOf feature ⊆ ([complexityRisk, dependencyRisk] : List Risk) := by
    rw [risksOf]
    split <;> simp
  have hlevels : ∀ risk ∈ ([complexityRisk, dependencyRisk] : List Risk), risk.issues = [] := by
    decide
  exact List.flatMap_eq_nil_iff.mpr fun risk hrisk => hlevels risk (hrisks hrisk)

theorem ids_tasksOf_nodup (feature : Feature) : ((tasksOf feature).map (·.id)).Nodup := by
  rw [ids_tasksOf]
  exact List.Nodup.map taskId_injective List.nodup_range'

theorem chained_ofFeature (feature : Feature) (debt : Option Document) :
    Chained feature (ofFeature feature debt) where
  valid := List.append_eq_nil_iff.mpr ⟨taskIssues_eq_nil_iff.mpr
    ⟨category_tasksOf feature, ready_tasksOf feature⟩, issues_risksOf feature⟩
  numbered := ids_tasksOf feature
  distinct := ids_tasksOf_nodup feature
  ordered before task after h := by
    have hready : Ready [] (ofFeature feature debt).tasks := ready_tasksOf feature
    exact (h ▸ hready).mem_before
  acyclic := (ready_tasksOf feature).acyclic (ids_tasksOf_nodup feature)
  shape := ⟨_, _, _, _, tasksOf_eq feature, rfl, rfl, implements_storyTasks _ _, rfl, rfl, rfl, rfl⟩
  hours := hours_tasksOf feature
  risk := by
    have hne : (dependencyRisk : Risk) ≠ complexityRisk := by decide
    cases hdependencies : feature.dependencies <;>
      simp [ofFeature, risksOf, hdependencies, hne]

/-- **The plans for features.** -/
theorem plans_chained (debt : Option Document) :
    (∀ feature : Feature, Chained feature (ofFeature feature debt)) ∧
    ∀ features : List Feature, (features.map (·.id)).Nodup →
      ofFeatures features debt = (features.filter (·.status != .complete)).map
        fun feature => (feature.id, ofFeature feature debt) :=
  ⟨fun feature => chained_ofFeature feature debt, fun _ => ofFeatures_eq⟩

/-- A feature with two stories that depends on another one. -/
def exportFeature : Feature where
  id := "002"
  name := "Export"
  slug := "export"
  description := "Writes all notes to a file."
  stories := [⟨"writer", "to keep a copy", "nothing is lost", ""⟩,
    ⟨"reader", "to take notes along", "I can read them anywhere", ""⟩]
  criteria := []
  status := .incomplete
  dependencies := ["Search"]
  requirements := none
  line := none

/-- That feature after a complete one. -/
def twoFeatures : List Feature :=
  [{ exportFeature with id := "001", name := "Search", slug := "search", status := .complete
                        dependencies := [] }, exportFeature]

theorem plans_chained_sample : (twoFeatures.map (·.id)).Nodup ∧
    Chained exportFeature (ofFeature exportFeature none) ∧
    ofFeatures twoFeatures none = [("002", ofFeature exportFeature none)] := by
  have hids : (twoFeatures.map (·.id)).Nodup := by decide
  exact ⟨hids, (plans_chained none).1 exportFeature, (plans_chained none).2 twoFeatures hids⟩

end SpecDraft.Plan
