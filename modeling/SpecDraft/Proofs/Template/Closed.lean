import SpecDraft.Proofs.Plan.Hours
import SpecDraft.Proofs.Template.Bundled
import SpecDraft.Proofs.Template.Resolution

/-!
# Templates that their data closes

Whether a rendering comes to a variable without a value is told from the blocks and the variables of
the tree (`Resolves`). The data of features, constitutions and plans has a value for each variable
that a rendering of their template comes to (`bundled_closed`): the template and the data have the
same names, at the top and in every list.
-/
set_option autoImplicit false

namespace SpecDraft.Template

/-! ## Resolved variables -/

/-- Whether every variable that the rendering of nodes comes to has a value. -/
def Resolves (data : Members) (items : Items) (nodes : List Node) : Prop :=
  ∀ inner name, .ref inner name ∈ Node.visitsOf data items nodes → ¬ IsUnresolved data inner name

section Resolves
variable {data : Members} {items inner : Items} {name : String} {value : Json}
  {nodes body yes : List Node} {no : Option (List Node)}

theorem visitsOf_append (a b : List Node) :
    Node.visitsOf data items (a ++ b) =
      Node.visitsOf data items a ++ Node.visitsOf data items b := by
  induction a with
  | nil => rfl
  | cons node a ih => rw [List.cons_append, Node.visitsOf, Node.visitsOf, ih, List.append_assoc]

mutual

/-- Texts make no difference to the variables that a rendering comes to. -/
theorem visit_outline (node : Node) (items : Items)
    (h : Piece.ref inner name ∈ node.visits data items) :
    Piece.ref inner name ∈ Node.visitsOf data items node.outline := by
  cases node with
  | text chars => cases List.mem_singleton.mp h
  | ref other => exact List.mem_append_left _ h
  | choice other yes no =>
    refine List.mem_append_left _ ?_
    rw [Node.visits] at h ⊢
    split
    · rename_i hcondition
      rw [if_pos hcondition] at h
      exact visitsOf_outline yes items h
    · rename_i hcondition
      rw [if_neg hcondition] at h
      exact visitsOfElse_outline no items h
  | loop other body =>
    refine List.mem_append_left _ ?_
    obtain ⟨pair, hpair, hvisit⟩ := List.mem_flatMap.mp h
    exact List.mem_flatMap.mpr ⟨pair, hpair, visitsOf_outline body (pair :: items) hvisit⟩

theorem visitsOf_outline (nodes : List Node) (items : Items)
    (h : Piece.ref inner name ∈ Node.visitsOf data items nodes) :
    Piece.ref inner name ∈ Node.visitsOf data items (Node.outlineOf nodes) := by
  cases nodes with
  | nil => cases h
  | cons node nodes =>
    rw [Node.outlineOf, visitsOf_append]
    rcases List.mem_append.mp h with hnode | hnodes
    · exact List.mem_append_left _ (visit_outline node items hnode)
    · exact List.mem_append_right _ (visitsOf_outline nodes items hnodes)

theorem visitsOfElse_outline (no : Option (List Node)) (items : Items)
    (h : Piece.ref inner name ∈ Node.visitsOfElse data items no) :
    Piece.ref inner name ∈ Node.visitsOfElse data items (Node.outlineOfElse no) := by
  cases no with
  | none => cases h
  | some nodes => exact visitsOf_outline nodes items h

end

theorem Resolves.of_outline (h : Resolves data items (Node.outlineOf nodes)) :
    Resolves data items nodes :=
  fun inner name hvisit => h inner name (visitsOf_outline nodes items hvisit)

theorem resolves_nil : Resolves data items [] := fun _ _ hvisit => (by cases hvisit)

theorem Resolves.append {more : List Node} (h : Resolves data items nodes)
    (hmore : Resolves data items more) : Resolves data items (nodes ++ more) := by
  intro inner name hvisit
  rw [visitsOf_append] at hvisit
  exact (List.mem_append.mp hvisit).elim (h inner name) (hmore inner name)

/-- A variable with a value, and what comes after it. -/
theorem Resolves.ref (h : Resolves data items nodes)
    (hvalue : (scopesAt data items).get? name = some value) (hnull : value ≠ .null) :
    Resolves data items (.ref name :: nodes) := by
  intro inner other hvisit
  rcases List.mem_append.mp hvisit with href | hrest
  · cases List.mem_singleton.mp href
    rintro (hnone | hsome)
    · rw [hvalue] at hnone
      cases hnone
    · rw [hvalue] at hsome
      exact hnull (Option.some.inj hsome)
  · exact h inner other hrest

/-- A choice whose branch is closed where it is taken. -/
theorem Resolves.choice (h : Resolves data items nodes)
    (hyes : condition (scopesAt data items) name = true → Resolves data items yes)
    (hno : condition (scopesAt data items) name = false → Resolves data items (no.getD [])) :
    Resolves data items (.choice name yes no :: nodes) := by
  intro inner other hvisit
  rcases List.mem_append.mp hvisit with hchoice | hrest
  · rw [Node.visits] at hchoice
    split at hchoice
    · rename_i hcondition
      exact hyes hcondition inner other hchoice
    · rename_i hcondition
      cases no with
      | none => cases hchoice
      | some no => exact hno (by simpa using hcondition) inner other hchoice
  · exact h inner other hrest

/-- A loop whose body is closed for each item. -/
theorem Resolves.loop {α : Type} {xs : List α} {item : α → Json} (h : Resolves data items nodes)
    (hvalue : (scopesAt data items).get? name = some (.arr (xs.map item)))
    (hbody : ∀ x ∈ xs, ∀ index, Resolves data ((item x, index) :: items) body) :
    Resolves data items (.loop name body :: nodes) := by
  intro inner other hvisit
  rcases List.mem_append.mp hvisit with hloop | hrest
  · rw [Node.visits, loopItems, hvalue] at hloop
    obtain ⟨⟨found, index⟩, hpair, hfound⟩ := List.mem_flatMap.mp hloop
    obtain ⟨x, hx, rfl⟩ := List.mem_map.mp (List.fst_mem_of_mem_zipIdx hpair)
    exact hbody x hx index inner other hfound
  · exact h inner other hrest

/-- A variable with a text for its value. -/
theorem Resolves.str {text : String} (h : Resolves data items nodes)
    (hvalue : (scopesAt data items).get? name = some (.str text)) :
    Resolves data items (.ref name :: nodes) :=
  h.ref hvalue fun hnull => (by cases hnull)

/-- A variable with a list for its value. -/
theorem Resolves.strs {texts : List String} (h : Resolves data items nodes)
    (hvalue : (scopesAt data items).get? name = some (.strs texts)) :
    Resolves data items (.ref name :: nodes) :=
  h.ref hvalue fun hnull => (by cases hnull)

/-- A loop over texts that shows each. -/
theorem Resolves.listed {texts : List String} (h : Resolves data items nodes)
    (hvalue : (scopesAt data items).get? name = some (.strs texts)) :
    Resolves data items (Bundled.listedOutline name :: nodes) :=
  h.loop hvalue fun _ _ _ => resolves_nil.str rfl

/-- A list with a choice around it that asks whether it is empty. -/
theorem Resolves.kind {texts : List String} (h : Resolves data items nodes)
    (hvalue : (scopesAt data items).get? name = some (.strs texts)) :
    Resolves data items (Bundled.kindOutline name :: nodes) :=
  h.choice (fun _ => resolves_nil.listed hvalue) fun _ => resolves_nil

end Resolves

/-! ## The data of the bundled templates -/

theorem resolves_requirements (feature : Feature) (route : String) :
    Resolves (feature.templateData route) []
      [.choice "has_technical_requirements"
        [Bundled.kindOutline "endpoints", Bundled.kindOutline "data_models",
          Bundled.kindOutline "components", Bundled.kindOutline "technical_dependencies",
          Bundled.kindOutline "files"]
        none] := by
  unfold Feature.templateData
  cases feature.shownRequirements route with
  | none =>
    -- Without requirements the data has none of the names, and the choice is not taken.
    refine resolves_nil.choice (fun hcondition => ?_) fun _ => resolves_nil
    exact absurd (show false = true from hcondition) (by decide)
  | some r =>
    refine resolves_nil.choice (fun _ => ?_) fun _ => resolves_nil
    exact .kind (.kind (.kind (.kind (.kind resolves_nil rfl) rfl) rfl) rfl) rfl

theorem resolves_feature (feature : Feature) (route : String) :
    Resolves (feature.templateData route) [] Bundled.featureSpec.outline := by
  have hdependencies : Resolves (feature.templateData route) []
      [Bundled.listedOutline "dependencies"] := resolves_nil.listed rfl
  have hcriteria : Resolves (feature.templateData route) []
      [.loop "acceptance_criteria" [.choice "checked" [] (some []), .ref "description"]] := by
    refine resolves_nil.loop rfl fun criterion _ index => ?_
    exact (resolves_nil.str rfl).choice (fun _ => resolves_nil) fun _ => resolves_nil
  have hstories : Resolves (feature.templateData route) []
      [.loop "user_stories" [.ref "role", .ref "goal", .ref "benefit"]] := by
    refine resolves_nil.loop rfl fun story _ index => ?_
    exact .str (.str (.str resolves_nil rfl) rfl) rfl
  refine .str (.str (.str (.str ?_ rfl) rfl) rfl) rfl
  refine .choice ?_ (fun _ => hstories) fun _ => resolves_nil
  refine .choice ?_ (fun _ => hcriteria) fun _ => resolves_nil
  exact .choice (resolves_requirements feature route) (fun _ => hdependencies) fun _ => resolves_nil

theorem resolves_principles (c : Constitution) :
    Resolves c.templateData [] Bundled.principlesOutline :=
  .str (.listed resolves_nil rfl) rfl

theorem resolves_practice (c : Constitution) :
    Resolves c.templateData [] Bundled.practiceOutline := by
  refine .loop ?_ rfl fun standard _ index => ?_
  · refine .loop ?_ rfl fun metric _ index => ?_
    · exact .str (.str (.str resolves_nil rfl) rfl) rfl
    · exact .str (.str (.str resolves_nil rfl) rfl) rfl
  · exact .str (.str (.str resolves_nil rfl) rfl) rfl

theorem resolves_stack (c : Constitution) :
    Resolves c.templateData [] Bundled.stackOutline := by
  unfold Constitution.templateData
  cases c.stack with
  | none =>
    refine resolves_nil.choice (fun hcondition => ?_) fun _ => resolves_nil
    exact absurd (show (c.keepsStack && false) = true from hcondition) (by simp)
  | some stack =>
    refine resolves_nil.choice (fun _ => ?_) fun _ => resolves_nil
    exact .strs (.strs (.strs (.strs (.strs resolves_nil rfl) rfl) rfl) rfl) rfl

theorem resolves_constitution (c : Constitution) (route : Route) :
    Resolves c.templateData [] route.constitutionTemplate.outline := by
  cases route with
  | greenfield => exact (resolves_principles c).append (resolves_practice c)
  | brownfield =>
    exact (resolves_principles c).append ((resolves_stack c).append (resolves_practice c))

theorem resolves_plan {plan : Plan} {data : Members} (h : plan.templateData = .ok data) :
    Resolves data [] Bundled.implPlan.outline := by
  obtain ⟨hours, -, hdata⟩ := Action.bind_ok.mp h
  obtain rfl := Except.ok.inj hdata
  refine .str (.str (.str (.str (.str (.str ?_ rfl) rfl) rfl) rfl) rfl) rfl
  refine .loop ?_ rfl fun task _ index => ?_
  · refine .loop ?_ rfl fun risk _ index => ?_
    · exact resolves_nil.choice (fun _ => .listed resolves_nil rfl) fun _ => resolves_nil
    · exact .str (.str (.str (.str resolves_nil rfl) rfl) rfl) rfl
  · refine .str (.str (.str (.ref (.str resolves_nil rfl) rfl ?_) rfl) rfl) rfl
    cases task.hours <;> exact fun hnull => (by cases hnull)

/-- What it takes for a bundled template and its data to fit. The template has a tree; what is
rendered are the pieces that the rendering of the tree comes to, each variable among them has a
value, and nothing but the size of the text can be wrong. -/
structure Closed (options : Options) (template : Bundled) (data : Members) (tree : List Node) :
    Prop where
  read : parse options.maxDepth options.trimBlocks template.text = .ok tree
  resolved : ∀ items name, .ref items name ∈ Node.visitsOf data [] tree →
    ¬ IsUnresolved data items name
  rendered : render options template.name data =
    (limited options.maxOutput ((Node.visitsOf data [] tree).map (Piece.written data))).mapError
      (.inTemplate template.name)
  outcome : (∃ text, render options template.name data = .ok text) ∨
    render options template.name data =
      .error ((Failure.renderingTooLarge options.maxOutput).inTemplate template.name)

theorem closed_of_resolves {options : Options} {template : Bundled} {data : Members}
    (htrim : options.trimBlocks = true) (hdepth : 3 ≤ options.maxDepth)
    (h : Resolves data [] template.outline) : ∃ tree, Closed options template data tree := by
  obtain ⟨tree, hparse, houtline⟩ := template.parse_outline hdepth
  rw [← htrim] at hparse
  have hrender : render options template.name data =
      (limited options.maxOutput ((Node.visitsOf data [] tree).map (Piece.written data))).mapError
        (.inTemplate template.name) := by
    rw [render, load_name]
    exact congrArg (Except.mapError _) (populate_visits hparse)
  refine ⟨tree, hparse, (houtline ▸ h).of_outline, hrender, ?_⟩
  rw [hrender, limited]
  split
  · exact .inl ⟨_, rfl⟩
  · exact .inr rfl

/-- **The bundled templates are closed under their data**: those of features whatever the route, of
constitutions whichever of the two templates they go with, and of plans whose hours can be added
up. Only a whole number of hours that is too large keeps hours from being added up. -/
theorem bundled_closed {options : Options} (htrim : options.trimBlocks = true)
    (hdepth : 3 ≤ options.maxDepth) :
    (∀ (feature : Feature) (route : String),
      ∃ tree, Closed options .featureSpec (feature.templateData route) tree) ∧
    (∀ (c : Constitution) (route : Route),
      ∃ tree, Closed options route.constitutionTemplate c.templateData tree) ∧
    ∀ plan : Plan,
      (∀ data, plan.templateData = .ok data → ∃ tree, Closed options .implPlan data tree) ∧
      (∀ failure, plan.templateData = .error failure → ∃ message, failure = .overflow message) ∧
      ((∀ task ∈ plan.tasks, ∃ x, task.hours = .real x) →
        ∃ data, plan.templateData = .ok data) := by
  refine ⟨fun feature route => ?_, fun c route => ?_, fun plan => ⟨fun data hdata => ?_, ?_, ?_⟩⟩
  · exact closed_of_resolves htrim hdepth (resolves_feature feature route)
  · exact closed_of_resolves htrim hdepth (resolves_constitution c route)
  · exact closed_of_resolves htrim hdepth (resolves_plan hdata)
  · exact fun _ => Plan.templateData_error
  · exact Plan.exists_templateData

/-- The standard options, but with block lines trimmed. -/
def Options.trimming : Options := { Options.standard with trimBlocks := true }

/-- A plan with a task of half an hour and no risks. -/
def smallPlan : Plan where
  featureId := "001"
  featureName := "Search"
  currentState := "Nothing is there."
  targetState := "Notes are found by their words."
  approach := "An index of words."
  tasks := [⟨"T1", "Build the index", .real (.finite false (Binary64.scale / 2)), "backend", []⟩]
  risks := []
  effort := "1 day"
  dependencies := []

theorem bundled_closed_smallPlan :
    Options.trimming.trimBlocks = true ∧ 3 ≤ Options.trimming.maxDepth ∧
    ∃ data, smallPlan.templateData = .ok data ∧
      ∃ tree, Closed .trimming .implPlan data tree := by
  have htrim : Options.trimming.trimBlocks = true := rfl
  have hdepth : 3 ≤ Options.trimming.maxDepth := by decide
  obtain ⟨-, -, hplan⟩ := bundled_closed htrim hdepth
  obtain ⟨hclosed, -, hexists⟩ := hplan smallPlan
  obtain ⟨data, hdata⟩ := hexists (by simp [smallPlan])
  exact ⟨htrim, hdepth, data, hdata, hclosed data hdata⟩

end SpecDraft.Template
