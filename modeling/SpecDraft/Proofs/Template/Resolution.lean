import SpecDraft.Proofs.Template.Rendering
import SpecDraft.Proofs.Template.Trimming

/-!
# Variables without a value

A rendering goes through the tree of a template and writes a piece for each text and each variable
that it comes to (`renderNodes_visits`). The check of a template looks at the names of its variables
and at the data alone; between the data and a variable stand the items of the loops around it. A
variable that passed the check can be without a value only where one of them says null
(`isUnresolved_iff`).
-/
set_option autoImplicit false

namespace SpecDraft.Template

/-! ## What a rendering comes to -/

/-- The loop items around a place of a template, the innermost first, each with its index. -/
abbrev Items := List (Json × Nat)

/-- The scopes at a place: those of the items around it, and the data. -/
def scopesAt (data : Members) (items : Items) : Scopes :=
  items.map (fun (item, index) => itemScope item index) ++ [data]

/-- A piece of a rendering: a text, or a variable with the items around it. -/
inductive Piece where
  | text (chars : String)
  | ref (items : Items) (name : String)

/-- What is written for a piece. -/
def Piece.written (data : Members) : Piece → String
  | text chars => chars
  | ref items name => variableText (scopesAt data items) name

namespace Node

mutual

/-- The pieces that the rendering of a node comes to, in order. -/
def visits (data : Members) (items : Items) : Node → List Piece
  | text chars => [.text chars]
  | ref name => [.ref items name]
  | choice name yes no =>
    if condition (scopesAt data items) name then visitsOf data items yes
    else visitsOfElse data items no
  | loop name body =>
    (loopItems (scopesAt data items) name).zipIdx.flatMap fun pair =>
      visitsOf data (pair :: items) body

/-- The pieces that the rendering of nodes comes to, one node after the other. -/
def visitsOf (data : Members) (items : Items) : List Node → List Piece
  | [] => []
  | node :: nodes => node.visits data items ++ visitsOf data items nodes

/-- The pieces of the second branch of a choice, if there is one. -/
def visitsOfElse (data : Members) (items : Items) : Option (List Node) → List Piece
  | none => []
  | some nodes => visitsOf data items nodes

end

mutual

/-- The names of the variables in a node. -/
def refs : Node → List String
  | text _ => []
  | ref name => [name]
  | choice _ yes no => refsOf yes ++ refsOfElse no
  | loop _ body => refsOf body

/-- The names of the variables in nodes. -/
def refsOf : List Node → List String
  | [] => []
  | node :: nodes => node.refs ++ refsOf nodes

/-- The names of the variables in the second branch of a choice. -/
def refsOfElse : Option (List Node) → List String
  | none => []
  | some nodes => refsOf nodes

end

theorem mem_refsOf {name : String} {nodes : List Node} :
    name ∈ refsOf nodes ↔ ∃ node ∈ nodes, name ∈ node.refs := by
  induction nodes with
  | nil => simp [refsOf]
  | cons node nodes ih => simp [refsOf, ih]

end Node

section Visits
variable {limit : Int} {data : Members} {items inner : Items} {name : String}

mutual

/-- **A node is rendered** by writing the pieces that the rendering comes to. -/
theorem renderNode_visits (node : Node) (items : Items) (output : Output) :
    renderNode limit (scopesAt data items) node output =
      emitAll limit ((node.visits data items).map (Piece.written data)) output := by
  cases node with
  | text chars => exact (emitAll_singleton _ output).symm
  | ref name => exact (emitAll_singleton _ output).symm
  | choice name yes no =>
    rw [renderNode, Node.visits]
    split
    · exact renderNodes_visits yes items output
    · exact renderElse_visits no items output
  | loop name body =>
    rw [renderNode, Node.visits, List.map_flatMap]
    exact emitAll_flatMap (fun pair _ output => renderNodes_visits body (pair :: items) output)
      output

theorem renderNodes_visits (nodes : List Node) (items : Items) (output : Output) :
    renderNodes limit (scopesAt data items) nodes output =
      emitAll limit ((Node.visitsOf data items nodes).map (Piece.written data)) output := by
  cases nodes with
  | nil => rfl
  | cons node nodes =>
    rw [renderNodes, Node.visitsOf, List.map_append, emitAll_append,
      renderNode_visits node items output]
    exact bind_congr fun output => renderNodes_visits nodes items output

theorem renderElse_visits (no : Option (List Node)) (items : Items) (output : Output) :
    renderElse limit (scopesAt data items) no output =
      emitAll limit ((Node.visitsOfElse data items no).map (Piece.written data)) output := by
  cases no with
  | none => rfl
  | some nodes => exact renderNodes_visits nodes items output

end

/-- **A template is rendered** to the pieces that the rendering of its tree comes to. -/
theorem populate_visits {options : Options} {template : String} {tree : List Node}
    (h : parse options.maxDepth options.trimBlocks template = .ok tree) :
    populate options template data =
      limited options.maxOutput ((Node.visitsOf data [] tree).map (Piece.written data)) := by
  have hrender : renderNodes options.maxOutput [data] tree .empty =
      emitAll options.maxOutput ((Node.visitsOf data [] tree).map (Piece.written data)) .empty :=
    renderNodes_visits tree [] .empty
  rw [populate, h]
  refine (congrArg (· >>= fun output => pure output.text) hrender).trans ?_
  exact emitAll_empty _

mutual

/-- A rendering comes to no variables but those of the template. -/
theorem mem_refs_of_visit (node : Node) (items : Items)
    (h : Piece.ref inner name ∈ node.visits data items) : name ∈ node.refs := by
  cases node with
  | text chars =>
    cases List.mem_singleton.mp h
  | ref other =>
    cases List.mem_singleton.mp h
    exact List.mem_singleton.mpr rfl
  | choice other yes no =>
    rw [Node.visits] at h
    split at h
    · exact List.mem_append_left _ (mem_refsOf_of_visit yes items h)
    · exact List.mem_append_right _ (mem_refsOfElse_of_visit no items h)
  | loop other body =>
    obtain ⟨pair, -, hpair⟩ := List.mem_flatMap.mp h
    exact mem_refsOf_of_visit body (pair :: items) hpair

theorem mem_refsOf_of_visit (nodes : List Node) (items : Items)
    (h : Piece.ref inner name ∈ Node.visitsOf data items nodes) : name ∈ Node.refsOf nodes := by
  cases nodes with
  | nil => cases h
  | cons node nodes =>
    rcases List.mem_append.mp h with hnode | hnodes
    · exact List.mem_append_left _ (mem_refs_of_visit node items hnode)
    · exact List.mem_append_right _ (mem_refsOf_of_visit nodes items hnodes)

theorem mem_refsOfElse_of_visit (no : Option (List Node)) (items : Items)
    (h : Piece.ref inner name ∈ Node.visitsOfElse data items no) :
    name ∈ Node.refsOfElse no := by
  cases no with
  | none => cases h
  | some nodes => exact mem_refsOf_of_visit nodes items h

end

end Visits

/-! ## The variables of a tree -/

/-- The names of the variables in what an open block holds already. -/
def OpenBlock.refs : OpenBlock → List String
  | loop _ | choice _ => []
  | otherwise _ yes => Node.refsOf yes

/-- The names of the variables in the open blocks and in the nodes that precede them. -/
def framesRefs (frames : List Frame) : List String :=
  frames.flatMap fun frame => frame.block.refs ++ Node.refsOf frame.before

/-- The names of the variables in a tree under construction. -/
def Builder.refs (builder : Builder) : List String :=
  framesRefs builder.frames ++ Node.refsOf builder.nodes

section Refs
variable {limit : Int} {builder next final : Builder} {token : Token} {tokens : List Token}
  {name : String} {tree nodes : List Node}

theorem mem_refsOf_reverse : name ∈ Node.refsOf nodes.reverse ↔ name ∈ Node.refsOf nodes := by
  simp only [Node.mem_refsOf, List.mem_reverse]

theorem mem_framesRefs_cons {block : OpenBlock} {before : List Node} {frames : List Frame} :
    name ∈ framesRefs (⟨block, before⟩ :: frames) ↔
      name ∈ block.refs ∨ name ∈ Node.refsOf before ∨ name ∈ framesRefs frames := by
  rw [framesRefs, List.flatMap_cons, List.mem_append, List.mem_append, or_assoc]
  rfl

/-- **A step adds no variable** but that of its token. -/
theorem mem_refs_step (h : builder.step limit token = .ok next) (hname : name ∈ next.refs) :
    name ∈ builder.refs ∨ token = .ref name := by
  obtain ⟨frames, nodes⟩ := builder
  cases token with
  | text chars =>
    cases h
    exact .inl hname
  | ref other =>
    cases h
    simp only [Builder.refs, Builder.push, Node.refsOf, Node.refs, List.mem_append,
      List.mem_singleton] at hname
    rcases hname with hframes | rfl | hnodes
    · exact .inl (List.mem_append_left _ hframes)
    · exact .inr rfl
    · exact .inl (List.mem_append_right _ hnodes)
  | each gap other | choice gap other =>
    simp only [Builder.step, Builder.opened] at h
    split at h
    · cases h
    · cases h
      simp only [Builder.refs, List.mem_append, mem_framesRefs_cons, OpenBlock.refs, Node.refsOf,
        List.not_mem_nil, false_or, or_false] at hname ⊢
      exact .inl hname.symm
  | otherwise | endChoice | endEach =>
    cases frames with
    | nil => cases h
    | cons frame frames =>
      obtain ⟨_ | _ | _, before⟩ := frame <;> cases h <;>
        simp only [Builder.refs, List.mem_append, mem_framesRefs_cons, OpenBlock.refs,
          Node.refsOf, Node.refs, Node.refsOfElse, mem_refsOf_reverse, List.not_mem_nil]
          at hname ⊢ <;>
        tauto

theorem mem_refs_run (h : tokens.foldlM (Builder.step limit) builder = .ok final)
    (hname : name ∈ final.refs) : name ∈ builder.refs ∨ .ref name ∈ tokens := by
  induction tokens generalizing builder with
  | nil =>
    cases h
    exact .inl hname
  | cons token tokens ih =>
    rw [List.foldlM_cons] at h
    obtain ⟨next, hstep, hrest⟩ := Action.bind_ok.mp h
    rcases ih hrest with hnext | htoken
    · rcases mem_refs_step hstep hnext with hbuilder | rfl
      · exact .inl hbuilder
      · exact .inr List.mem_cons_self
    · exact .inr (List.mem_cons_of_mem token htoken)

/-- The variables of a tree stand in its template. -/
theorem mem_of_treeOf (h : treeOf limit tokens = .ok tree) (hname : name ∈ Node.refsOf tree) :
    .ref name ∈ tokens := by
  obtain ⟨final, hrun, hfinish⟩ := Action.bind_ok.mp h
  have hfinal : name ∈ final.refs := by
    obtain ⟨frames, nodes⟩ := final
    cases frames with
    | nil =>
      cases hfinish
      exact mem_refsOf_reverse.mp hname
    | cons frame frames => cases hfinish
  rcases mem_refs_run hrun hfinal with hempty | htoken
  · cases hempty
  · exact htoken

theorem ref_mem_tagsOf : .ref name ∈ tagsOf tokens ↔ .ref name ∈ tokens := by
  simp [tagsOf]

/-- The variables of a tree stand in its template, whether or not it was trimmed. -/
theorem mem_of_parse {trim : Bool} {template : String} (h : parse limit trim template = .ok tree)
    (hname : name ∈ Node.refsOf tree) : .ref name ∈ Template.tokens template := by
  have hread := mem_of_treeOf h hname
  cases trim with
  | false => exact hread
  | true =>
    rw [← ref_mem_tagsOf, ← tagsOf_trimBlockLines, ref_mem_tagsOf]
    exact hread

end Refs

/-! ## The check -/

/-- Whether a variable is without a value: it is absent or null. -/
def IsUnresolved (data : Members) (items : Items) (name : String) : Prop :=
  (scopesAt data items).get? name = none ∨ (scopesAt data items).get? name = some .null

/-- Whether a loop item hides a name: the innermost item that has the name is an object, and the
name is null in it. -/
def HiddenByItem (items : Items) (name : String) : Prop :=
  ∃ (inner : Items) (fields : Members) (index : Nat) (outer : Items),
    items = inner ++ (.obj fields, index) :: outer ∧
    (∀ pair ∈ inner, (itemScope pair.1 pair.2).get? name = none) ∧
    fields.get? name = some .null

section Check
variable {data : Members} {template name : String} {items : Items}

theorem hasValue_iff :
    hasValue data name = true ↔ ∃ value, data.get? name = some value ∧ value ≠ .null := by
  unfold hasValue
  split
  · rename_i hget
    simp [hget]
  · rename_i hget
    simp [hget]
  · rename_i value hnull hget
    exact ⟨fun _ => ⟨value, hget, hnull⟩, fun _ => rfl⟩

/-- The names that are found missing after one more token. -/
def missingAfter (data : Members) (missing : List String) : Token → List String
  | .ref name =>
    if loopNames.contains name || missing.contains name || hasValue data name then missing
    else missing ++ [name]
  | _ => missing

theorem missingAfter_eq_nil_iff {missing : List String} {token : Token} :
    missingAfter data missing token = [] ↔
      missing = [] ∧ ∀ name, token = .ref name → name ∈ loopNames ∨ hasValue data name = true := by
  cases token with
  | ref name =>
    rw [missingAfter]
    split
    · rename_i h
      refine ⟨?_, And.left⟩
      rintro rfl
      refine ⟨rfl, ?_⟩
      rintro _ ⟨⟩
      simpa using h
    · rename_i h
      refine ⟨fun heq => absurd heq (List.append_ne_nil_of_right_ne_nil _ (List.cons_ne_nil _ _)),
        ?_⟩
      rintro ⟨-, hname⟩
      refine absurd ?_ h
      rcases hname name rfl with hloop | hvalue
      · simp [hloop]
      · simp [hvalue]
  | _ => simp [missingAfter]

/-- **The check finds nothing** exactly when each variable is a loop's own or has a value. -/
theorem unresolved_eq_nil_iff : unresolved template data = [] ↔
    ∀ name, .ref name ∈ tokens template → name ∈ loopNames ∨ hasValue data name = true := by
  have hfold (a : List Token) (missing : List String) :
      a.foldl (missingAfter data) missing = [] ↔
        missing = [] ∧ ∀ name, .ref name ∈ a → name ∈ loopNames ∨ hasValue data name = true := by
    induction a generalizing missing with
    | nil => simp
    | cons token a ih =>
      rw [List.foldl_cons, ih, missingAfter_eq_nil_iff]
      simp only [List.mem_cons, or_imp, forall_and, and_assoc, eq_comm]
  refine (hfold (tokens template) []).trans ?_
  simp only [true_and]

theorem scopesAt_get? (data : Members) (item : Json) (index : Nat) (items : Items)
    (name : String) : (scopesAt data ((item, index) :: items)).get? name =
      ((itemScope item index).get? name).or ((scopesAt data items).get? name) :=
  get?_cons (itemScope item index) (scopesAt data items) name

theorem get?_itemScope_obj (hname : name ∉ loopNames) (fields : Members) (index : Nat) :
    (itemScope (.obj fields) index).get? name = fields.get? name := by
  rw [get?_itemScope, if_neg]
  · rfl
  · rintro rfl
    exact hname (by decide)

/-- Under a name that is no loop's own, an item says something only if it is an object. -/
theorem exists_fields_of_itemScope {item value : Json} {index : Nat} (hname : name ∉ loopNames)
    (h : (itemScope item index).get? name = some value) : ∃ fields, item = .obj fields := by
  simp only [loopNames, List.mem_cons, List.not_mem_nil, or_false, not_or] at hname
  rw [get?_itemScope, if_neg hname.2] at h
  cases item with
  | obj fields => exact ⟨fields, rfl⟩
  | null | arr => cases h
  | bool | int | real | str =>
    change Members.get? [("this", _)] name = some value at h
    rw [Members.get?_cons_ne (Ne.symm hname.1)] at h
    cases h

theorem hiddenByItem_cons {item : Json} {index : Nat}
    (h : (itemScope item index).get? name = none) (hname : name ∉ loopNames) :
    HiddenByItem ((item, index) :: items) name ↔ HiddenByItem items name := by
  constructor
  · rintro ⟨inner, fields, place, outer, heq, hinner, hnull⟩
    cases inner with
    | nil =>
      cases heq
      rw [get?_itemScope_obj hname, hnull] at h
      cases h
    | cons pair inner =>
      cases heq
      exact ⟨inner, fields, place, outer, rfl, fun pair hpair =>
        hinner pair (List.mem_cons_of_mem _ hpair), hnull⟩
  · rintro ⟨inner, fields, place, outer, rfl, hinner, hnull⟩
    exact ⟨(item, index) :: inner, fields, place, outer, rfl,
      List.forall_mem_cons.mpr ⟨h, hinner⟩, hnull⟩

/-- **A variable that the data gives a value** is without one exactly where an item hides it, by
induction on the items around it. -/
theorem isUnresolved_iff (hvalue : hasValue data name = true) (hname : name ∉ loopNames) :
    IsUnresolved data items name ↔ HiddenByItem items name := by
  induction items with
  | nil =>
    obtain ⟨value, hget, hnull⟩ := hasValue_iff.mp hvalue
    have hdata : (scopesAt data []).get? name = some value :=
      (get?_cons data [] name).trans (by rw [hget]; rfl)
    constructor
    · intro h
      rw [IsUnresolved, hdata] at h
      rcases h with h | h
      · cases h
      · exact absurd (Option.some.inj h) hnull
    · rintro ⟨inner, fields, index, outer, heq, -⟩
      exact absurd heq.symm (List.append_ne_nil_of_right_ne_nil _ (List.cons_ne_nil _ _))
  | cons pair items ih =>
    obtain ⟨item, index⟩ := pair
    rw [IsUnresolved, scopesAt_get?]
    cases hget : (itemScope item index).get? name with
    | none => rw [hiddenByItem_cons hget hname, ← ih, Option.none_or, IsUnresolved]
    | some value =>
      -- The innermost item decides.
      obtain ⟨fields, rfl⟩ := exists_fields_of_itemScope hname hget
      rw [Option.some_or, Option.some.injEq]
      rw [get?_itemScope_obj hname] at hget
      constructor
      · rintro (h | rfl)
        · cases h
        · exact ⟨[], fields, index, items, rfl, fun _ hpair => (by cases hpair), hget⟩
      · rintro ⟨inner, fields', place, outer, heq, hinner, hnull⟩
        cases inner with
        | nil =>
          cases heq
          rw [hget] at hnull
          exact .inr (Option.some.inj hnull)
        | cons pair inner =>
          cases heq
          have hnone := hinner _ List.mem_cons_self
          rw [get?_itemScope_obj hname, hget] at hnone
          cases hnone

theorem written_of_isUnresolved (h : IsUnresolved data items name) :
    (Piece.ref items name).written data = braced name := by
  rw [Piece.written, variableText]
  rcases h with h | h <;> rw [h]

/-- **What the check of a template says of its renderings.** A template that is read is rendered to
the pieces that the rendering of its tree comes to. If the check finds nothing, then a variable that
is no loop's own is without a value exactly where a loop item hides it; its tag is written there. -/
theorem populate_checked {options : Options} {tree : List Node}
    (hparse : parse options.maxDepth options.trimBlocks template = .ok tree)
    (hcheck : unresolved template data = []) :
    populate options template data =
      limited options.maxOutput ((Node.visitsOf data [] tree).map (Piece.written data)) ∧
    ∀ items name, .ref items name ∈ Node.visitsOf data [] tree → name ∉ loopNames →
      (IsUnresolved data items name ↔ HiddenByItem items name) ∧
      (HiddenByItem items name → (Piece.ref items name).written data = braced name) := by
  refine ⟨populate_visits hparse, fun items name hvisit hname => ?_⟩
  have htoken := mem_of_parse hparse (mem_refsOf_of_visit tree [] hvisit)
  rcases unresolved_eq_nil_iff.mp hcheck name htoken with hloop | hvalue
  · exact absurd hloop hname
  · have hiff : IsUnresolved data items name ↔ HiddenByItem items name :=
      isUnresolved_iff hvalue hname
    exact ⟨hiff, fun hhidden => written_of_isUnresolved (hiff.mpr hhidden)⟩

end Check

/-! ## A name that an item hides -/

/-- A template with a loop that shows a name of the data. -/
def ownersTemplate : String :=
  braced "#each rows" ++ braced "owner" ++ ";" ++ braced "/each"

/-- Data with two items, the second of which says that it has no owner. -/
def ownersData : Members :=
  [("owner", .str "a"), ("rows", .arr [.obj [], .obj [("owner", .null)]])]

/-- The tree of the template. -/
def ownersTree : List Node := [.loop "rows" [.ref "owner", .text ";"]]

theorem parse_owners :
    parse Options.standard.maxDepth Options.standard.trimBlocks ownersTemplate =
      .ok ownersTree := rfl

theorem unresolved_owners : unresolved ownersTemplate ownersData = [] := rfl

theorem visits_owners : Node.visitsOf ownersData [] ownersTree =
    [.ref [(.obj [], 0)] "owner", .text ";", .ref [(.obj [("owner", .null)], 1)] "owner",
      .text ";"] := rfl

/-- A template that the check finds nothing in can be rendered with a tag of its own in it. -/
theorem unresolved_eq_nil_owners : unresolved ownersTemplate ownersData = [] ∧
    parse Options.standard.maxDepth Options.standard.trimBlocks ownersTemplate = .ok ownersTree ∧
    .ref [(.obj [("owner", .null)], 1)] "owner" ∈ Node.visitsOf ownersData [] ownersTree ∧
    IsUnresolved ownersData [(.obj [("owner", .null)], 1)] "owner" ∧
    populate .standard ownersTemplate ownersData = .ok ("a;" ++ braced "owner" ++ ";") := by
  refine ⟨unresolved_owners, parse_owners, ?_, .inr rfl, ?_⟩
  · rw [visits_owners]
    simp
  · rw [populate_visits parse_owners, visits_owners]
    rfl

theorem populate_checked_owners :
    parse Options.standard.maxDepth Options.standard.trimBlocks ownersTemplate = .ok ownersTree ∧
    unresolved ownersTemplate ownersData = [] ∧
    .ref [(.obj [], 0)] "owner" ∈ Node.visitsOf ownersData [] ownersTree ∧
    ¬ IsUnresolved ownersData [(.obj [], 0)] "owner" := by
  have hvisit : .ref [(.obj [], 0)] "owner" ∈ Node.visitsOf ownersData [] ownersTree := by
    rw [visits_owners]
    simp
  obtain ⟨-, hvisits⟩ := populate_checked parse_owners unresolved_owners
  refine ⟨parse_owners, unresolved_owners, hvisit, ?_⟩
  rw [(hvisits _ _ hvisit (by decide)).1]
  rintro ⟨inner, fields, index, outer, heq, -, hnull⟩
  cases inner with
  | nil =>
    cases heq
    cases hnull
  | cons pair inner =>
    obtain ⟨-, hnil⟩ := List.cons.inj heq
    exact absurd hnil.symm (List.append_ne_nil_of_right_ne_nil _ (List.cons_ne_nil _ _))

end SpecDraft.Template
