import SpecDraft.Proofs.Action
import SpecDraft.Proofs.Json.WellFormed
import SpecDraft.Template.Render

/-!
# Rendering with one dictionary

Rendering a template against a chain of scopes is the same as rendering it with a single
dictionary (`populate_flat`). The dictionary of a loop item is a fresh copy of the one around the
loop, overwritten by what the item says. The two agree on every name (`Agrees`), and entering an
item keeps that (`agrees_entered`); the rest is an induction on the tree. Pieces are written in
the order in which they are made, as long as the limit allows (`emitAll_eq`).
-/
set_option autoImplicit false

namespace SpecDraft.Template

/-! ## The dictionary -/

/-- What a loop item says: the fields of an object, or the item itself as `this`; null and lists
say nothing. -/
def itemFields : Json → Members
  | .obj fields => fields
  | .null | .arr _ => []
  | item => [("this", item)]

/-- The dictionary of a loop item: a copy of the one around the loop, overwritten by what the item
says and then by its place as `index`. -/
def entered (values : Members) (item : Json) (index : Nat) : Members :=
  (values.merge (itemFields item)).put "index" (.nat index)

/-- The text of a variable: its value, or its tag when it is absent or null. -/
def valueText (name : String) : Option Json → String
  | none | some .null => braced name
  | some value => value.rendered

/-- The items of a list; a value of another kind has none. -/
def listItems : Option Json → List Json
  | some (.arr items) => items
  | _ => []

namespace Node

mutual

/-- The pieces of text that a node makes of a dictionary, in order. -/
def pieces (values : Members) : Node → List String
  | text chars => [chars]
  | ref name => [valueText name (values.get? name)]
  | choice name yes no =>
    if (values.get? name).any Json.isTruthy then piecesOf values yes else piecesOfElse values no
  | loop name body =>
    (listItems (values.get? name)).zipIdx.flatMap fun (item, index) =>
      piecesOf (entered values item index) body

/-- The pieces of text of nodes, one after the other, each of the same dictionary. -/
def piecesOf (values : Members) : List Node → List String
  | [] => []
  | node :: nodes => node.pieces values ++ piecesOf values nodes

/-- The pieces of text of the second branch of a choice, if there is one. -/
def piecesOfElse (values : Members) : Option (List Node) → List String
  | none => []
  | some nodes => piecesOf values nodes

end

theorem piecesOf_append (values : Members) (a b : List Node) :
    piecesOf values (a ++ b) = piecesOf values a ++ piecesOf values b := by
  induction a with
  | nil => rfl
  | cons node a ih => rw [List.cons_append, piecesOf, piecesOf, ih, List.append_assoc]

end Node

/-- Pieces of text put together. Once there is one, together they must be within the limit. -/
def limited (limit : Int) (pieces : List String) : Outcome String :=
  if pieces = [] ∨ (pieces.map String.length).sum ≤ limit then .ok (String.join pieces)
  else .error (.renderingTooLarge limit)

/-! ## Scopes and the dictionary -/

/-- Whether every name has the same value in a chain of scopes and in a dictionary. -/
def Agrees (scopes : Scopes) (values : Members) : Prop :=
  ∀ name, scopes.get? name = values.get? name

section Agrees
variable {scopes : Scopes} {values : Members} {item : Json}

theorem get?_cons (scope : Members) (scopes : Scopes) (name : String) :
    Scopes.get? (scope :: scopes) name = (scope.get? name).or (scopes.get? name) := by
  rw [Scopes.get?, List.findSome?_cons]
  cases scope.get? name <;> rfl

theorem agrees_singleton (values : Members) : Agrees [values] values := by
  intro name
  rw [get?_cons]
  exact Option.or_none

/-- A scope put in front of the chain overwrites the dictionary with its members. -/
theorem Agrees.cons {scope overwritten : Members} (h : Agrees scopes values)
    (hover : ∀ name, overwritten.get? name = (scope.get? name).or (values.get? name)) :
    Agrees (scope :: scopes) overwritten := by
  intro name
  rw [get?_cons, h name, hover name]

theorem itemFields_wellFormed (h : item.WellFormed) : (itemFields item).WellFormed := by
  cases item with
  | obj fields => exact Members.wellFormed_obj.mp h
  | null | arr => exact Members.wellFormed_nil
  | bool | int | real | str =>
    exact ⟨List.nodup_singleton "this", fun pair hpair => List.mem_singleton.mp hpair ▸ h⟩

/-- The scope of an item holds its place, and what the item says under other names. -/
theorem get?_itemScope (item : Json) (index : Nat) (name : String) :
    (itemScope item index).get? name =
      if name = "index" then some (.nat index) else (itemFields item).get? name := by
  cases item with
  | obj fields => exact Members.get?_put fields "index" (.nat index) name
  | null | arr => exact Members.get?_put [] "index" (.nat index) name
  | bool value => exact Members.get?_put [("this", .bool value)] "index" (.nat index) name
  | int value => exact Members.get?_put [("this", .int value)] "index" (.nat index) name
  | real value => exact Members.get?_put [("this", .real value)] "index" (.nat index) name
  | str value => exact Members.get?_put [("this", .str value)] "index" (.nat index) name

/-- **Entering a loop item** keeps the dictionary in step with the scopes. -/
theorem agrees_entered (h : Agrees scopes values) (hitem : item.WellFormed) (index : Nat) :
    Agrees (itemScope item index :: scopes) (entered values item index) := by
  refine h.cons fun name => ?_
  rw [entered, Members.get?_put, get?_itemScope,
    Members.get?_merge values (itemFields_wellFormed hitem).nodup]
  split <;> rfl

theorem entered_wellFormed (h : values.WellFormed) (hitem : item.WellFormed) (index : Nat) :
    (entered values item index).WellFormed :=
  (h.merge (itemFields_wellFormed hitem).values).put
    (show (Json.nat index).WellFormed from trivial) "index"

theorem wellFormed_of_mem_listItems (h : values.WellFormed) {name : String}
    (hmem : item ∈ listItems (values.get? name)) : item.WellFormed := by
  unfold listItems at hmem
  split at hmem
  · rename_i items hget
    exact Json.itemsWellFormed_iff.mp (h.get? hget) item hmem
  · cases hmem

theorem Agrees.variableText_eq (h : Agrees scopes values) (name : String) :
    variableText scopes name = valueText name (values.get? name) := by
  rw [variableText, h name]
  rfl

theorem Agrees.condition_eq (h : Agrees scopes values) (name : String) :
    condition scopes name = (values.get? name).any Json.isTruthy := by
  rw [condition, h name]
  cases values.get? name <;> rfl

theorem Agrees.loopItems_eq (h : Agrees scopes values) (name : String) :
    loopItems scopes name = listItems (values.get? name) := by
  rw [loopItems, h name]
  rfl

end Agrees

/-! ## Writing the pieces -/

/-- Pieces of text written one after the other. -/
def emitAll (limit : Int) (pieces : List String) (output : Output) : Outcome Output :=
  pieces.foldlM (fun output piece => output.emit limit piece) output

section Emit
variable {limit : Int}

theorem emitAll_append (a b : List String) (output : Output) :
    emitAll limit (a ++ b) output = emitAll limit a output >>= emitAll limit b :=
  List.foldlM_append ..

theorem emitAll_singleton (piece : String) (output : Output) :
    emitAll limit [piece] output = output.emit limit piece := by
  rw [emitAll, List.foldlM_cons]
  exact bind_pure _

/-- **Pieces are written** exactly when all of them together are within the limit: the output only
grows, so that the last one decides. -/
theorem emitAll_eq (pieces : List String) (output : Output) :
    emitAll limit pieces output =
      if pieces = [] ∨ (output.size + (pieces.map String.length).sum : Nat) ≤ limit then
        .ok ⟨output.size + (pieces.map String.length).sum, pieces.reverse ++ output.pieces⟩
      else .error (.renderingTooLarge limit) := by
  induction pieces generalizing output with
  | nil => rfl
  | cons piece pieces ih =>
    rw [emitAll, List.foldlM_cons, Output.emit, List.map_cons, List.sum_cons, ← Nat.add_assoc]
    by_cases hfirst : limit < (output.size + piece.length : Nat)
    · -- The first piece is too much, and so are all of them.
      rw [if_pos hfirst, if_neg]
      · rfl
      · rintro (h | h)
        · cases h
        · omega
    · rw [if_neg hfirst, List.reverse_cons, List.append_assoc]
      refine (ih ⟨output.size + piece.length, piece :: output.pieces⟩).trans
        (if_congr ⟨fun h => .inr ?_, fun h => .inr ?_⟩ rfl rfl)
      · rcases h with rfl | h
        · rw [List.map_nil, List.sum_nil]
          omega
        · exact h
      · rcases h with h | h
        · cases h
        · exact h

theorem emitAll_empty (pieces : List String) :
    (do return (← emitAll limit pieces .empty).text) = limited limit pieces := by
  rw [emitAll_eq, limited, Output.empty, Nat.zero_add]
  split
  · refine congrArg Except.ok ?_
    rw [Output.text, List.append_nil, List.reverse_reverse]
  · rfl

/-- What is written for each of several things in turn is written for all of them. -/
theorem emitAll_flatMap {α : Type} {items : List α} {f : Output → α → Outcome Output}
    {g : α → List String}
    (h : ∀ item ∈ items, ∀ output, f output item = emitAll limit (g item) output)
    (output : Output) : items.foldlM f output = emitAll limit (items.flatMap g) output := by
  induction items generalizing output with
  | nil => rfl
  | cons item items ih =>
    rw [List.foldlM_cons, List.flatMap_cons, emitAll_append, h item List.mem_cons_self]
    exact bind_congr (ih fun other hother => h other (List.mem_cons_of_mem item hother))

end Emit

/-! ## Rendering -/

section Render
variable {limit : Int}

mutual

/-- **A node is rendered** by writing its pieces. -/
theorem renderNode_eq {scopes : Scopes} {values : Members} (h : Agrees scopes values)
    (hvalues : values.WellFormed) (node : Node) (output : Output) :
    renderNode limit scopes node output = emitAll limit (node.pieces values) output := by
  cases node with
  | text chars => rw [renderNode, Node.pieces, emitAll_singleton]
  | ref name => rw [renderNode, Node.pieces, emitAll_singleton, h.variableText_eq]
  | choice name yes no =>
    rw [renderNode, Node.pieces, h.condition_eq]
    split
    · exact renderNodes_eq h hvalues yes output
    · exact renderElse_eq h hvalues no output
  | loop name body =>
    rw [renderNode, Node.pieces, h.loopItems_eq]
    refine emitAll_flatMap (fun ⟨item, index⟩ hitem output => ?_) output
    have hwell : item.WellFormed :=
      wellFormed_of_mem_listItems hvalues (List.fst_mem_of_mem_zipIdx hitem)
    exact renderNodes_eq (agrees_entered h hwell index) (entered_wellFormed hvalues hwell index)
      body output

/-- Nodes are rendered by writing the pieces of each. -/
theorem renderNodes_eq {scopes : Scopes} {values : Members} (h : Agrees scopes values)
    (hvalues : values.WellFormed) (nodes : List Node) (output : Output) :
    renderNodes limit scopes nodes output = emitAll limit (Node.piecesOf values nodes) output := by
  cases nodes with
  | nil => rfl
  | cons node nodes =>
    rw [renderNodes, Node.piecesOf, emitAll_append, renderNode_eq h hvalues node output]
    exact bind_congr fun output => renderNodes_eq h hvalues nodes output

/-- The second branch of a choice is rendered by writing its pieces. -/
theorem renderElse_eq {scopes : Scopes} {values : Members} (h : Agrees scopes values)
    (hvalues : values.WellFormed) (no : Option (List Node)) (output : Output) :
    renderElse limit scopes no output = emitAll limit (Node.piecesOfElse values no) output := by
  cases no with
  | none => rfl
  | some nodes => exact renderNodes_eq h hvalues nodes output

end

end Render

/-- **Rendering with one dictionary.** A template that is read is rendered to the pieces that its
tree makes of the data, within the limit. What comes before a loop, and what comes after it, is made
of the data alone, and each round of the loop of the data and its own item. -/
theorem populate_flat (options : Options) (template : String) (data : Members)
    (hdata : data.WellFormed) :
    populate options template data =
      (do
        let tree ← parse options.maxDepth options.trimBlocks template
        limited options.maxOutput (Node.piecesOf data tree)) ∧
    ∀ before name body after,
      parse options.maxDepth options.trimBlocks template =
        .ok (before ++ .loop name body :: after) →
      populate options template data = limited options.maxOutput
        (Node.piecesOf data before ++
          ((listItems (data.get? name)).zipIdx.flatMap fun (item, index) =>
            Node.piecesOf (entered data item index) body) ++
          Node.piecesOf data after) := by
  have hrender : populate options template data =
      (do
        let tree ← parse options.maxDepth options.trimBlocks template
        limited options.maxOutput (Node.piecesOf data tree)) := by
    refine bind_congr fun tree => ?_
    rw [renderNodes_eq (agrees_singleton data) hdata]
    exact emitAll_empty _
  refine ⟨hrender, fun before name body after hparse => ?_⟩
  rw [hrender, hparse, ← Node.pieces, List.append_assoc, ← Node.piecesOf, ← Node.piecesOf_append]
  rfl

/-- The body of a loop that shows three names. -/
def sampleBody : List Node := [.ref "name", .ref "this", .ref "index", .text ";"]

/-- A template with a loop, and the same names after it. -/
def sampleTemplate : String :=
  braced "#each rows" ++ Node.sources sampleBody ++ braced "/each" ++ braced "name" ++
    braced "this" ++ braced "index"

/-- Data whose first item has a name and an index of its own, and whose other items have no
fields. -/
def sampleData : Members :=
  [("name", .str "n"),
    ("rows", .arr [.obj [("name", .str "a"), ("index", .str "i")], .null, .str "s"])]

theorem sampleData_wellFormed : sampleData.WellFormed := by
  rw [← Members.wellFormed_obj]
  simp [sampleData, Json.WellFormed, Json.MembersWellFormed, Json.ItemsWellFormed]

theorem parse_sampleTemplate : parse 32 false sampleTemplate =
    .ok ([] ++ .loop "rows" sampleBody :: [.ref "name", .ref "this", .ref "index"]) := rfl

theorem populate_flat_sample :
    sampleData.WellFormed ∧
    parse 32 false sampleTemplate =
      .ok ([] ++ .loop "rows" sampleBody :: [.ref "name", .ref "this", .ref "index"]) ∧
    populate .standard sampleTemplate sampleData =
      .ok ("a" ++ braced "this" ++ "0;n" ++ braced "this" ++ "1;ns2;n" ++ braced "this" ++
        braced "index") :=
  ⟨sampleData_wellFormed, parse_sampleTemplate,
    ((populate_flat .standard sampleTemplate sampleData sampleData_wellFormed).2 [] "rows"
      sampleBody [.ref "name", .ref "this", .ref "index"] parse_sampleTemplate).trans rfl⟩

end SpecDraft.Template
