import SpecDraft.Template.Tree

/-!
# Template trees without their texts

The texts of a template have no say in how its blocks are nested: its tags alone build its tree
without the texts (`outline_treeOf`).
-/
set_option autoImplicit false

namespace SpecDraft.Template

/-- The tags of a template, without the texts between them. -/
def tagsOf (tokens : List Token) : List Token :=
  tokens.filter fun | .text _ => false | _ => true

theorem tagsOf_cons {token : Token} (h : ∀ chars, token ≠ .text chars) (a : List Token) :
    tagsOf (token :: a) = token :: tagsOf a := by
  cases token with
  | text chars => exact absurd rfl (h chars)
  | _ => rfl

namespace Node

mutual

/-- What is left of a node without its texts. -/
def outline : Node → List Node
  | text _ => []
  | ref name => [ref name]
  | choice name yes no => [choice name (outlineOf yes) (outlineOfElse no)]
  | loop name body => [loop name (outlineOf body)]

/-- The blocks and the variables of nodes, without their texts. -/
def outlineOf : List Node → List Node
  | [] => []
  | node :: nodes => node.outline ++ outlineOf nodes

/-- The second branch of a choice without its texts. -/
def outlineOfElse : Option (List Node) → Option (List Node)
  | none => none
  | some nodes => some (outlineOf nodes)

end

theorem outlineOf_append (a b : List Node) : outlineOf (a ++ b) = outlineOf a ++ outlineOf b := by
  induction a with
  | nil => rfl
  | cons node a ih => rw [List.cons_append, outlineOf, outlineOf, ih, List.append_assoc]

end Node

/-- An open block without its texts. -/
def OpenBlock.outline : OpenBlock → OpenBlock
  | loop name => loop name
  | choice name => choice name
  | otherwise name yes => otherwise name (Node.outlineOf yes)

/-- An open block and the nodes that precede it, without their texts. -/
def Frame.outline (frame : Frame) : Frame :=
  ⟨frame.block.outline, (Node.outlineOf frame.before.reverse).reverse⟩

namespace Builder

/-- A tree under construction without its texts. -/
def outline (builder : Builder) : Builder :=
  ⟨builder.frames.map Frame.outline, (Node.outlineOf builder.nodes.reverse).reverse⟩

section Outline
variable {limit : Int} {builder : Builder} {token : Token}

theorem outline_push (builder : Builder) (node : Node) :
    (builder.push node).outline =
      ⟨builder.outline.frames, node.outline.reverse ++ builder.outline.nodes⟩ := by
  rw [outline, push, List.reverse_cons, Node.outlineOf_append, List.reverse_append]
  simp [Node.outlineOf, outline]

/-- A tag is taken in the same way whatever texts were read before. -/
theorem step_outline (h : ∀ chars, token ≠ .text chars) :
    (builder.step limit token).map outline = builder.outline.step limit token := by
  obtain ⟨frames, nodes⟩ := builder
  cases token with
  | text chars => exact absurd rfl (h chars)
  | ref name => exact congrArg Except.ok (outline_push _ _)
  | each | choice =>
    simp only [step, opened, outline, List.length_map]
    split <;> rfl
  | otherwise | endChoice | endEach =>
    cases frames with
    | nil => rfl
    | cons frame frames =>
      obtain ⟨_ | _ | _, before⟩ := frame <;>
        simp [step, divided, choiceClosed, loopClosed, outline, Frame.outline, OpenBlock.outline,
          Except.map, Node.outlineOf, Node.outlineOf_append, Node.outline, Node.outlineOfElse]

/-- The tags alone build the tree without its texts, by induction on the tokens. -/
theorem outline_run (a : List Token) (builder : Builder) :
    (a.foldlM (step limit) builder).map outline =
      (tagsOf a).foldlM (step limit) builder.outline := by
  induction a generalizing builder with
  | nil => rfl
  | cons token a ih =>
    by_cases htext : ∃ chars, token = .text chars
    · obtain ⟨chars, rfl⟩ := htext
      refine (ih (builder.push (.text (String.ofList chars)))).trans ?_
      rw [outline_push]
      rfl
    · have htoken : ∀ chars, token ≠ .text chars := fun chars h => htext ⟨chars, h⟩
      have hstep : (builder.step limit token).map outline = builder.outline.step limit token :=
        step_outline htoken
      rw [tagsOf_cons htoken, List.foldlM_cons, List.foldlM_cons, ← hstep]
      cases builder.step limit token with
      | error failure => rfl
      | ok next => exact ih next

theorem outline_finish (builder : Builder) :
    builder.finish.map Node.outlineOf = builder.outline.finish := by
  obtain ⟨frames, nodes⟩ := builder
  cases frames with
  | nil => simp [finish, outline, Except.map]
  | cons frame frames =>
    obtain ⟨_ | _ | _, before⟩ := frame <;> rfl

end Outline
end Builder

/-- **The texts of a template have no say** in whether it is read, in which failure it is refused
with, and in the blocks and variables of its tree. -/
theorem outline_treeOf (limit : Int) (a : List Token) :
    (treeOf limit a).map Node.outlineOf = treeOf limit (tagsOf a) := by
  have hrun : (a.foldlM (Builder.step limit) .empty).map Builder.outline =
      (tagsOf a).foldlM (Builder.step limit) .empty := Builder.outline_run a .empty
  rw [treeOf, treeOf, ← hrun]
  cases a.foldlM (Builder.step limit) .empty with
  | error failure => rfl
  | ok final => exact Builder.outline_finish final

end SpecDraft.Template
