import Mathlib.Data.List.Induction
import SpecDraft.Proofs.Action
import SpecDraft.Proofs.Template.Token
import SpecDraft.Template.Tree

/-!
# Nested templates

A template is accepted exactly when its blocks are well nested (`parse_spec`): every closing tag
closes the block that was opened last, every division divides a choice once, and no more blocks
are open than the limit allows. The tree of a template spells the template. Both are read off one
step of the builder: which tokens it takes (`step_ok`), which blocks are open then
(`blocks_step`), and what has been written so far (`written_step`).
-/
set_option autoImplicit false

namespace SpecDraft.Template

/-! ## Open blocks -/

/-- What is known of an open block: a loop, or a choice with or without a division. -/
inductive Opening where
  | loop
  | choice (divided : Bool)
  deriving DecidableEq, Repr

/-- The blocks that are open after a token, the innermost first. -/
def openAfter : (blocks : List Opening) → Token → List Opening
  | blocks, .text _ | blocks, .ref _ => blocks
  | blocks, .each .. => .loop :: blocks
  | blocks, .choice .. => .choice false :: blocks
  | .choice _ :: blocks, .otherwise => .choice true :: blocks
  | blocks, .otherwise => blocks
  | blocks, .endChoice | blocks, .endEach => blocks.tail

/-- The blocks that are open after some tokens of a template. -/
def openBlocks (tokens : List Token) : List Opening := tokens.foldl openAfter []

/-- Whether the blocks of a template are well nested, and at most `limit` are open at a time. -/
structure WellNested (limit : Nat) (tokens : List Token) : Prop where
  choiceClosed : ∀ before after, tokens = before ++ .endChoice :: after →
    ∃ divided rest, openBlocks before = .choice divided :: rest
  loopClosed : ∀ before after, tokens = before ++ .endEach :: after →
    ∃ rest, openBlocks before = .loop :: rest
  divided : ∀ before after, tokens = before ++ .otherwise :: after →
    ∃ rest, openBlocks before = .choice false :: rest
  closed : openBlocks tokens = []
  depth : ∀ before after, tokens = before ++ after → (openBlocks before).length ≤ limit

/-- Whether a token can be read while some blocks are open. -/
def Accepts (limit : Nat) : (blocks : List Opening) → Token → Prop
  | _, .text _ | _, .ref _ => True
  | blocks, .each .. | blocks, .choice .. => blocks.length + 1 ≤ limit
  | blocks, .otherwise => ∃ rest, blocks = .choice false :: rest
  | blocks, .endChoice => ∃ divided rest, blocks = .choice divided :: rest
  | blocks, .endEach => ∃ rest, blocks = .loop :: rest

section WellNested
variable {limit : Nat} {tokens : List Token} {blocks : List Opening} {token : Token}

theorem openBlocks_concat (tokens : List Token) (token : Token) :
    openBlocks (tokens ++ [token]) = openAfter (openBlocks tokens) token := by
  rw [openBlocks, List.foldl_append]
  rfl

/-- A token that does not open a block leaves no more of them open. -/
theorem length_openAfter_le (h : Accepts limit blocks token) (hle : blocks.length ≤ limit) :
    (openAfter blocks token).length ≤ limit := by
  cases token with
  | text | ref => exact hle
  | each | choice => exact h
  | otherwise =>
    obtain ⟨rest, rfl⟩ := h
    exact hle
  | endChoice | endEach =>
    rw [openAfter, List.length_tail]
    omega

/-- The limit is kept at every place when it is kept by every token. -/
theorem length_openBlocks_le
    (h : ∀ before token after, tokens = before ++ token :: after →
      Accepts limit (openBlocks before) token)
    (before after : List Token) (heq : tokens = before ++ after) :
    (openBlocks before).length ≤ limit := by
  induction before using List.reverseRecOn generalizing after with
  | nil => exact Nat.zero_le limit
  | append_singleton before token ih =>
    rw [List.append_assoc, List.singleton_append] at heq
    rw [openBlocks_concat]
    exact length_openAfter_le (h before token after heq) (ih _ heq)

/-- **The blocks are well nested** when each token can be read where it stands and no block is open
at the end. -/
theorem wellNested_iff : WellNested limit tokens ↔
    (∀ before token after, tokens = before ++ token :: after →
      Accepts limit (openBlocks before) token) ∧ openBlocks tokens = [] := by
  constructor
  · intro h
    refine ⟨fun before token after heq => ?_, h.closed⟩
    cases token with
    | text | ref => exact trivial
    | each | choice =>
      have hdepth := h.depth (before ++ [_]) after (by rw [List.append_assoc]; exact heq)
      rw [openBlocks_concat] at hdepth
      exact hdepth
    | otherwise => exact h.divided before after heq
    | endChoice => exact h.choiceClosed before after heq
    | endEach => exact h.loopClosed before after heq
  · rintro ⟨haccepts, hclosed⟩
    exact {
      choiceClosed := fun before after => haccepts before .endChoice after
      loopClosed := fun before after => haccepts before .endEach after
      divided := fun before after => haccepts before .otherwise after
      closed := hclosed
      depth := length_openBlocks_le haccepts }

end WellNested

/-! ## What the builder has read -/

/-- What is known of an open block of the builder. -/
def OpenBlock.shape : OpenBlock → Opening
  | loop _ => .loop
  | choice _ => .choice false
  | otherwise .. => .choice true

/-- The template text of an open block, up to the nodes that it takes now. -/
def OpenBlock.written : OpenBlock → String
  | loop name => braced ("#each " ++ name)
  | choice name => braced ("#if " ++ name)
  | otherwise name yes => braced ("#if " ++ name) ++ Node.sources yes ++ braced "else"

/-- The template text of the open blocks and of the nodes that precede them. -/
def writtenFrames : List Frame → String
  | [] => ""
  | frame :: frames =>
    writtenFrames frames ++ Node.sources frame.before.reverse ++ frame.block.written

/-- The token with one blank between the keyword and the name of an opening. -/
def Token.spaced : Token → Token
  | each _ name => each " " name
  | choice _ name => choice " " name
  | token => token

namespace Node

theorem sources_append (a b : List Node) : sources (a ++ b) = sources a ++ sources b := by
  induction a with
  | nil => rw [List.nil_append, sources, String.empty_append]
  | cons node a ih => rw [List.cons_append, sources, sources, ih, String.append_assoc]

theorem sources_concat (nodes : List Node) (node : Node) :
    sources (nodes ++ [node]) = sources nodes ++ node.source := by
  rw [sources_append, sources, sources, String.append_empty]

end Node

namespace Builder

/-- What is known of the open blocks. -/
def blocks (builder : Builder) : List Opening := builder.frames.map fun frame => frame.block.shape

/-- The template text of what has been read. -/
def written (builder : Builder) : String :=
  writtenFrames builder.frames ++ Node.sources builder.nodes.reverse

section Step
variable {limit : Nat} {builder next : Builder} {token : Token} {tokens : List Token}

theorem opened_ok {block : OpenBlock} : builder.opened limit block = .ok next ↔
    builder.blocks.length + 1 ≤ limit ∧ next = ⟨⟨block, builder.nodes⟩ :: builder.frames, []⟩ := by
  unfold opened blocks
  rw [List.length_map]
  split
  · rename_i hlimit
    exact ⟨fun h => (by cases h), fun ⟨h, _⟩ => (by omega)⟩
  · rename_i hlimit
    exact ⟨fun h => ⟨by omega, by cases h; rfl⟩, fun ⟨_, h⟩ => (by rw [h])⟩

/-- **A token is taken** exactly when it can be read while the open blocks of the builder are. -/
theorem step_ok :
    (∃ next, builder.step limit token = .ok next) ↔ Accepts limit builder.blocks token := by
  obtain ⟨frames, nodes⟩ := builder
  cases token with
  | text | ref => exact ⟨fun _ => trivial, fun _ => ⟨_, rfl⟩⟩
  | each | choice =>
    exact ⟨fun ⟨_, h⟩ => (opened_ok.mp h).1, fun h => ⟨_, opened_ok.mpr ⟨h, rfl⟩⟩⟩
  | otherwise | endChoice | endEach =>
    cases frames with
    | nil => simp [step, divided, choiceClosed, loopClosed, Accepts, blocks]
    | cons frame frames =>
      obtain ⟨_ | _ | _, before⟩ := frame <;>
        simp [step, divided, choiceClosed, loopClosed, Accepts, blocks, OpenBlock.shape]

theorem blocks_step (h : builder.step limit token = .ok next) :
    next.blocks = openAfter builder.blocks token := by
  obtain ⟨frames, nodes⟩ := builder
  cases token with
  | text | ref =>
    cases h
    rfl
  | each | choice =>
    rw [(opened_ok.mp h).2]
    rfl
  | otherwise | endChoice | endEach =>
    cases frames with
    | nil => cases h
    | cons frame frames =>
      obtain ⟨_ | _ | _, before⟩ := frame <;> cases h <;> rfl

/-- **A step writes its token.** -/
theorem written_step (h : builder.step limit token = .ok next) :
    next.written = builder.written ++ token.spaced.source := by
  obtain ⟨frames, nodes⟩ := builder
  cases token with
  | text | ref =>
    cases h
    rw [written, push, List.reverse_cons, Node.sources_concat, ← String.append_assoc]
    rfl
  | each | choice =>
    rw [(opened_ok.mp h).2]
    rw [written, written, writtenFrames, List.reverse_nil, Node.sources, String.append_empty]
    rfl
  | otherwise | endChoice | endEach =>
    cases frames with
    | nil => cases h
    | cons frame frames =>
      obtain ⟨_ | _ | _, before⟩ := frame <;> cases h <;>
        simp only [written, writtenFrames, List.reverse_cons, List.reverse_nil, Node.sources_concat,
          Node.sources, Node.source, Node.sourceOfElse, OpenBlock.written, Token.spaced,
          Token.source, String.append_empty, String.append_assoc]

theorem step_error {failure : Failure} (h : builder.step limit token = .error failure) :
    ∃ summary, failure = .template summary none [] := by
  obtain ⟨frames, nodes⟩ := builder
  cases token with
  | text | ref => cases h
  | each | choice =>
    simp only [step, opened] at h
    split at h <;> cases h
    exact ⟨_, rfl⟩
  | otherwise | endChoice | endEach =>
    cases frames with
    | nil =>
      cases h
      exact ⟨_, rfl⟩
    | cons frame frames =>
      obtain ⟨_ | _ | _, before⟩ := frame <;> cases h <;> exact ⟨_, rfl⟩

end Step

section Run
variable {limit : Nat} {start final : Builder} {tokens : List Token} {tree : List Node}

/-- **All tokens are taken** exactly when each can be read where it stands, by induction on the
tokens. -/
theorem run_ok : (∃ final, tokens.foldlM (step limit) start = .ok final) ↔
    ∀ before token after, tokens = before ++ token :: after →
      Accepts limit (before.foldl openAfter start.blocks) token := by
  induction tokens generalizing start with
  | nil =>
    refine ⟨fun _ before token after heq => ?_, fun _ => ⟨start, rfl⟩⟩
    cases before <;> cases heq
  | cons first tokens ih =>
    simp only [List.foldlM_cons, Action.bind_ok]
    constructor
    · rintro ⟨final, next, hstep, hrest⟩ before token after heq
      -- The token is the first one, or stands where the rest is read.
      cases before with
      | nil =>
        cases heq
        exact step_ok.mp ⟨next, hstep⟩
      | cons b before =>
        cases heq
        rw [List.foldl_cons, ← blocks_step hstep]
        exact ih.mp ⟨final, hrest⟩ before token after rfl
    · intro h
      obtain ⟨next, hstep⟩ := step_ok.mpr (h [] first tokens rfl)
      have hrest : ∃ final, tokens.foldlM (step limit) next = .ok final := by
        refine ih.mpr fun before token after heq => ?_
        rw [blocks_step hstep]
        exact h (first :: before) token after (by rw [heq, List.cons_append])
      obtain ⟨final, hfinal⟩ := hrest
      exact ⟨final, next, hstep, hfinal⟩

theorem blocks_run (h : tokens.foldlM (step limit) start = .ok final) :
    final.blocks = tokens.foldl openAfter start.blocks := by
  induction tokens generalizing start with
  | nil =>
    cases h
    rfl
  | cons first tokens ih =>
    rw [List.foldlM_cons] at h
    obtain ⟨next, hstep, hrest⟩ := Action.bind_ok.mp h
    rw [ih hrest, blocks_step hstep, List.foldl_cons]

theorem written_run (h : tokens.foldlM (step limit) start = .ok final) :
    final.written = start.written ++
      String.join (tokens.map fun token => token.spaced.source) := by
  induction tokens generalizing start with
  | nil =>
    cases h
    rw [List.map_nil, String.join_nil, String.append_empty]
  | cons first tokens ih =>
    rw [List.foldlM_cons] at h
    obtain ⟨next, hstep, hrest⟩ := Action.bind_ok.mp h
    rw [ih hrest, written_step hstep, List.map_cons, String.join_cons, String.append_assoc]

theorem run_error {failure : Failure}
    (h : tokens.foldlM (step limit) start = .error failure) :
    ∃ summary, failure = .template summary none [] := by
  induction tokens generalizing start with
  | nil => cases h
  | cons first tokens ih =>
    rw [List.foldlM_cons] at h
    cases hstep : start.step limit first with
    | error other =>
      rw [hstep] at h
      cases h
      exact step_error hstep
    | ok next =>
      rw [hstep] at h
      exact ih h

theorem finish_ok : final.finish = .ok tree ↔
    final.blocks = [] ∧ tree = final.nodes.reverse := by
  obtain ⟨_ | ⟨frame, frames⟩, nodes⟩ := final
  · exact ⟨fun h => ⟨rfl, (Except.ok.inj h).symm⟩, fun ⟨_, h⟩ => congrArg Except.ok h.symm⟩
  · exact ⟨fun h => (by cases h), fun ⟨h, _⟩ => (by cases h)⟩

theorem finish_error {failure : Failure} (h : final.finish = .error failure) :
    ∃ summary, failure = .template summary none [] := by
  obtain ⟨_ | ⟨frame, frames⟩, nodes⟩ := final
  · cases h
  · cases h
    exact ⟨_, rfl⟩

end Run

end Builder

/-! ## Trees -/

section Tree
variable {limit : Nat} {tokens : List Token} {tree : List Node}

theorem treeOf_ok : treeOf limit tokens = .ok tree ↔
    ∃ final, tokens.foldlM (Builder.step limit) .empty = .ok final ∧ final.blocks = [] ∧
      tree = final.nodes.reverse := by
  rw [treeOf, Action.bind_ok]
  simp only [Builder.finish_ok]

theorem treeOf_iff : (∃ tree, treeOf limit tokens = .ok tree) ↔ WellNested limit tokens := by
  rw [wellNested_iff]
  simp only [treeOf_ok]
  constructor
  · rintro ⟨tree, final, hrun, hclosed, -⟩
    exact ⟨Builder.run_ok.mp ⟨final, hrun⟩, (Builder.blocks_run hrun).symm.trans hclosed⟩
  · rintro ⟨haccepts, hclosed⟩
    obtain ⟨final, hrun⟩ := Builder.run_ok.mpr (show ∀ before token after,
      tokens = before ++ token :: after →
        Accepts limit (before.foldl openAfter Builder.empty.blocks) token from haccepts)
    exact ⟨_, final, hrun, (Builder.blocks_run hrun).trans hclosed, rfl⟩

theorem treeOf_error {failure : Failure} (h : treeOf limit tokens = .error failure) :
    ∃ summary, failure = .template summary none [] := by
  unfold treeOf at h
  cases hrun : tokens.foldlM (Builder.step limit) .empty with
  | error other =>
    rw [hrun] at h
    cases h
    exact Builder.run_error hrun
  | ok final =>
    rw [hrun] at h
    exact Builder.finish_error h

theorem sources_treeOf (h : treeOf limit tokens = .ok tree) :
    Node.sources tree = String.join (tokens.map fun token => token.spaced.source) := by
  obtain ⟨final, hrun, hclosed, rfl⟩ := treeOf_ok.mp h
  have hwritten := Builder.written_run hrun
  have hframes : final.frames = [] := List.map_eq_nil_iff.mp hclosed
  rw [Builder.written, hframes, writtenFrames, String.empty_append] at hwritten
  rw [hwritten]
  exact String.empty_append

end Tree

/-- **The templates that are accepted.** The tokens of a template make it up and are read from left
to right. A template is read exactly when they are well nested; otherwise the failure is one of
templates. Writing the tree gives back the template, but for the blanks between a keyword and its
name. -/
theorem parse_spec (limit : Nat) (template : String) :
    String.join ((tokens template).map Token.source) = template ∧ Lexical (tokens template) ∧
    ((∃ tree, parse limit false template = .ok tree) ↔ WellNested limit (tokens template)) ∧
    (∀ failure, parse limit false template = .error failure →
      ∃ summary, failure = .template summary none []) ∧
    ∀ tree, parse limit false template = .ok tree →
      Node.sources tree =
        String.join ((tokens template).map fun token => token.spaced.source) := by
  refine ⟨?_, lexical_tokens template, treeOf_iff, fun _ => treeOf_error, fun _ => sources_treeOf⟩
  rw [← String.toList_inj, String.toList_join, List.flatMap_map]
  exact spelling_tokens template

end SpecDraft.Template
