import SpecDraft.Proofs.Template.Resolution

/-!
# The output limit

The limit on the size of a rendering is checked at each piece that is written, inside of all the
loops and choices around it. It makes no difference to a rendering but whether there is one
(`populate_eq_measured`): rendering with a limit is rendering without one (`populateWhole`) and
measuring the text afterwards. A template that cannot be read fails with a failure of its own
(`ReadFailure`), which no limit changes.
-/
set_option autoImplicit false

namespace SpecDraft.Template

/-! ## Rendering without a limit -/

namespace Node

mutual

/-- The text of a node, whatever its size. -/
def whole (scopes : Scopes) : Node → String
  | text chars => chars
  | ref name => variableText scopes name
  | choice name yes no =>
    if condition scopes name then wholeOf scopes yes else wholeOfElse scopes no
  | loop name body =>
    String.join ((loopItems scopes name).zipIdx.map fun (item, index) =>
      wholeOf (itemScope item index :: scopes) body)

/-- The text of nodes, one after the other. -/
def wholeOf (scopes : Scopes) : List Node → String
  | [] => ""
  | node :: nodes => node.whole scopes ++ wholeOf scopes nodes

/-- The text of the second branch of a choice, if there is one. -/
def wholeOfElse (scopes : Scopes) : Option (List Node) → String
  | none => ""
  | some nodes => wholeOf scopes nodes

end

end Node

/-- The template rendered against data, whatever the size of the text. -/
def populateWhole (maxDepth : Int) (trim : Bool) (template : String) (data : Members) :
    Outcome String := do
  let tree ← parse maxDepth trim template
  return Node.wholeOf [data] tree

/-- A text that is refused when it is larger than a limit. -/
def measured (limit : Nat) (text : String) : Outcome String :=
  if text.length ≤ limit then .ok text else .error (.renderingTooLarge limit)

section Whole
variable {data : Members} {limit : Nat}

/-- Pieces made of several things in turn, put together. -/
theorem join_flatMap {α : Type} (items : List α) (pieces : α → List String) :
    String.join (items.flatMap pieces) =
      String.join (items.map fun item => String.join (pieces item)) := by
  induction items with
  | nil => rfl
  | cons item items ih =>
    rw [List.flatMap_cons, String.join_append, ih, List.map_cons, String.join_cons]

mutual

/-- **The text of a node** is made of the pieces that its rendering comes to. -/
theorem join_visits (node : Node) (items : Items) :
    String.join ((node.visits data items).map (Piece.written data)) =
      node.whole (scopesAt data items) := by
  cases node with
  | text chars => simp [Node.visits, Node.whole, Piece.written]
  | ref name => simp [Node.visits, Node.whole, Piece.written]
  | choice name yes no =>
    rw [Node.visits, Node.whole]
    split
    · exact join_visitsOf yes items
    · exact join_visitsOfElse no items
  | loop name body =>
    rw [Node.visits, Node.whole, List.map_flatMap, join_flatMap]
    refine congrArg String.join (List.map_congr_left fun pair _ => ?_)
    exact join_visitsOf body (pair :: items)

theorem join_visitsOf (nodes : List Node) (items : Items) :
    String.join ((Node.visitsOf data items nodes).map (Piece.written data)) =
      Node.wholeOf (scopesAt data items) nodes := by
  cases nodes with
  | nil => rfl
  | cons node nodes =>
    rw [Node.visitsOf, Node.wholeOf, List.map_append, String.join_append, join_visits node items,
      join_visitsOf nodes items]

theorem join_visitsOfElse (no : Option (List Node)) (items : Items) :
    String.join ((Node.visitsOfElse data items no).map (Piece.written data)) =
      Node.wholeOfElse (scopesAt data items) no := by
  cases no with
  | none => rfl
  | some nodes => exact join_visitsOf nodes items

end

/-- Pieces are within the limit exactly when the text they make is: without a piece there is no
text. -/
theorem limited_eq_measured (pieces : List String) :
    limited limit pieces = measured limit (String.join pieces) := by
  rw [limited, measured, String.length_join]
  refine if_congr ⟨?_, fun h => .inr (Int.ofNat_le.mpr h)⟩ rfl rfl
  rintro (rfl | h)
  · exact Nat.zero_le limit
  · exact Int.ofNat_le.mp h

/-- **Rendering with a limit** is rendering without one and measuring the text afterwards. -/
theorem populate_eq_measured (maxDepth : Int) (limit : Nat) (trim : Bool) (template : String)
    (data : Members) : populate ⟨maxDepth, limit, trim⟩ template data =
      populateWhole maxDepth trim template data >>= measured limit := by
  cases hparse : parse maxDepth trim template with
  | error failure => simp only [populate, populateWhole, hparse]; rfl
  | ok tree =>
    rw [populate_visits hparse, limited_eq_measured, join_visitsOf, populateWhole, hparse]
    rfl

theorem measured_ok {text whole : String} :
    measured limit whole = .ok text ↔ whole.length ≤ limit ∧ whole = text := by
  rw [measured]
  split <;> simp_all

theorem measured_error {whole : String} {failure : Failure}
    (h : measured limit whole = .error failure) : failure = .renderingTooLarge limit := by
  rw [measured] at h
  split at h <;> cases h
  rfl

end Whole

/-! ## Templates that cannot be read -/

/-- The failures of reading a template. -/
inductive ReadFailure (limit : Int) : Failure → Prop where
  | tooDeep : ReadFailure limit (.templateTooDeep limit)
  | unexpectedTag (tag : String) : ReadFailure limit (.unexpectedTag tag)
  | unexpectedElse : ReadFailure limit .unexpectedElse
  | duplicateElse (name : String) : ReadFailure limit (.duplicateElse name)
  | unclosed (opening : String) : ReadFailure limit (.unclosedBlock opening)

section ReadFailure
variable {limit : Int} {builder : Builder} {tokens : List Token} {failure : Failure}

theorem readFailure_of_step {token : Token} (h : builder.step limit token = .error failure) :
    ReadFailure limit failure := by
  obtain ⟨frames, nodes⟩ := builder
  cases token with
  | text | ref => cases h
  | each | choice =>
    simp only [Builder.step, Builder.opened] at h
    split at h
    · cases h
      exact .tooDeep
    · cases h
  | otherwise =>
    rcases frames with _ | ⟨⟨_ | _ | _, before⟩, frames⟩ <;> cases h
    · exact .unexpectedElse
    · exact .unexpectedElse
    · exact .duplicateElse _
  | endChoice | endEach =>
    rcases frames with _ | ⟨⟨_ | _ | _, before⟩, frames⟩ <;> cases h <;> exact .unexpectedTag _

theorem readFailure_of_run (h : tokens.foldlM (Builder.step limit) builder = .error failure) :
    ReadFailure limit failure := by
  induction tokens generalizing builder with
  | nil => cases h
  | cons token tokens ih =>
    rw [List.foldlM_cons] at h
    rcases Action.bind_error.mp h with hstep | ⟨next, -, hrest⟩
    · exact readFailure_of_step hstep
    · exact ih hrest

/-- A template that cannot be read fails in one of these ways. -/
theorem readFailure_of_parse {trim : Bool} {template : String}
    (h : parse limit trim template = .error failure) : ReadFailure limit failure := by
  rcases Action.bind_error.mp h with hrun | ⟨⟨frames, nodes⟩, -, hfinish⟩
  · exact readFailure_of_run hrun
  · cases frames with
    | nil => cases hfinish
    | cons frame frames =>
      cases hfinish
      exact .unclosed _

/-- No failure of reading is about the size: the messages start with different letters. -/
theorem ReadFailure.ne_renderingTooLarge (h : ReadFailure limit failure) (size : Int) :
    failure ≠ .renderingTooLarge size := by
  intro heq
  cases h <;>
  · have hstart := congrArg (·.toList.head?) (Failure.template.inj heq).1
    simp at hstart

end ReadFailure

/-- **The output limit never alters a rendering.** With a limit, a template renders to a text
exactly when it renders to it without one and the text is within the limit; it is refused for its
size when the text is larger; and any other failure is the one without a limit. The rendering
without a limit is the one under every limit that is large enough. -/
theorem populate_limit (maxDepth : Int) (limit : Nat) (trim : Bool) (template : String)
    (data : Members) :
    (∀ text, populate ⟨maxDepth, limit, trim⟩ template data = .ok text ↔
      populateWhole maxDepth trim template data = .ok text ∧ text.length ≤ limit) ∧
    (∀ text, populateWhole maxDepth trim template data = .ok text → limit < text.length →
      populate ⟨maxDepth, limit, trim⟩ template data = .error (.renderingTooLarge limit)) ∧
    (∀ failure, populateWhole maxDepth trim template data = .error failure ↔
      populate ⟨maxDepth, limit, trim⟩ template data = .error failure ∧
        failure ≠ .renderingTooLarge limit) ∧
    ∃ bound : Nat, ∀ large : Nat, bound ≤ large →
      populate ⟨maxDepth, large, trim⟩ template data =
        populateWhole maxDepth trim template data := by
  simp only [populate_eq_measured]
  cases hwhole : populateWhole maxDepth trim template data with
  | error failure =>
    refine ⟨fun text => ?_, fun text h => ?_, fun other => ?_, 0, fun large _ => rfl⟩
    · exact ⟨fun h => (by cases h), fun h => (by cases h.1)⟩
    · cases h
    · refine ⟨fun h => ⟨h, ?_⟩, And.left⟩
      cases h
      rcases Action.bind_error.mp hwhole with hparse | ⟨tree, -, hpure⟩
      · exact (readFailure_of_parse hparse).ne_renderingTooLarge limit
      · cases hpure
  | ok whole =>
    refine ⟨fun text => ?_, fun text h hlarge => ?_, fun failure => ?_, whole.length,
      fun large hlarge => if_pos hlarge⟩
    · constructor
      · intro h
        obtain ⟨hfits, rfl⟩ := measured_ok.mp h
        exact ⟨rfl, hfits⟩
      · rintro ⟨⟨⟩, hfits⟩
        exact measured_ok.mpr ⟨hfits, rfl⟩
    · cases h
      exact if_neg (Nat.not_le.mpr hlarge)
    · refine ⟨fun h => (by cases h), ?_⟩
      rintro ⟨hmeasured, hne⟩
      exact absurd (measured_error hmeasured) hne

end SpecDraft.Template
