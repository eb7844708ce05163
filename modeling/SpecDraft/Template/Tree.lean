import SpecDraft.Template.Token
import SpecDraft.Failure

/-!
# Template trees

A template is read into a tree in one pass over its tokens. `Builder` holds the blocks that are
still open, the innermost first, and the nodes of the innermost one, the latest first; `step`
takes one token. Writing a tree gives back the template it was read from, with one blank between
a keyword and its name.
-/
set_option autoImplicit false

namespace SpecDraft

/-- A template that opens more blocks within one another than the limit allows. -/
def Failure.templateTooDeep (limit : Int) : Failure :=
  .template ("Template nesting exceeds maximum depth of " ++ toString limit) none []

/-- A tag where no block can take it. -/
def Failure.unexpectedTag (tag : String) : Failure :=
  .template ("Unexpected " ++ Template.braced tag) none []

/-- A division outside of a choice. -/
def Failure.unexpectedElse : Failure :=
  .template ("Unexpected " ++ Template.braced "else" ++ " outside of " ++ Template.braced "#if")
    none []

/-- A second division in a choice. -/
def Failure.duplicateElse (name : String) : Failure :=
  .template ("Duplicate " ++ Template.braced "else" ++ " in " ++ Template.braced ("#if " ++ name))
    none []

/-- A block that is never closed. -/
def Failure.unclosedBlock (opening : String) : Failure :=
  .template ("Unclosed " ++ Template.braced opening) none []

namespace Template

/-- A node of a template tree. -/
inductive Node where
  | text (chars : String)
  | ref (name : String)
  | choice (name : String) (yes : List Node) (no : Option (List Node))
  | loop (name : String) (body : List Node)
  deriving Repr

namespace Node

mutual

/-- The template text of a node. -/
def source : Node → String
  | text chars => chars
  | ref name => braced name
  | choice name yes no =>
    braced ("#if " ++ name) ++ sources yes ++ sourceOfElse no ++ braced "/if"
  | loop name body => braced ("#each " ++ name) ++ sources body ++ braced "/each"

/-- The template text of a list of nodes. -/
def sources : List Node → String
  | [] => ""
  | node :: nodes => node.source ++ sources nodes

/-- The template text of the second branch of a choice. -/
def sourceOfElse : Option (List Node) → String
  | none => ""
  | some nodes => braced "else" ++ sources nodes

end

mutual

/-- The node as a record. -/
def toJson : Node → Json
  | text chars => .obj [("text", .str chars)]
  | ref name => .obj [("var", .str name), ("raw", .str (braced name))]
  | choice name yes no =>
    .obj [("if", .str name), ("then", .arr (toJsons yes)), ("else", elseToJson no)]
  | loop name body => .obj [("each", .str name), ("body", .arr (toJsons body))]

/-- The records of a list of nodes. -/
def toJsons : List Node → List Json
  | [] => []
  | node :: nodes => node.toJson :: toJsons nodes

/-- The records of the second branch of a choice, null when there is none. -/
def elseToJson : Option (List Node) → Json
  | none => .null
  | some nodes => .arr (toJsons nodes)

end

end Node

/-- A block that is open: a loop, a choice in its first branch, or a choice in its second branch
with the nodes of the first. -/
inductive OpenBlock where
  | loop (name : String)
  | choice (name : String)
  | otherwise (name : String) (yes : List Node)

namespace OpenBlock

/-- The opening of a block, without its braces. -/
def opening : OpenBlock → String
  | loop name => "#each " ++ name
  | choice name | otherwise name _ => "#if " ++ name

end OpenBlock

/-- An open block and the nodes that precede it, the latest first. -/
structure Frame where
  block : OpenBlock
  before : List Node

/-- A tree under construction: the open blocks, the innermost first, and the nodes of the
innermost one, the latest first. -/
structure Builder where
  frames : List Frame
  nodes : List Node

namespace Builder

/-- Nothing read yet. -/
def empty : Builder := ⟨[], []⟩

/-- A node added to the innermost block. -/
def push (builder : Builder) (node : Node) : Builder :=
  { builder with nodes := node :: builder.nodes }

/-- A block opened inside the innermost one. -/
def opened (limit : Int) (builder : Builder) (block : OpenBlock) : Outcome Builder :=
  if limit < builder.frames.length + 1 then .error (.templateTooDeep limit)
  else .ok ⟨⟨block, builder.nodes⟩ :: builder.frames, []⟩

/-- The innermost choice divided. -/
def divided (builder : Builder) : Outcome Builder :=
  match builder.frames with
  | ⟨.choice name, before⟩ :: frames =>
    .ok ⟨⟨.otherwise name builder.nodes.reverse, before⟩ :: frames, []⟩
  | ⟨.otherwise name _, _⟩ :: _ => .error (.duplicateElse name)
  | _ => .error .unexpectedElse

/-- The innermost block closed as a choice. -/
def choiceClosed (builder : Builder) : Outcome Builder :=
  match builder.frames with
  | ⟨.choice name, before⟩ :: frames =>
    .ok ⟨frames, .choice name builder.nodes.reverse none :: before⟩
  | ⟨.otherwise name yes, before⟩ :: frames =>
    .ok ⟨frames, .choice name yes (some builder.nodes.reverse) :: before⟩
  | _ => .error (.unexpectedTag "/if")

/-- The innermost block closed as a loop. -/
def loopClosed (builder : Builder) : Outcome Builder :=
  match builder.frames with
  | ⟨.loop name, before⟩ :: frames =>
    .ok ⟨frames, .loop name builder.nodes.reverse :: before⟩
  | _ => .error (.unexpectedTag "/each")

/-- One token taken. -/
def step (limit : Int) (builder : Builder) : Token → Outcome Builder
  | .text chars => .ok (builder.push (.text (String.ofList chars)))
  | .ref name => .ok (builder.push (.ref name))
  | .each _ name => builder.opened limit (.loop name)
  | .choice _ name => builder.opened limit (.choice name)
  | .otherwise => builder.divided
  | .endChoice => builder.choiceClosed
  | .endEach => builder.loopClosed

/-- The finished tree; no block may be open. -/
def finish (builder : Builder) : Outcome (List Node) :=
  match builder.frames with
  | [] => .ok builder.nodes.reverse
  | frame :: _ => .error (.unclosedBlock frame.block.opening)

end Builder

/-- The tree of a list of tokens. At most `limit` blocks may be open at a time. -/
def treeOf (limit : Int) (tokens : List Token) : Outcome (List Node) := do
  let builder ← tokens.foldlM (Builder.step limit) .empty
  builder.finish

/-- The tree of a template. With `trim`, block tags that stand alone on their lines take the
lines with them. -/
def parse (limit : Int) (trim : Bool) (template : String) : Outcome (List Node) :=
  treeOf limit (tokens (if trim then trimBlockLines template else template))

end Template
end SpecDraft
