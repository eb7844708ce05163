import SpecDraft.Markdown.Node
import SpecDraft.Failure

/-!
# Reading a document

A document is read line by line. A line that starts with three backticks opens a code block or
closes the open one; everything between the two is the text of the block, and every other line
is classified on its own.
-/
set_option autoImplicit false

namespace SpecDraft

/-- A code block was opened at a line and never closed. -/
def Failure.unclosedFence (line : Nat) : Failure := .parse "Unclosed code block" (some line)

namespace Markdown

open Text

/-- The mark of a fence line. -/
def fenceMark : List Char := ['\x60', '\x60', '\x60']

/-- An open code block: the line and the language of its fence, and its lines so far, the last
one first. -/
structure Fence where
  line : Nat
  language : Option String
  body : List (List Char)

namespace Fence

/-- The code block that a fence line opens, given what follows its mark. -/
def opened (line : Nat) (info : List Char) : Fence :=
  let language := trim info
  ⟨line, if language.isEmpty then none else some (String.ofList language), []⟩

/-- The node of a closed code block. -/
def node (fence : Fence) : Node :=
  ⟨.code fence.language, join "\n" (fence.body.reverse.map String.ofList), fence.line⟩

end Fence

/-- The node that a line outside code blocks makes. -/
def lineNode? (number : Nat) (line : List Char) : Option Node :=
  (Block.classify line).map fun (kind, text) => ⟨kind, String.ofList text, number⟩

/-- The nodes of the lines from the given number on, while `fence` may be open. -/
def nodesFrom : Nat → Option Fence → List (List Char) → Outcome (List Node)
  | _, none, [] => .ok []
  | _, some fence, [] => .error (.unclosedFence fence.line)
  | number, none, line :: rest =>
    match after? fenceMark line with
    | some info => nodesFrom (number + 1) (some (.opened number info)) rest
    | none => do
      let nodes ← nodesFrom (number + 1) none rest
      return (lineNode? number line).toList ++ nodes
  | number, some fence, line :: rest =>
    match after? fenceMark line with
    | some _ => do
      let nodes ← nodesFrom (number + 1) none rest
      return fence.node :: nodes
    | none => nodesFrom (number + 1) (some { fence with body := line :: fence.body }) rest

/-- The lines of a content, each without its trailing carriage returns. -/
def contentLines (content : String) : List (List Char) :=
  (lines content.toList).map (dropRight (· == '\r'))

/-- The nodes of a document. -/
def parse (content : String) : Outcome (List Node) := nodesFrom 1 none (contentLines content)

end Markdown
end SpecDraft
