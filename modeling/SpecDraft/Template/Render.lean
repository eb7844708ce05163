import SpecDraft.Template.Tree
import SpecDraft.Json.Printer
import SpecDraft.Json.Display

/-!
# Rendering templates

A tree is rendered against a chain of scopes: the data of the caller, and for every loop the
fields of the current item. The output is counted in characters as it grows, and rendering stops
at the first piece that makes it too large.
-/
set_option autoImplicit false

namespace SpecDraft

/-- A rendering that would be larger than the limit allows. -/
def Failure.renderingTooLarge (limit : Int) : Failure :=
  .template ("Rendered output exceeds maximum size of " ++ toString limit ++ " characters") none []

namespace Json

mutual

/-- The text of a value in a rendered template. Whole numbers have no fraction, the items of a
list are joined by commas, and an object is written on one line. -/
def rendered : Json → String
  | .null => "None"
  | .bool true => "true"
  | .bool false => "false"
  | .int n => toString n
  | .real x =>
    match if x.isWhole then x.truncate? else none with
    | some n => toString n
    | none => x.shortest
  | .str s => s
  | .arr items => String.intercalate ", " (renderedItems items)
  | .obj members => compact (.obj members)

/-- The texts of the items of a list. -/
def renderedItems : List Json → List String
  | [] => []
  | item :: items => item.rendered :: renderedItems items

end

/-- Whether a value counts as true. Null, false, zero and the empty text do not; lists and
objects do, even empty ones. -/
def isTruthy : Json → Bool
  | .null => false
  | .bool value => value
  | .int n => n != 0
  | .real x => !x.isZero
  | .str s => s != ""
  | .arr _ | .obj _ => true

end Json

namespace Template

/-- A chain of scopes, the innermost first. -/
abbrev Scopes := List Members

namespace Scopes

/-- The value of a name in the innermost scope that has it. -/
def get? (scopes : Scopes) (name : String) : Option Json :=
  scopes.findSome? (·.get? name)

end Scopes

/-- The scope of a loop item: the fields of an object, or the item itself as `this` unless it is
null or a list; and its place as `index`. -/
def itemScope (item : Json) (index : Nat) : Members :=
  match item with
  | .obj members => Members.put members "index" (.nat index)
  | .null | .arr _ => [("index", .nat index)]
  | item => [("this", item), ("index", .nat index)]

/-- Text written so far: its size in characters and its pieces, the latest first. -/
structure Output where
  size : Nat
  pieces : List String

namespace Output

/-- Nothing written yet. -/
def empty : Output := ⟨0, []⟩

/-- A piece written, unless the output grows beyond the limit. -/
def emit (limit : Int) (piece : String) (output : Output) : Outcome Output :=
  let size := output.size + piece.length
  if limit < size then .error (.renderingTooLarge limit) else .ok ⟨size, piece :: output.pieces⟩

/-- The text written. -/
def text (output : Output) : String := String.join output.pieces.reverse

end Output

/-- The text of a variable: its value, or its tag when it has none. -/
def variableText (scopes : Scopes) (name : String) : String :=
  match scopes.get? name with
  | none | some .null => braced name
  | some value => value.rendered

/-- Whether the condition of a choice holds. -/
def condition (scopes : Scopes) (name : String) : Bool :=
  match scopes.get? name with
  | none => false
  | some value => value.isTruthy

/-- The items that a loop runs over: none unless the value is a list. -/
def loopItems (scopes : Scopes) (name : String) : List Json :=
  match scopes.get? name with
  | some (.arr items) => items
  | _ => []

mutual

/-- Renders a node. -/
def renderNode (limit : Int) (scopes : Scopes) : Node → Output → Outcome Output
  | .text chars, output => output.emit limit chars
  | .ref name, output => output.emit limit (variableText scopes name)
  | .choice name yes no, output =>
    if condition scopes name then renderNodes limit scopes yes output
    else renderElse limit scopes no output
  | .loop name body, output =>
    (loopItems scopes name).zipIdx.foldlM
      (fun output (item, index) =>
        renderNodes limit (itemScope item index :: scopes) body output) output

/-- Renders nodes one after the other. -/
def renderNodes (limit : Int) (scopes : Scopes) : List Node → Output → Outcome Output
  | [], output => .ok output
  | node :: nodes, output => do
    renderNodes limit scopes nodes (← renderNode limit scopes node output)

/-- Renders the second branch of a choice, if there is one. -/
def renderElse (limit : Int) (scopes : Scopes) : Option (List Node) → Output → Outcome Output
  | none, output => .ok output
  | some nodes, output => renderNodes limit scopes nodes output

end

/-- How templates are read and how large their renderings may be. -/
structure Options where
  maxDepth : Int
  maxOutput : Int
  trimBlocks : Bool
  deriving DecidableEq, Repr

namespace Options

/-- The limits used where none are given. -/
def standard : Options := ⟨32, 10485760, false⟩

end Options

/-- The template rendered against data. -/
def populate (options : Options) (template : String) (data : Members) : Outcome String := do
  let tree ← parse options.maxDepth options.trimBlocks template
  let output ← renderNodes options.maxOutput [data] tree .empty
  return output.text

/-- The names that only loops define. -/
def loopNames : List String := ["this", "index"]

/-- Whether the data gives a name a value other than null. -/
def hasValue (data : Members) (name : String) : Bool :=
  match data.get? name with
  | none | some .null => false
  | some _ => true

/-- The variables of a template that the data leaves without a value, each once, in order of
first use. -/
def unresolved (template : String) (data : Members) : List String :=
  (tokens template).foldl (fun missing token =>
    match token with
    | .ref name =>
      if loopNames.contains name || missing.contains name || hasValue data name then missing
      else missing ++ [name]
    | _ => missing) []

end Template
end SpecDraft
