import SpecDraft.Text.Basic
import SpecDraft.Json.Basic

/-!
# Blocks of a document

A document is a flat sequence of blocks. `Block.classify` decides what a single line is; which
lines belong to a code block is decided where whole documents are read.
-/
set_option autoImplicit false

namespace SpecDraft.Markdown

/-- The kind of a block, with what is particular to it. -/
inductive Block where
  | heading (level : Nat)
  | paragraph
  | item (ordered : Bool) (indent : Nat)
  | code (language : Option String)
  | quote
  | rule
  deriving DecidableEq, Repr

/-- A block: its kind, its text and the number of its first line. -/
structure Node where
  kind : Block
  text : String
  line : Nat
  deriving DecidableEq, Repr

namespace Node

/-- The level of a heading. -/
def level? (node : Node) : Option Nat :=
  match node.kind with
  | .heading level => some level
  | _ => none

/-- Whether the node is a heading. -/
def isHeading (node : Node) : Bool := node.level?.isSome

/-- Whether the node is a paragraph. -/
def isParagraph (node : Node) : Bool := node.kind = .paragraph

/-- Whether the node is a list item. -/
def isItem (node : Node) : Bool :=
  match node.kind with
  | .item .. => true
  | _ => false

/-- The node as a record. -/
def toJson (node : Node) : Json :=
  let common (kind : String) : Members :=
    [("type", .str kind), ("text", .str node.text), ("line_number", .nat node.line)]
  match node.kind with
  | .heading level => .obj (common "heading" ++ [("level", .nat level)])
  | .paragraph => .obj (common "paragraph")
  | .item ordered indent =>
    .obj (common "list-item" ++ [("ordered", .bool ordered), ("indent_level", .nat indent)])
  | .code language => .obj (common "code-block" ++ [("language", .ofText? language)])
  | .quote => .obj (common "blockquote")
  | .rule => .obj (common "horizontal-rule")

end Node

namespace Block

open Text

/-- What follows a marker: at least one blank, then a text of at least one character, which may
itself be blank. The text comes trimmed. -/
def content? (s : List Char) : Option (List Char) :=
  let text := trimLeft s
  if text.isEmpty then (if 2 ≤ s.length then some [] else none)
  else if text.length < s.length then some (trim text)
  else none

/-- A heading: one to six number signs, blanks, and a text. -/
def heading? (line : List Char) : Option (Nat × List Char) :=
  let marks := line.takeWhile (· == '#')
  if 1 ≤ marks.length ∧ marks.length ≤ 6 then
    (content? (line.drop marks.length)).map fun text => (marks.length, text)
  else none

/-- A rule: three or more of one mark and nothing else but blanks around them. -/
def isRule (line : List Char) : Bool :=
  let body := trim line
  3 ≤ body.length && ['-', '*', '_'].any fun mark => body.all (· == mark)

/-- A quote: a greater-than sign, and the text after it without leading blanks. -/
def quote? : List Char → Option (List Char)
  | '>' :: rest => some (trimLeft rest)
  | _ => none

/-- A list marker at the start of a text: a dash, an asterisk or a plus sign, or digits and a
point. The flag tells the two apart. -/
def marker? (s : List Char) : Option (Bool × List Char) :=
  match s with
  | '-' :: rest | '*' :: rest | '+' :: rest => some (false, rest)
  | _ =>
    match s.dropWhile isDigit with
    | '.' :: rest => if rest.length + 1 < s.length then some (true, rest) else none
    | _ => none

/-- A list item: blanks, a marker, blanks and a text. Two leading blanks make one level. -/
def item? (line : List Char) : Option (Bool × Nat × List Char) :=
  let body := trimLeft line
  match marker? body with
  | some (ordered, rest) =>
    (content? rest).map fun text => (ordered, (line.length - body.length) / 2, text)
  | none => none

/-- The block that a line outside code blocks makes, with its text; none for a blank line. The
first rule that applies decides, in the order heading, rule, quote, item, paragraph. -/
def classify (line : List Char) : Option (Block × List Char) :=
  match heading? line with
  | some (level, text) => some (.heading level, text)
  | none =>
    if isRule line then some (.rule, [])
    else
      match quote? line with
      | some text => some (.quote, text)
      | none =>
        match item? line with
        | some (ordered, indent, text) => some (.item ordered indent, text)
        | none =>
          let text := trim line
          if text.isEmpty then none else some (.paragraph, text)

end Block
end SpecDraft.Markdown
