import SpecDraft.Text.Basic

/-!
# Paths

A path is an anchor and a list of names. Reading one drops empty names and single dots; double
dots stay until the path is resolved.
-/
set_option autoImplicit false

namespace SpecDraft

/-- A path: what it starts with (nothing, one slash or two) and its names. -/
structure FilePath where
  anchor : String
  parts : List String
  deriving DecidableEq, Repr, Inhabited

namespace FilePath

/-- The names between the slashes of a text, without empty ones. -/
def names (text : List Char) : List String :=
  ((Text.split '/' text).filter (!·.isEmpty)).map String.ofList

/-- The slashes that a path starts with: exactly two are kept, any other number counts as one. -/
def anchorOf (text : List Char) : String :=
  match (text.takeWhile (· == '/')).length with
  | 0 => ""
  | 2 => "//"
  | _ => "/"

/-- Reads a path. -/
def parse (text : String) : FilePath :=
  ⟨anchorOf text.toList, (names text.toList).filter (· != ".")⟩

/-- The text of a path; a path of no names is a dot. -/
def text (path : FilePath) : String :=
  if path.anchor.isEmpty ∧ path.parts.isEmpty then "."
  else path.anchor ++ Text.join "/" path.parts

/-- Whether the path starts at the root. -/
def isAbsolute (path : FilePath) : Bool := !path.anchor.isEmpty

/-- The last name, empty for a path of no names. -/
def name (path : FilePath) : String := path.parts.getLast?.getD ""

/-- The path without its last name. -/
def parent (path : FilePath) : FilePath := { path with parts := path.parts.dropLast }

/-- The second path taken from the first; an absolute one stands for itself. -/
def append (path other : FilePath) : FilePath :=
  if other.isAbsolute then other else { path with parts := path.parts ++ other.parts }

/-- The path with the names of a text added. -/
def child (path : FilePath) (text : String) : FilePath := path.append (parse text)

/-- The last dot of a name and what follows it, unless the dot is the first or the last
character. -/
def suffixOf (name : List Char) : List Char :=
  let after := (name.reverse.takeWhile (· != '.')).reverse
  let before := name.take (name.length - after.length - 1)
  if after.isEmpty ∨ before.isEmpty ∨ after.length = name.length then [] else '.' :: after

/-- The extension of the last name, with its dot. -/
def suffix (path : FilePath) : String := String.ofList (suffixOf path.name.toList)

/-- The names of a path from the root, with double dots taken back. -/
def collapse (rooted : Bool) (parts : List String) : List String :=
  parts.foldl (fun kept part =>
    if part = "" ∨ part = "." then kept
    else if part != ".." ∨ (!rooted ∧ kept.isEmpty) ∨ kept.getLast? = some ".." then
      kept ++ [part]
    else kept.dropLast) []

/-- The shortest text that names the same place, read from the text alone. -/
def normalText (text : String) : String :=
  let anchor := anchorOf text.toList
  let parts := collapse (!anchor.isEmpty) (names text.toList)
  let normal := anchor ++ Text.join "/" parts
  if normal.isEmpty then "." else normal

/-- The path from the root that a path names when it is taken from `base`. -/
def resolve (base path : FilePath) : FilePath :=
  ⟨"/", collapse true (base.append path).parts⟩

end FilePath
end SpecDraft
