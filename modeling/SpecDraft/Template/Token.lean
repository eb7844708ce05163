import SpecDraft.Text.Basic

/-!
# Tokens of a template

A template is text with tags in double braces: variables, the openings of loops and of choices,
`else`, and the closings. What only looks like a tag is text. `Token.source` writes a token as it
stood in the template, so the sources of the tokens of a template make up the template.
-/
set_option autoImplicit false

namespace SpecDraft.Template

open Text

/-- A token of a template. The openings keep the blanks before their names. -/
inductive Token where
  | text (chars : List Char)
  | ref (name : String)
  | each (gap name : String)
  | choice (gap name : String)
  | otherwise
  | endChoice
  | endEach
  deriving DecidableEq, Repr

/-- The braces that start a tag. -/
def openBraces : String := "\x7b\x7b"

/-- The braces that end a tag. -/
def closeBraces : String := "\x7d\x7d"

/-- A text in double braces. -/
def braced (s : String) : String := openBraces ++ s ++ closeBraces

namespace Token

/-- The token as it stands in a template. -/
def source : Token → String
  | text chars => String.ofList chars
  | ref name => braced name
  | each gap name => braced ("#each" ++ gap ++ name)
  | choice gap name => braced ("#if" ++ gap ++ name)
  | otherwise => braced "else"
  | endChoice => braced "/if"
  | endEach => braced "/each"

/-- Whether the token opens, divides or closes a block. -/
def isBlockTag : Token → Bool
  | text _ | ref _ => false
  | _ => true

end Token

/-- A run of word characters, at least one, and what follows it. -/
def word? (s : List Char) : Option (String × List Char) :=
  let word := s.takeWhile isWord
  if word.isEmpty then none else some (String.ofList word, s.dropWhile isWord)

/-- A keyword, blanks and a name. -/
def opening? (keyword : String) (s : List Char) : Option (String × String × List Char) := do
  let rest ← after? keyword.toList s
  let gap := rest.takeWhile isBlank
  if gap.isEmpty then none
  else
    let (name, rest) ← word? (rest.dropWhile isBlank)
    return (String.ofList gap, name, rest)

/-- What stands between the braces of a tag, as far as it goes, and what follows it. -/
def tagContent? (s : List Char) : Option (Token × List Char) :=
  match opening? "#each" s with
  | some (gap, name, rest) => some (.each gap name, rest)
  | none =>
    match opening? "#if" s with
    | some (gap, name, rest) => some (.choice gap name, rest)
    | none =>
      match after? "/if".toList s with
      | some rest => some (.endChoice, rest)
      | none =>
        match after? "/each".toList s with
        | some rest => some (.endEach, rest)
        | none =>
          (word? s).map fun (name, rest) =>
            (if name = "else" then .otherwise else .ref name, rest)

/-- A tag at the start of a text, and what follows it. -/
def tag? (s : List Char) : Option (Token × List Char) := do
  let inner ← after? openBraces.toList s
  let (token, rest) ← tagContent? inner
  let rest ← after? closeBraces.toList rest
  return (token, rest)

/-- A character put before a list of tokens; neighbouring characters make one text. -/
def Token.consChar (c : Char) : List Token → List Token
  | .text chars :: tokens => .text (c :: chars) :: tokens
  | tokens => .text [c] :: tokens

/-- The tokens of a text. Tags are recognised from left to right. `fuel` bounds the number of
characters. -/
def tokensWithin : Nat → List Char → List Token
  | 0, _ => []
  | _, [] => []
  | fuel + 1, c :: s =>
    match tag? (c :: s) with
    | some (token, rest) => token :: tokensWithin fuel rest
    | none => Token.consChar c (tokensWithin fuel s)

/-- The tokens of a template. -/
def tokens (template : String) : List Token :=
  tokensWithin template.toList.length template.toList

/-- The blanks and tabs, and the line break, that may follow a tag that ends its line. -/
def lineEnd? (s : List Char) : Option (List Char) :=
  match s.dropWhile fun c => c = ' ' || c = '\t' with
  | '\n' :: rest => some rest
  | '\r' :: '\n' :: rest => some rest
  | _ => none

/-- A block tag that stands alone on its line, with what follows the line. -/
def standalone? (line : List Char) : Option (Token × List Char) := do
  let (token, rest) ← tag? (line.dropWhile fun c => c = ' ' || c = '\t')
  if token.isBlockTag then return (token, ← lineEnd? rest) else none

/-- The text with each line that holds nothing but one block tag cut down to that tag. The flag
tells whether a line starts here; `fuel` bounds the number of characters. -/
def trimmedWithin : Nat → Bool → List Char → List Char
  | 0, _, _ => []
  | _, _, [] => []
  | fuel + 1, lineStart, c :: s =>
    match if lineStart then standalone? (c :: s) else none with
    | some (token, rest) => token.source.toList ++ trimmedWithin fuel true rest
    | none => c :: trimmedWithin fuel (c = '\n') s

/-- The template with each line that holds nothing but one block tag cut down to that tag. -/
def trimBlockLines (template : String) : String :=
  String.ofList (trimmedWithin template.toList.length true template.toList)

end SpecDraft.Template
