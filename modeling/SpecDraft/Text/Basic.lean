import SpecDraft.Text.Case

/-!
# Cutting and searching text

Trimming, splitting, joining and searching over lists of characters, and the same for strings.
-/
set_option autoImplicit false

namespace SpecDraft.Text

/-- The text without leading blanks. -/
def trimLeft (s : List Char) : List Char := s.dropWhile isBlank

/-- The text without trailing characters of a class. -/
def dropRight (p : Char → Bool) (s : List Char) : List Char := (s.reverse.dropWhile p).reverse

/-- The text without trailing blanks. -/
def trimRight (s : List Char) : List Char := dropRight isBlank s

/-- The text without blanks at either end. -/
def trim (s : List Char) : List Char := trimRight (trimLeft s)

/-- The string without blanks at either end. -/
def strip (s : String) : String := String.ofList (trim s.toList)

/-- Whether a text holds nothing but blanks. -/
def allBlank (s : List Char) : Bool := s.all isBlank

/-- The pieces between the occurrences of a separator; there is always one more piece than
separators. -/
def split (separator : Char) : List Char → List (List Char)
  | [] => [[]]
  | c :: rest =>
    if c = separator then [] :: split separator rest
    else
      match split separator rest with
      | [] => [[c]]
      | piece :: pieces => (c :: piece) :: pieces

/-- The lines of a text: its pieces between line feeds. -/
def lines (s : List Char) : List (List Char) := split '\n' s

/-- Texts joined by a separator. -/
def join (separator : String) (parts : List String) : String := String.intercalate separator parts

/-- What follows `pattern` at the start of the text, if the text starts with it. -/
def after? : (pattern text : List Char) → Option (List Char)
  | [], text => some text
  | _ :: _, [] => none
  | p :: pattern, c :: text => if p = c then after? pattern text else none

/-- What follows `pattern` at the start of the text, up to letter case. -/
def afterFold? : (pattern text : List Char) → Option (List Char)
  | [], text => some text
  | _ :: _, [] => none
  | p :: pattern, c :: text => if fold p = fold c then afterFold? pattern text else none

/-- What follows the first of several patterns that starts the text, up to letter case. -/
def afterFoldAny? (patterns : List String) (text : List Char) : Option (List Char) :=
  patterns.findSome? fun pattern => afterFold? pattern.toList text

/-- Whether `pattern` occurs in the text. -/
def occurs (pattern : List Char) : List Char → Bool
  | [] => pattern.isEmpty
  | c :: text => pattern.isPrefixOf (c :: text) || occurs pattern text

/-- Whether `pattern` occurs in the string. -/
def contains (s pattern : String) : Bool := occurs pattern.toList s.toList

/-- The first result of a recogniser along the text, tried at every position from left to
right, the end included. The text before that position comes with it. -/
def firstFrom {α : Type} (recognise : List Char → Option α) :
    List Char → Option (List Char × α)
  | [] => (recognise []).map fun a => ([], a)
  | c :: text =>
    match recognise (c :: text) with
    | some a => some ([], a)
    | none => (firstFrom recognise text).map fun (before, a) => (c :: before, a)

/-- The text before and after the first occurrence of `pattern`, up to letter case. -/
def cutFold? (pattern : String) (text : List Char) : Option (List Char × List Char) :=
  firstFrom (afterFold? pattern.toList) text

/-- The comma-separated items of a text, trimmed, without the blank ones. -/
def commaItems (s : List Char) : List String :=
  ((split ',' s).map trim).filter (!·.isEmpty) |>.map String.ofList

/-- Every line break, of any convention, as a line feed. -/
def unifyNewlines : List Char → List Char
  | [] => []
  | '\r' :: '\n' :: rest => '\n' :: unifyNewlines rest
  | c :: rest => (if c = '\r' then '\n' else c) :: unifyNewlines rest

/-- The first `n` characters of a string. -/
def take (n : Nat) (s : String) : String := String.ofList (s.toList.take n)

end SpecDraft.Text
