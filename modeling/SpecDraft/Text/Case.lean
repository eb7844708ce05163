import SpecDraft.Text.Class
import SpecDraft.Text.CaseTable

/-!
# Letter case

Full lower and upper case of a text, and the case-insensitive classes of single characters.
-/
set_option autoImplicit false

namespace SpecDraft.Text

namespace CaseRun

/-- Whether the run maps `n`. -/
def maps (run : CaseRun) (n : Nat) : Bool :=
  run.first ≤ n && n ≤ run.last && (n - run.first) % run.step == 0

end CaseRun

/-- The image of a character under the first run that maps it, or the character itself. -/
def mapCase (runs : List CaseRun) (c : Char) : Char :=
  match runs.find? (·.maps c.toNat) with
  | some run => Char.ofNat (c.toNat + run.shift).toNat
  | none => c

/-- The lower-case form of one character; an ASCII letter moves by 32. -/
def lowerChar (c : Char) : Char :=
  if c.toNat < 128 then
    if 65 ≤ c.toNat ∧ c.toNat ≤ 90 then Char.ofNat (c.toNat + 32) else c
  else mapCase lowerRuns c

/-- The character that stands for every character that differs from `c` in case only. -/
def fold (c : Char) : Char :=
  let low := lowerChar c
  if low.toNat < 128 then low
  else
    match foldExceptions.lookup low.toNat with
    | some n => Char.ofNat n
    | none => low

/-- Whether a character counts as a cased letter. -/
def isCased (c : Char) : Bool := inRanges casedRanges c.toNat

/-- Whether a look for cased letters skips a character. -/
def isCaseIgnorable (c : Char) : Bool := inRanges caseIgnorableRanges c.toNat

/-- Whether the first character that is not skipped is a cased letter. -/
def casedAhead : List Char → Bool
  | [] => false
  | c :: rest => if isCaseIgnorable c then casedAhead rest else isCased c

/-- Lower case of a text. `casedBefore` says whether the last character that is not skipped was
a cased letter: a capital sigma that ends a word has a form of its own. -/
def lowerFrom (casedBefore : Bool) : List Char → List Char
  | [] => []
  | c :: rest =>
    let next := if isCaseIgnorable c then casedBefore else isCased c
    if c = 'Σ' then
      (if casedBefore && !casedAhead rest then 'ς' else 'σ') :: lowerFrom next rest
    else if c = 'İ' then 'i' :: '\u0307' :: lowerFrom next rest
    else lowerChar c :: lowerFrom next rest

/-- Full lower case. -/
def lower (s : String) : String := String.ofList (lowerFrom false s.toList)

/-- The upper-case form of one character, which may be several characters long. -/
def upperChar (c : Char) : List Char :=
  match upperExpansions.lookup c.toNat with
  | some codes => codes.map Char.ofNat
  | none => [mapCase upperRuns c]

/-- Full upper case. -/
def upper (s : String) : String := String.ofList (s.toList.flatMap upperChar)

end SpecDraft.Text
