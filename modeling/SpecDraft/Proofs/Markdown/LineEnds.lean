import SpecDraft.Proofs.Markdown.Lines

/-!
# Line ends

Carriage returns at the end of a line are taken away before anything else is done with it. To put one
before every line feed puts one at the end of every line but the last (`lines_carriageReturned`), so
the lines that are read are the same (`contentLines_carriageReturned`), and so is what the document
says (`parse_carriageReturned`).
-/
set_option autoImplicit false

namespace SpecDraft

namespace Text

/-- A text with a carriage return put before every line feed. -/
def carriageReturned (s : List Char) : List Char :=
  s.flatMap fun c => if c = '\n' then ['\r', '\n'] else [c]

/-- Lines with a carriage return put at the end of each but the last, after which no line feed
comes. -/
def returnEnded : List (List Char) → List (List Char)
  | [] => []
  | [last] => [last]
  | line :: next :: rest => (line ++ ['\r']) :: returnEnded (next :: rest)

section LineEnds
variable {c : Char} {s line : List Char} {lines : List (List Char)}

theorem carriageReturned_newline_cons (s : List Char) :
    carriageReturned ('\n' :: s) = '\r' :: '\n' :: carriageReturned s := rfl

theorem carriageReturned_cons_of_ne (hc : c ≠ '\n') (s : List Char) :
    carriageReturned (c :: s) = c :: carriageReturned s := by
  rw [carriageReturned, List.flatMap_cons, if_neg hc]
  rfl

theorem returnEnded_cons (line : List Char) (h : lines ≠ []) :
    returnEnded (line :: lines) = (line ++ ['\r']) :: returnEnded lines := by
  obtain ⟨next, rest, rfl⟩ := List.exists_cons_of_ne_nil h
  rfl

/-- A character before the first line goes before it, whether a carriage return ends it or not. -/
theorem returnEnded_cons_cons (c : Char) (line : List Char) (rest : List (List Char)) :
    ∃ first others, returnEnded (line :: rest) = first :: others ∧
      returnEnded ((c :: line) :: rest) = (c :: first) :: others := by
  cases rest with
  | nil => exact ⟨line, [], rfl, rfl⟩
  | cons next rest => exact ⟨line ++ ['\r'], returnEnded (next :: rest), rfl, rfl⟩

/-- **The lines are the same**, but for a carriage return at the end of each but the last. -/
theorem lines_carriageReturned (s : List Char) :
    Text.lines (carriageReturned s) = returnEnded (Text.lines s) := by
  induction s with
  | nil => rfl
  | cons c s ih =>
    obtain ⟨rest, hrest⟩ := lines_eq_takeWhile_cons s
    by_cases hc : c = '\n'
    · subst hc
      have hreturn : Text.lines ('\r' :: '\n' :: carriageReturned s) =
          ['\r'] :: Text.lines (carriageReturned s) :=
        lines_cons_of_ne (by decide) (lines_newline_cons _)
      rw [carriageReturned_newline_cons, hreturn, ih, lines_newline_cons,
        returnEnded_cons [] (by rw [hrest]; exact List.cons_ne_nil _ _)]
      rfl
    · obtain ⟨first, others, hfirst, hended⟩ :=
        returnEnded_cons_cons c (s.takeWhile (· != '\n')) rest
      rw [hrest, hfirst] at ih
      rw [carriageReturned_cons_of_ne hc, lines_cons_of_ne hc ih, lines_cons_of_ne hc hrest, hended]

/-- A carriage return at the end of a line goes with those that are there already. -/
theorem map_dropRight_returnEnded (lines : List (List Char)) :
    (returnEnded lines).map (dropRight (· == '\r')) = lines.map (dropRight (· == '\r')) := by
  induction lines with
  | nil => rfl
  | cons line rest ih =>
    cases rest with
    | nil => rfl
    | cons next rest =>
      have hreturn : ∀ c ∈ ['\r'], (c == '\r') = true := by simp
      rw [returnEnded_cons line (List.cons_ne_nil _ _), List.map_cons, List.map_cons, ih,
        dropRight_append hreturn]

end LineEnds
end Text

namespace Markdown

open Text

theorem contentLines_carriageReturned (content : String) :
    contentLines (String.ofList (carriageReturned content.toList)) = contentLines content := by
  rw [contentLines, String.toList_ofList, lines_carriageReturned, map_dropRight_returnEnded,
    contentLines]

/-- **Parsing does not depend on the line ends.** A document with a carriage return put before every
line feed, whatever carriage returns it holds already, gives the same nodes with the same texts,
languages and numbers, or fails at the same line. -/
theorem parse_carriageReturned (content : String) :
    parse (String.ofList (carriageReturned content.toList)) = parse content := by
  rw [parse, contentLines_carriageReturned, parse]

end Markdown
end SpecDraft
