import SpecDraft.Json.Printer
import SpecDraft.Json.Reader

/-!
# Layouts of values

Values are written in two ways, which differ in the blanks between the tokens and in the characters
that a string keeps. A `Layout` holds what differs, and `written` writes a value in any layout: the
line of a value and its indented text are two cases of it (`written_oneLine`, `written_indented`),
so that what holds of every layout is proved once.
-/
set_option autoImplicit false

namespace SpecDraft.Json

open Printer

/-- How a value is laid out: whether its strings are kept in ASCII, and the blanks that stand after
an opening bracket, after a comma and before a closing bracket. -/
structure Layout where
  ascii : Bool
  opening : Nat → List Char
  between : Nat → List Char
  closing : Nat → List Char
  opening_blank : ∀ level, ∀ c ∈ opening level, Reader.isSpace c = true
  between_blank : ∀ level, ∀ c ∈ between level, Reader.isSpace c = true
  closing_blank : ∀ level, ∀ c ∈ closing level, Reader.isSpace c = true

namespace Layout

theorem newLine_blank (level : Nat) : ∀ c ∈ newLine level, Reader.isSpace c = true := by
  intro c hc
  rcases List.mem_cons.mp hc with rfl | hc
  · rfl
  · rw [List.eq_of_mem_replicate hc]
    rfl

/-- Everything on one line, with a blank after each comma. -/
def oneLine : Layout where
  ascii := true
  opening _ := []
  between _ := [' ']
  closing _ := []
  opening_blank := by simp
  between_blank := by simp [Reader.isSpace]
  closing_blank := by simp

/-- One item on each line. -/
def indented : Layout where
  ascii := false
  opening := newLine
  between := newLine
  closing := newLine
  opening_blank := newLine_blank
  between_blank := newLine_blank
  closing_blank := newLine_blank

end Layout

mutual

/-- A value in a layout, inside `level` arrays and objects. -/
def written (layout : Layout) (level : Nat) : Json → List Char
  | .null => "null".toList
  | .bool true => "true".toList
  | .bool false => "false".toList
  | .int n => Printer.int n
  | .real x => Printer.real x
  | .str s => quoted layout.ascii s
  | .arr [] => "[]".toList
  | .arr (item :: items) =>
    '[' :: (layout.opening (level + 1) ++ (written layout (level + 1) item ++
      (writtenItems layout (level + 1) items ++ (layout.closing level ++ [']']))))
  | .obj [] => ['{', '}']
  | .obj ((key, value) :: members) =>
    '{' :: (layout.opening (level + 1) ++ (quoted layout.ascii key ++ (':' :: ' ' ::
      (written layout (level + 1) value ++
        (writtenMembers layout (level + 1) members ++ (layout.closing level ++ ['}']))))))

/-- The items after the first, each after a comma. -/
def writtenItems (layout : Layout) (level : Nat) : List Json → List Char
  | [] => []
  | item :: items =>
    ',' :: (layout.between level ++ (written layout level item ++ writtenItems layout level items))

/-- The members after the first, each after a comma. -/
def writtenMembers (layout : Layout) (level : Nat) : List (String × Json) → List Char
  | [] => []
  | (key, value) :: members =>
    ',' :: (layout.between level ++ (quoted layout.ascii key ++ (':' :: ' ' ::
      (written layout level value ++ writtenMembers layout level members))))

end

/-! ## The two layouts -/

mutual

theorem written_indented (level : Nat) : ∀ v, written .indented level v = Printer.pretty level v
  | .null => rfl
  | .bool true => rfl
  | .bool false => rfl
  | .int _ => rfl
  | .real _ => rfl
  | .str _ => rfl
  | .arr [] => rfl
  | .obj [] => rfl
  | .arr (item :: items) => by
    rw [written, written_indented _ item, writtenItems_indented _ items]
    rfl
  | .obj ((key, value) :: members) => by
    rw [written, written_indented _ value, writtenMembers_indented _ members]
    rfl

theorem writtenItems_indented (level : Nat) :
    ∀ items, writtenItems .indented level items = prettyItems level items
  | [] => rfl
  | item :: items => by
    rw [writtenItems, written_indented _ item, writtenItems_indented _ items]
    rfl

theorem writtenMembers_indented (level : Nat) :
    ∀ members, writtenMembers .indented level members = prettyMembers level members
  | [] => rfl
  | (key, value) :: members => by
    rw [writtenMembers, written_indented _ value, writtenMembers_indented _ members]
    rfl

end

mutual

theorem written_oneLine (level : Nat) : ∀ v, written .oneLine level v = Printer.compact v
  | .null => rfl
  | .bool true => rfl
  | .bool false => rfl
  | .int _ => rfl
  | .real _ => rfl
  | .str _ => rfl
  | .arr [] => rfl
  | .obj [] => rfl
  | .arr (item :: items) => by
    rw [written, written_oneLine _ item, writtenItems_oneLine _ items]
    rfl
  | .obj ((key, value) :: members) => by
    rw [written, written_oneLine _ value, writtenMembers_oneLine _ members]
    rfl

theorem writtenItems_oneLine (level : Nat) :
    ∀ items, writtenItems .oneLine level items = compactItems items
  | [] => rfl
  | item :: items => by
    rw [writtenItems, written_oneLine _ item, writtenItems_oneLine _ items]
    rfl

theorem writtenMembers_oneLine (level : Nat) :
    ∀ members, writtenMembers .oneLine level members = compactMembers members
  | [] => rfl
  | (key, value) :: members => by
    rw [writtenMembers, written_oneLine _ value, writtenMembers_oneLine _ members]
    rfl

end

end SpecDraft.Json
