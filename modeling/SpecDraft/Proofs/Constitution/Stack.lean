import SpecDraft.Proofs.Constitution.Bounds
import SpecDraft.Proofs.Markdown.Heading
import SpecDraft.Proofs.Text.Search

/-!
# The stack that a document describes

Each category of a stack is read from the first of its labels (`extract_stack`): its items are the
pieces of what follows the label on the same line. Where nothing follows it there, the blanks after
the label run on over the end of the line, and the items are those of the next line that says
something, whatever that line is about (`extract_absorbs_line`).
-/
set_option autoImplicit false

namespace SpecDraft

namespace Text

/-! ## Lines -/

/-- The first of some lines that is not blank, and the empty one if there is none. -/
def firstFilled (lines : List (List Char)) : List Char := (lines.find? (!allBlank ·)).getD []

theorem firstFilled_cons (line : List Char) (lines : List (List Char)) :
    firstFilled (line :: lines) = if allBlank line then firstFilled lines else line := by
  cases h : allBlank line <;> simp [firstFilled, h]

/-- **The first line after blanks** is the first line that is not blank, without the blanks that it
starts with. -/
theorem takeWhile_trimLeft (s : List Char) :
    (trimLeft s).takeWhile (· != '\n') = trimLeft (firstFilled (lines s)) := by
  induction s with
  | nil => rfl
  | cons c s ih =>
    by_cases hnewline : c = '\n'
    · -- The line ends here, with nothing in it.
      subst hnewline
      rw [trimLeft_cons_of_blank (by decide), lines_newline_cons, ih, firstFilled_cons]
      simp [allBlank]
    obtain ⟨rest, hrest⟩ := lines_eq_takeWhile_cons s
    rw [hrest, firstFilled_cons] at ih
    rw [lines_cons_of_ne hnewline hrest, firstFilled_cons]
    cases hblank : isBlank c with
    | true =>
      have hsame : allBlank (c :: s.takeWhile (· != '\n')) =
          allBlank (s.takeWhile (· != '\n')) := by
        simp [allBlank, hblank]
      rw [trimLeft_cons_of_blank hblank, ih, hsame]
      split
      · rfl
      · rw [trimLeft_cons_of_blank hblank]
    | false =>
      have hfilled : allBlank (c :: s.takeWhile (· != '\n')) = false := by simp [allBlank, hblank]
      rw [trimLeft_cons_of_not_blank hblank, hfilled, if_neg Bool.false_ne_true,
        trimLeft_cons_of_not_blank hblank, List.takeWhile_cons_of_pos (by simpa using hnewline)]

end Text

open Text

namespace TechnicalStack

/-- The categories of a stack: the labels of each, and the items that a stack has in it. -/
def categories : List (List String × (TechnicalStack → List String)) := [
  (["Languages:", "Language:", "Frontend:", "Backend:"], languages),
  (["Frameworks:", "Framework:"], frameworks),
  (["Databases:", "Database:"], databases),
  (["Infrastructure:", "Deployment:"], infrastructure),
  (["Build Tools:", "Build Tool:", "Tools:"], buildTools)]

/-- The items of a category are read by its labels. -/
theorem items_ofContent {labels : List String} {items : TechnicalStack → List String}
    (h : (labels, items) ∈ categories) (text : String) :
    items (ofContent text) = itemsAt labels text.toList := by
  simp only [categories, List.mem_cons, Prod.mk.injEq, List.not_mem_nil, or_false] at h
  rcases h with ⟨rfl, rfl⟩ | ⟨rfl, rfl⟩ | ⟨rfl, rfl⟩ | ⟨rfl, rfl⟩ | ⟨rfl, rfl⟩ <;> rfl

/-- What the text of a section says on a category with the given labels. After the first place with
one of the labels, `own` is the rest of its line and `later` the lines below. -/
inductive Says (labels : List String) (content : List Char) : List String → Prop where
  /-- No label stands anywhere. -/
  | unlabelled (h : ∀ here, here <:+ content → afterFoldAny? labels here = none) :
      Says labels content []
  /-- The line of the label goes on. -/
  | ownLine (before label rest own : List Char) (later : List (List Char))
      (hcontent : content = before ++ (label ++ rest))
      (hlabel : ∃ text ∈ labels, SameLetters label text.toList)
      (hfirst : FirstAt (afterFoldAny? labels) before (label ++ rest) rest)
      (hline : lines rest = own :: later) (hown : allBlank own = false) :
      Says labels content (commaItems own)
  /-- The line of the label ends with it, and a line below it is taken. -/
  | laterLine (before label rest own : List Char) (later : List (List Char))
      (hcontent : content = before ++ (label ++ rest))
      (hlabel : ∃ text ∈ labels, SameLetters label text.toList)
      (hfirst : FirstAt (afterFoldAny? labels) before (label ++ rest) rest)
      (hline : lines rest = own :: later) (hown : allBlank own = true) :
      Says labels content (commaItems (firstFilled later))

/-- The items of a category are those that the text says. -/
theorem says_itemsAt (labels : List String) (content : List Char) :
    Says labels content (itemsAt labels content) := by
  rw [itemsAt]
  cases hfound : firstFrom (afterFoldAny? labels) content with
  | none => exact .unlabelled (firstFrom_eq_none_iff.mp hfound)
  | some found =>
    obtain ⟨before, rest⟩ := found
    obtain ⟨here, hcontent, hfirst⟩ := firstFrom_eq_some_iff.mp hfound
    obtain ⟨text, htext, label, rfl, hsame⟩ := afterFoldAny?_some hfirst.found
    obtain ⟨later, hline⟩ := lines_eq_takeWhile_cons rest
    dsimp only
    rw [takeWhile_trimLeft, commaItems_trimLeft, hline, firstFilled_cons]
    cases hown : allBlank (rest.takeWhile (· != '\n')) with
    | true =>
      exact .laterLine before label rest _ later hcontent ⟨text, htext, hsame⟩ hfirst hline hown
    | false =>
      exact .ownLine before label rest _ later hcontent ⟨text, htext, hsame⟩ hfirst hline hown

end TechnicalStack

namespace Constitution

open Markdown

/-- **The stack of a constitution** has in each category the items on the line of the first label
of the category when that line goes on after the label, and otherwise those on the first line below
it that is not blank. -/
theorem extract_stack (document : Document) (route : Route) (c : Constitution)
    (stack : TechnicalStack) (h : extract document route = .ok c) (hstack : c.stack = some stack) :
    ∃ found, findSection? document.nodes (.exactly ["Technical Stack"]) = some found ∧
      ∀ labels items, (labels, items) ∈ TechnicalStack.categories →
        TechnicalStack.Says labels (blockText found.children).toList (items stack) := by
  obtain ⟨rfl, -⟩ := extract_ok.mp h
  cases route with
  | greenfield => cases hstack
  | brownfield =>
    have hsection : stackOf? document.nodes = some stack := hstack
    rw [stackOf?, sectionText?, Markdown.sectionText?, Option.map_map,
      Option.map_eq_some_iff] at hsection
    obtain ⟨found, hfound, rfl⟩ := hsection
    refine ⟨found, hfound, fun labels items hcategory => ?_⟩
    rw [Function.comp_apply, TechnicalStack.items_ofContent hcategory]
    exact TechnicalStack.says_itemsAt labels _

/-- A document whose label for languages has nothing after it. -/
def openLabelContent : String :=
  "# Purpose\nOne place for the notes of a team, safe and shared.\n" ++
  "# Values\n- Clear\n- Small\n- Safe\n# Technical Stack\nLanguages:\nFrameworks: React\n" ++
  "# Code Quality\nReviewed.\n# Testing\nTested.\n# Security\nAudited.\n" ++
  "# Performance\nLoad: 2 s\nSearch: 1 s"

/-- The nodes of that document. -/
def openLabelNodes : List Node := [
  ⟨.heading 1, "Purpose", 1⟩,
  ⟨.paragraph, "One place for the notes of a team, safe and shared.", 2⟩,
  ⟨.heading 1, "Values", 3⟩, ⟨.item false 0, "Clear", 4⟩, ⟨.item false 0, "Small", 5⟩,
  ⟨.item false 0, "Safe", 6⟩,
  ⟨.heading 1, "Technical Stack", 7⟩, ⟨.paragraph, "Languages:", 8⟩,
  ⟨.paragraph, "Frameworks: React", 9⟩,
  ⟨.heading 1, "Code Quality", 10⟩, ⟨.paragraph, "Reviewed.", 11⟩,
  ⟨.heading 1, "Testing", 12⟩, ⟨.paragraph, "Tested.", 13⟩,
  ⟨.heading 1, "Security", 14⟩, ⟨.paragraph, "Audited.", 15⟩,
  ⟨.heading 1, "Performance", 16⟩, ⟨.paragraph, "Load: 2 s", 17⟩,
  ⟨.paragraph, "Search: 1 s", 18⟩]

/-- The stack that the document describes. -/
def openLabelStack : TechnicalStack := ⟨["Frameworks: React"], ["React"], [], [], []⟩

theorem bounded_openLabel : (drawn openLabelNodes .brownfield).Bounded where
  purpose := by decide +kernel
  values := by decide +kernel
  stack := by decide +kernel
  standards := by decide +kernel
  metrics := by decide +kernel

theorem stack_openLabel : (drawn openLabelNodes .brownfield).stack = some openLabelStack := by
  decide +kernel

theorem parse_openLabelContent : Markdown.parse openLabelContent = .ok openLabelNodes :=
  parse_of_toOption (by decide +kernel)

theorem extract_openLabel {document : Document} (h : document.nodes = openLabelNodes) :
    extract document .brownfield = .ok (drawn openLabelNodes .brownfield) :=
  extract_ok.mpr ⟨by rw [h], bounded_openLabel⟩

theorem extract_stack_sample : ∃ document c found,
    Document.parse openLabelContent ⟨"/", ["spec.md"]⟩ "" = .ok document ∧
    extract document .brownfield = .ok c ∧ c.stack = some openLabelStack ∧
    findSection? document.nodes (.exactly ["Technical Stack"]) = some found ∧
    ∀ labels items, (labels, items) ∈ TechnicalStack.categories →
      TechnicalStack.Says labels (blockText found.children).toList (items openLabelStack) := by
  obtain ⟨document, hparse, hnodes⟩ :=
    Document.exists_parse parse_openLabelContent ⟨"/", ["spec.md"]⟩ ""
  obtain ⟨found, hfound, hsays⟩ := extract_stack document .brownfield _ openLabelStack
    (extract_openLabel hnodes) stack_openLabel
  exact ⟨document, _, found, hparse, extract_openLabel hnodes, stack_openLabel, hfound, hsays⟩

/-- **A label with nothing after it takes in the next line**, which is that of another category. -/
theorem extract_absorbs_line : ∃ document c stack found,
    Document.parse openLabelContent ⟨"/", ["spec.md"]⟩ "" = .ok document ∧
    extract document .brownfield = .ok c ∧ c.stack = some stack ∧
    findSection? document.nodes (.exactly ["Technical Stack"]) = some found ∧
    lines (blockText found.children).toList =
      ["Languages:".toList, "Frameworks: React".toList] ∧
    stack.languages = ["Frameworks: React"] := by
  obtain ⟨document, hparse, hnodes⟩ :=
    Document.exists_parse parse_openLabelContent ⟨"/", ["spec.md"]⟩ ""
  have hfound : findSection? openLabelNodes (.exactly ["Technical Stack"]) =
      some ⟨⟨.heading 1, "Technical Stack", 7⟩, 1,
        [⟨.paragraph, "Languages:", 8⟩, ⟨.paragraph, "Frameworks: React", 9⟩]⟩ := by
    decide +kernel
  exact ⟨document, _, openLabelStack, _, hparse, extract_openLabel hnodes, stack_openLabel,
    hnodes ▸ hfound, by decide +kernel, rfl⟩

end Constitution
end SpecDraft
