import Mathlib.Algebra.Ring.Parity
import Mathlib.Data.List.Induction
import SpecDraft.Proofs.Markdown.Heading
import SpecDraft.Proofs.Markdown.Plain

/-!
# Which documents can be read

A document can be read when its fences come in pairs, and otherwise the last of them is reported
(`parse_answers`, `parse_unclosed`). The text of a node that is no code block is part of its line
(`Block.infix_of_classify`), so it holds no line feed.
-/
set_option autoImplicit false

namespace SpecDraft.Markdown

open Text

/-- The number that is left when numbers are taken in pairs. -/
def unpaired? : List Nat → Option Nat
  | [] => none
  | [number] => some number
  | _ :: _ :: rest => unpaired? rest

/-- The outcome that fences of the given numbers ask for. -/
inductive Answers (fences : List Nat) : Outcome (List Node) → Prop
  | read (nodes : List Node) (h : unpaired? fences = none) : Answers fences (.ok nodes)
  | unclosed {number : Nat} (h : unpaired? fences = some number) :
    Answers fences (.error (.unclosedFence number))

section Read
variable {fences : List Nat} {outcome : Outcome (List Node)}

namespace Answers

theorem map (h : Answers fences outcome) (f : List Node → List Node) :
    Answers fences (do return f (← outcome)) := by
  cases h with
  | read nodes hnone => exact .read (f nodes) hnone
  | unclosed hsome => exact .unclosed hsome

/-- Two more fences make a pair. -/
theorem paired (h : Answers fences outcome) (first second : Nat) :
    Answers (first :: second :: fences) outcome := by
  cases h with
  | read nodes hnone => exact .read nodes hnone
  | unclosed hsome => exact .unclosed hsome

theorem exists_ok (h : Answers fences outcome) (hpaired : unpaired? fences = none) :
    ∃ nodes, outcome = .ok nodes := by
  cases h with
  | read nodes _ => exact ⟨nodes, rfl⟩
  | unclosed hsome =>
    rw [hpaired] at hsome
    cases hsome

theorem eq_error {number : Nat} (h : Answers fences outcome)
    (hunpaired : unpaired? fences = some number) : outcome = .error (.unclosedFence number) := by
  cases h with
  | read nodes hnone =>
    rw [hunpaired] at hnone
    cases hnone
  | unclosed hsome =>
    rw [hunpaired] at hsome
    cases hsome
    rfl

end Answers

/-- The fence that is open comes before those that are read, by induction on the lines. -/
theorem nodesFrom_answers (number : Nat) (fence : Option Fence) (lines : List (List Char)) :
    Answers ((fence.map (·.line)).toList ++ fenceNumbers number lines)
      (nodesFrom number fence lines) := by
  induction lines generalizing number fence with
  | nil =>
    cases fence with
    | none => exact .read [] rfl
    | some fence => exact .unclosed rfl
  | cons line lines ih =>
    rw [fenceNumbers_cons]
    cases hafter : after? fenceMark line with
    | none =>
      rw [isFence_of_after?_none hafter]
      cases fence with
      | none =>
        rw [nodesFrom, hafter]
        exact (ih (number + 1) none).map _
      | some fence =>
        rw [nodesFrom, hafter]
        exact ih (number + 1) (some { fence with body := line :: fence.body })
    | some info =>
      rw [fence_of_after? hafter, isFence_append, ← fence_of_after? hafter]
      cases fence with
      | none =>
        rw [nodesFrom, hafter]
        exact ih (number + 1) (some (.opened number info))
      | some fence =>
        -- The fence closes the one that is open, and the two make a pair.
        rw [nodesFrom, hafter]
        exact ((ih (number + 1) none).map _).paired fence.line number

/-- **Which documents can be read**: those whose fences come in pairs. The last fence of any other
document is reported. -/
theorem parse_answers (content : String) :
    Answers (fenceNumbers 1 (contentLines content)) (parse content) :=
  nodesFrom_answers 1 none (contentLines content)

end Read

/-! ## Written lines -/

section Written
variable {lines : List (List Char)}

/-- Carriage returns at the end do not make a fence, and do not hide one. -/
theorem isFence_dropRight (line : List Char) :
    isFence (dropRight (· == '\r') line) = isFence line := by
  rw [Bool.eq_iff_iff, isFence_iff, isFence_iff]
  constructor
  · intro h
    exact h.trans (List.rdropWhile_prefix _ _)
  · rintro ⟨rest, rfl⟩
    refine ⟨dropRight (· == '\r') rest, ?_⟩
    simp only [fenceMark, List.cons_append, List.nil_append]
    rw [dropRight_cons (by decide), dropRight_cons (by decide), dropRight_cons (by decide)]

theorem fenceNumbers_map_dropRight (number : Nat) (lines : List (List Char)) :
    fenceNumbers number (lines.map (dropRight (· == '\r'))) = fenceNumbers number lines := by
  induction lines generalizing number with
  | nil => rfl
  | cons line lines ih =>
    rw [List.map_cons, fenceNumbers_cons, fenceNumbers_cons, isFence_dropRight, ih]

/-- **The fences of written lines** are those among the lines. -/
theorem fenceNumbers_writtenLines (h : ∀ line ∈ lines, '\n' ∉ line) :
    fenceNumbers 1 (contentLines (String.ofList (writtenLines lines))) = fenceNumbers 1 lines := by
  rw [contentLines, fenceNumbers_map_dropRight, String.toList_ofList, lines_writtenLines h,
    fenceNumbers_append, fenceNumbers_eq_nil (List.forall_mem_singleton.mpr rfl), List.append_nil]

end Written

/-! ## The last fence -/

section Unclosed
variable {first number : Nat} {a : List (List Char)}

/-- What is left of numbers taken in pairs is the last one of an odd number of them. -/
theorem unpaired?_eq (numbers : List Nat) :
    unpaired? numbers = if Odd numbers.length then numbers.getLast? else none := by
  induction numbers using unpaired?.induct with
  | case1 => rfl
  | case2 number => rfl
  | case3 first second rest ih =>
    have hodd : Odd (first :: second :: rest).length ↔ Odd rest.length := by
      rw [List.length_cons, List.length_cons, Nat.odd_add_one, Nat.odd_add_one, not_not]
    rw [unpaired?, ih]
    refine if_ctx_congr hodd.symm (fun h => ?_) fun _ => rfl
    cases rest with
    | nil => exact absurd h (Nat.not_odd_iff_even.mpr ⟨1, rfl⟩)
    | cons third rest => rw [List.getLast?_cons_cons, List.getLast?_cons_cons]

theorem length_fenceNumbers (first : Nat) (a : List (List Char)) :
    (fenceNumbers first a).length = a.countP isFence := by
  induction a generalizing first with
  | nil => rfl
  | cons line a ih =>
    rw [fenceNumbers_cons, List.length_append, ih, List.countP_cons, Nat.add_comm]
    split <;> rfl

/-- The last of the fences' numbers is that of the last fence, by induction from the last line. -/
theorem exists_last_fence (h : (fenceNumbers first a).getLast? = some number) :
    ∃ before line after, a = before ++ line :: after ∧ isFence line = true ∧
      (∀ other ∈ after, isFence other = false) ∧ number = first + before.length := by
  induction a using List.reverseRecOn with
  | nil => cases h
  | append_singleton a line ih =>
    rw [fenceNumbers_append, fenceNumbers_cons] at h
    cases hline : isFence line with
    | true =>
      rw [hline] at h
      refine ⟨a, line, [], rfl, hline, fun other hother => (by cases hother), ?_⟩
      exact (Option.some.inj (List.getLast?_concat.symm.trans h)).symm
    | false =>
      rw [hline] at h
      have hrest : (fenceNumbers first a ++ ([] ++ [])).getLast? = some number := h
      rw [List.append_nil, List.append_nil] at hrest
      obtain ⟨before, fence, after, rfl, hfence, hafter, hnumber⟩ := ih hrest
      refine ⟨before, fence, after ++ [line], List.append_assoc .., hfence, ?_, hnumber⟩
      exact List.forall_mem_append.mpr ⟨hafter, List.forall_mem_singleton.mpr hline⟩

/-- **Unclosed code blocks are reported exactly.** A document cannot be read exactly when an odd
number of its lines are fences. The failure then names the last of them, by its number, and its
message carries the number. -/
theorem parse_unclosed (content : String) :
    ((∃ failure, parse content = .error failure) ↔
      Odd ((lines content.toList).countP isFence)) ∧
    ∀ failure, parse content = .error failure → ∃ before line after,
      lines content.toList = before ++ line :: after ∧ isFence line = true ∧
      (∀ other ∈ after, isFence other = false) ∧
      failure = .parse "Unclosed code block" (some (before.length + 1)) ∧
      failure.message =
        "Unclosed code block (line " ++ toString (before.length + 1) ++ ")" := by
  have hanswers : Answers (fenceNumbers 1 (lines content.toList)) (parse content) := by
    have hlines := parse_answers content
    rwa [contentLines, fenceNumbers_map_dropRight] at hlines
  have hunpaired := unpaired?_eq (fenceNumbers 1 (lines content.toList))
  rw [length_fenceNumbers] at hunpaired
  by_cases hodd : Odd ((lines content.toList).countP isFence)
  · -- The last of the fences is left over.
    rw [if_pos hodd] at hunpaired
    cases hlast : (fenceNumbers 1 (lines content.toList)).getLast? with
    | none =>
      rw [← length_fenceNumbers 1, List.getLast?_eq_none_iff.mp hlast] at hodd
      exact absurd hodd (by decide)
    | some number =>
      rw [hanswers.eq_error (hunpaired.trans hlast)]
      refine ⟨iff_of_true ⟨_, rfl⟩ hodd, fun failure h => ?_⟩
      cases h
      obtain ⟨before, line, after, hlines, hline, hafter, hnumber⟩ := exists_last_fence hlast
      rw [Nat.add_comm] at hnumber
      exact ⟨before, line, after, hlines, hline, hafter, by rw [hnumber]; rfl,
        by rw [hnumber]; rfl⟩
  · -- The fences come in pairs.
    rw [if_neg hodd] at hunpaired
    obtain ⟨nodes, hread⟩ := hanswers.exists_ok hunpaired
    rw [hread]
    refine ⟨iff_of_false ?_ hodd, fun failure h => ?_⟩
    · rintro ⟨_, h⟩
      cases h
    · cases h

end Unclosed

/-! ## The texts of nodes -/

section Texts
variable {line text : List Char} {kind : Block}

namespace Block

theorem suffix_of_marker? {ordered : Bool} {rest : List Char}
    (h : marker? line = some (ordered, rest)) : rest <:+ line := by
  unfold marker? at h
  split at h
  · cases h
    exact List.suffix_cons _ _
  · cases h
    exact List.suffix_cons _ _
  · cases h
    exact List.suffix_cons _ _
  · split at h
    · rename_i point hpoint
      split at h
      · cases h
        exact (List.suffix_cons '.' _).trans (hpoint ▸ List.dropWhile_suffix isDigit)
      · cases h
    · cases h

theorem infix_of_item? {ordered : Bool} {indent : Nat}
    (h : item? line = some (ordered, indent, text)) : text <:+: line := by
  unfold item? at h
  dsimp only at h
  split at h
  · rename_i marked rest hmarker
    obtain ⟨content, hcontent, hitem⟩ := Option.map_eq_some_iff.mp h
    cases hitem
    rw [content?_some hcontent]
    have hbody : rest <:+ line :=
      (suffix_of_marker? hmarker).trans (List.dropWhile_suffix isBlank)
    exact (trim_infix_self rest).trans hbody.isInfix
  · cases h

/-- **The text of a block** is part of its line. -/
theorem infix_of_classify (h : classify line = some (kind, text)) : text <:+: line := by
  unfold classify at h
  split at h
  · rename_i hheading
    cases h
    obtain ⟨-, -, rest, rfl, rfl⟩ := heading?_some hheading
    exact (trim_infix_self rest).trans (List.suffix_append _ rest).isInfix
  split at h
  · cases h
    exact List.nil_infix
  split at h
  · rename_i hquote
    cases h
    unfold quote? at hquote
    split at hquote
    · cases hquote
      exact ((List.dropWhile_suffix isBlank).trans (List.suffix_cons '>' _)).isInfix
    · cases hquote
  split at h
  · rename_i hitem
    cases h
    exact infix_of_item? hitem
  · dsimp only at h
    split at h
    · cases h
    · cases h
      exact trim_infix_self line

end Block

theorem not_mem_of_mem_contentLines {content : String} (h : line ∈ contentLines content) :
    '\n' ∉ line := by
  obtain ⟨whole, hwhole, rfl⟩ := List.mem_map.mp h
  intro hmem
  exact not_mem_of_mem_split hwhole ((List.rdropWhile_prefix _ _).subset hmem)

/-- A node has the kind and the text of the block that its line makes. -/
theorem classify_of_lineNode? {number : Nat} {node : Node} (h : lineNode? number line = some node) :
    Block.classify line = some (node.kind, node.text.toList) := by
  obtain ⟨⟨kind, text⟩, hclassify, rfl⟩ := Option.map_eq_some_iff.mp h
  rw [hclassify, String.toList_ofList]

/-- **The text of a node** that is no code block stands on one line. -/
theorem not_mem_text_of_parse {content : String} {nodes : List Node} {node : Node}
    (h : parse content = .ok nodes) (hnode : node ∈ nodes) (hcode : node.isCode = false) :
    '\n' ∉ node.text.toList := by
  obtain ⟨before, line, after, hlines, -, hmade⟩ := exists_line_of_parse h hnode hcode
  have hline : line ∈ contentLines content := hlines ▸ List.mem_append_cons_self
  have hpart := Block.infix_of_classify (classify_of_lineNode? hmade)
  exact fun hmem => not_mem_of_mem_contentLines hline (hpart.subset hmem)

end Texts

end SpecDraft.Markdown
