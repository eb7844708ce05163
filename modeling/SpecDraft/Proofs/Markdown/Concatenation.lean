import SpecDraft.Proofs.Markdown.Fences

/-!
# Documents put together

A document that can be read leaves no trace in what follows it (`parse_append`): no code block is
open at its end, so that the lines of a second document are read as they would be on their own,
under numbers that continue those of the first one (`nodesFrom_append`, `nodesFrom_later`).
-/
set_option autoImplicit false

namespace SpecDraft

/-- The failure of the same document further down. -/
def Failure.later (lines : Nat) : Failure → Failure
  | .parse summary (some line) => .parse summary (some (line + lines))
  | failure => failure

namespace Markdown

open Text

/-- The same node further down. -/
def Node.later (lines : Nat) (node : Node) : Node := { node with line := node.line + lines }

/-- The same open code block further down. -/
def Fence.later (lines : Nat) (fence : Fence) : Fence := { fence with line := fence.line + lines }

/-- What is read from the same lines further down. -/
def outcomeLater (lines : Nat) : Outcome (List Node) → Outcome (List Node)
  | .ok nodes => .ok (nodes.map (Node.later lines))
  | .error failure => .error (failure.later lines)

section Append
variable {number : Nat} {fence : Option Fence} {nodes : List Node} {a : List (List Char)}

/-- **Nothing is left of what was read**: the lines after it are read with no code block open, by
induction on the lines before. -/
theorem nodesFrom_append (h : nodesFrom number fence a = .ok nodes) (b : List (List Char)) :
    nodesFrom number fence (a ++ b) =
      (do return nodes ++ (← nodesFrom (number + a.length) none b)) := by
  induction a generalizing number fence nodes with
  | nil =>
    cases fence with
    | none =>
      cases h
      exact (bind_pure _).symm
    | some fence => cases h
  | cons line a ih =>
    rw [List.length_cons, Nat.add_comm a.length, ← Nat.add_assoc]
    cases hafter : after? fenceMark line with
    | none =>
      cases fence with
      | none =>
        simp only [nodesFrom, List.cons_append, hafter] at h ⊢
        obtain ⟨rest, hrest, hnodes⟩ := Action.bind_ok.mp h
        cases hnodes
        rw [ih hrest, bind_assoc]
        simp only [pure_bind, List.append_assoc]
      | some fence =>
        simp only [nodesFrom, List.cons_append, hafter] at h ⊢
        exact ih h
    | some info =>
      cases fence with
      | none =>
        simp only [nodesFrom, List.cons_append, hafter] at h ⊢
        exact ih h
      | some fence =>
        -- The code block is closed, and its node comes first.
        simp only [nodesFrom, List.cons_append, hafter] at h ⊢
        obtain ⟨rest, hrest, hnodes⟩ := Action.bind_ok.mp h
        cases hnodes
        rw [ih hrest, bind_assoc]
        simp only [pure_bind, List.cons_append]

theorem lineNode?_later (number lines : Nat) (line : List Char) :
    lineNode? (number + lines) line = (lineNode? number line).map (Node.later lines) := by
  rw [lineNode?, lineNode?, Option.map_map]
  rfl

/-- Nodes are put before what is read, wherever it stands. -/
theorem outcomeLater_append (lines : Nat) (first : List Node) (outcome : Outcome (List Node)) :
    outcomeLater lines (do return first ++ (← outcome)) =
      (do return first.map (Node.later lines) ++ (← outcomeLater lines outcome)) := by
  cases outcome with
  | error failure => rfl
  | ok nodes => exact congrArg Except.ok List.map_append

/-- **Lines are read alike** wherever they stand, but for the numbers. -/
theorem nodesFrom_later (number lines : Nat) (fence : Option Fence) (a : List (List Char)) :
    nodesFrom (number + lines) (fence.map (Fence.later lines)) a =
      outcomeLater lines (nodesFrom number fence a) := by
  induction a generalizing number fence with
  | nil => cases fence <;> rfl
  | cons line a ih =>
    have hnumber : number + lines + 1 = number + 1 + lines := Nat.add_right_comm ..
    cases hafter : after? fenceMark line with
    | none =>
      cases fence with
      | none =>
        simp only [nodesFrom, Option.map_none, hafter, hnumber]
        rw [outcomeLater_append, ← ih, lineNode?_later]
        cases lineNode? number line <;> rfl
      | some fence =>
        simp only [nodesFrom, Option.map_some, hafter, hnumber]
        exact ih (number + 1) (some { fence with body := line :: fence.body })
    | some info =>
      cases fence with
      | none =>
        simp only [nodesFrom, Option.map_none, hafter, hnumber]
        exact ih (number + 1) (some (.opened number info))
      | some fence =>
        simp only [nodesFrom, Option.map_some, hafter, hnumber]
        exact (congrArg (· >>= _) (ih (number + 1) none)).trans
          (outcomeLater_append lines [fence.node] _).symm

end Append

/-! ## Contents -/

section Contents
variable {content : String} {failure : Failure}

theorem contentLines_append (a b : String) :
    contentLines (a ++ "\n" ++ b) = contentLines a ++ contentLines b := by
  have hchars : (a ++ "\n" ++ b).toList = a.toList ++ '\n' :: b.toList := by simp
  rw [contentLines, hchars, lines, split_append_split, List.map_append]
  rfl

theorem length_contentLines (content : String) :
    (contentLines content).length = content.toList.count '\n' + 1 := by
  rw [contentLines, List.length_map, lines, length_split]

/-- A document that cannot be read has an open code block. -/
theorem unclosed_of_parse (h : parse content = .error failure) :
    ∃ line, failure = .unclosedFence line := by
  have hanswers := parse_answers content
  rw [h] at hanswers
  cases hanswers with
  | unclosed _ => exact ⟨_, rfl⟩

end Contents

/-- **Parsing is compositional.** After a document that can be read and a line feed, another one is
read as it would be on its own, with every number increased by the lines of the first one. -/
theorem parse_append (a b : String) (nodes : List Node) (h : parse a = .ok nodes) :
    ((∃ all, parse (a ++ "\n" ++ b) = .ok all) ↔ ∃ rest, parse b = .ok rest) ∧
    (∀ rest, parse b = .ok rest → parse (a ++ "\n" ++ b) =
      .ok (nodes ++ rest.map (Node.later (a.toList.count '\n' + 1)))) ∧
    ∀ failure, parse b = .error failure → ∃ line, failure = .unclosedFence line ∧
      parse (a ++ "\n" ++ b) = .error (.unclosedFence (line + (a.toList.count '\n' + 1))) := by
  have hparse : parse (a ++ "\n" ++ b) =
      (do return nodes ++ (← outcomeLater (a.toList.count '\n' + 1) (parse b))) := by
    rw [parse, contentLines_append, nodesFrom_append h, length_contentLines]
    exact congrArg (· >>= _) (nodesFrom_later 1 _ none (contentLines b))
  rw [hparse]
  cases hb : parse b with
  | ok rest =>
    refine ⟨⟨fun _ => ⟨rest, rfl⟩, fun _ => ⟨_, rfl⟩⟩, fun other hother => ?_, fun _ h => ?_⟩
    · cases hother
      rfl
    · cases h
  | error failure =>
    obtain ⟨line, rfl⟩ := unclosed_of_parse hb
    refine ⟨⟨?_, ?_⟩, fun _ h => ?_, fun other hother => ?_⟩
    · rintro ⟨_, h⟩
      cases h
    · rintro ⟨_, h⟩
      cases h
    · cases h
    · cases hother
      exact ⟨line, rfl, rfl⟩

/-- A document that is a code block, with a carriage return after its first fence. -/
def sampleBlock : String := "\x60\x60\x60 \r\ny\n\x60\x60\x60"

/-- A document with a code block that is never closed. -/
def sampleUnclosed : String := "x\n\x60\x60\x60py\r"

theorem parse_append_sample :
    (∃ nodes, parse sampleContent = .ok nodes) ∧
    parse (sampleContent ++ "\n" ++ sampleBlock) = .ok [⟨.heading 1, "T", 1⟩,
      ⟨.code (some "py"), "a\n\n# b", 2⟩, ⟨.item false 0, "x", 8⟩, ⟨.quote, "q", 9⟩,
      ⟨.code none, "y", 10⟩] ∧
    parse (sampleContent ++ "\n" ++ sampleUnclosed) = .error (.unclosedFence 11) := by
  refine ⟨⟨_, rfl⟩, (parse_append sampleContent sampleBlock _ rfl).2.1 _ rfl, ?_⟩
  obtain ⟨line, hline, hparse⟩ := (parse_append sampleContent sampleUnclosed _ rfl).2.2 _ rfl
  cases hline
  exact hparse

end Markdown
end SpecDraft
