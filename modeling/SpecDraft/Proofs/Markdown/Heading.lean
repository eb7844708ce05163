import SpecDraft.Markdown.Document
import SpecDraft.Markdown.Section
import SpecDraft.Proofs.Markdown.Lines

/-!
# Headings and their lines

The line that a heading of a document comes from (`heading_of_parse`): number signs, as many as its
level, and what it says after them.
-/
set_option autoImplicit false

namespace SpecDraft.Markdown

open Text

section Heading
variable {line rest text : List Char} {level number : Nat} {node : Node}

/-- The text after a marker is what follows it, trimmed. -/
theorem Block.content?_some (h : Block.content? rest = some text) : text = trim rest := by
  unfold content? at h
  dsimp only at h
  split at h
  · rename_i hempty
    split at h
    · have hblank := trimLeft_eq_nil_iff.mp (List.isEmpty_iff.mp hempty)
      rw [trim_eq_nil_iff.mpr hblank]
      exact (Option.some.inj h).symm
    · cases h
  · split at h
    · exact (Option.some.inj h).symm.trans (trim_trimLeft rest)
    · cases h

theorem Block.heading?_some (h : Block.heading? line = some (level, text)) :
    1 ≤ level ∧ level ≤ 6 ∧ ∃ rest, line = List.replicate level '#' ++ rest ∧ text = trim rest := by
  unfold heading? at h
  dsimp only at h
  split at h
  · rename_i hlevel
    obtain ⟨content, hcontent, heq⟩ := Option.map_eq_some_iff.mp h
    cases heq
    refine ⟨hlevel.1, hlevel.2, line.drop (line.takeWhile (· == '#')).length, ?_,
      content?_some hcontent⟩
    have hmarks : line.takeWhile (· == '#') =
        List.replicate (line.takeWhile (· == '#')).length '#' :=
      List.eq_replicate_of_mem fun c hc => by simpa using mem_takeWhile hc
    rw [← hmarks]
    exact (List.prefix_iff_eq_append.mp (List.takeWhile_prefix _)).symm
  · cases h

theorem heading?_of_lineNode? (h : lineNode? number line = some node)
    (hlevel : node.level? = some level) :
    ∃ text, Block.heading? line = some (level, text) ∧ node.text = String.ofList text := by
  obtain ⟨⟨kind, text⟩, hclassify, rfl⟩ := Option.map_eq_some_iff.mp h
  unfold Block.classify at hclassify
  split at hclassify
  · rename_i other text' hheading
    cases hclassify
    obtain rfl := Option.some.inj hlevel
    exact ⟨text, hheading, rfl⟩
  -- No other rule makes a heading.
  split at hclassify
  · cases hclassify
    cases hlevel
  split at hclassify
  · cases hclassify
    cases hlevel
  split at hclassify
  · cases hclassify
    cases hlevel
  dsimp only at hclassify
  split at hclassify
  · cases hclassify
  · cases hclassify
    cases hlevel

end Heading

theorem kind_of_level? {node : Node} {level : Nat} (h : node.level? = some level) :
    node.kind = .heading level := by
  unfold Node.level? at h
  split at h
  · rename_i hkind
    rw [hkind, Option.some.inj h]
  · cases h

theorem isCode_of_level? {node : Node} {level : Nat} (h : node.level? = some level) :
    node.isCode = false := by
  rw [Node.isCode, kind_of_level? h]

/-- The nodes of a document stand in increasing lines. -/
theorem ordered_of_parse {content : String} {nodes : List Node} (h : parse content = .ok nodes) :
    nodes.Pairwise (·.line < ·.line) := by
  obtain ⟨segments, -, -, rfl⟩ := nodesFrom_reading h
  exact nodesOf_ordered 1 segments

/-- A node that is no code block comes from a line outside of code blocks. -/
theorem exists_line_of_parse {content : String} {nodes : List Node} {node : Node}
    (h : parse content = .ok nodes) (hnode : node ∈ nodes) (hcode : node.isCode = false) :
    ∃ before line after, contentLines content = before ++ line :: after ∧ Outside before line ∧
      lineNode? (before.length + 1) line = some node := by
  obtain ⟨segments, hproper, hlines, rfl⟩ := nodesFrom_reading h
  obtain ⟨before, line, after, hsplit, houtside, hmade⟩ := nodesOf_origin hproper hnode hcode
  rw [Nat.add_comm] at hmade
  exact ⟨before, line, after, hlines.trans hsplit, houtside, hmade⟩

/-- **The line of a heading**: a heading of a document stands outside of code blocks and consists of
as many number signs as its level says and of its text, with blanks around. -/
theorem heading_of_parse {content : String} {nodes : List Node} {node : Node} {level : Nat}
    (h : parse content = .ok nodes) (hnode : node ∈ nodes) (hlevel : node.level? = some level) :
    1 ≤ level ∧ level ≤ 6 ∧ ∃ before rest after,
      contentLines content = before ++ (List.replicate level '#' ++ rest) :: after ∧
      Outside before (List.replicate level '#' ++ rest) ∧
      node.line = before.length + 1 ∧ node.text = String.ofList (trim rest) := by
  obtain ⟨before, line, after, hlines, houtside, hmade⟩ :=
    exists_line_of_parse h hnode (isCode_of_level? hlevel)
  obtain ⟨text, hheading, htext⟩ := heading?_of_lineNode? hmade hlevel
  obtain ⟨hpos, hle, rest, rfl, rfl⟩ := Block.heading?_some hheading
  exact ⟨hpos, hle, before, rest, after, hlines, houtside, (lineNode?_some hmade).1, htext⟩

/-- Reading is evaluated up to how it fails. -/
theorem parse_of_toOption {content : String} {nodes : List Node}
    (h : (parse content).toOption = some nodes) : parse content = .ok nodes := by
  generalize parse content = result at h ⊢
  cases result with
  | error failure => cases h
  | ok read => exact congrArg Except.ok (Option.some.inj h)

end SpecDraft.Markdown

namespace SpecDraft.Document

/-- A content that is read makes a document of its nodes. -/
theorem exists_parse {content : String} {nodes : List Markdown.Node}
    (h : Markdown.parse content = .ok nodes) (path : FilePath) (lastModified : String) :
    ∃ document, parse content path lastModified = .ok document ∧ document.nodes = nodes := by
  rw [parse, h]
  exact ⟨_, rfl, rfl⟩

end SpecDraft.Document
