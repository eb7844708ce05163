import SpecDraft.Proofs.Markdown.Lines

/-!
# Documents without code blocks

In a document without fences every line makes a block of its own (`parse_writtenLines`). What a line
makes is known from how it starts: `classify_item` and `classify_paragraph`.
-/
set_option autoImplicit false

namespace SpecDraft.Markdown

open Text

/-- A node without the number of its line. -/
def Node.unnumbered (node : Node) : Node := { node with line := 0 }

section Parse
variable {lines : List (List Char)}

theorem unnumbered_lineNode? (number : Nat) (line : List Char) :
    (lineNode? number line).map Node.unnumbered = lineNode? 0 line := by
  rw [lineNode?, lineNode?, Option.map_map]
  rfl

/-- Without fences the nodes are those of the lines. -/
theorem nodesFrom_of_plain (h : ∀ line ∈ lines, isFence line = false) (number : Nat) :
    ∃ nodes, nodesFrom number none lines = .ok nodes ∧
      nodes.map Node.unnumbered = lines.filterMap (lineNode? 0) := by
  induction lines generalizing number with
  | nil => exact ⟨[], rfl, rfl⟩
  | cons line lines ih =>
    obtain ⟨hline, hlines⟩ := List.forall_mem_cons.mp h
    obtain ⟨nodes, hrest, hnodes⟩ := ih hlines (number + 1)
    have hnone : after? fenceMark line = none := by
      rw [after?_eq_none_iff, ← isFence_iff, hline]
      exact Bool.false_ne_true
    refine ⟨(lineNode? number line).toList ++ nodes, ?_, ?_⟩
    · rw [nodesFrom, hnone]
      dsimp only
      rw [hrest]
      rfl
    · rw [List.map_append, hnodes, List.filterMap_cons, ← unnumbered_lineNode? number line]
      cases lineNode? number line <;> rfl

theorem dropRight_of_getLast? {s : List Char} {c : Char} (h : s.getLast? ≠ some c) :
    dropRight (· == c) s = s := by
  refine List.rdropWhile_eq_self_iff.mpr fun hne heq => h ?_
  rw [List.getLast?_eq_some_getLast hne, beq_iff_eq.mp heq]

/-- **Lines that were written are read one by one**, as long as none of them is a fence. -/
theorem parse_writtenLines
    (h : ∀ line ∈ lines, '\n' ∉ line ∧ line.getLast? ≠ some '\r' ∧ isFence line = false) :
    ∃ nodes, parse (String.ofList (writtenLines lines)) = .ok nodes ∧
      nodes.map Node.unnumbered = lines.filterMap (lineNode? 0) := by
  have hcontent : contentLines (String.ofList (writtenLines lines)) = lines ++ [[]] := by
    have hsame : lines.map (dropRight (· == '\r')) = lines :=
      (List.map_congr_left fun line hline => dropRight_of_getLast? (h line hline).2.1).trans
        (List.map_id lines)
    rw [contentLines, String.toList_ofList, lines_writtenLines fun line hline => (h line hline).1,
      List.map_append, hsame]
    rfl
  have hplain : ∀ line ∈ lines ++ [[]], isFence line = false := by
    intro line hline
    rcases List.mem_append.mp hline with hline | hline
    · exact (h line hline).2.2
    · rw [List.mem_singleton.mp hline]
      rfl
  obtain ⟨nodes, hnodes, hsame⟩ := nodesFrom_of_plain hplain 1
  refine ⟨nodes, by rw [parse, hcontent, hnodes], hsame.trans ?_⟩
  rw [List.filterMap_append, show [[]].filterMap (lineNode? 0) = [] from rfl, List.append_nil]

end Parse

/-! ## What a line starts with -/

section Classify
variable {text : List Char} {c : Char}

theorem isFence_cons (h : c ≠ '\x60') (text : List Char) : isFence (c :: text) = false := by
  rw [isFence, fenceMark, List.isPrefixOf_cons_cons]
  simp [Ne.symm h]

namespace Block

theorem heading?_cons (h : c ≠ '#') (text : List Char) : heading? (c :: text) = none := by
  have hmarks : (c :: text).takeWhile (· == '#') = [] :=
    List.takeWhile_cons_of_neg (by simpa using h)
  rw [heading?, hmarks]
  rfl

theorem quote?_cons (h : c ≠ '>') (text : List Char) : quote? (c :: text) = none := by
  unfold quote?
  split
  · rename_i heq
    exact absurd (List.cons.inj heq).1 h
  · rfl

/-- A text with two different characters is no rule. -/
theorem isRule_of_ne {line : List Char} {a b : Char} (htrim : trim line = line) (ha : a ∈ line)
    (hb : b ∈ line) (h : a ≠ b) : isRule line = false := by
  rw [isRule, htrim]
  refine Bool.and_eq_false_imp.mpr fun _ => List.any_eq_false.mpr fun mark _ hall => h ?_
  rw [List.all_eq_true] at hall
  rw [beq_iff_eq.mp (hall a ha), beq_iff_eq.mp (hall b hb)]

theorem content?_blank (htrim : trim text = text) (hne : text ≠ []) :
    content? (' ' :: text) = some text := by
  have hleft : trimLeft (' ' :: text) = text := by
    rw [trimLeft_cons_of_blank (by decide)]
    obtain ⟨c, rest, rfl⟩ := List.exists_cons_of_ne_nil hne
    exact trimLeft_cons_of_not_blank ((trim_eq_self_iff.mp htrim).1 c rfl) rest
  rw [content?, hleft]
  simp [hne, htrim]

/-- **An item** is a dash, a blank and a text. -/
theorem classify_item (htrim : trim text = text) (hne : text ≠ []) :
    classify ('-' :: ' ' :: text) = some (.item false 0, text) := by
  have hline : trim ('-' :: ' ' :: text) = '-' :: ' ' :: text :=
    trim_cons_append (by decide) [' '] htrim hne
  have hmarker : marker? ('-' :: ' ' :: text) = some (false, ' ' :: text) := rfl
  have hitem : item? ('-' :: ' ' :: text) = some (false, 0, text) := by
    rw [item?, trimLeft_cons_of_not_blank (by decide), hmarker]
    dsimp only
    rw [content?_blank htrim hne]
    simp
  rw [classify, heading?_cons (by decide),
    isRule_of_ne (a := '-') (b := ' ') hline (by simp) (by simp) (by decide),
    quote?_cons (by decide), hitem]
  rfl

/-- **A heading of level one** is a number sign, a blank and a text. -/
theorem classify_title (htrim : trim text = text) (hne : text ≠ []) :
    classify ('#' :: ' ' :: text) = some (.heading 1, text) := by
  have hheading : heading? ('#' :: ' ' :: text) = some (1, text) := by
    have hmarks : ('#' :: ' ' :: text).takeWhile (· == '#') = ['#'] := by simp
    rw [heading?, hmarks]
    simp [content?_blank htrim hne]
  rw [classify, hheading]

/-- **A text in bold** is a paragraph. -/
theorem classify_bold (hc : c ≠ '*')
    (htrim : trim ('*' :: '*' :: c :: text) = '*' :: '*' :: c :: text) :
    classify ('*' :: '*' :: c :: text) = some (.paragraph, '*' :: '*' :: c :: text) := by
  have hmarker : marker? ('*' :: '*' :: c :: text) = some (false, '*' :: c :: text) := rfl
  have hcontent : content? ('*' :: c :: text) = none := by
    rw [content?, trimLeft_cons_of_not_blank (by decide)]
    simp
  have hitem : item? ('*' :: '*' :: c :: text) = none := by
    rw [item?, trimLeft_cons_of_not_blank (by decide), hmarker]
    dsimp only
    rw [hcontent]
    rfl
  rw [classify, heading?_cons (by decide),
    isRule_of_ne (a := '*') (b := c) htrim (by simp) (by simp) hc.symm,
    quote?_cons (by decide), hitem, htrim]
  rfl

/-- The text of a paragraph is its line without the blanks around it. -/
theorem classify_paragraph {line : List Char} (h : classify line = some (.paragraph, text)) :
    text = trim line := by
  unfold classify at h
  split at h
  · cases h
  split at h
  · cases h
  split at h
  · cases h
  split at h
  · cases h
  dsimp only at h
  split at h
  · cases h
  · cases h
    rfl

end Block
end Classify

end SpecDraft.Markdown
