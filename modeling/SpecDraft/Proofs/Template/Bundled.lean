import SpecDraft.Proofs.Template.Specification
import SpecDraft.Proofs.Template.Trimming

/-!
# The bundled templates as trees

What the bundled templates are read as, apart from their texts (`Bundled.parse_outline`). Their tags
are read off their lines; neither the texts between them nor trimming makes a difference to the
blocks and the variables of the tree.
-/
set_option autoImplicit false

namespace SpecDraft.Template

open Text

/-! ## The tags of plain tokens -/

/-- Whether a token is a tag, or a text without an opening brace. -/
def IsPlainToken : Token → Prop
  | .text chars => '\x7b' ∉ chars
  | token => token.IsTag

section Plain
variable {a : List Token} {chars : List Char} {template : String}

instance : (token : Token) → Decidable (IsPlainToken token)
  | .text chars => inferInstanceAs (Decidable ('\x7b' ∉ chars))
  | .ref name => inferInstanceAs (Decidable (Token.ref name).IsTag)
  | .each gap name => inferInstanceAs (Decidable (Token.each gap name).IsTag)
  | .choice gap name => inferInstanceAs (Decidable (Token.choice gap name).IsTag)
  | .otherwise | .endChoice | .endEach => isTrue trivial

/-- The characters of a long text are looked at one by one. -/
theorem isPlainToken_said (h : '\x7b' ∉ chars) : IsPlainToken (said (String.ofList chars)) := by
  rw [said, String.toList_ofList]
  exact h

theorem IsPlainToken.append {s t : String} (hs : IsPlainToken (said s))
    (ht : IsPlainToken (said t)) : IsPlainToken (said (s ++ t)) := by
  rw [said, String.toList_append]
  exact fun hmem => (List.mem_append.mp hmem).elim hs ht

theorem isTagFree_of_not_mem (h : '\x7b' ∉ chars) : IsTagFree chars := by
  intro tag htag hin
  obtain ⟨content, -, hsource⟩ := source_eq_braces htag
  exact h (hin.subset (hsource ▸ List.mem_cons_self))

/-- The texts of plain tokens hold no tag, however many of them follow one another. -/
theorem clear_layoutOf (h : ∀ token ∈ a, IsPlainToken token) : (layoutOf a).Clear := by
  have hplain : '\x7b' ∉ (layoutOf a).head ∧ ClearTags (layoutOf a).tags := by
    induction a with
    | nil => exact ⟨List.not_mem_nil, clearTags_nil⟩
    | cons token a ih =>
      obtain ⟨htoken, ha⟩ := List.forall_mem_cons.mp h
      obtain ⟨hhead, htags⟩ := ih ha
      cases token with
      | text chars =>
        refine ⟨fun hmem => ?_, htags⟩
        rcases List.mem_append.mp hmem with hchars | hrest
        · exact htoken hchars
        · exact hhead hrest
      | _ => exact ⟨List.not_mem_nil, List.forall_mem_cons.mpr
          ⟨⟨htoken, isTagFree_of_not_mem hhead⟩, htags⟩⟩
  exact ⟨isTagFree_of_not_mem hplain.1, hplain.2⟩

theorem spelling_layoutOf (a : List Token) : spelling (layoutOf a).tokens = spelling a := by
  induction a with
  | nil => rfl
  | cons token a ih =>
    rw [Layout.tokens, spelling_textTokens] at ih ⊢
    cases token with
    | text chars => rw [spelling_text, ← ih, layoutOf, List.append_assoc]
    | _ =>
      rw [spelling_cons, ← ih]
      exact (spelling_cons _ _).trans (congrArg (_ ++ ·) (spelling_textTokens _ _))

theorem tags_layoutOf (a : List Token) : (layoutOf a).tags.map Prod.fst = tagsOf a := by
  induction a with
  | nil => rfl
  | cons token a ih =>
    cases token with
    | text chars => exact ih
    | _ => exact congrArg (_ :: ·) ih

/-- **The tags of a template** are those of any plain tokens that spell it. -/
theorem tagsOf_of_plain (h : ∀ token ∈ a, IsPlainToken token)
    (hspelling : spelling a = template.toList) : tagsOf (tokens template) = tagsOf a := by
  have hclear := clear_layoutOf h
  rw [tokens_of_lexical hclear.lexical ((spelling_layoutOf a).trans hspelling),
    hclear.tagsOf_tokens, tags_layoutOf]

/-- Lines as tokens, each with the line break that ends it. -/
def brokenLines (lines : List (List Token)) : List Token :=
  lines.flatMap fun line => line ++ [.text ['\n']]

theorem spelling_brokenLines (lines : List (List Token)) :
    spelling (brokenLines lines) = linesText lines := by
  rw [spelling, brokenLines, List.flatMap_assoc, linesText]
  refine List.flatMap_congr fun line _ => ?_
  rw [List.flatMap_append]
  rfl

theorem tagsOf_append (a b : List Token) : tagsOf (a ++ b) = tagsOf a ++ tagsOf b :=
  List.filter_append ..

theorem tagsOf_brokenLines (lines : List (List Token)) :
    tagsOf (brokenLines lines) = tagsOf lines.flatten := by
  induction lines with
  | nil => rfl
  | cons line lines ih =>
    rw [brokenLines, List.flatMap_cons, List.flatten_cons, tagsOf_append, tagsOf_append,
      tagsOf_append, ← ih]
    exact congrArg (· ++ _) (List.append_nil _)

theorem plain_brokenLines {lines : List (List Token)}
    (h : ∀ token ∈ lines.flatten, IsPlainToken token) :
    ∀ token ∈ brokenLines lines, IsPlainToken token := by
  intro token htoken
  obtain ⟨line, hline, hmem⟩ := List.mem_flatMap.mp htoken
  rcases List.mem_append.mp hmem with hmem | hmem
  · exact h token (List.mem_flatten.mpr ⟨line, hline, hmem⟩)
  · rw [List.mem_singleton.mp hmem]
    decide

/-- **A bundled template of plain lines** is read, and what is left of its tree without the texts
is what its tags build. -/
theorem parse_of_lines {limit : Int} {template : Bundled} {lines : List (List Token)}
    {outline : List Node} (hlines : template.lines.map String.toList = lines.map spelling)
    (hplain : ∀ token ∈ lines.flatten, IsPlainToken token)
    (htags : tagsOf lines.flatten = Node.tokensOf outline)
    (hdepth : (Node.depthOf outline : Int) ≤ limit) :
    ∃ tree, parse limit true template.text = .ok tree ∧ Node.outlineOf tree = outline := by
  have hspelling : spelling (brokenLines lines) = template.text.toList :=
    (spelling_brokenLines lines).trans (toList_text hlines).symm
  have hread : (parse limit true template.text).map Node.outlineOf = .ok outline := by
    rw [parse, if_pos rfl, outline_treeOf, tagsOf_trimBlockLines,
      tagsOf_of_plain (plain_brokenLines hplain) hspelling, tagsOf_brokenLines, htags]
    exact treeOf_tokens outline hdepth
  cases hparse : parse limit true template.text with
  | error failure =>
    rw [hparse] at hread
    cases hread
  | ok tree =>
    rw [hparse] at hread
    exact ⟨tree, rfl, Except.ok.inj hread⟩

end Plain

/-! ## Lines and outlines -/

namespace Bundled

/-- The lines for the purpose and the values of a constitution. -/
def principlesLines : List (List Token) :=
  [[said "## Purpose"], [], [.ref "purpose"], [], [said "## Core Values"], []] ++
    listedLines "values" ++ [[]]

/-- The lines for the standards, the metrics and the governance of a constitution. -/
def practiceLines : List (List Token) :=
  [[said "## Development Standards"], [], [.each " " "development_standards"],
    [said "### ", .ref "category", said " (", .ref "level", said ")"], [], [.ref "description"], [],
    [.endEach], [said "## Quality Metrics"], [], [said "| Metric | Target | Measurement |"],
    [said "|--------|--------|-------------|"], [.each " " "quality_metrics"],
    [said "| ", .ref "name", said " | ", .ref "target", said " | ", .ref "measurement", said " |"],
    [.endEach], [], [said "## Governance"], [],
    [said "- **Decision making:** ", .ref "decision_making"],
    [said "- **Change approval:** ", .ref "change_approval"],
    [said "- **Conflict resolution:** ", .ref "conflict_resolution"]]

/-- The lines for the technical stack of a constitution. -/
def stackLines : List (List Token) :=
  [[.choice " " "has_technical_stack"], [said "## Technical Stack"], [],
    [said "- **Languages:** ", .ref "languages"], [said "- **Frameworks:** ", .ref "frameworks"],
    [said "- **Databases:** ", .ref "databases"],
    [said "- **Infrastructure:** ", .ref "infrastructure"],
    [said "- **Build tools:** ", .ref "build_tools"], [], [.otherwise],
    [said "## Technical Stack"], [], [said "The technical stack has not been documented yet."], [],
    [.endChoice]]

/-- The lines of the template for plans. -/
def planLines : List (List Token) :=
  [[said "# Implementation Plan: ", .ref "feature_name"], [],
    [said "**Feature ID:** ", .ref "feature_id"],
    [said "**Estimated Effort:** ", .ref "estimated_effort"], [], [said "## Current State"], [],
    [.ref "current_state"], [], [said "## Target State"], [], [.ref "target_state"], [],
    [said "## Technical Approach"], [], [said "- ", .ref "technical_approach"], [],
    [said "## Tasks"], [], [.each " " "tasks"],
    [said "### ", .ref "id", said ": ", .ref "description"], [],
    [said "- **Category:** ", .ref "category"],
    [said "- **Estimated Hours:** ", .ref "estimated_hours"],
    [said "- **Depends On:** ", .ref "depends_on"], [], [.endEach], [said "## Risks"], [],
    [.each " " "risks"],
    [said "- **", .ref "description", said "** (probability: ", .ref "probability",
      said ", impact: ", .ref "impact", said ")"],
    [said "  - Mitigation: ", .ref "mitigation"], [.endEach], [], [said "## Dependencies"], []] ++
  listedOrLines "has_dependencies" (listedLines "dependencies") "None."

/-- The lines that a constitution starts with. -/
def introLines (remark : String) : List (List Token) :=
  [[said "# Project Constitution"], [], [said remark], []]

/-- The lines of the template of a constitution that keeps no stack. -/
def agnosticLines : List (List Token) :=
  introLines
      ("> Route: greenfield. Principles are technology-agnostic; the implementation stack is " ++
        "chosen during planning.") ++
    principlesLines ++ practiceLines

/-- The lines of the template of a constitution that keeps its stack. -/
def prescriptiveLines : List (List Token) :=
  introLines
      ("> Route: brownfield. Principles describe the existing application and its current " ++
        "technical stack.") ++
    principlesLines ++ stackLines ++ practiceLines

theorem lines_principles : principles.map String.toList = principlesLines.map spelling := by
  simp only [principles, listed, principlesLines, listedLines, said, List.map_cons, List.map_nil,
    List.cons_append, List.nil_append, String.reduceAppend]
  simp only [spelling_cons, show spelling [] = [] from rfl, Token.source, String.toList_append,
    String.toList_ofList, String.toList_empty, List.append_nil, String.reduceAppend]

theorem lines_stack : stack.map String.toList = stackLines.map spelling := by
  simp only [stack, stackLines, said, List.map_cons, List.map_nil]
  simp only [spelling_cons, show spelling [] = [] from rfl, Token.source, String.toList_append,
    String.toList_ofList, String.toList_empty, List.append_nil, String.reduceAppend]

theorem lines_practice : practice.map String.toList = practiceLines.map spelling := by
  simp only [practice, practiceLines, said, List.map_cons, List.map_nil]
  simp only [spelling_cons, show spelling [] = [] from rfl, Token.source, String.toList_append,
    String.toList_ofList, String.toList_empty, List.append_assoc, List.append_nil,
    String.reduceAppend]

theorem lines_intro (remark : String) :
    ["# Project Constitution", "", remark, ""].map String.toList =
      (introLines remark).map spelling := by
  simp only [introLines, said, List.map_cons, List.map_nil, spelling_text,
    show spelling [] = [] from rfl, String.toList_empty, List.append_nil]

theorem lines_agnostic :
    agnosticConstitution.lines.map String.toList = agnosticLines.map spelling := by
  rw [agnosticLines, List.map_append, List.map_append, ← lines_intro, ← lines_principles,
    ← lines_practice, ← List.map_append, ← List.map_append]
  rfl

theorem lines_prescriptive :
    prescriptiveConstitution.lines.map String.toList = prescriptiveLines.map spelling := by
  rw [prescriptiveLines, List.map_append, List.map_append, List.map_append, ← lines_intro,
    ← lines_principles, ← lines_stack, ← lines_practice, ← List.map_append, ← List.map_append,
    ← List.map_append]
  rfl

theorem lines_plan : implPlan.lines.map String.toList = planLines.map spelling := by
  simp only [lines, listed, listedOr, planLines, listedLines, listedOrLines, said, List.map_cons,
    List.map_nil, List.cons_append, List.nil_append, String.reduceAppend]
  simp only [spelling_cons, show spelling [] = [] from rfl, Token.source, String.toList_append,
    String.toList_ofList, String.toList_empty, List.append_assoc, List.append_nil,
    String.reduceAppend]

theorem plain_principlesLines : ∀ token ∈ principlesLines.flatten, IsPlainToken token := by
  decide +kernel

theorem plain_practiceLines : ∀ token ∈ practiceLines.flatten, IsPlainToken token := by
  decide +kernel

theorem plain_stackLines : ∀ token ∈ stackLines.flatten, IsPlainToken token := by
  decide +kernel

theorem plain_planLines : ∀ token ∈ planLines.flatten, IsPlainToken token := by
  decide +kernel

theorem plain_introLines {remark : String} (h : IsPlainToken (said remark)) :
    ∀ token ∈ (introLines remark).flatten, IsPlainToken token := by
  have htitle : IsPlainToken (said "# Project Constitution") := by decide +kernel
  simpa [introLines] using ⟨htitle, h⟩

theorem plain_agnosticLines : ∀ token ∈ agnosticLines.flatten, IsPlainToken token := by
  rw [agnosticLines, List.flatten_append, List.flatten_append, List.forall_mem_append,
    List.forall_mem_append]
  refine ⟨⟨plain_introLines ?_, plain_principlesLines⟩, plain_practiceLines⟩
  refine (isPlainToken_said ?_).append (isPlainToken_said ?_) <;> decide

theorem plain_prescriptiveLines : ∀ token ∈ prescriptiveLines.flatten, IsPlainToken token := by
  rw [prescriptiveLines, List.flatten_append, List.flatten_append, List.flatten_append,
    List.forall_mem_append, List.forall_mem_append, List.forall_mem_append]
  refine ⟨⟨⟨plain_introLines ?_, plain_principlesLines⟩, plain_stackLines⟩, plain_practiceLines⟩
  refine (isPlainToken_said ?_).append (isPlainToken_said ?_) <;> decide

/-- A loop that lists the items of a name. -/
def listedOutline (name : String) : Node := .loop name [.ref "this"]

/-- The purpose and the values of a constitution. -/
def principlesOutline : List Node := [.ref "purpose", listedOutline "values"]

/-- The technical stack of a constitution. -/
def stackOutline : List Node :=
  [.choice "has_technical_stack"
    [.ref "languages", .ref "frameworks", .ref "databases", .ref "infrastructure",
      .ref "build_tools"]
    (some [])]

/-- The standards, the metrics and the governance of a constitution. -/
def practiceOutline : List Node :=
  [.loop "development_standards" [.ref "category", .ref "level", .ref "description"],
    .loop "quality_metrics" [.ref "name", .ref "target", .ref "measurement"],
    .ref "decision_making", .ref "change_approval", .ref "conflict_resolution"]

/-- The technical requirements of one kind. -/
def kindOutline (name : String) : Node := .choice ("has_" ++ name) [listedOutline name] none

/-- The blocks and the variables of a bundled template. -/
def outline : Bundled → List Node
  | agnosticConstitution => principlesOutline ++ practiceOutline
  | prescriptiveConstitution => principlesOutline ++ (stackOutline ++ practiceOutline)
  | featureSpec =>
    [.ref "feature_name", .ref "feature_id", .ref "status", .ref "description",
      .choice "has_user_stories"
        [.loop "user_stories" [.ref "role", .ref "goal", .ref "benefit"]] (some []),
      .choice "has_acceptance_criteria"
        [.loop "acceptance_criteria" [.choice "checked" [] (some []), .ref "description"]]
        (some []),
      .choice "has_dependencies" [listedOutline "dependencies"] (some []),
      .choice "has_technical_requirements"
        [kindOutline "endpoints", kindOutline "data_models", kindOutline "components",
          kindOutline "technical_dependencies", kindOutline "files"]
        none]
  | implPlan =>
    [.ref "feature_name", .ref "feature_id", .ref "estimated_effort", .ref "current_state",
      .ref "target_state", .ref "technical_approach",
      .loop "tasks" [.ref "id", .ref "description", .ref "category", .ref "estimated_hours",
        .ref "depends_on"],
      .loop "risks" [.ref "description", .ref "probability", .ref "impact", .ref "mitigation"],
      .choice "has_dependencies" [listedOutline "dependencies"] (some [])]

/-- **A bundled template is read**, as long as three blocks may be open at a time. -/
theorem parse_outline (template : Bundled) {limit : Int} (h : 3 ≤ limit) :
    ∃ tree, parse limit true template.text = .ok tree ∧
      Node.outlineOf tree = template.outline := by
  have hdepth {depth : Nat} (hle : depth ≤ 3) : (depth : Int) ≤ limit := by omega
  cases template with
  | agnosticConstitution =>
    exact parse_of_lines lines_agnostic plain_agnosticLines rfl (hdepth (by decide))
  | prescriptiveConstitution =>
    exact parse_of_lines lines_prescriptive plain_prescriptiveLines rfl (hdepth (by decide))
  | featureSpec => exact ⟨featureSpecTree, parse_featureSpec h, rfl⟩
  | implPlan => exact parse_of_lines lines_plan plain_planLines rfl (hdepth (by decide))

end Bundled

end SpecDraft.Template
