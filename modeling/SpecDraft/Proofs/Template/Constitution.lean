import SpecDraft.Proofs.Template.Bundled

/-!
# Rendered constitutions

What the templates for constitutions are read as (`parse_constitution`), and the lines that they
make of a constitution (`render_constitution`). The two templates differ in the remark on the route
and in the stack only, so each part is written once, with what stands around it left open.
-/
set_option autoImplicit false

namespace SpecDraft

open Text Template

/-- The remark on the route that a constitution starts with. -/
def Route.remark : Route → String
  | .greenfield =>
    "> Route: greenfield. Principles are technology-agnostic; the implementation stack is " ++
      "chosen during planning."
  | .brownfield =>
    "> Route: brownfield. Principles describe the existing application and its current " ++
      "technical stack."

namespace Template

/-! ## The templates -/

/-- The tree of the title, the purpose and the values, and of what follows them. -/
def principlesTree (remark : String) (next : List Node) : List Node :=
  .text ("# Project Constitution" ++ "\n" ++ "\n" ++ remark ++ "\n" ++ "\n" ++ "## Purpose" ++
      "\n" ++ "\n") ::
    .ref "purpose" :: .text ("\n" ++ "\n" ++ "## Core Values" ++ "\n" ++ "\n") ::
    listedNode "values" :: next

/-- The technical stack of a constitution. -/
def stackNode : Node :=
  .choice "has_technical_stack"
    [.text ("## Technical Stack" ++ "\n" ++ "\n" ++ "- **Languages:** "), .ref "languages",
      .text ("\n" ++ "- **Frameworks:** "), .ref "frameworks",
      .text ("\n" ++ "- **Databases:** "), .ref "databases",
      .text ("\n" ++ "- **Infrastructure:** "), .ref "infrastructure",
      .text ("\n" ++ "- **Build tools:** "), .ref "build_tools", .text ("\n" ++ "\n")]
    (some [.text ("## Technical Stack" ++ "\n" ++ "\n" ++
      "The technical stack has not been documented yet." ++ "\n" ++ "\n")])

/-- What a template makes of a standard. -/
def standardNodes : List Node :=
  [.text "### ", .ref "category", .text " (", .ref "level", .text (")" ++ "\n" ++ "\n"),
    .ref "description", .text ("\n" ++ "\n")]

/-- What a template makes of a metric. -/
def metricNodes : List Node :=
  [.text "| ", .ref "name", .text " | ", .ref "target", .text " | ", .ref "measurement",
    .text (" |" ++ "\n")]

/-- The tree of the standards, the metrics and the governance, with the text before them. -/
def practiceTree (lead : String) : List Node :=
  [.text (lead ++ "## Development Standards" ++ "\n" ++ "\n"),
    .loop "development_standards" standardNodes,
    .text ("## Quality Metrics" ++ "\n" ++ "\n" ++ "| Metric | Target | Measurement |" ++ "\n" ++
      "|--------|--------|-------------|" ++ "\n"),
    .loop "quality_metrics" metricNodes,
    .text ("\n" ++ "## Governance" ++ "\n" ++ "\n" ++ "- **Decision making:** "),
    .ref "decision_making", .text ("\n" ++ "- **Change approval:** "), .ref "change_approval",
    .text ("\n" ++ "- **Conflict resolution:** "), .ref "conflict_resolution", .text "\n"]

/-- The tree of the template for a route. -/
def constitutionTree : Route → List Node
  | .greenfield => principlesTree Route.greenfield.remark (practiceTree "\n")
  | .brownfield =>
    principlesTree Route.brownfield.remark (.text "\n" :: stackNode :: practiceTree "")

/-- Block tags on lines of their own lose the line break, and all other lines keep it. -/
theorem trimmed_principles (remark : String) {next : List Node} {rest : List Char}
    (h : spelling (Node.tokensOf next) = '\n' :: rest) :
    (Bundled.introLines remark ++ Bundled.principlesLines).flatMap trimmedLine ++ rest =
      spelling (Node.tokensOf (principlesTree remark next)) := by
  simp only [Bundled.introLines, Bundled.principlesLines, listedLines, said, principlesTree,
    listedNode, Node.tokensOf, Node.tokens, List.flatMap_cons, List.flatMap_nil, List.append_assoc,
    List.cons_append, List.nil_append, List.append_nil, trimmedLine, isAlone, Token.isBlockTag,
    if_true, Bool.false_eq_true, if_false, spelling_cons, h, show spelling [] = [] from rfl,
    Token.source, String.toList_append, String.toList_ofList, toList_newline]

theorem trimmed_stack (next : List Node) :
    Bundled.stackLines.flatMap trimmedLine ++ spelling (Node.tokensOf next) =
      spelling (Node.tokensOf (stackNode :: next)) := by
  simp only [Bundled.stackLines, said, stackNode, Node.tokensOf, Node.tokens, Node.tokensOfElse,
    List.flatMap_cons, List.flatMap_nil, List.append_assoc, List.cons_append, List.nil_append,
    List.append_nil, trimmedLine, isAlone, Token.isBlockTag, if_true, Bool.false_eq_true, if_false,
    spelling_cons, show spelling [] = [] from rfl, Token.source, String.toList_append,
    String.toList_ofList, toList_newline]

theorem trimmed_practice (lead : String) :
    lead.toList ++ Bundled.practiceLines.flatMap trimmedLine =
      spelling (Node.tokensOf (practiceTree lead)) := by
  simp only [Bundled.practiceLines, said, practiceTree, standardNodes, metricNodes, Node.tokensOf,
    Node.tokens, List.flatMap_cons, List.flatMap_nil, List.append_assoc, List.cons_append,
    List.nil_append, List.append_nil, trimmedLine, isAlone, Token.isBlockTag, if_true,
    Bool.false_eq_true, if_false, spelling_cons, show spelling [] = [] from rfl, Token.source,
    String.toList_append, String.toList_ofList, toList_newline]

theorem plainLines_agnostic : Bundled.agnosticLines.all isPlainLine = true := by decide +kernel

theorem plainLines_prescriptive : Bundled.prescriptiveLines.all isPlainLine = true := by
  decide +kernel

theorem plain_constitutionTree (route : Route) :
    isPlain (Node.tokensOf (constitutionTree route)) = true := by
  cases route <;> decide +kernel

/-- **The template of the constitution for a route** is read as its tree, as long as a block may be
open. -/
theorem parse_constitution (route : Route) {limit : Int} (h : 1 ≤ limit) :
    parse limit true route.constitutionTemplate.text = .ok (constitutionTree route) := by
  have hplain := plain_constitutionTree route
  cases route with
  | greenfield =>
    have hnext : spelling (Node.tokensOf (practiceTree "\n")) =
        '\n' :: Bundled.practiceLines.flatMap trimmedLine := (trimmed_practice "\n").symm
    refine parse_of_tree Bundled.lines_agnostic plainLines_agnostic ?_ hplain h
    rw [constitutionTree, ← trimmed_principles _ hnext, ← List.flatMap_append]
    rfl
  | brownfield =>
    have hnext : spelling (Node.tokensOf (.text "\n" :: stackNode :: practiceTree "")) =
        '\n' :: (Bundled.stackLines.flatMap trimmedLine ++
          Bundled.practiceLines.flatMap trimmedLine) := by
      rw [Node.tokensOf, Node.tokens, List.singleton_append, spelling_text, ← trimmed_stack,
        ← trimmed_practice, toList_newline, String.toList_empty, List.nil_append,
        List.singleton_append]
    refine parse_of_tree Bundled.lines_prescriptive plainLines_prescriptive ?_ hplain h
    rw [constitutionTree, ← trimmed_principles _ hnext, ← List.flatMap_append,
      ← List.flatMap_append, ← List.append_assoc]
    rfl

end Template

/-! ## The lines -/

namespace Json

theorem renderedItems_strs (texts : List String) : renderedItems (texts.map .str) = texts := by
  induction texts with
  | nil => rfl
  | cons text texts ih => rw [List.map_cons, renderedItems, ih, rendered]

theorem rendered_strs (texts : List String) : (strs texts).rendered = join ", " texts := by
  rw [strs, rendered, renderedItems_strs, join]

end Json

/-- The line of a kind of technologies. -/
def TechnicalStack.kindLine (title : String) (items : List String) : List Char :=
  ("- **" ++ title ++ ":** " ++ join ", " items).toList

/-- The lines of a stack. -/
def TechnicalStack.lines (stack : TechnicalStack) : List (List Char) :=
  [kindLine "Languages" stack.languages, kindLine "Frameworks" stack.frameworks,
    kindLine "Databases" stack.databases, kindLine "Infrastructure" stack.infrastructure,
    kindLine "Build tools" stack.buildTools]

/-- What the template sees of a standard. -/
def Standard.fields (standard : Standard) : Members :=
  [("category", .str standard.category), ("description", .str standard.description),
    ("level", .str standard.level)]

/-- What the template sees of a metric. -/
def QualityMetric.fields (metric : QualityMetric) : Members :=
  [("name", .str metric.name), ("target", .str metric.target),
    ("measurement", .str metric.measurement)]

/-- The lines of a standard. -/
def Standard.lines (standard : Standard) : List (List Char) :=
  [("### " ++ standard.category ++ " (" ++ standard.level ++ ")").toList, [],
    standard.description.toList, []]

/-- The row of a metric in a table. -/
def QualityMetric.row (metric : QualityMetric) : List Char :=
  ("| " ++ metric.name ++ " | " ++ metric.target ++ " | " ++ metric.measurement ++ " |").toList

/-- The lines of the rules of a project. -/
def Governance.lines (rules : Governance) : List (List Char) :=
  [("- **Decision making:** " ++ rules.decisionMaking).toList,
    ("- **Change approval:** " ++ rules.changeApproval).toList,
    ("- **Conflict resolution:** " ++ rules.conflictResolution).toList]

namespace Constitution

variable (c : Constitution) (route : Route)

/-- The lines for the title, the purpose and the values. -/
def principleLines : List (List Char) :=
  ["# Project Constitution".toList, [], route.remark.toList, [], "## Purpose".toList, [],
    c.purpose.toList, [], "## Core Values".toList, []] ++ c.values.map itemLine

/-- The stack that a constitution shows: that of a project that keeps its stack. -/
def shownStack : Option TechnicalStack := if c.keepsStack then c.stack else none

/-- The lines for the stack. -/
def stackLines : List (List Char) :=
  "## Technical Stack".toList :: [] ::
    match c.shownStack with
    | some stack => stack.lines ++ [[]]
    | none => ["The technical stack has not been documented yet.".toList, []]

/-- The lines for the standards, down to the table of metrics. -/
def standardLines : List (List Char) :=
  "## Development Standards".toList :: [] ::
    (c.standards.flatMap Standard.lines ++ ["## Quality Metrics".toList, []])

/-- The header of the table of metrics and the line that separates it from the rows. -/
def tableHeader : List (List Char) :=
  ["| Metric | Target | Measurement |".toList, "|--------|--------|-------------|".toList]

/-- The lines below the table of metrics. -/
def governanceLines : List (List Char) :=
  [] :: "## Governance".toList :: [] :: c.governance.lines

/-- The lines above the table of metrics. -/
def leadLines : List (List Char) :=
  c.principleLines route ++
    [] :: ((match route with | .greenfield => [] | .brownfield => c.stackLines) ++ c.standardLines)

/-- The lines of a constitution. -/
def documentLines : List (List Char) :=
  c.leadLines route ++ (tableHeader ++ (c.metrics.map QualityMetric.row ++ c.governanceLines))

/-- The text of a constitution. -/
def documentText : String := String.ofList (writtenLines (c.documentLines route))

theorem templateData_wellFormed : c.templateData.WellFormed := by
  rw [← Members.wellFormed_obj]
  cases hstack : c.stack <;>
    simp [templateData, hstack, TechnicalStack.members, Governance.members, FieldValue.list,
      Json.WellFormed, Json.MembersWellFormed, Json.itemsWellFormed_iff, FieldValue.toJson]

theorem charsOf_principles (next : List Template.Node) :
    Node.charsOf c.templateData (principlesTree route.remark next) =
      writtenLines (c.principleLines route) ++ Node.charsOf c.templateData next := by
  rw [principlesTree, Node.charsOf_text, Node.charsOf_ref c.purpose rfl, Node.charsOf_text,
    Node.charsOf_listedNode c.values rfl]
  simp only [principleLines, writtenLines_cons, String.toList_append, toList_newline,
    List.append_assoc, List.cons_append, List.nil_append]

theorem charsOf_technologies {values : Members} {name : String} (texts : List String)
    (h : values.get? name = some (.strs texts)) (nodes : List Template.Node) :
    Node.charsOf values (.ref name :: nodes) =
      (join ", " texts).toList ++ Node.charsOf values nodes := by
  rw [← Json.rendered_strs, Node.charsOf, Node.piecesOf, Node.pieces, h]
  rfl

theorem get?_hasStack :
    c.templateData.get? "has_technical_stack" = some (.bool c.shownStack.isSome) := by
  have hflag : (c.keepsStack && c.stack.isSome) = c.shownStack.isSome := by
    cases hkeeps : c.keepsStack <;> simp [shownStack, hkeeps]
  rw [← hflag]
  rfl

theorem charsOf_stack (next : List Template.Node) :
    Node.charsOf c.templateData (stackNode :: next) =
      writtenLines c.stackLines ++ Node.charsOf c.templateData next := by
  rw [stackNode, Node.charsOf_choice _ c.get?_hasStack, stackLines]
  refine congrArg (· ++ _) ?_
  cases hshown : c.shownStack with
  | none =>
    rw [Option.isSome_none, if_neg Bool.false_ne_true, Option.getD_some, Node.charsOf_text,
      Node.charsOf_nil]
    simp only [writtenLines_cons, String.toList_append, toList_newline, List.append_assoc,
      List.cons_append, List.nil_append]
    rfl
  | some stack =>
    have hstack : c.stack = some stack := by
      rw [shownStack] at hshown
      split at hshown
      · exact hshown
      · cases hshown
    -- The data has members for the kinds of technologies once the stack is known.
    obtain ⟨purpose, values, standards, metrics, governance, name, _⟩ := c
    cases hstack
    rw [Option.isSome_some, if_pos rfl, Node.charsOf_text,
      charsOf_technologies stack.languages rfl, Node.charsOf_text,
      charsOf_technologies stack.frameworks rfl, Node.charsOf_text,
      charsOf_technologies stack.databases rfl, Node.charsOf_text,
      charsOf_technologies stack.infrastructure rfl, Node.charsOf_text,
      charsOf_technologies stack.buildTools rfl, Node.charsOf_text, Node.charsOf_nil]
    simp only [TechnicalStack.lines, TechnicalStack.kindLine, writtenLines_cons,
      String.toList_append, toList_newline, List.append_assoc, List.cons_append, List.nil_append]
    rfl

theorem charsOf_standards (next : List Template.Node) :
    Node.charsOf c.templateData (.loop "development_standards" standardNodes :: next) =
      writtenLines (c.standards.flatMap Standard.lines) ++ Node.charsOf c.templateData next := by
  have hstandards : c.templateData.get? "development_standards" =
      some (.arr (c.standards.map fun standard => .obj standard.fields)) := rfl
  rw [Node.charsOf_items c.standards _ (fun standard => writtenLines standard.lines) hstandards,
    writtenLines, List.flatMap_assoc]
  · rfl
  intro standard index
  have hfields : (Json.obj standard.fields).WellFormed := by
    simp [Standard.fields, Json.WellFormed, Json.MembersWellFormed]
  rw [standardNodes, Node.charsOf_text,
    Node.charsOf_field standard.category hfields rfl (by decide), Node.charsOf_text,
    Node.charsOf_field standard.level hfields rfl (by decide), Node.charsOf_text,
    Node.charsOf_field standard.description hfields rfl (by decide), Node.charsOf_text]
  simp only [Standard.lines, writtenLines_cons, Node.charsOf_nil, String.toList_append,
    toList_newline, List.append_assoc, List.cons_append, List.nil_append, List.append_nil]
  rfl

theorem charsOf_metrics (next : List Template.Node) :
    Node.charsOf c.templateData (.loop "quality_metrics" metricNodes :: next) =
      writtenLines (c.metrics.map QualityMetric.row) ++ Node.charsOf c.templateData next := by
  have hmetrics : c.templateData.get? "quality_metrics" =
      some (.arr (c.metrics.map fun metric => .obj metric.fields)) := rfl
  refine Node.charsOf_loop c.metrics _ QualityMetric.row hmetrics (fun metric index => ?_) next
  have hfields : (Json.obj metric.fields).WellFormed := by
    simp [QualityMetric.fields, Json.WellFormed, Json.MembersWellFormed]
  rw [metricNodes, Node.charsOf_text, Node.charsOf_field metric.name hfields rfl (by decide),
    Node.charsOf_text, Node.charsOf_field metric.target hfields rfl (by decide),
    Node.charsOf_text, Node.charsOf_field metric.measurement hfields rfl (by decide),
    Node.charsOf_text]
  simp only [QualityMetric.row, Node.charsOf_nil, String.toList_append, toList_newline,
    List.append_assoc, List.append_nil]

theorem charsOf_practice (lead : String) :
    Node.charsOf c.templateData (practiceTree lead) = lead.toList ++ writtenLines
      (c.standardLines ++
        (tableHeader ++ (c.metrics.map QualityMetric.row ++ c.governanceLines))) := by
  rw [practiceTree, Node.charsOf_text, charsOf_standards, Node.charsOf_text, charsOf_metrics,
    Node.charsOf_text, Node.charsOf_ref c.governance.decisionMaking rfl, Node.charsOf_text,
    Node.charsOf_ref c.governance.changeApproval rfl, Node.charsOf_text,
    Node.charsOf_ref c.governance.conflictResolution rfl, Node.charsOf_text, Node.charsOf_nil]
  simp only [standardLines, tableHeader, governanceLines, Governance.lines, writtenLines_append,
    writtenLines_cons, String.toList_append, toList_newline, List.append_assoc, List.cons_append,
    List.nil_append]
  rfl

/-- **The template for a route makes the lines of a constitution.** -/
theorem charsOf_constitution : Node.charsOf c.templateData (constitutionTree route) =
    writtenLines (c.documentLines route) := by
  cases route with
  | greenfield =>
    rw [constitutionTree, charsOf_principles, charsOf_practice]
    simp only [documentLines, leadLines, writtenLines_append, writtenLines_cons, toList_newline,
      List.append_assoc, List.cons_append, List.nil_append]
  | brownfield =>
    rw [constitutionTree, charsOf_principles, Node.charsOf_text, charsOf_stack, charsOf_practice]
    simp only [documentLines, leadLines, writtenLines_append, writtenLines_cons, toList_newline,
      String.toList_empty, List.append_assoc, List.cons_append, List.nil_append]

/-- **A constitution is rendered line by line**, within the limit. -/
theorem render_constitution {options : Options} (htrim : options.trimBlocks = true)
    (hdepth : 1 ≤ options.maxDepth) :
    render options route.constitutionTemplate.name c.templateData =
      if (c.documentText route).length ≤ options.maxOutput then .ok (c.documentText route)
      else .error ((Failure.renderingTooLarge options.maxOutput).inTemplate
        route.constitutionTemplate.name) :=
  render_of_lines (htrim ▸ parse_constitution route hdepth) c.templateData_wellFormed
    (c.charsOf_constitution route) (List.cons_ne_nil _ _)

end Constitution
end SpecDraft
