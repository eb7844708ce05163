import SpecDraft.Proofs.Constitution.Bounds
import SpecDraft.Proofs.Markdown.Heading
import SpecDraft.Proofs.Template.Constitution

/-!
# The table of metrics

Which lines the metrics of a constitution take when it is rendered (`metric_rows`). A metric on
performance is read from a line and has a row of its own. The metric on scalability is the start of
a text of several lines, and its row breaks wherever that text does (`metric_rows_broken`).
-/
set_option autoImplicit false

namespace SpecDraft

open Text

/-- Texts make a line each, and one more for each line break. -/
theorem Text.length_flatMap_lines (texts : List (List Char)) :
    (texts.flatMap lines).length = texts.length + (texts.map (List.count '\n')).sum := by
  induction texts with
  | nil => rfl
  | cons text texts ih =>
    rw [List.flatMap_cons, List.length_append, ih, lines, length_split, List.length_cons,
      List.map_cons, List.sum_cons]
    omega

namespace QualityMetric

variable {metric : QualityMetric}

theorem dropItemMark_infix_self (s : List Char) : dropItemMark s <:+: s := by
  unfold dropItemMark
  split
  · rename_i rest
    exact (trim_infix_self rest).trans (List.suffix_append ['-', ' '] rest).isInfix
  · exact List.infix_refl s

/-- A metric on a line is made of parts of the line. -/
theorem infix_of_ofLine? {line : List Char} (h : ofLine? line = some metric) :
    metric.name.toList <:+: line ∧ metric.target.toList <:+: line ∧
      metric.measurement = "Manual testing or monitoring" := by
  have hname : dropItemMark (trim (line.takeWhile (· != ':'))) <:+: line :=
    (dropItemMark_infix_self _).trans
      ((trim_infix_self _).trans (List.takeWhile_prefix _).isInfix)
  unfold ofLine? at h
  split at h
  · rename_i rest hrest
    have htarget : trim rest <:+: line :=
      ((trim_infix_self rest).trans (List.suffix_cons ':' rest).isInfix).trans
        (hrest ▸ (List.dropWhile_suffix _).isInfix)
    dsimp only at h
    split at h
    · cases h
    · obtain rfl := Option.some.inj h
      rw [String.toList_ofList, String.toList_ofList]
      exact ⟨hname, htarget, rfl⟩
  · cases h

/-- The line breaks of a row are those of its cells. -/
theorem count_row (metric : QualityMetric) : metric.row.count '\n' =
    metric.name.toList.count '\n' + metric.target.toList.count '\n' +
      metric.measurement.toList.count '\n' := by
  simp only [row, String.toList_append, List.count_append]
  simp

/-- A metric on performance has no line break. -/
theorem count_row_of_mem_ofPerformance {text : String} (h : metric ∈ ofPerformance text) :
    metric.row.count '\n' = 0 := by
  obtain ⟨line, hline, hmetric⟩ := List.mem_filterMap.mp h
  obtain ⟨hname, htarget, hmeasurement⟩ := infix_of_ofLine? hmetric
  have hsingle : '\n' ∉ line := not_mem_of_mem_split hline
  have hmeasured : metric.measurement.toList.count '\n' = 0 := by
    rw [hmeasurement]
    decide
  rw [count_row, List.count_eq_zero.mpr fun hbreak => hsingle (hname.subset hbreak),
    List.count_eq_zero.mpr fun hbreak => hsingle (htarget.subset hbreak), hmeasured]

/-- There is at most one metric on scalability, and the start of the text is its target. -/
theorem eq_of_mem_ofScalability {text : String} (h : metric ∈ ofScalability text) :
    metric = ⟨"Scalability", take 100 text, "Load testing", none⟩ := by
  rw [ofScalability] at h
  split at h
  · cases h
  · exact List.mem_singleton.mp h

end QualityMetric

namespace Constitution

open Markdown Template

/-- The target that a document sets for scalability. -/
def scalabilityTarget (nodes : List Markdown.Node) : String :=
  take 100 ((sectionText? nodes ["Scalability"]).getD "")

/-- The lines that the metrics of a constitution take. -/
def tableLines (c : Constitution) : List (List Char) :=
  (c.metrics.map QualityMetric.row).flatMap Text.lines

/-- The line breaks in the rows of the metrics that a document sets are those of the target for
scalability. -/
theorem count_rows_metricsOf (nodes : List Markdown.Node) :
    ((metricsOf nodes).map (·.row.count '\n')).sum =
      (scalabilityTarget nodes).toList.count '\n' := by
  have hperformance (text : String) :
      ((QualityMetric.ofPerformance text).map (·.row.count '\n')).sum = 0 :=
    List.sum_eq_zero fun count hcount => by
      obtain ⟨metric, hmetric, rfl⟩ := List.mem_map.mp hcount
      exact QualityMetric.count_row_of_mem_ofPerformance hmetric
  rw [metricsOf, List.map_append, List.sum_append, hperformance, Nat.zero_add, scalabilityTarget,
    QualityMetric.ofScalability]
  split
  · rename_i hempty
    rw [String.isEmpty_iff.mp hempty]
    rfl
  · simp [QualityMetric.count_row]

/-- **The table of metrics** has a line for each metric, and one more for each line break in the
target for scalability. -/
theorem length_tableLines (nodes : List Markdown.Node) (route : Route) :
    (drawn nodes route).tableLines.length = (drawn nodes route).metrics.length +
      (scalabilityTarget nodes).toList.count '\n' := by
  rw [tableLines, length_flatMap_lines, List.length_map, List.map_map]
  exact congrArg (_ + ·) (count_rows_metricsOf nodes)

/-- Each metric has one line exactly when the target for scalability has no line break. -/
theorem tableLines_eq_rows_iff_target (nodes : List Markdown.Node) (route : Route) :
    (drawn nodes route).tableLines = (drawn nodes route).metrics.map QualityMetric.row ↔
      '\n' ∉ (scalabilityTarget nodes).toList := by
  rw [tableLines, flatMap_lines_eq_self_iff, ← List.count_eq_zero, ← count_rows_metricsOf,
    List.sum_eq_zero_iff, List.forall_mem_map, List.forall_mem_map]
  exact forall₂_congr fun metric _ => List.count_eq_zero.symm

theorem count_measurement {nodes : List Markdown.Node} {metric : QualityMetric}
    (h : metric ∈ metricsOf nodes) : metric.measurement.toList.count '\n' = 0 := by
  rcases List.mem_append.mp h with h | h
  · have hrow := QualityMetric.count_row_of_mem_ofPerformance h
    rw [QualityMetric.count_row] at hrow
    omega
  · rw [QualityMetric.eq_of_mem_ofScalability h]
    change "Load testing".toList.count '\n' = 0
    decide

/-- Each metric has one line exactly when no name and no target has a line break. -/
theorem tableLines_eq_rows_iff_texts (nodes : List Markdown.Node) (route : Route) :
    (drawn nodes route).tableLines = (drawn nodes route).metrics.map QualityMetric.row ↔
      ∀ metric ∈ (drawn nodes route).metrics,
        '\n' ∉ metric.name.toList ∧ '\n' ∉ metric.target.toList := by
  rw [tableLines, flatMap_lines_eq_self_iff, List.forall_mem_map]
  refine forall₂_congr fun metric hmetric => ?_
  rw [← List.count_eq_zero, QualityMetric.count_row, count_measurement hmetric, Nat.add_zero,
    Nat.add_eq_zero_iff, List.count_eq_zero, List.count_eq_zero]

/-- The lines of the text of a constitution. -/
theorem lines_documentText (c : Constitution) (route : Route) :
    Text.lines (c.documentText route).toList =
      (c.leadLines route).flatMap Text.lines ++ (tableHeader ++ (c.tableLines ++
        [] :: "## Governance".toList :: [] ::
          (c.governance.lines.flatMap Text.lines ++ [[]]))) := by
  -- What stands around the rows of the table holds no line break.
  have hheader : tableHeader.flatMap Text.lines = tableHeader := by decide
  have hheading : Text.lines "## Governance".toList = ["## Governance".toList] := by decide
  rw [documentText, String.toList_ofList, lines_writtenLines_flatMap, documentLines,
    governanceLines]
  simp only [List.flatMap_append, List.flatMap_cons, List.append_assoc, hheader, hheading]
  rfl

/-- **The table of metrics in a rendered constitution.** Between the line below its header and the
empty line above the heading on governance, it has a line for each metric and one more for each line
break in the target for scalability. So each metric is one row exactly when no name and no target
has a line break, and no other target than that for scalability ever has one. -/
theorem metric_rows (document : Document) (route : Route) (c : Constitution)
    (h : extract document route = .ok c) {options : Options} (htrim : options.trimBlocks = true)
    (hdepth : 1 ≤ options.maxDepth) :
    (render options route.constitutionTemplate.name c.templateData =
      if (c.documentText route).length ≤ options.maxOutput then .ok (c.documentText route)
      else .error ((Failure.renderingTooLarge options.maxOutput).inTemplate
        route.constitutionTemplate.name)) ∧
    Text.lines (c.documentText route).toList =
      (c.leadLines route).flatMap Text.lines ++ (tableHeader ++ (c.tableLines ++
        [] :: "## Governance".toList :: [] :: (c.governance.lines.flatMap Text.lines ++ [[]]))) ∧
    c.tableLines.length =
      c.metrics.length + (scalabilityTarget document.nodes).toList.count '\n' ∧
    (c.tableLines = c.metrics.map QualityMetric.row ↔
      ∀ metric ∈ c.metrics, '\n' ∉ metric.name.toList ∧ '\n' ∉ metric.target.toList) ∧
    (c.tableLines = c.metrics.map QualityMetric.row ↔
      '\n' ∉ (scalabilityTarget document.nodes).toList) := by
  obtain ⟨rfl, -⟩ := extract_ok.mp h
  exact ⟨render_constitution _ route htrim hdepth, lines_documentText _ route,
    length_tableLines _ route, tableLines_eq_rows_iff_texts _ route,
    tableLines_eq_rows_iff_target _ route⟩

/-- The usual limits, with the lines taken out that hold only a block tag. -/
def trimmed : Options := { Options.standard with trimBlocks := true }

theorem metric_rows_sample : ∃ document c,
    Document.parse silentContent ⟨"/", ["spec.md"]⟩ "" = .ok document ∧
    extract document .greenfield = .ok c ∧ trimmed.trimBlocks = true ∧ 1 ≤ trimmed.maxDepth ∧
    c.tableLines = c.metrics.map QualityMetric.row ∧ c.metrics.length = 2 := by
  obtain ⟨document, hparse, hnodes⟩ :=
    Document.exists_parse (parse_of_toOption nodes_silent) ⟨"/", ["spec.md"]⟩ ""
  have hextract : extract document .greenfield = .ok (drawn silentNodes .greenfield) :=
    extract_ok.mpr ⟨by rw [hnodes], bounded_silent⟩
  have htrim : trimmed.trimBlocks = true := rfl
  have hdepth : 1 ≤ trimmed.maxDepth := by decide
  obtain ⟨-, -, -, -, hrows⟩ := metric_rows document .greenfield _ hextract htrim hdepth
  rw [hnodes] at hrows
  exact ⟨document, _, hparse, hextract, htrim, hdepth, hrows.mpr (by decide +kernel),
    by decide +kernel⟩

/-- A document that lists two items on scalability. -/
def scalingContent : String :=
  "# Purpose\nOne place for the notes of a team, safe and shared.\n" ++
  "# Values\n- Clear\n- Small\n- Safe\n# Code Quality\nReviewed.\n# Testing\nTested.\n" ++
  "# Security\nAudited.\n# Performance\nLoad: 2 s\n# Scalability\n- 1000 notes a user\n" ++
  "- 50 users at once"

/-- The nodes of that document. -/
def scalingNodes : List Markdown.Node := [
  ⟨.heading 1, "Purpose", 1⟩,
  ⟨.paragraph, "One place for the notes of a team, safe and shared.", 2⟩,
  ⟨.heading 1, "Values", 3⟩, ⟨.item false 0, "Clear", 4⟩, ⟨.item false 0, "Small", 5⟩,
  ⟨.item false 0, "Safe", 6⟩,
  ⟨.heading 1, "Code Quality", 7⟩, ⟨.paragraph, "Reviewed.", 8⟩,
  ⟨.heading 1, "Testing", 9⟩, ⟨.paragraph, "Tested.", 10⟩,
  ⟨.heading 1, "Security", 11⟩, ⟨.paragraph, "Audited.", 12⟩,
  ⟨.heading 1, "Performance", 13⟩, ⟨.paragraph, "Load: 2 s", 14⟩,
  ⟨.heading 1, "Scalability", 15⟩, ⟨.item false 0, "1000 notes a user", 16⟩,
  ⟨.item false 0, "50 users at once", 17⟩]

theorem parse_scalingContent : Markdown.parse scalingContent = .ok scalingNodes :=
  parse_of_toOption (by decide +kernel)

/-- **A metric takes two lines** when its target does, and the table ends after the first. -/
theorem metric_rows_broken : ∃ document c text,
    Document.parse scalingContent ⟨"/", ["spec.md"]⟩ "" = .ok document ∧
    extract document .greenfield = .ok c ∧
    render trimmed Route.greenfield.constitutionTemplate.name c.templateData = .ok text ∧
    Text.lines text.toList = (c.leadLines .greenfield).flatMap Text.lines ++ (tableHeader ++
      (["| Load | 2 s | Manual testing or monitoring |".toList,
        "| Scalability | - 1000 notes a user".toList,
        "- 50 users at once | Load testing |".toList] ++ [] :: "## Governance".toList :: [] ::
          (c.governance.lines.flatMap Text.lines ++ [[]]))) ∧
    c.metrics.length = 2 := by
  obtain ⟨document, hparse, hnodes⟩ :=
    Document.exists_parse parse_scalingContent ⟨"/", ["spec.md"]⟩ ""
  have hextract : extract document .greenfield = .ok (drawn scalingNodes .greenfield) :=
    extract_ok.mpr ⟨by rw [hnodes], issues_eq_iff.mp (by decide +kernel)⟩
  generalize hc : drawn scalingNodes .greenfield = c at hextract
  have htable : c.tableLines = ["| Load | 2 s | Manual testing or monitoring |".toList,
      "| Scalability | - 1000 notes a user".toList,
      "- 50 users at once | Load testing |".toList] := by
    rw [← hc]
    decide +kernel
  have hsize : (c.documentText .greenfield).length ≤ trimmed.maxOutput := by
    rw [← hc, documentText, String.length_ofList]
    decide +kernel
  have htrim : trimmed.trimBlocks = true := rfl
  have hrender := render_constitution c .greenfield htrim (by decide)
  rw [if_pos hsize] at hrender
  refine ⟨document, c, _, hparse, hextract, hrender, ?_, ?_⟩
  · rw [lines_documentText, htable]
  · rw [← hc]
    decide +kernel

end Constitution
end SpecDraft
