import SpecDraft.Proofs.Feature.Excerpt
import SpecDraft.Proofs.Feature.Specification

/-!
# Which specifications can be parsed

The specification of a feature of a document can be parsed unless its description is a fence
(`specification_answers`). The description is never a fence where it comes from: its line has blanks
before three backticks, and they are lost when it is trimmed (`specification_unclosed`).
-/
set_option autoImplicit false

namespace SpecDraft.Feature

open Text Markdown

/-! ## The lines of a specification -/

/-- Whether a line can be told apart in a text, and is no fence. -/
def Plain (line : List Char) : Prop := '\n' ∉ line ∧ isFence line = false

instance (line : List Char) : Decidable (Plain line) :=
  inferInstanceAs (Decidable ('\n' ∉ line ∧ isFence line = false))

section Lines
variable {feature : Feature}

/-- What a line starts with decides whether it is a fence. -/
theorem plain_of_head {line : List Char} (hhead : ∀ c ∈ line.head?, c ≠ '\x60')
    (hsingle : '\n' ∉ line) : Plain line := by
  refine ⟨hsingle, ?_⟩
  cases line with
  | nil => rfl
  | cons c line => exact isFence_cons (hhead c rfl) line

theorem plain_item {text : String} (h : '\n' ∉ text.toList) : Plain (Template.itemLine text) :=
  plain_of_head (by simp [Template.itemLine]) (by simp [Template.itemLine, h])

theorem plain_story {story : UserStory} (hrole : '\n' ∉ story.role.toList)
    (hgoal : '\n' ∉ story.goal.toList) (hbenefit : '\n' ∉ story.benefit.toList) :
    Plain story.line :=
  plain_of_head (by simp [UserStory.line]) (by simp [UserStory.line, hrole, hgoal, hbenefit])

theorem plain_criterion {criterion : Criterion} (h : '\n' ∉ criterion.description.toList) :
    Plain criterion.line := by
  rw [Criterion.line]
  cases criterion.checked
  · exact plain_of_head (by simp) (by simp [h])
  · exact plain_of_head (by simp) (by simp [h])

theorem plain_linesOr {lines : List (List Char)} {replacement : String}
    (h : ∀ line ∈ lines, Plain line) (hreplacement : Plain replacement.toList) :
    ∀ line ∈ linesOr lines replacement, Plain line := by
  rw [linesOr]
  split
  · exact List.forall_mem_singleton.mpr hreplacement
  · exact h

theorem plain_kindLines {title : String} {items : List String}
    (htitle : Plain ("### " ++ title).toList) (hitems : ∀ item ∈ items, '\n' ∉ item.toList) :
    ∀ line ∈ Requirements.kindLines title items, Plain line := by
  intro line hline
  rw [Requirements.kindLines] at hline
  split at hline
  · cases hline
  · simp only [List.mem_cons, List.mem_append, List.mem_map, List.not_mem_nil, or_false] at hline
    rcases hline with rfl | rfl | ⟨item, hitem, rfl⟩ | rfl
    · exact htitle
    · decide
    · exact plain_item (hitems item hitem)
    · decide

theorem plain_requirements {shown : Option Requirements}
    (h : ∀ r ∈ shown, ∀ kind ∈ r.kinds, ∀ item ∈ kind.2, '\n' ∉ item.toList) :
    ∀ line ∈ Requirements.lines shown, Plain line := by
  cases shown with
  | none => simp [Requirements.lines]
  | some r =>
    have hkinds : ∀ kind ∈ r.kinds, ∀ line ∈ Requirements.kindLines kind.1 kind.2, Plain line := by
      intro kind hkind
      refine plain_kindLines ?_ (h r rfl kind hkind)
      have htitle : kind.1 ∈ r.kinds.map Prod.fst := List.mem_map_of_mem hkind
      generalize kind.1 = title at htitle
      revert title
      have hall : ∀ title ∈ ["Endpoints", "Data Models", "Components", "Technical Dependencies",
          "Files"], Plain ("### " ++ title).toList := by decide
      exact hall
    intro line hline
    simp only [Requirements.lines, List.mem_cons, List.mem_flatMap] at hline
    rcases hline with rfl | rfl | rfl | ⟨kind, hkind, hline⟩
    · decide
    · decide
    · decide
    · exact hkinds kind hkind line hline

/-- The requirements that are shown are those of the feature. -/
theorem mem_requirements_of_shown {route : String} {r : Requirements}
    (h : r ∈ feature.shownRequirements route) : r ∈ feature.requirements := by
  unfold shownRequirements at h
  split at h
  · exact (Option.filter_eq_some_iff.mp h).1
  · cases h

/-- **Only the description can be a fence** among the lines of a specification. -/
theorem exists_specificationLines (h : ∀ text ∈ feature.texts, '\n' ∉ text.toList)
    (route : String) : ∃ before after,
    feature.specificationLines route = before ++ feature.description.toList :: after ∧
      before.length = 7 ∧ (∀ line ∈ before, Plain line) ∧ ∀ line ∈ after, Plain line := by
  have hname : '\n' ∉ feature.name.toList := h _ (by simp [texts])
  have hid : '\n' ∉ feature.id.toList := h _ (by simp [texts])
  have hstories : ∀ line ∈ feature.stories.map UserStory.line, Plain line := by
    refine List.forall_mem_map.mpr fun story hstory => ?_
    have hparts : ∀ part ∈ [story.role, story.goal, story.benefit], '\n' ∉ part.toList :=
      fun part hpart => h part (by
        simp only [texts, List.mem_append, List.mem_flatMap]
        exact .inl (.inl (.inl (.inr ⟨story, hstory, hpart⟩))))
    exact plain_story (hparts _ (by simp)) (hparts _ (by simp)) (hparts _ (by simp))
  have hcriteria : ∀ line ∈ feature.criteria.map Criterion.line, Plain line := by
    refine List.forall_mem_map.mpr fun criterion hcriterion => plain_criterion (h _ ?_)
    simp only [texts, List.mem_append, List.mem_map]
    exact .inl (.inl (.inr ⟨criterion, hcriterion, rfl⟩))
  have hdependencies : ∀ line ∈ feature.dependencies.map Template.itemLine, Plain line := by
    refine List.forall_mem_map.mpr fun dependency hdependency => plain_item (h _ ?_)
    simp only [texts, List.mem_append]
    exact .inl (.inr hdependency)
  have hrequirements : ∀ line ∈ Requirements.lines (feature.shownRequirements route),
      Plain line := by
    refine plain_requirements fun r hr kind hkind item hitem => h item ?_
    simp only [texts, List.mem_append, List.mem_flatMap]
    exact .inr ⟨r, Option.mem_toList.mpr (mem_requirements_of_shown hr), kind, hkind, hitem⟩
  refine ⟨[("# Feature Specification: " ++ feature.name).toList, [],
      ("**Feature ID:** " ++ feature.id).toList,
      ("**Status:** " ++ feature.status.text).toList, [], "## Description".toList, []],
    [[], "## User Stories".toList, []] ++
      linesOr (feature.stories.map UserStory.line) "No user stories documented." ++
      [[], "## Acceptance Criteria".toList, []] ++
      linesOr (feature.criteria.map Criterion.line) "No acceptance criteria documented." ++
      [[], "## Dependencies".toList, []] ++
      linesOr (feature.dependencies.map Template.itemLine) "None." ++
      Requirements.lines (feature.shownRequirements route), ?_, rfl, ?_, ?_⟩
  · simp only [specificationLines, List.append_assoc, List.cons_append, List.nil_append]
  · simp only [List.forall_mem_cons]
    refine ⟨plain_of_head (by simp) (by simp [hname]), by decide,
      plain_of_head (by simp) (by simp [hid]), ?_, by decide, by decide, by decide, by simp⟩
    cases feature.status <;> decide
  · simp only [List.forall_mem_append, and_assoc]
    exact ⟨by decide, plain_linesOr hstories (by decide), by decide,
      plain_linesOr hcriteria (by decide), by decide, plain_linesOr hdependencies (by decide),
      hrequirements⟩

/-- **The fences of a specification**: its description on line eight, or none. -/
theorem fenceNumbers_specificationText (h : ∀ text ∈ feature.texts, '\n' ∉ text.toList)
    (route : String) :
    fenceNumbers 1 (contentLines (feature.specificationText route)) =
      if isFence feature.description.toList then [8] else [] := by
  obtain ⟨before, after, hlines, hlength, hbefore, hafter⟩ := exists_specificationLines h route
  have hdescription : '\n' ∉ feature.description.toList := h _ (by simp [texts])
  have hsingle : ∀ line ∈ feature.specificationLines route, '\n' ∉ line := by
    rw [hlines, List.forall_mem_append, List.forall_mem_cons]
    exact ⟨fun line hline => (hbefore line hline).1, hdescription,
      fun line hline => (hafter line hline).1⟩
  rw [specificationText, fenceNumbers_writtenLines hsingle, hlines, fenceNumbers_append,
    fenceNumbers_eq_nil fun line hline => (hbefore line hline).2, fenceNumbers_cons,
    fenceNumbers_eq_nil fun line hline => (hafter line hline).2, hlength, List.append_nil,
    List.nil_append]

theorem specificationText_answers (h : ∀ text ∈ feature.texts, '\n' ∉ text.toList)
    (route : String) : Answers (if isFence feature.description.toList then [8] else [])
      (parse (feature.specificationText route)) := by
  rw [← fenceNumbers_specificationText h route]
  exact parse_answers _

end Lines

/-! ## The specifications of a document -/

section Document
variable {document : Document} {debt : Option Document} {features : List Feature}
  {feature : Feature} {content : String}

/-- A text that starts with backticks only after it is trimmed has blanks before them. -/
theorem exists_gap_of_isFence_trim {line : List Char} (hline : isFence line = false)
    (h : isFence (trim line) = true) :
    ∃ gap rest, line = gap ++ (fenceMark ++ rest) ∧ gap ≠ [] ∧ allBlank gap = true := by
  have hleft : trim line <+: trimLeft line := List.rdropWhile_prefix isBlank _
  obtain ⟨rest, hrest⟩ := (isFence_iff.mp h).trans hleft
  have hsplit : line.takeWhile isBlank ++ (fenceMark ++ rest) = line := by
    rw [hrest]
    exact List.takeWhile_append_dropWhile
  refine ⟨line.takeWhile isBlank, rest, hsplit.symm, fun hnil => ?_, List.all_takeWhile⟩
  rw [hnil, List.nil_append] at hsplit
  rw [← hsplit, isFence_append] at hline
  cases hline

/-- A description that is a fence comes from a line with blanks before three backticks. -/
theorem exists_line_of_isFence (hparse : Markdown.parse content = .ok document.nodes)
    (h : extract document debt = .ok features) (hfeature : feature ∈ features)
    (hfence : isFence feature.description.toList = true) :
    ∃ before gap rest after,
      contentLines content = before ++ (gap ++ (fenceMark ++ rest)) :: after ∧
      Outside before (gap ++ (fenceMark ++ rest)) ∧ gap ≠ [] ∧ allBlank gap = true ∧
      feature.description = String.ofList (trim (gap ++ (fenceMark ++ rest))) := by
  obtain ⟨place, heading, span, -, hsub, rfl⟩ := exists_span h hfeature
  rcases descriptionOf_cases span with hnone | ⟨node, hnode, hfits, hstrip⟩
  · have hdescription : (ofSpan debt place heading span).description = noDescription := hnone
    rw [hdescription] at hfence
    exact absurd hfence (by decide)
  · have hdescription : (ofSpan debt place heading span).description = strip node.text := hstrip
    have hparagraph := isParagraph_of_isDescription hfits
    obtain ⟨before, line, after, hlines, houtside, hmade⟩ := exists_line_of_parse hparse
      (hsub (List.mem_cons_of_mem _ hnode)) (isCode_of_isParagraph hparagraph)
    have hclassify := classify_of_lineNode? hmade
    rw [of_decide_eq_true hparagraph] at hclassify
    have htrim : strip node.text = String.ofList (trim line) := by
      rw [strip, Block.classify_paragraph hclassify, trim_trim]
    -- The line is no fence, so the backticks came to the front when it was trimmed.
    rw [hdescription, htrim, String.toList_ofList] at hfence
    obtain ⟨gap, rest, rfl, hgap, hblank⟩ := exists_gap_of_isFence_trim houtside.1 hfence
    exact ⟨before, gap, rest, after, hlines, houtside, hgap, hblank, hdescription.trans htrim⟩

/-- **The specification of a feature of a document can be parsed** unless the description of the
feature is a fence, which is then reported as never closed. The description is a fence only when
its line in the document has three backticks after some blanks, which make it a paragraph there. -/
theorem specification_answers (hparse : Markdown.parse content = .ok document.nodes)
    (h : extract document debt = .ok features) (hfeature : feature ∈ features) (route : String)
    {options : Template.Options} (htrim : options.trimBlocks = true)
    (hdepth : 3 ≤ options.maxDepth) :
    (Template.render options Template.Bundled.featureSpec.name (feature.templateData route) =
      if (feature.specificationText route).length ≤ options.maxOutput then
        .ok (feature.specificationText route)
      else .error ((Failure.renderingTooLarge options.maxOutput).inTemplate
        Template.Bundled.featureSpec.name)) ∧
    (isFence feature.description.toList = false →
      ∃ nodes, parse (feature.specificationText route) = .ok nodes) ∧
    (isFence feature.description.toList = true →
      parse (feature.specificationText route) = .error (.unclosedFence 8) ∧
      ∃ before gap rest after,
        contentLines content = before ++ (gap ++ (fenceMark ++ rest)) :: after ∧
        Outside before (gap ++ (fenceMark ++ rest)) ∧ gap ≠ [] ∧ allBlank gap = true ∧
        feature.description = String.ofList (trim (gap ++ (fenceMark ++ rest)))) := by
  have hanswer := specificationText_answers (single_of_extract hparse h hfeature) route
  refine ⟨render_featureSpec feature route htrim hdepth, fun hplain => ?_, fun hfence => ?_⟩
  · rw [hplain] at hanswer
    exact hanswer.exists_ok rfl
  · rw [hfence] at hanswer
    exact ⟨hanswer.eq_error rfl, exists_line_of_isFence hparse h hfeature hfence⟩

end Document

/-- A document of two features, the second one described by a line with blanks and backticks. -/
def indentedContent : String :=
  "# Features\n## Search\nFinds notes by their words.\n## Export\n" ++
    "  \x60\x60\x60 writes all notes to a file"

/-- The nodes of that document. -/
def indentedNodes : List Node :=
  [⟨.heading 1, "Features", 1⟩, ⟨.heading 2, "Search", 2⟩,
    ⟨.paragraph, "Finds notes by their words.", 3⟩, ⟨.heading 2, "Export", 4⟩,
    ⟨.paragraph, "\x60\x60\x60 writes all notes to a file", 5⟩]

/-- The feature that is described as usual. -/
def plainFeature : Feature :=
  ofSpan none 1 ⟨.heading 2, "Search", 2⟩ [⟨.paragraph, "Finds notes by their words.", 3⟩]

/-- The feature whose description is a fence. -/
def indentedFeature : Feature :=
  ofSpan none 2 ⟨.heading 2, "Export", 4⟩
    [⟨.paragraph, "\x60\x60\x60 writes all notes to a file", 5⟩]

theorem parse_indentedContent : Markdown.parse indentedContent = .ok indentedNodes := rfl

theorem extract_of_indentedNodes {document : Document} (h : document.nodes = indentedNodes) :
    extract document none = .ok [plainFeature, indentedFeature] := by
  have hstart : headingIndex? indentedNodes sectionTitle = some 0 := by decide
  have hspans : spans (range false (indentedNodes.drop 1)) =
      [(⟨.heading 2, "Search", 2⟩, [⟨.paragraph, "Finds notes by their words.", 3⟩]),
        (⟨.heading 2, "Export", 4⟩,
          [⟨.paragraph, "\x60\x60\x60 writes all notes to a file", 5⟩])] := by decide
  rw [← h] at hstart hspans
  exact extract_of_spans hstart hspans (List.cons_ne_nil _ _)

theorem specification_answers_sample : ∃ document,
    Document.parse indentedContent ⟨"/", ["spec.md"]⟩ "" = .ok document ∧
    extract document none = .ok [plainFeature, indentedFeature] ∧
    trimming.trimBlocks = true ∧ 3 ≤ trimming.maxDepth ∧
    (∃ nodes, parse (plainFeature.specificationText "greenfield") = .ok nodes) ∧
    parse (indentedFeature.specificationText "brownfield") = .error (.unclosedFence 8) := by
  obtain ⟨document, hparse, hnodes⟩ :=
    Document.exists_parse parse_indentedContent ⟨"/", ["spec.md"]⟩ ""
  have hextract := extract_of_indentedNodes hnodes
  have hcontent : Markdown.parse indentedContent = .ok document.nodes :=
    hnodes ▸ parse_indentedContent
  have htrim : trimming.trimBlocks = true := rfl
  have hdepth : 3 ≤ trimming.maxDepth := by decide
  obtain ⟨-, hplain, -⟩ := specification_answers hcontent hextract
    List.mem_cons_self "greenfield" htrim hdepth
  obtain ⟨-, -, hfence⟩ := specification_answers hcontent hextract
    (List.mem_cons_of_mem _ List.mem_cons_self) "brownfield" htrim hdepth
  exact ⟨document, hparse, hextract, htrim, hdepth, hplain (by decide), (hfence (by decide)).1⟩

/-- The specification of the second feature of that document is rendered, and cannot be parsed. -/
theorem specification_unclosed : ∃ document features feature text,
    Document.parse indentedContent ⟨"/", ["spec.md"]⟩ "" = .ok document ∧
    extract document none = .ok features ∧ feature ∈ features ∧
    Template.render trimming Template.Bundled.featureSpec.name
      (feature.templateData "greenfield") = .ok text ∧
    parse text = .error (.unclosedFence 8) := by
  obtain ⟨document, hparse, hnodes⟩ :=
    Document.exists_parse parse_indentedContent ⟨"/", ["spec.md"]⟩ ""
  have hextract := extract_of_indentedNodes hnodes
  have hmem : indentedFeature ∈ [plainFeature, indentedFeature] :=
    List.mem_cons_of_mem _ List.mem_cons_self
  have hsize : (indentedFeature.specificationText "greenfield").length ≤ trimming.maxOutput := by
    rw [specificationText, String.length_ofList]
    decide +kernel
  have htrim : trimming.trimBlocks = true := rfl
  have hrender := render_featureSpec indentedFeature "greenfield" htrim (by decide)
  rw [if_pos hsize] at hrender
  have hfence : isFence indentedFeature.description.toList = true := by decide
  have hanswer := specificationText_answers
    (single_of_extract (hnodes ▸ parse_indentedContent) hextract hmem) "greenfield"
  rw [if_pos hfence] at hanswer
  exact ⟨document, _, indentedFeature, _, hparse, hextract, hmem, hrender, hanswer.eq_error rfl⟩

end SpecDraft.Feature
