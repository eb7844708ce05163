import SpecDraft.Feature.Field
import SpecDraft.Proofs.Markdown.Label
import SpecDraft.Proofs.Template.Specification

/-!
# Reading a specification back

The specification of a feature is a document again. Its lines make one node each
(`written_specification`), and what it says of acceptance criteria and dependencies is what the
feature has (`specification_reads_back`), unless the line with the identifier passes for the label
of the criteria (`criteria_lost`).
-/
set_option autoImplicit false

namespace SpecDraft.Feature

open Text Markdown

/-! ## What can be written -/

/-- Whether a text is a single line that is not empty and has no blanks around it. -/
structure IsLine (s : String) : Prop where
  nonempty : s ≠ ""
  single : '\n' ∉ s.toList
  stripped : strip s = s

/-- Whether the texts of a feature are single lines, and its name and its description are not taken
for something else in its specification. -/
structure Writable (feature : Feature) : Prop where
  name : IsLine feature.name
  id : IsLine feature.id
  description : IsLine feature.description
  stories : ∀ story ∈ feature.stories,
    IsLine story.role ∧ IsLine story.goal ∧ IsLine story.benefit
  criteria : ∀ criterion ∈ feature.criteria, IsLine criterion.description
  dependencies : ∀ dependency ∈ feature.dependencies, IsLine dependency
  requirements : ∀ r ∈ feature.requirements, ∀ kind ∈ r.kinds, ∀ item ∈ kind.2, IsLine item
  title : criteriaLabel.fits feature.name = false
  unfenced : isFence feature.description.toList = false
  paragraph : (Block.classify feature.description.toList).map Prod.fst = some .paragraph
  label : paragraphLabel? feature.description = none
  inline : inlineDependencies? feature.description = none

instance (s : String) : Decidable (IsLine s) :=
  decidable_of_iff (s ≠ "" ∧ '\n' ∉ s.toList ∧ strip s = s)
    ⟨fun ⟨hne, hsingle, hstrip⟩ => ⟨hne, hsingle, hstrip⟩,
      fun ⟨hne, hsingle, hstrip⟩ => ⟨hne, hsingle, hstrip⟩⟩

theorem IsLine.trim {s : String} (h : IsLine s) : trim s.toList = s.toList := by
  have hstripped := congrArg String.toList h.stripped
  rwa [strip, String.toList_ofList] at hstripped

theorem IsLine.toList_ne_nil {s : String} (h : IsLine s) : s.toList ≠ [] := by
  simpa using h.nonempty

/-- What lies between a character and a text that are not blank may be anything but a line feed. -/
theorem IsLine.of_toList {s : String} {c : Char} {a b : List Char} (hs : s.toList = c :: (a ++ b))
    (hc : isBlank c = false) (hb : Text.trim b = b) (hne : b ≠ [])
    (hsingle : '\n' ∉ s.toList) : IsLine s where
  nonempty := by
    intro hempty
    rw [hempty] at hs
    cases hs
  single := hsingle
  stripped := by
    rw [strip, hs, trim_cons_append hc a hb hne, ← hs, String.ofList_toList]

/-! ## Lines and the nodes they make -/

/-- Whether lines can be told apart in a text without code blocks, and make some nodes. -/
structure Makes (lines : List (List Char)) (nodes : List Node) : Prop where
  plain : ∀ line ∈ lines, '\n' ∉ line ∧ line.getLast? ≠ some '\r' ∧ isFence line = false
  made : lines.filterMap (lineNode? 0) = nodes

namespace Makes

variable {lines lines' : List (List Char)} {nodes nodes' : List Node}

theorem append (h : Makes lines nodes) (h' : Makes lines' nodes') :
    Makes (lines ++ lines') (nodes ++ nodes') where
  plain := fun line hline => (List.mem_append.mp hline).elim (h.plain line) (h'.plain line)
  made := by rw [List.filterMap_append, h.made, h'.made]

theorem map {α : Type} {xs : List α} {line : α → List Char} {node : α → Node}
    (h : ∀ x ∈ xs, Makes [line x] [node x]) : Makes (xs.map line) (xs.map node) := by
  induction xs with
  | nil => exact ⟨by simp, rfl⟩
  | cons x xs ih =>
    obtain ⟨hx, hxs⟩ := List.forall_mem_cons.mp h
    exact hx.append (ih hxs)

theorem flatMap {α : Type} {xs : List α} {lines : α → List (List Char)} {nodes : α → List Node}
    (h : ∀ x ∈ xs, Makes (lines x) (nodes x)) : Makes (xs.flatMap lines) (xs.flatMap nodes) := by
  induction xs with
  | nil => exact ⟨by simp, rfl⟩
  | cons x xs ih =>
    obtain ⟨hx, hxs⟩ := List.forall_mem_cons.mp h
    exact hx.append (ih hxs)

end Makes

section Lines
variable {s : String}

/-- A line without blanks at its end has no carriage return there. -/
theorem getLast?_ne_return {line : List Char} (h : trim line = line) :
    line.getLast? ≠ some '\r' := by
  intro hlast
  have hblank := (trim_eq_self_iff.mp h).2 '\r' hlast
  cases hblank

/-- A mark, a blank and a text can be told apart from other lines. -/
theorem plain_marked {c : Char} (h : IsLine s) (hc : isBlank c = false) (hopen : c ≠ '\x60') :
    ∀ line ∈ [c :: ' ' :: s.toList],
      '\n' ∉ line ∧ line.getLast? ≠ some '\r' ∧ isFence line = false := by
  rw [List.forall_mem_singleton]
  have htrim : trim (c :: ' ' :: s.toList) = c :: ' ' :: s.toList :=
    trim_cons_append hc [' '] h.trim h.toList_ne_nil
  refine ⟨?_, getLast?_ne_return htrim, isFence_cons hopen _⟩
  have hne : '\n' ≠ c := by
    rintro rfl
    cases hc
  simp [hne, h.single]

theorem made_of_classify {line : List Char} {kind : Block}
    (h : Block.classify line = some (kind, s.toList)) :
    [line].filterMap (lineNode? 0) = [⟨kind, s, 0⟩] := by
  rw [List.filterMap_cons, lineNode?, h]
  dsimp only [Option.map_some]
  rw [String.ofList_toList]
  rfl

theorem makes_item (h : IsLine s) : Makes [Template.itemLine s] [⟨.item false 0, s, 0⟩] where
  plain := plain_marked h (by decide) (by decide)
  made := made_of_classify (Block.classify_item h.trim h.toList_ne_nil)

theorem makes_title (h : IsLine s) : Makes ['#' :: ' ' :: s.toList] [⟨.heading 1, s, 0⟩] where
  plain := plain_marked h (by decide) (by decide)
  made := made_of_classify (Block.classify_title h.trim h.toList_ne_nil)

/-- A line that makes a paragraph is its text. -/
theorem makes_paragraph (h : IsLine s) (hopen : isFence s.toList = false)
    (hparagraph : (Block.classify s.toList).map Prod.fst = some .paragraph) :
    Makes [s.toList] [⟨.paragraph, s, 0⟩] where
  plain := by
    rw [List.forall_mem_singleton]
    exact ⟨h.single, getLast?_ne_return h.trim, hopen⟩
  made := by
    obtain ⟨⟨kind, text⟩, hclassify, rfl⟩ := Option.map_eq_some_iff.mp hparagraph
    rw [Block.classify_paragraph hclassify, h.trim] at hclassify
    exact made_of_classify hclassify

theorem makes_bold {c : Char} {text : List Char} (h : IsLine s)
    (hs : s.toList = '*' :: '*' :: c :: text) (hc : c ≠ '*') :
    Makes [s.toList] [⟨.paragraph, s, 0⟩] := by
  have htrim := h.trim
  apply makes_paragraph h
  · rw [hs]
    exact isFence_cons (by decide) _
  · rw [hs] at htrim ⊢
    rw [Block.classify_bold hc htrim]
    rfl

theorem makes_blank : Makes [[]] [] := ⟨by decide, rfl⟩

end Lines

/-! ## The nodes of a specification -/

/-- The text of the item for a story. -/
def storyText (story : UserStory) : String :=
  "As a " ++ story.role ++ ", I want " ++ story.goal ++ ", so that " ++ story.benefit ++ "."

/-- The text of the item for a criterion. -/
def criterionText (criterion : Criterion) : String :=
  "[" ++ (if criterion.checked then "x" else " ") ++ "] " ++ criterion.description

/-- An item for each element of a list, or a paragraph when there are none. -/
def itemsOr {α : Type} (xs : List α) (text : α → String) (replacement : String) : List Node :=
  if xs.isEmpty then [⟨.paragraph, replacement, 0⟩] else xs.map fun x => ⟨.item false 0, text x, 0⟩

/-- The paragraph with the identifier of a feature. -/
def idText (feature : Feature) : String := "**Feature ID:** " ++ feature.id

/-- The nodes up to the stories. -/
def introNodes (feature : Feature) : List Node :=
  [⟨.heading 1, "Feature Specification: " ++ feature.name, 0⟩, ⟨.paragraph, feature.idText, 0⟩,
    ⟨.paragraph, "**Status:** " ++ feature.status.text, 0⟩, ⟨.heading 2, "Description", 0⟩,
    ⟨.paragraph, feature.description, 0⟩, ⟨.heading 2, "User Stories", 0⟩]

/-- The nodes of the technical requirements of one kind. -/
def kindNodes (title : String) (items : List String) : List Node :=
  if items.isEmpty then []
  else ⟨.heading 3, title, 0⟩ :: items.map fun item => ⟨.item false 0, item, 0⟩

/-- The nodes of technical requirements, if they are shown. -/
def requirementNodes : Option Requirements → List Node
  | none => []
  | some r => ⟨.heading 2, "Technical Requirements", 0⟩ ::
      r.kinds.flatMap fun (title, items) => kindNodes title items

/-- The nodes of the specification of a feature, without the numbers of their lines. -/
def specificationNodes (feature : Feature) (route : String) : List Node :=
  feature.introNodes ++ itemsOr feature.stories storyText "No user stories documented." ++
  [⟨.heading 2, "Acceptance Criteria", 0⟩] ++
  itemsOr feature.criteria criterionText "No acceptance criteria documented." ++
  [⟨.heading 2, "Dependencies", 0⟩] ++ itemsOr feature.dependencies (fun text => text) "None." ++
  requirementNodes (feature.shownRequirements route)

section Written
variable {feature : Feature}

theorem makes_linesOr {α : Type} {xs : List α} {line : α → List Char} {text : α → String}
    (replacement : String) (h : ∀ x ∈ xs, Makes [line x] [⟨.item false 0, text x, 0⟩])
    (hreplacement : Makes [replacement.toList] [⟨.paragraph, replacement, 0⟩]) :
    Makes (linesOr (xs.map line) replacement) (itemsOr xs text replacement) := by
  cases xs with
  | nil => exact hreplacement
  | cons x xs => exact Makes.map h

/-- The line of a story is an item with its text. -/
theorem line_eq_itemLine (story : UserStory) :
    story.line = Template.itemLine (storyText story) := by
  simp [UserStory.line, storyText, Template.itemLine]

theorem isLine_storyText {story : UserStory}
    (h : IsLine story.role ∧ IsLine story.goal ∧ IsLine story.benefit) :
    IsLine (storyText story) := by
  obtain ⟨hrole, hgoal, hbenefit⟩ := h
  have htext : (storyText story).toList = 'A' :: (("s a " ++ story.role ++ ", I want " ++
      story.goal ++ ", so that " ++ story.benefit).toList ++ ['.']) := by
    simp [storyText]
  have hsingle : '\n' ∉ (storyText story).toList := by
    simp [storyText, hrole.single, hgoal.single, hbenefit.single]
  exact .of_toList htext (by decide) (by decide) (by decide) hsingle

theorem makes_story {story : UserStory}
    (h : IsLine story.role ∧ IsLine story.goal ∧ IsLine story.benefit) :
    Makes [story.line] [⟨.item false 0, storyText story, 0⟩] := by
  rw [line_eq_itemLine]
  exact makes_item (isLine_storyText h)

theorem makes_criterion {criterion : Criterion} (h : IsLine criterion.description) :
    Makes [criterion.line] [⟨.item false 0, criterionText criterion, 0⟩] := by
  have htext : (criterionText criterion).toList =
      '[' :: ([if criterion.checked then 'x' else ' ', ']', ' '] ++
        criterion.description.toList) := by
    cases hchecked : criterion.checked <;> simp [criterionText, hchecked]
  have hsingle : '\n' ∉ (criterionText criterion).toList := by
    cases hchecked : criterion.checked <;> simp [criterionText, hchecked, h.single]
  have hline : criterion.line = Template.itemLine (criterionText criterion) := by
    simp [Criterion.line, criterionText, Template.itemLine]
  rw [hline]
  exact makes_item (.of_toList htext (by decide) h.trim h.toList_ne_nil hsingle)

theorem makes_name (h : IsLine feature.name) :
    Makes [("# Feature Specification: " ++ feature.name).toList]
      [⟨.heading 1, "Feature Specification: " ++ feature.name, 0⟩] := by
  have htext : ("Feature Specification: " ++ feature.name).toList =
      'F' :: ("eature Specification: ".toList ++ feature.name.toList) := by
    simp
  have hsingle : '\n' ∉ ("Feature Specification: " ++ feature.name).toList := by
    simp [h.single]
  have hline : ("# Feature Specification: " ++ feature.name).toList =
      '#' :: ' ' :: ("Feature Specification: " ++ feature.name).toList := by
    simp
  rw [hline]
  exact makes_title (.of_toList htext (by decide) h.trim h.toList_ne_nil hsingle)

theorem toList_idText (feature : Feature) : feature.idText.toList =
    '*' :: ('*' :: 'F' :: "eature ID:** ".toList ++ feature.id.toList) := by
  unfold idText
  rw [String.toList_append]
  rfl

theorem makes_id (h : IsLine feature.id) :
    Makes [feature.idText.toList] [⟨.paragraph, feature.idText, 0⟩] := by
  have htext := toList_idText feature
  have hsingle : '\n' ∉ feature.idText.toList := by
    unfold idText
    simp [h.single]
  have hline : IsLine feature.idText :=
    .of_toList htext (by decide) h.trim h.toList_ne_nil hsingle
  exact makes_bold hline htext (by decide)

theorem makes_status (status : Status) :
    Makes [("**Status:** " ++ status.text).toList]
      [⟨.paragraph, "**Status:** " ++ status.text, 0⟩] := by
  cases status <;> exact ⟨by decide, by decide⟩

theorem makes_intro (h : Writable feature) :
    Makes [("# Feature Specification: " ++ feature.name).toList, [],
      ("**Feature ID:** " ++ feature.id).toList,
      ("**Status:** " ++ feature.status.text).toList, [], "## Description".toList, [],
      feature.description.toList, [], "## User Stories".toList, []] feature.introNodes := by
  have hfirst : Makes [[], "## Description".toList, []] [⟨.heading 2, "Description", 0⟩] :=
    ⟨by decide, by decide⟩
  have hsecond : Makes [[], "## User Stories".toList, []] [⟨.heading 2, "User Stories", 0⟩] :=
    ⟨by decide, by decide⟩
  exact (makes_name h.name).append <| makes_blank.append <| (makes_id h.id).append <|
    (makes_status feature.status).append <| hfirst.append <|
      (makes_paragraph h.description h.unfenced h.paragraph).append hsecond

theorem makes_kind {title : String} {items : List String} (hitems : ∀ item ∈ items, IsLine item)
    (htitle : Makes [("### " ++ title).toList] [⟨.heading 3, title, 0⟩]) :
    Makes (Requirements.kindLines title items) (kindNodes title items) := by
  rw [Requirements.kindLines, kindNodes]
  split
  · exact ⟨by simp, rfl⟩
  · have hlines := (Makes.map fun item hitem => makes_item (hitems item hitem)).append
      makes_blank
    rw [List.append_nil] at hlines
    exact htitle.append (makes_blank.append hlines)

theorem makes_requirements {shown : Option Requirements}
    (h : ∀ r ∈ shown, ∀ kind ∈ r.kinds, ∀ item ∈ kind.2, IsLine item) :
    Makes (Requirements.lines shown) (requirementNodes shown) := by
  cases shown with
  | none => exact ⟨by simp [Requirements.lines], rfl⟩
  | some r =>
    have hheading : Makes [[], "## Technical Requirements".toList, []]
        [⟨.heading 2, "Technical Requirements", 0⟩] := ⟨by decide, by decide⟩
    refine hheading.append (Makes.flatMap fun kind hkind => makes_kind (h r rfl kind hkind) ?_)
    have htitle : kind.1 ∈ r.kinds.map Prod.fst := List.mem_map_of_mem hkind
    simp only [Requirements.kinds, List.map_cons, List.map_nil, List.mem_cons,
      List.not_mem_nil, or_false] at htitle
    rcases htitle with htitle | htitle | htitle | htitle | htitle <;> rw [htitle] <;>
      exact ⟨by decide, by decide⟩

/-- **The lines of a specification** make its nodes, one by one. -/
theorem written_specification (h : Writable feature) (route : String) :
    Makes (feature.specificationLines route) (feature.specificationNodes route) := by
  have hstories := makes_linesOr "No user stories documented."
    (fun story hstory => makes_story (h.stories story hstory))
    ⟨by decide, by decide⟩
  have hcriteria := makes_linesOr "No acceptance criteria documented."
    (fun criterion hcriterion => makes_criterion (h.criteria criterion hcriterion))
    ⟨by decide, by decide⟩
  have hdependencies := makes_linesOr "None."
    (fun dependency hdependency => makes_item (h.dependencies dependency hdependency))
    ⟨by decide, by decide⟩
  have hfirst : Makes [[], "## Acceptance Criteria".toList, []]
      [⟨.heading 2, "Acceptance Criteria", 0⟩] := ⟨by decide, by decide⟩
  have hsecond : Makes [[], "## Dependencies".toList, []] [⟨.heading 2, "Dependencies", 0⟩] :=
    ⟨by decide, by decide⟩
  have hshown : ∀ r ∈ feature.shownRequirements route, r ∈ feature.requirements := by
    intro r hr
    rw [shownRequirements] at hr
    split at hr
    · exact (Option.filter_eq_some_iff.mp hr).1
    · cases hr
  exact ((((((makes_intro h).append hstories).append hfirst).append hcriteria).append
    hsecond).append hdependencies).append
      (makes_requirements fun r hr => h.requirements r (hshown r hr))

end Written

/-! ## Reading the nodes -/

section Read
variable {feature : Feature} {α : Type} {xs : List α} {text : α → String} {replacement : String}

theorem forall_itemsOr {p : Node → Prop} (hitem : ∀ text, p ⟨.item false 0, text, 0⟩)
    (hreplacement : p ⟨.paragraph, replacement, 0⟩) :
    ∀ node ∈ itemsOr xs text replacement, p node := by
  intro node hnode
  rw [itemsOr] at hnode
  split at hnode
  · rw [List.mem_singleton.mp hnode]
    exact hreplacement
  · obtain ⟨x, -, rfl⟩ := List.mem_map.mp hnode
    exact hitem (text x)

/-- The replacement for a list that is empty is no item. -/
theorem itemTexts_itemsOr : itemTexts (itemsOr xs text replacement) = xs.map text := by
  cases xs with
  | nil => rfl
  | cons x xs =>
    have hitems : (itemsOr (x :: xs) text replacement).filter (·.isItem) =
        (x :: xs).map fun x => ⟨.item false 0, text x, 0⟩ := by
      rw [itemsOr, List.isEmpty_cons, if_neg Bool.false_ne_true, List.filter_eq_self]
      intro node hnode
      obtain ⟨x, -, rfl⟩ := List.mem_map.mp hnode
      rfl
    rw [itemTexts, hitems, List.map_map]
    rfl

/-- A check box says whether the criterion is met. -/
theorem ofItem_criterionText {criterion : Criterion} (h : IsLine criterion.description) :
    Criterion.ofItem (criterionText criterion) = { criterion with testable := true } := by
  have htrim : trim (' ' :: criterion.description.toList) = criterion.description.toList := by
    rw [trim_cons_of_blank (by decide), h.trim]
  have hbox : Criterion.checkbox? (criterionText criterion).toList =
      some (criterion.checked, criterion.description.toList) := by
    cases hchecked : criterion.checked <;>
      simp [criterionText, hchecked, Criterion.checkbox?, htrim]
  rw [Criterion.ofItem, hbox]
  dsimp only
  rw [String.ofList_toList]

theorem label?_itemsOr (h : Node.label? ⟨.paragraph, replacement, 0⟩ = none) :
    ∀ node ∈ itemsOr xs text replacement, node.label? = none :=
  forall_itemsOr (fun _ => rfl) h

theorem label?_status (status : Status) :
    Node.label? ⟨.paragraph, "**Status:** " ++ status.text, 0⟩ = none := by
  cases status <;> decide

/-- The name of a feature is not at the start of the title. -/
theorem isLabelFor_name (name : String) :
    Node.isLabelFor dependenciesLabel ⟨.heading 1, "Feature Specification: " ++ name, 0⟩ =
      false := by
  have hdeparts : ∀ text ∈ ["Dependencies", "Depends on"],
      departs text.toList "Feature Specification: ".toList = true := by
    decide
  have hfits := TitlePattern.fits_exactly_of_departs hdeparts (s := name.toList)
  rwa [← String.toList_append, String.ofList_toList] at hfits

/-- The label of the identifier is none for dependencies. -/
theorem isLabelFor_id (feature : Feature) :
    Node.isLabelFor dependenciesLabel ⟨.paragraph, feature.idText, 0⟩ = false := by
  have hnode : Node.label? ⟨.paragraph, feature.idText, 0⟩ = paragraphLabel? feature.idText := rfl
  rw [Node.isLabelFor, hnode]
  cases hlabel : paragraphLabel? feature.idText with
  | none => rfl
  | some label =>
    rw [← String.ofList_toList (s := feature.idText), toList_idText] at hlabel
    obtain ⟨d, tail, rfl, hd⟩ := exists_label_of_bold (by decide) (by decide) hlabel
    have hdeparts : ∀ text ∈ ["Dependencies", "Depends on"], departs text.toList [d] = true := by
      rcases hd with rfl | rfl <;> decide
    have hfits := TitlePattern.fits_exactly_of_departs hdeparts (s := tail)
    rwa [List.singleton_append] at hfits

/-- Whether the paragraph with the identifier passes for the label of the criteria. -/
def hidesCriteria (feature : Feature) : Bool :=
  (paragraphLabel? feature.idText).any criteriaLabel.fits

/-- An identifier that does not contain the words of that label does not pass for it. -/
theorem hidesCriteria_eq_false (h : criteriaLabel.fits feature.id = false) :
    feature.hidesCriteria = false := by
  rw [Bool.eq_false_iff, hidesCriteria, ne_eq, Option.any_eq_true]
  rintro ⟨label, hlabel, hfits⟩
  have htext := TitlePattern.fits_containing_of_part (infix_of_paragraphLabel? hlabel) hfits
  rw [idText, TitlePattern.fits_containing_append (by decide)] at htext
  have hid : criteriaLabel.fits feature.id = true := htext
  rw [h] at hid
  cases hid

theorem isLabelFor_idText (feature : Feature) :
    Node.isLabelFor criteriaLabel ⟨.paragraph, feature.idText, 0⟩ = feature.hidesCriteria := by
  have hnode : Node.label? ⟨.paragraph, feature.idText, 0⟩ = paragraphLabel? feature.idText := rfl
  rw [Node.isLabelFor, hnode, hidesCriteria]
  cases paragraphLabel? feature.idText <;> rfl

theorem isLabelFor_of_label? {node : Node} (h : node.label? = none) (pattern : TitlePattern) :
    node.isLabelFor pattern = false := by
  rw [Node.isLabelFor, h]

/-- Up to the stories only the title and the identifier may be labels that are looked for. -/
theorem isLabelFor_intro (h : Writable feature) {pattern : TitlePattern}
    (hname : Node.isLabelFor pattern ⟨.heading 1, "Feature Specification: " ++ feature.name, 0⟩ =
      false)
    (hid : Node.isLabelFor pattern ⟨.paragraph, feature.idText, 0⟩ = false)
    (hheadings : pattern.fits "Description" = false ∧ pattern.fits "User Stories" = false) :
    ∀ node ∈ feature.introNodes ++
      itemsOr feature.stories storyText "No user stories documented.",
      node.isLabelFor pattern = false := by
  intro node hnode
  rcases List.mem_append.mp hnode with hintro | hstory
  · have hdescription : Node.label? ⟨.paragraph, feature.description, 0⟩ = none := h.label
    simp only [introNodes, List.mem_cons, List.not_mem_nil, or_false] at hintro
    rcases hintro with rfl | rfl | rfl | rfl | rfl | rfl
    · exact hname
    · exact hid
    · exact isLabelFor_of_label? (label?_status feature.status) pattern
    · exact hheadings.1
    · exact isLabelFor_of_label? hdescription pattern
    · exact hheadings.2
  · exact isLabelFor_of_label? (label?_itemsOr (by decide) node hstory) pattern

theorem itemsUnder?_dependencies (h : Writable feature) (route : String) :
    itemsUnder? dependenciesLabel (feature.specificationNodes route) =
      some feature.dependencies := by
  have hbefore : ∀ node ∈ feature.introNodes ++
      itemsOr feature.stories storyText "No user stories documented." ++
      [⟨.heading 2, "Acceptance Criteria", 0⟩] ++
      itemsOr feature.criteria criterionText "No acceptance criteria documented.",
      node.isLabelFor dependenciesLabel = false := by
    intro node hnode
    rw [List.mem_append, List.mem_append, List.mem_singleton] at hnode
    rcases hnode with (hintro | rfl) | hcriterion
    · exact isLabelFor_intro h (isLabelFor_name feature.name) (isLabelFor_id feature)
        (by decide) node hintro
    · decide
    · exact isLabelFor_of_label? (label?_itemsOr (by decide) node hcriterion) _
  have hitems : ∀ node ∈ itemsOr feature.dependencies (fun text => text) "None.",
      node.label? = none := label?_itemsOr (by decide)
  have hafter : ∀ node ∈ (requirementNodes (feature.shownRequirements route)).head?,
      node.label?.isSome := by
    intro node hnode
    cases hshown : feature.shownRequirements route with
    | none =>
      rw [hshown] at hnode
      cases hnode
    | some r =>
      rw [hshown] at hnode
      cases hnode
      rfl
  have hlabel : Node.isLabelFor dependenciesLabel ⟨.heading 2, "Dependencies", 0⟩ = true := by
    decide
  have hunder := itemsUnder?_append hbefore hlabel hitems hafter
  rw [itemTexts_itemsOr, List.map_id'] at hunder
  simpa only [specificationNodes, List.append_assoc, List.cons_append, List.nil_append] using hunder

/-- What is under the label of the criteria. -/
theorem itemsUnder?_criteria (h : Writable feature) (route : String) :
    itemsUnder? criteriaLabel (feature.specificationNodes route) =
      some (if feature.hidesCriteria then [] else feature.criteria.map criterionText) := by
  have hname : Node.isLabelFor criteriaLabel
      ⟨.heading 1, "Feature Specification: " ++ feature.name, 0⟩ = false :=
    (TitlePattern.fits_containing_append (by decide) feature.name).trans h.title
  have hid := isLabelFor_idText feature
  cases hhides : feature.hidesCriteria with
  | true =>
    -- Between the identifier and the next heading there is only the status.
    rw [hhides] at hid
    have hafter : ∀ node ∈ ((feature.specificationNodes route).drop 3).head?,
        node.label?.isSome := by
      intro node hnode
      cases hnode
      rfl
    exact itemsUnder?_append (List.forall_mem_singleton.mpr hname) hid
      (List.forall_mem_singleton.mpr (label?_status feature.status)) hafter
  | false =>
    rw [hhides] at hid
    have hitems : ∀ node ∈ itemsOr feature.criteria criterionText
        "No acceptance criteria documented.", node.label? = none :=
      label?_itemsOr (by decide)
    have hlabel : Node.isLabelFor criteriaLabel ⟨.heading 2, "Acceptance Criteria", 0⟩ = true := by
      decide
    have hafter : ∀ node ∈ (⟨.heading 2, "Dependencies", 0⟩ ::
        (itemsOr feature.dependencies (fun text => text) "None." ++
          requirementNodes (feature.shownRequirements route))).head?, node.label?.isSome := by
      intro node hnode
      cases hnode
      rfl
    have hunder := itemsUnder?_append (isLabelFor_intro h hname hid (by decide)) hlabel
      hitems hafter
    rw [itemTexts_itemsOr] at hunder
    simpa only [specificationNodes, List.append_assoc, List.cons_append, List.nil_append,
      Bool.false_eq_true, if_false] using hunder

/-- The identifier lists no dependencies. -/
theorem inlineDependencies?_idText (feature : Feature) :
    inlineDependencies? feature.idText = none := by
  have hnone : afterFoldAny? ["Depends on", "Dependencies"]
      ('F' :: ("eature ID:** ".toList ++ feature.id.toList)) = none := by
    apply List.findSome?_eq_none_iff.mpr
    intro text htext
    have hdeparts : departs text.toList ['F'] = true := by
      revert text
      decide
    exact afterFold?_of_departs hdeparts _
  rw [inlineDependencies?, toList_idText]
  exact congrArg (fun rest? => Option.bind rest? _) hnone

theorem isParagraph_requirementNodes (shown : Option Requirements) :
    ∀ node ∈ requirementNodes shown, node.isParagraph = false := by
  intro node hnode
  cases shown with
  | none => cases hnode
  | some r =>
    rcases List.mem_cons.mp hnode with rfl | hnode
    · rfl
    · obtain ⟨⟨title, items⟩, -, hnode⟩ := List.mem_flatMap.mp hnode
      dsimp only [kindNodes] at hnode
      split at hnode
      · cases hnode
      · rcases List.mem_cons.mp hnode with rfl | hnode
        · rfl
        · obtain ⟨item, -, rfl⟩ := List.mem_map.mp hnode
          rfl

theorem inlineDependencies?_itemsOr (h : inlineDependencies? replacement = none) :
    ∀ node ∈ itemsOr xs text replacement, node.isParagraph → inlineDependencies? node.text = none :=
  forall_itemsOr (fun _ hparagraph => by cases hparagraph) (fun _ => h)

/-- No paragraph of a specification lists dependencies after a colon. -/
theorem inlineDependencies?_nodes (h : Writable feature) (route : String) :
    ∀ node ∈ feature.specificationNodes route, node.isParagraph →
      inlineDependencies? node.text = none := by
  intro node hnode hparagraph
  simp only [specificationNodes, List.mem_append, List.mem_singleton] at hnode
  rcases hnode with (((((hintro | hstory) | rfl) | hcriterion) | rfl) | hdependency) | hrequirement
  · simp only [introNodes, List.mem_cons, List.not_mem_nil, or_false] at hintro
    rcases hintro with rfl | rfl | rfl | rfl | rfl | rfl
    · cases hparagraph
    · exact inlineDependencies?_idText feature
    · cases feature.status <;> decide
    · cases hparagraph
    · exact h.inline
    · cases hparagraph
  · exact inlineDependencies?_itemsOr (by decide) node hstory hparagraph
  · cases hparagraph
  · exact inlineDependencies?_itemsOr (by decide) node hcriterion hparagraph
  · cases hparagraph
  · exact inlineDependencies?_itemsOr (by decide) node hdependency hparagraph
  · rw [isParagraph_requirementNodes _ node hrequirement] at hparagraph
    cases hparagraph

theorem dependenciesOf_nodes (h : Writable feature) (route : String) :
    dependenciesOf (feature.specificationNodes route) = feature.dependencies := by
  have hinline : ((feature.specificationNodes route).filter (·.isParagraph)).findSome?
      (inlineDependencies? ·.text) = none := by
    apply List.findSome?_eq_none_iff.mpr
    intro node hnode
    obtain ⟨hmem, hparagraph⟩ := List.mem_filter.mp hnode
    exact inlineDependencies?_nodes h route node hmem hparagraph
  have hstrip : feature.dependencies.map strip = feature.dependencies :=
    (List.map_congr_left fun text htext => (h.dependencies text htext).stripped).trans
      (List.map_id _)
  have hfilled : feature.dependencies.filter (!·.isEmpty) = feature.dependencies := by
    apply List.filter_eq_self.mpr
    intro text htext
    have hne := (h.dependencies text htext).nonempty
    simpa using hne
  rw [dependenciesOf, hinline, itemsUnder?_dependencies h route]
  dsimp only [Option.getD_some]
  rw [hstrip, hfilled]

theorem criteriaOf_nodes (h : Writable feature) (route : String) :
    criteriaOf (feature.specificationNodes route) =
      if feature.hidesCriteria then []
      else feature.criteria.map fun criterion => { criterion with testable := true } := by
  rw [criteriaOf, itemsUnder?_criteria h route, Option.getD_some]
  split
  · rfl
  · rw [List.map_map]
    exact List.map_congr_left fun criterion hcriterion =>
      ofItem_criterionText (h.criteria criterion hcriterion)

theorem criteriaOf_unnumbered (nodes : List Node) :
    criteriaOf (nodes.map Node.unnumbered) = criteriaOf nodes := by
  rw [criteriaOf, itemsUnder?_unnumbered, criteriaOf]

theorem dependenciesOf_unnumbered (nodes : List Node) :
    dependenciesOf (nodes.map Node.unnumbered) = dependenciesOf nodes := by
  have hparagraphs : (nodes.map Node.unnumbered).filter (·.isParagraph) =
      (nodes.filter (·.isParagraph)).map Node.unnumbered := List.filter_map
  rw [dependenciesOf, hparagraphs, List.findSome?_map, itemsUnder?_unnumbered, dependenciesOf]
  rfl

/-- The text of a specification is read as its nodes. -/
theorem parse_specificationText (h : Writable feature) (route : String) :
    ∃ nodes, parse (feature.specificationText route) = .ok nodes ∧
      nodes.map Node.unnumbered = feature.specificationNodes route := by
  have hwritten := written_specification h route
  obtain ⟨nodes, hparse, hnodes⟩ := parse_writtenLines hwritten.plain
  exact ⟨nodes, hparse, hnodes.trans hwritten.made⟩

/-- **A specification reads back.** It is rendered within the limit on its size, its text can be
parsed, and it has the dependencies and the acceptance criteria of the feature, in their order. Only
an identifier that passes for the label of the criteria hides them all. -/
theorem specification_reads_back (h : Writable feature) (route : String)
    {options : Template.Options} (htrim : options.trimBlocks = true)
    (hdepth : 3 ≤ options.maxDepth) :
    (Template.render options Template.Bundled.featureSpec.name (feature.templateData route) =
      if (feature.specificationText route).length ≤ options.maxOutput then
        .ok (feature.specificationText route)
      else .error ((Failure.renderingTooLarge options.maxOutput).inTemplate
        Template.Bundled.featureSpec.name)) ∧
    ∃ nodes, parse (feature.specificationText route) = .ok nodes ∧
      dependenciesOf nodes = feature.dependencies ∧
      criteriaOf nodes =
        if feature.hidesCriteria then []
        else feature.criteria.map fun criterion => { criterion with testable := true } := by
  obtain ⟨nodes, hparse, hnodes⟩ := parse_specificationText h route
  refine ⟨render_featureSpec feature route htrim hdepth, nodes, hparse, ?_, ?_⟩
  · rw [← dependenciesOf_unnumbered, hnodes, dependenciesOf_nodes h route]
  · rw [← criteriaOf_unnumbered, hnodes, criteriaOf_nodes h route]

end Read

/-- A feature with two criteria and two dependencies. -/
def searchFeature : Feature where
  id := "001"
  name := "Search"
  slug := "search"
  description := "Finds notes by their words."
  stories := [⟨"reader", "to search", "I find my notes", "As a reader, I want to search"⟩]
  criteria := [⟨"Results are ranked", true, true⟩, ⟨"Typos are forgiven", false, true⟩]
  status := .incomplete
  dependencies := ["Index", "Notes"]
  requirements := some ⟨["Dependency: a stemmer"], ["Endpoint: search"], [], [], []⟩
  line := some 4

/-- The limits used where none are given, with block tags trimmed. -/
def trimming : Template.Options := { Template.Options.standard with trimBlocks := true }

theorem searchFeature_writable : searchFeature.Writable where
  name := by decide
  id := by decide
  description := by decide
  stories := by decide
  criteria := by decide
  dependencies := by decide
  requirements := by decide
  title := by decide
  unfenced := by decide
  paragraph := by decide
  label := by decide
  inline := by decide

theorem specification_reads_back_sample :
    searchFeature.Writable ∧ trimming.trimBlocks = true ∧ 3 ≤ trimming.maxDepth ∧
    ∃ text nodes,
      Template.render trimming Template.Bundled.featureSpec.name
        (searchFeature.templateData "brownfield") = .ok text ∧
      parse text = .ok nodes ∧ dependenciesOf nodes = ["Index", "Notes"] ∧
      criteriaOf nodes =
        [⟨"Results are ranked", true, true⟩, ⟨"Typos are forgiven", false, true⟩] := by
  have htrim : trimming.trimBlocks = true := rfl
  have hdepth : 3 ≤ trimming.maxDepth := by decide
  have hsize : (searchFeature.specificationText "brownfield").length ≤ trimming.maxOutput := by
    rw [specificationText, String.length_ofList]
    decide +kernel
  have hhides : searchFeature.hidesCriteria = false := hidesCriteria_eq_false (by decide)
  obtain ⟨hrender, nodes, hparse, hdependencies, hcriteria⟩ :=
    specification_reads_back searchFeature_writable "brownfield" htrim hdepth
  rw [if_pos hsize] at hrender
  rw [hhides] at hcriteria
  exact ⟨searchFeature_writable, htrim, hdepth, _, nodes, hrender, hparse, hdependencies,
    hcriteria⟩

/-- A feature whose identifier passes for the label of the criteria. -/
def hidingFeature : Feature :=
  { searchFeature with id := "Acceptance Criteria**", criteria := [⟨"Done", true, true⟩] }

theorem hidingFeature_writable : hidingFeature.Writable :=
  { searchFeature_writable with
    id := by decide
    criteria := by decide }

/-- The criterion of the feature is in its specification, under a label that is not reached. -/
theorem criteria_lost :
    hidingFeature.Writable ∧ hidingFeature.criteria ≠ [] ∧
    ∃ text nodes,
      Template.render trimming Template.Bundled.featureSpec.name
        (hidingFeature.templateData "greenfield") = .ok text ∧
      parse text = .ok nodes ∧ criteriaOf nodes = [] := by
  have hsize : (hidingFeature.specificationText "greenfield").length ≤ trimming.maxOutput := by
    rw [specificationText, String.length_ofList]
    decide +kernel
  have hhides : hidingFeature.hidesCriteria = true := by decide
  have htrim : trimming.trimBlocks = true := rfl
  have hrender := render_featureSpec hidingFeature "greenfield" htrim (by decide)
  obtain ⟨nodes, hparse, hnodes⟩ := parse_specificationText hidingFeature_writable "greenfield"
  have hcriteria := criteriaOf_nodes hidingFeature_writable "greenfield"
  rw [← hnodes, criteriaOf_unnumbered, hhides] at hcriteria
  rw [if_pos hsize] at hrender
  exact ⟨hidingFeature_writable, List.cons_ne_nil _ _, _, nodes, hrender, hparse, hcriteria⟩

end SpecDraft.Feature
