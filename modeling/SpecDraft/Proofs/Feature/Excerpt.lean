import SpecDraft.Proofs.Feature.Spans
import SpecDraft.Proofs.Json.Numeral
import SpecDraft.Proofs.Markdown.Fences
import SpecDraft.Proofs.Markdown.Label
import SpecDraft.Proofs.Template.Specification

/-!
# Where the texts of a feature come from

Every text of a feature that is read is its identifier, the text for a missing description, or part
of the text of one of its nodes (`source_of_mem_texts`). So none of them holds a line feed when the
document was read from a content (`single_of_extract`).
-/
set_option autoImplicit false

namespace SpecDraft

open Text Markdown

/-! ## Stories, criteria and dependencies -/

namespace UserStory

theorem infix_of_cutInside? {phrase : String} {s a b : List Char}
    (h : cutInside? phrase s = some (a, b)) : a <+: s ∧ b <:+ s := by
  cases s with
  | nil => cases h
  | cons c s =>
    obtain ⟨⟨before, after⟩, hcut, hpair⟩ := Option.map_eq_some_iff.mp h
    cases hpair
    obtain ⟨hbefore, hafter⟩ := infix_of_cutFold? hcut
    exact ⟨(List.prefix_cons_inj c).mpr hbefore, hafter.trans (List.suffix_cons c s)⟩

theorem dropPeriod_prefix_self (s : List Char) : dropPeriod s <+: s := by
  unfold dropPeriod
  split
  · exact List.dropLast_prefix s
  · exact List.prefix_refl s

theorem infix_of_parts? {s role goal benefit : List Char}
    (h : parts? s = some (role, goal, benefit)) : role <:+: s ∧ goal <:+: s ∧ benefit <:+: s := by
  obtain ⟨rest, hrest, h⟩ := Option.bind_eq_some_iff.mp h
  obtain ⟨⟨role', rest'⟩, hrole, h⟩ := Option.bind_eq_some_iff.mp h
  obtain ⟨⟨goal', rest''⟩, hgoal, h⟩ := Option.bind_eq_some_iff.mp h
  have hstart := suffix_of_afterFoldAny? hrest
  obtain ⟨hrole, hafter⟩ := infix_of_cutInside? hrole
  obtain ⟨hgoal, hlast⟩ := infix_of_cutInside? hgoal
  have hmiddle := hafter.trans hstart
  dsimp only at h
  split at h
  · cases h
  · cases h
    exact ⟨hrole.isInfix.trans hstart.isInfix, hgoal.isInfix.trans hmiddle.isInfix,
      (dropPeriod_prefix_self rest'').isInfix.trans (hlast.trans hmiddle).isInfix⟩

/-- **The parts of a story** are parts of the text that tells it. -/
theorem infix_of_ofText? {text : String} {story : UserStory} (h : ofText? text = some story) :
    story.role.toList <:+: text.toList ∧ story.goal.toList <:+: text.toList ∧
      story.benefit.toList <:+: text.toList := by
  obtain ⟨⟨before, role, goal, benefit⟩, hfirst, rfl⟩ := Option.map_eq_some_iff.mp h
  obtain ⟨here, htext, hparts⟩ := firstFrom_some hfirst
  have hhere : here <:+: text.toList := htext ▸ (List.suffix_append before here).isInfix
  obtain ⟨hrole, hgoal, hbenefit⟩ := infix_of_parts? hparts
  simp only [String.toList_ofList]
  exact ⟨(trim_infix_self role).trans (hrole.trans hhere),
    (trim_infix_self goal).trans (hgoal.trans hhere),
    (trim_infix_self benefit).trans (hbenefit.trans hhere)⟩

end UserStory

theorem Criterion.infix_of_ofItem (item : String) :
    (Criterion.ofItem item).description.toList <:+: item.toList := by
  rw [ofItem]
  split
  · rename_i checked text hbox
    unfold checkbox? at hbox
    split at hbox
    · rename_i mark rest hitem
      split at hbox
      · cases hbox
        rw [hitem, String.toList_ofList]
        exact (trim_infix_self rest).trans (List.suffix_append ['[', mark, ']'] rest).isInfix
      · cases hbox
    · cases hbox
  · exact strip_infix_self item

namespace Feature

theorem suffix_of_inlineList? {s list : List Char} (h : inlineList? s = some list) :
    list <:+ s := by
  have hleft : trimLeft s <:+ s := List.dropWhile_suffix isBlank
  unfold inlineList? at h
  split at h
  · cases h
  · dsimp only at h
    split at h
    · rename_i rest hbold
      split at h
      · cases h
        exact hleft
      · cases h
        have hrest : trimLeft rest <:+ rest := List.dropWhile_suffix isBlank
        exact hrest.trans ((suffix_of_boldMark? hbold).trans hleft)
    · cases h
      exact hleft

theorem dropBoldMark_suffix (s : List Char) : dropBoldMark s <:+ s := by
  rw [dropBoldMark]
  cases hbold : boldMark? s with
  | none => exact List.suffix_refl s
  | some rest => exact suffix_of_boldMark? hbold

theorem infix_of_inlineDependencies? {text dependency : String} {dependencies : List String}
    (h : inlineDependencies? text = some dependencies) (hdependency : dependency ∈ dependencies) :
    dependency.toList <:+: text.toList := by
  obtain ⟨rest, hrest, h⟩ := Option.bind_eq_some_iff.mp h
  have hafter := (suffix_of_afterFoldAny? hrest).trans (dropBoldMark_suffix text.toList)
  have hcolon : trimLeft (dropBoldMark rest) <:+ rest :=
    (List.dropWhile_suffix isBlank).trans (dropBoldMark_suffix rest)
  split at h
  · rename_i list hlist
    obtain ⟨found, hfound, rfl⟩ := Option.map_eq_some_iff.mp h
    rw [hlist] at hcolon
    have hsource := ((suffix_of_inlineList? hfound).trans (List.suffix_cons ':' list)).trans
      (hcolon.trans hafter)
    exact (infix_of_mem_commaItems hdependency).trans hsource.isInfix
  · cases h

/-! ## The texts of a feature -/

/-- The texts that a specification takes from a feature. -/
def texts (feature : Feature) : List String :=
  [feature.name, feature.id, feature.description] ++
  feature.stories.flatMap (fun story => [story.role, story.goal, story.benefit]) ++
  feature.criteria.map (·.description) ++ feature.dependencies ++
  feature.requirements.toList.flatMap (·.kinds.flatMap Prod.snd)

/-- Whether a text is part of the text of one of some nodes that are no code blocks. -/
def Quoted (nodes : List Node) (text : String) : Prop :=
  ∃ node ∈ nodes, node.isCode = false ∧ text.toList <:+: node.text.toList

section Source
variable {nodes : List Node} {text : String}

theorem Quoted.mono {nodes' : List Node} (h : Quoted nodes text) (hsub : nodes ⊆ nodes') :
    Quoted nodes' text := by
  obtain ⟨node, hnode, hkind⟩ := h
  exact ⟨node, hsub hnode, hkind⟩

theorem Quoted.single {content : String} (h : Quoted nodes text)
    (hparse : Markdown.parse content = .ok nodes) : '\n' ∉ text.toList := by
  obtain ⟨node, hnode, hcode, hpart⟩ := h
  exact fun hmem => not_mem_text_of_parse hparse hnode hcode (hpart.subset hmem)

theorem isCode_of_isItem {node : Node} (h : node.isItem = true) : node.isCode = false := by
  unfold Node.isItem at h
  unfold Node.isCode
  split at h
  · rename_i hkind
    rw [hkind]
  · cases h

theorem isCode_of_isParagraph {node : Node} (h : node.isParagraph = true) :
    node.isCode = false := by
  unfold Node.isCode
  rw [of_decide_eq_true h]

theorem isCode_of_isHeading {node : Node} (h : isHeading node = true) : node.isCode = false := by
  obtain ⟨level, hlevel, -⟩ := isHeading_iff.mp h
  exact isCode_of_level? hlevel

theorem quoted_of_itemsUnder? {pattern : TitlePattern} {item : String}
    (h : item ∈ (itemsUnder? pattern nodes).getD []) (hpart : text.toList <:+: item.toList) :
    Quoted nodes text := by
  cases hitems : itemsUnder? pattern nodes with
  | none => simp [hitems] at h
  | some items =>
    rw [hitems] at h
    obtain ⟨node, hnode, hitem, rfl⟩ := exists_node_of_itemsUnder? hitems h
    exact ⟨node, hnode, isCode_of_isItem hitem, hpart⟩

/-- A description is the text of a paragraph without the blanks around it. -/
theorem descriptionOf_cases (nodes : List Node) : descriptionOf nodes = noDescription ∨
    ∃ node ∈ nodes, isDescription node = true ∧ descriptionOf nodes = strip node.text := by
  rw [descriptionOf]
  cases hfind : nodes.find? isDescription with
  | none => exact .inl rfl
  | some node => exact .inr ⟨node, List.mem_of_find?_eq_some hfind, List.find?_some hfind, rfl⟩

theorem isParagraph_of_isDescription {node : Node} (h : isDescription node = true) :
    node.isParagraph = true := by
  rw [isDescription, Bool.and_eq_true, Bool.and_eq_true] at h
  exact h.1.1

theorem quoted_of_story {story : UserStory} (h : story ∈ UserStory.ofNodes nodes) :
    Quoted nodes story.role ∧ Quoted nodes story.goal ∧ Quoted nodes story.benefit := by
  obtain ⟨node, hnode, hstory⟩ := List.mem_filterMap.mp h
  unfold UserStory.ofNode? at hstory
  split at hstory
  · rename_i hkind
    have hcode : node.isCode = false :=
      (Bool.or_eq_true_iff.mp hkind).elim isCode_of_isParagraph isCode_of_isItem
    obtain ⟨hrole, hgoal, hbenefit⟩ := UserStory.infix_of_ofText? hstory
    exact ⟨⟨node, hnode, hcode, hrole⟩, ⟨node, hnode, hcode, hgoal⟩, ⟨node, hnode, hcode, hbenefit⟩⟩
  · cases hstory

theorem quoted_of_dependency (h : text ∈ dependenciesOf nodes) : Quoted nodes text := by
  unfold dependenciesOf at h
  split at h
  · rename_i dependencies hinline
    obtain ⟨node, hnode, hfound⟩ := List.exists_of_findSome?_eq_some hinline
    obtain ⟨hmem, hparagraph⟩ := List.mem_filter.mp hnode
    exact ⟨node, hmem, isCode_of_isParagraph hparagraph, infix_of_inlineDependencies? hfound h⟩
  · obtain ⟨item, hitem, rfl⟩ := List.mem_map.mp (List.mem_filter.mp h).1
    exact quoted_of_itemsUnder? hitem (strip_infix_self item)

theorem quoted_of_requirement {r : Requirements} {kind : String × List String}
    (h : requirementsOf nodes = some r) (hkind : kind ∈ r.kinds) (htext : text ∈ kind.2) :
    Quoted nodes text := by
  unfold requirementsOf at h
  split at h
  · cases h
  · cases h
  · rename_i items _ hitems
    cases h
    -- Every kind is a selection of the items under the label.
    have hitem : text ∈ items := by
      simp only [Requirements.kinds, Requirements.ofItems, List.mem_cons, List.not_mem_nil,
        or_false] at hkind
      rcases hkind with rfl | rfl | rfl | rfl | rfl <;> exact (List.mem_filter.mp htext).1
    have hunder : text ∈ (itemsUnder? requirementsLabel nodes).getD [] := by rwa [hitems]
    exact quoted_of_itemsUnder? hunder (List.infix_refl _)

/-- **Where the texts of a feature come from**: from its heading and its nodes, but for the
identifier and the text for a missing description. -/
theorem source_of_mem_texts {debt : Option Document} {place : Nat} {heading : Node}
    (hheading : isHeading heading = true) (h : text ∈ (ofSpan debt place heading nodes).texts) :
    text = idAt place ∨ text = noDescription ∨ Quoted (heading :: nodes) text := by
  have hspan {part : String} (hquoted : Quoted nodes part) : Quoted (heading :: nodes) part :=
    hquoted.mono (List.subset_cons_self heading nodes)
  simp only [texts, List.mem_append, List.mem_cons, List.not_mem_nil, or_false] at h
  rcases h with (((hfirst | hstory) | hcriterion) | hdependency) | hrequirement
  · rcases hfirst with rfl | rfl | rfl
    · exact .inr (.inr ⟨heading, List.mem_cons_self, isCode_of_isHeading hheading,
        strip_infix_self heading.text⟩)
    · exact .inl rfl
    · rcases descriptionOf_cases nodes with hnone | ⟨node, hnode, hfits, hstrip⟩
      · exact .inr (.inl hnone)
      · have hcode := isCode_of_isParagraph (isParagraph_of_isDescription hfits)
        have htext : (ofSpan debt place heading nodes).description = strip node.text := hstrip
        rw [htext]
        exact .inr (.inr (hspan ⟨node, hnode, hcode, strip_infix_self node.text⟩))
  · obtain ⟨story, hstory, hpart⟩ := List.mem_flatMap.mp hstory
    obtain ⟨hrole, hgoal, hbenefit⟩ := quoted_of_story hstory
    simp only [List.mem_cons, List.not_mem_nil, or_false] at hpart
    rcases hpart with rfl | rfl | rfl
    · exact .inr (.inr (hspan hrole))
    · exact .inr (.inr (hspan hgoal))
    · exact .inr (.inr (hspan hbenefit))
  · obtain ⟨criterion, hmem, rfl⟩ := List.mem_map.mp hcriterion
    obtain ⟨item, hitem, rfl⟩ := List.mem_map.mp hmem
    exact .inr (.inr (hspan (quoted_of_itemsUnder? hitem (Criterion.infix_of_ofItem item))))
  · exact .inr (.inr (hspan (quoted_of_dependency hdependency)))
  · obtain ⟨r, hr, hkinds⟩ := List.mem_flatMap.mp hrequirement
    obtain ⟨kind, hkind, htext⟩ := List.mem_flatMap.mp hkinds
    exact .inr (.inr (hspan (quoted_of_requirement (Option.mem_toList.mp hr) hkind htext)))

end Source

/-! ## The features of a document -/

section Document
variable {document : Document} {debt : Option Document} {features : List Feature}
  {feature : Feature}

theorem subset_of_mem_spans {nodes span : List Node} {heading : Node}
    (h : (heading, span) ∈ spans nodes) : isHeading heading = true ∧ heading :: span ⊆ nodes := by
  induction nodes with
  | nil => cases h
  | cons node nodes ih =>
    cases hnode : isHeading node with
    | true =>
      rw [spans_cons_heading hnode, List.mem_cons] at h
      rcases h with h | h
      · cases h
        exact ⟨hnode, List.cons_subset_cons _ (List.takeWhile_prefix _).subset⟩
      · exact ⟨(ih h).1, List.subset_cons_of_subset _ (ih h).2⟩
    | false =>
      rw [spans_cons_plain hnode] at h
      exact ⟨(ih h).1, List.subset_cons_of_subset _ (ih h).2⟩

/-- A feature is read from a heading of the document and from nodes of the document. -/
theorem exists_span (h : extract document debt = .ok features) (hfeature : feature ∈ features) :
    ∃ place heading span, isHeading heading = true ∧ heading :: span ⊆ document.nodes ∧
      feature = ofSpan debt place heading span := by
  obtain ⟨start, -, -, rfl⟩ := extract_ok.mp h
  obtain ⟨place, heading, span, hspan, rfl⟩ := mem_ofSpans hfeature
  obtain ⟨hheading, hsub⟩ := subset_of_mem_spans hspan
  have hrange := (range_prefix_nodes false (document.nodes.drop (start + 1))).subset
  exact ⟨place, heading, span, hheading,
    fun node hnode => List.mem_of_mem_drop (hrange (hsub hnode)), rfl⟩

theorem not_mem_idAt (place : Nat) : '\n' ∉ (idAt place).toList :=
  fun h => absurd (Moment.isDigit_of_mem_padded _ h) (by decide)

/-- **The texts of a feature stand on one line each** when the document was read from a
content. -/
theorem single_of_extract {content : String} (hparse : Markdown.parse content = .ok document.nodes)
    (h : extract document debt = .ok features) (hfeature : feature ∈ features) :
    ∀ text ∈ feature.texts, '\n' ∉ text.toList := by
  intro text htext
  obtain ⟨place, heading, span, hheading, hsub, rfl⟩ := exists_span h hfeature
  rcases source_of_mem_texts hheading htext with rfl | rfl | hquoted
  · exact not_mem_idAt place
  · decide
  · exact (hquoted.mono hsub).single hparse

end Document

end Feature
end SpecDraft
