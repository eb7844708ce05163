import SpecDraft.Proofs.Constitution.Bounds
import SpecDraft.Proofs.Markdown.Concatenation
import SpecDraft.Proofs.Markdown.Heading
import SpecDraft.Proofs.Markdown.Section

/-!
# What follows a constitution

A constitution is read from sections that are looked up by their titles. Text that is added after a
document changes nothing in it when it starts with a heading of level one and none of its titles is
looked up (`extract_followed`): the heading ends every section that is open at the end of the
document, and no lookup that failed before finds a section now.
-/
set_option autoImplicit false

namespace SpecDraft

namespace Markdown

/-! ## Sections before other nodes -/

section Followed
variable {nodes rest : List Node} {pattern : TitlePattern}

/-- Whether every heading has a level that a heading of level one ends. -/
def Ranked (nodes : List Node) : Prop :=
  ∀ node ∈ nodes, ∀ level, node.level? = some level → 1 ≤ level

theorem ranked_of_parse {content : String} (h : parse content = .ok nodes) : Ranked nodes :=
  fun _ hnode _ hlevel => (heading_of_parse h hnode hlevel).1

theorem headingIndex?_followed (htitles : ∀ node ∈ rest, node.isHeadingFor pattern = false) :
    headingIndex? (nodes ++ rest) pattern = headingIndex? nodes pattern := by
  rw [headingIndex?, headingIndex?, List.findIdx?_append, List.findIdx?_eq_none_iff.mpr htitles,
    Option.map_none, Option.or_none]

/-- **A section is not continued** by nodes that start with a heading of level one. -/
theorem findSection?_followed (hranked : Ranked nodes)
    (hfirst : ∀ node ∈ rest.head?, node.level? = some 1)
    (htitles : ∀ node ∈ rest, node.isHeadingFor pattern = false) :
    findSection? (nodes ++ rest) pattern = findSection? nodes pattern := by
  cases hindex : headingIndex? nodes pattern with
  | none => simp [findSection?, headingIndex?_followed htitles, hindex]
  | some start =>
    obtain ⟨before, heading, after, rfl, -, hfits, hbefore⟩ := headingIndex?_eq_some_iff.mp hindex
    obtain ⟨level, hlevel⟩ : ∃ level, heading.level? = some level := by
      rw [Node.isHeadingFor, Bool.and_eq_true] at hfits
      exact Option.isSome_iff_exists.mp hfits.1
    have hrank := hranked heading (by simp) level hlevel
    rw [List.append_assoc, List.cons_append, findSection?_append hbefore hfits hlevel,
      findSection?_append hbefore hfits hlevel, takeWhile_append_of_head]
    intro node hnode
    simpa [Node.endsSection, hfirst node hnode] using hrank

/-- The run of nodes below a heading is not continued either. -/
theorem takeWhile_after_followed (hfirst : ∀ node ∈ rest.head?, node.level? = some 1)
    (htitles : ∀ node ∈ rest, node.isHeadingFor pattern = false) :
    (afterHeading? (nodes ++ rest) pattern).map (List.takeWhile (!·.isHeading)) =
      (afterHeading? nodes pattern).map (List.takeWhile (!·.isHeading)) := by
  rw [afterHeading?, afterHeading?, headingIndex?_followed htitles]
  cases hindex : headingIndex? nodes pattern with
  | none => rfl
  | some start =>
    obtain ⟨before, heading, after, rfl, rfl, -, -⟩ := headingIndex?_eq_some_iff.mp hindex
    have hown : (after ++ rest).takeWhile (!·.isHeading) = after.takeWhile (!·.isHeading) :=
      takeWhile_append_of_head fun node hnode => by simp [Node.isHeading, hfirst node hnode]
    simpa using hown

end Followed

/-! ## Contents put together -/

theorem parse_followed {a b : String} {nodes rest : List Node} (ha : parse a = .ok nodes)
    (hb : parse b = .ok rest) :
    parse (a ++ "\n" ++ b) = .ok (nodes ++ rest.map (Node.later (contentLines a).length)) := by
  have hrest := nodesFrom_later 1 (contentLines a).length none (contentLines b)
  rw [← parse, hb] at hrest
  rw [parse, contentLines_append, nodesFrom_append ha]
  exact congrArg (· >>= _) hrest

end Markdown

namespace Constitution

open Text Markdown

/-! ## What a constitution is read from -/

/-- The titles of the sections that a constitution is read from. -/
def lookedUp : List (List String) :=
  [["Purpose"], ["Core Values", "Values"], ["Technical Stack"],
    ["Code Quality", "Quality Standards"], ["Testing"], ["Security"], ["Documentation"],
    ["Performance"], ["Scalability"], ["Governance"]]

/-- Whether nodes stand apart from what is before them: they start with a heading of level one, and
no title among them is looked up. -/
structure Apart (rest : List Node) : Prop where
  first : ∀ node ∈ rest.head?, node.level? = some 1
  titles : ∀ node ∈ rest, ∀ titles ∈ lookedUp, node.isHeadingFor (.exactly titles) = false

section Followed
variable {nodes rest : List Node}

/-- Nodes stand apart wherever they are. -/
theorem Apart.later (h : Apart rest) (lines : Nat) : Apart (rest.map (Node.later lines)) where
  first := by
    intro node hnode
    rw [List.head?_map] at hnode
    obtain ⟨first, hfirst, rfl⟩ := Option.map_eq_some_iff.mp hnode
    exact h.first first hfirst
  titles := by
    intro node hnode
    obtain ⟨first, hfirst, rfl⟩ := List.mem_map.mp hnode
    exact h.titles first hfirst

theorem sectionText?_followed (hranked : Ranked nodes) (h : Apart rest) {titles : List String}
    (htitles : titles ∈ lookedUp) :
    sectionText? (nodes ++ rest) titles = sectionText? nodes titles := by
  rw [sectionText?, sectionText?, Markdown.sectionText?, Markdown.sectionText?,
    findSection?_followed hranked h.first fun node hnode => h.titles node hnode titles htitles]

theorem valuesOf_eq (nodes : List Node) : valuesOf nodes =
    match (afterHeading? nodes (.exactly ["Core Values", "Values"])).map
      (List.takeWhile (!·.isHeading)) with
    | none => []
    | some own => ((own.dropWhile (!·.isItem)).takeWhile (·.isItem)).map (strip ·.text) := by
  rw [valuesOf]
  cases afterHeading? nodes (.exactly ["Core Values", "Values"]) <;> rfl

theorem valuesOf_followed (h : Apart rest) : valuesOf (nodes ++ rest) = valuesOf nodes := by
  have hvalues : ["Core Values", "Values"] ∈ lookedUp := by decide
  rw [valuesOf_eq, valuesOf_eq,
    takeWhile_after_followed h.first fun node hnode => h.titles node hnode _ hvalues]

theorem standardsOf_followed (hranked : Ranked nodes) (h : Apart rest) :
    standardsOf (nodes ++ rest) = standardsOf nodes := by
  have hlooked : ∀ entry ∈ standardSections, entry.1 ∈ lookedUp := by decide
  apply List.filterMap_congr
  rintro ⟨titles, category, level⟩ hentry
  have htext := sectionText?_followed hranked h (hlooked _ hentry)
  dsimp only at htext ⊢
  rw [htext]

/-- **Nodes that stand apart say nothing** about any part of a constitution. -/
theorem drawn_followed (hranked : Ranked nodes) (h : Apart rest) (route : Route) :
    drawn (nodes ++ rest) route = drawn nodes route := by
  have hsection (title : String) (htitle : [title] ∈ lookedUp) :=
    sectionText?_followed hranked h htitle
  simp only [drawn, purposeOf, governanceOf, metricsOf, stackOf?, valuesOf_followed h,
    standardsOf_followed hranked h, hsection "Purpose" (by decide),
    hsection "Technical Stack" (by decide), hsection "Performance" (by decide),
    hsection "Scalability" (by decide), hsection "Governance" (by decide)]

end Followed

/-- What is read from a document is what its sections say. -/
theorem extract_eq_of_drawn {document other : Document} {route : Route}
    (h : drawn other.nodes route = drawn document.nodes route) :
    extract other route = extract document route := by
  have hpurpose : purposeOf other.nodes = purposeOf document.nodes := congrArg (·.purpose) h
  have hvalues : valuesOf other.nodes = valuesOf document.nodes := congrArg (·.values) h
  have hstandards : standardsOf other.nodes = standardsOf document.nodes :=
    congrArg (·.standards) h
  have hmetrics : metricsOf other.nodes = metricsOf document.nodes := congrArg (·.metrics) h
  have hgovernance : governanceOf other.nodes = governanceOf document.nodes :=
    congrArg (·.governance) h
  have hstack : stackFor route other.nodes = stackFor route document.nodes := by
    cases route with
    | greenfield => rfl
    | brownfield =>
      have hfound : stackOf? other.nodes = stackOf? document.nodes := congrArg (·.stack) h
      rw [stackFor, stackFor, hfound]
  simp only [extract, hpurpose, hvalues, hstandards, hmetrics, hgovernance, hstack]

/-- **A constitution ignores what follows it.** A document after which nodes that stand apart are
added can still be read, and its constitution, or the reason why it has none, is the same. -/
theorem extract_followed (a b : String) (path other : FilePath) (modified later : String)
    (route : Route) (document : Document) (rest : List Node)
    (ha : Document.parse a path modified = .ok document) (hb : Markdown.parse b = .ok rest)
    (hrest : Apart rest) :
    ∃ whole, Document.parse (a ++ "\n" ++ b) other later = .ok whole ∧
      extract whole route = extract document route := by
  have hnodes : Markdown.parse a = .ok document.nodes := by
    obtain ⟨nodes, hparse, hdocument⟩ := Action.bind_ok.mp ha
    cases hdocument
    exact hparse
  obtain ⟨whole, hwhole, hwholeNodes⟩ :=
    Document.exists_parse (parse_followed hnodes hb) other later
  refine ⟨whole, hwhole, extract_eq_of_drawn ?_⟩
  rw [hwholeNodes]
  exact drawn_followed (ranked_of_parse hnodes) (hrest.later _) route

/-- An appendix with a list and a deeper heading. -/
def appendixContent : String := "# Appendix\nMemory: 1 GB\n## Sources\n- Minutes"

/-- The nodes of that appendix. -/
def appendixNodes : List Node := [⟨.heading 1, "Appendix", 1⟩, ⟨.paragraph, "Memory: 1 GB", 2⟩,
  ⟨.heading 2, "Sources", 3⟩, ⟨.item false 0, "Minutes", 4⟩]

theorem extract_followed_appendix : ∃ document whole c,
    Document.parse silentContent ⟨"/", ["spec.md"]⟩ "" = .ok document ∧
    Document.parse (silentContent ++ "\n" ++ appendixContent) ⟨"/", ["spec.md"]⟩ "" = .ok whole ∧
    extract document .greenfield = .ok c ∧ extract whole .greenfield = .ok c ∧
    c.metrics.map (·.name) = ["Load", "Search"] := by
  have happendix : Markdown.parse appendixContent = .ok appendixNodes := rfl
  have hapart : Apart appendixNodes := ⟨by decide, by decide⟩
  obtain ⟨document, hparse, hnodes⟩ :=
    Document.exists_parse (parse_of_toOption nodes_silent) ⟨"/", ["spec.md"]⟩ ""
  obtain ⟨whole, hwhole, hsame⟩ := extract_followed silentContent appendixContent _
    ⟨"/", ["spec.md"]⟩ _ "" .greenfield document appendixNodes hparse happendix hapart
  have hextract : extract document .greenfield = .ok (drawn silentNodes .greenfield) :=
    extract_ok.mpr ⟨by rw [hnodes], bounded_silent⟩
  exact ⟨document, whole, _, hparse, hwhole, hextract, hsame.trans hextract, by decide +kernel⟩

end Constitution
end SpecDraft
