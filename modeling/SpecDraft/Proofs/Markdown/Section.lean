import Mathlib.Data.List.TakeWhile
import Mathlib.Order.Interval.Finset.Nat
import SpecDraft.Markdown.Section

/-!
# Sections nest

A section is a heading and the nodes after it, up to the next heading of its rank or above
(`startsAt_of_indexWhere?`). How a heading is chosen does not matter for that, so that headings are
found here by any test of their titles. Of two sections, either no node belongs to both, or the one
holds the other, whose heading is then of a lower rank (`sections_nest`): the heading of the inner
section does not end the outer one, so it ranks below it, and what ends the outer section ends the
inner one as well.
-/
set_option autoImplicit false

namespace SpecDraft.Markdown

/-! ## Headings found by a test -/

/-- The place of the first heading whose title passes a test. -/
def indexWhere? (nodes : List Node) (test : String → Bool) : Option Nat :=
  nodes.findIdx? fun node => node.isHeading && test node.text

/-- The section of the first heading whose title passes a test. -/
def sectionWhere? (nodes : List Node) (test : String → Bool) : Option Section := do
  let index ← indexWhere? nodes test
  let heading ← nodes[index]?
  let level ← heading.level?
  return ⟨heading, level, (nodes.drop (index + 1)).takeWhile (!·.endsSection level)⟩

/-- A pattern is a test of titles. -/
theorem headingIndex?_eq_indexWhere? (nodes : List Node) (pattern : TitlePattern) :
    headingIndex? nodes pattern = indexWhere? nodes pattern.fits := rfl

theorem findSection?_eq_sectionWhere? (nodes : List Node) (pattern : TitlePattern) :
    findSection? nodes pattern = sectionWhere? nodes pattern.fits := rfl

/-- A node is found at its place when it fits and none before it does. -/
theorem findIdx?_eq_some_iff_take {p : Node → Bool} {nodes : List Node} {place : Nat} {node : Node}
    (h : nodes[place]? = some node) : nodes.findIdx? p = some place ↔
      p node = true ∧ ∀ earlier ∈ nodes.take place, p earlier = false := by
  obtain ⟨hplace, rfl⟩ := List.getElem?_eq_some_iff.mp h
  rw [List.findIdx?_eq_some_iff_getElem]
  constructor
  · rintro ⟨_, hfits, hfirst⟩
    refine ⟨hfits, fun earlier hearlier => ?_⟩
    obtain ⟨j, hj, rfl⟩ := List.mem_take_iff_getElem.mp hearlier
    exact Bool.eq_false_iff.mpr (hfirst j (by omega))
  · rintro ⟨hfits, hfirst⟩
    refine ⟨hplace, hfits, fun j hj => Bool.eq_false_iff.mp (hfirst _ ?_)⟩
    exact List.mem_take_iff_getElem.mpr ⟨j, by omega, rfl⟩

/-- A heading is found where no node before it fits. -/
theorem headingIndex?_eq_some_iff {nodes : List Node} {pattern : TitlePattern} {start : Nat} :
    headingIndex? nodes pattern = some start ↔ ∃ before heading after,
      nodes = before ++ heading :: after ∧ before.length = start ∧
      heading.isHeadingFor pattern = true ∧
      ∀ node ∈ before, node.isHeadingFor pattern = false := by
  constructor
  · intro h
    obtain ⟨hlt, -⟩ := List.findIdx?_eq_some_iff_getElem.mp h
    obtain ⟨hfits, hbefore⟩ := (findIdx?_eq_some_iff_take (List.getElem?_eq_getElem hlt)).mp h
    refine ⟨nodes.take start, nodes[start], nodes.drop (start + 1), ?_, ?_, hfits, hbefore⟩
    · rw [List.getElem_cons_drop, List.take_append_drop]
    · rw [List.length_take, Nat.min_eq_left hlt.le]
  · rintro ⟨before, heading, after, rfl, rfl, hfits, hbefore⟩
    have hplace : (before ++ heading :: after)[before.length]? = some heading := by simp
    apply (findIdx?_eq_some_iff_take hplace).mpr
    rw [List.take_left]
    exact ⟨hfits, hbefore⟩

/-- The section of the first heading that fits has the nodes up to the next heading of its rank or
above. -/
theorem findSection?_append {pattern : TitlePattern} {before after : List Node} {heading : Node}
    {level : Nat} (hbefore : ∀ node ∈ before, node.isHeadingFor pattern = false)
    (hfits : heading.isHeadingFor pattern = true) (hlevel : heading.level? = some level) :
    findSection? (before ++ heading :: after) pattern =
      some ⟨heading, level, after.takeWhile (!·.endsSection level)⟩ := by
  have hindex : headingIndex? (before ++ heading :: after) pattern = some before.length :=
    headingIndex?_eq_some_iff.mpr ⟨before, heading, after, rfl, rfl, hfits, hbefore⟩
  simp [findSection?, hindex, hlevel]

/-- Nodes that are taken up to one that fails a test do not go on beyond it. -/
theorem takeWhile_append_of_head {p : Node → Bool} {nodes rest : List Node}
    (h : ∀ node ∈ rest.head?, p node = false) :
    (nodes ++ rest).takeWhile p = nodes.takeWhile p := by
  induction nodes with
  | nil =>
    cases rest with
    | nil => rfl
    | cons node rest => exact List.takeWhile_cons_of_neg (by simpa using h)
  | cons node nodes ih =>
    rw [List.cons_append, List.takeWhile_cons, List.takeWhile_cons, ih]

/-! ## Where a section starts and stops -/

/-- The place after the last node of a section that starts at a place. -/
def Section.stop (found : Section) (start : Nat) : Nat := start + 1 + found.children.length

/-- The places of the nodes of a section that starts at a place. -/
def Section.places (found : Section) (start : Nat) : Finset Nat :=
  Finset.Ico start (found.stop start)

/-- Whether a section starts at a place: its heading is there and its nodes follow it, none of them
ends the section, and the node after them does. -/
structure StartsAt (nodes : List Node) (start : Nat) (found : Section) : Prop where
  split : nodes = nodes.take start ++
    found.heading :: (found.children ++ nodes.drop (found.stop start))
  level : found.heading.level? = some found.level
  within : ∀ child ∈ found.children, child.endsSection found.level = false
  ends : ∀ after ∈ nodes[found.stop start]?, after.endsSection found.level = true

/-- Whether the heading at a place is the first one that passes a test. -/
structure FirstPasses (nodes : List Node) (test : String → Bool) (start : Nat) (heading : Node) :
    Prop where
  passes : test heading.text = true
  first : ∀ node ∈ nodes.take start, node.isHeading = true → test node.text = false

section Found
variable {nodes : List Node} {test : String → Bool} {start : Nat} {found : Section}

/-- **The section of a heading** starts at the heading that was found, and it is cut before the next
node that ends it. -/
theorem startsAt_of_indexWhere? (h : indexWhere? nodes test = some start) :
    ∃ found, sectionWhere? nodes test = some found ∧ StartsAt nodes start found ∧
      FirstPasses nodes test start found.heading := by
  obtain ⟨hlt, -⟩ := List.findIdx?_eq_some_iff_getElem.mp h
  obtain ⟨hpasses, hbefore⟩ := (findIdx?_eq_some_iff_take (List.getElem?_eq_getElem hlt)).mp h
  rw [Bool.and_eq_true] at hpasses
  obtain ⟨level, hlevel⟩ := Option.isSome_iff_exists.mp hpasses.1
  have hsection : sectionWhere? nodes test = some ⟨nodes[start], level,
      (nodes.drop (start + 1)).takeWhile (!·.endsSection level)⟩ := by
    simp [sectionWhere?, h, hlt, hlevel]
  -- The nodes after the heading are its children and the rest.
  have hrest := List.prefix_iff_eq_append.mp
    (List.takeWhile_prefix (!·.endsSection level) (l := nodes.drop (start + 1)))
  refine ⟨_, hsection, ⟨?_, hlevel, ?_, ?_⟩, hpasses.2, ?_⟩
  · rw [List.drop_drop] at hrest
    simp only [Section.stop, hrest]
    rw [← List.drop_eq_getElem_cons hlt, List.take_append_drop]
  · intro child hchild
    simpa using List.mem_takeWhile_imp hchild
  · intro after hafter
    have hdrop : (nodes.drop (start + 1)).drop
        ((nodes.drop (start + 1)).takeWhile (!·.endsSection level)).length =
        (nodes.drop (start + 1)).dropWhile (!·.endsSection level) :=
      List.append_cancel_left (hrest.trans List.takeWhile_append_dropWhile.symm)
    have hhead := List.head?_dropWhile_not (!·.endsSection level) (nodes.drop (start + 1))
    rw [← hdrop, List.drop_drop, List.head?_drop] at hhead
    rw [Section.stop] at hafter
    rw [Option.mem_def.mp hafter] at hhead
    simpa using hhead
  · intro node hnode hheading
    have hnot := hbefore node hnode
    rwa [hheading, Bool.true_and] at hnot

/-- There is a section where there is a heading. -/
theorem sectionWhere?_eq_none_iff :
    sectionWhere? nodes test = none ↔ indexWhere? nodes test = none := by
  constructor
  · intro h
    cases hindex : indexWhere? nodes test with
    | none => rfl
    | some start =>
      obtain ⟨found, hfound, -⟩ := startsAt_of_indexWhere? hindex
      rw [hfound] at h
      cases h
  · intro h
    rw [sectionWhere?, h]
    rfl

end Found

section Nested
variable {nodes : List Node} {i j : Nat} {a b : Section}

theorem StartsAt.length_take (h : StartsAt nodes i a) : (nodes.take i).length = i := by
  have hlength := congrArg List.length h.split
  simp only [List.length_append, List.length_cons, List.length_take, List.length_drop] at hlength ⊢
  omega

theorem StartsAt.getElem?_heading (h : StartsAt nodes i a) : nodes[i]? = some a.heading := by
  conv_lhs => rw [h.split]
  rw [List.getElem?_append_right h.length_take.le, h.length_take, Nat.sub_self]
  rfl

theorem StartsAt.getElem?_child (h : StartsAt nodes i a) {place : Nat} (hstart : i < place)
    (hstop : place < a.stop i) : ∃ child ∈ a.children, nodes[place]? = some child := by
  have hlt : place - (i + 1) < a.children.length := by
    rw [Section.stop] at hstop
    omega
  refine ⟨a.children[place - (i + 1)], List.getElem_mem hlt, ?_⟩
  conv_lhs => rw [h.split]
  rw [List.getElem?_append_right (by rw [h.length_take]; exact hstart.le), h.length_take,
    show place - i = place - (i + 1) + 1 by omega, List.getElem?_cons_succ,
    List.getElem?_append_left hlt, List.getElem?_eq_getElem hlt]

/-- A section that starts at another or within it, and does not rank above it, stops with it or
before. -/
theorem StartsAt.stop_le (ha : StartsAt nodes i a) (hb : StartsAt nodes j b) (hj : j < a.stop i)
    (hlevel : a.level ≤ b.level) : b.stop j ≤ a.stop i := by
  by_contra hstop
  -- What ends the outer section would be a node of the inner one, and end that as well.
  have hinner : a.stop i < b.stop j := by omega
  obtain ⟨other, hother, hlast⟩ := hb.getElem?_child hj hinner
  have hends := ha.ends other hlast
  have hwithin := hb.within other hother
  unfold Node.endsSection at hends hwithin
  split at hends
  · rename_i rank hrank
    rw [hrank] at hwithin
    simp only [decide_eq_true_eq, decide_eq_false_iff_not] at hends hwithin
    omega
  · cases hends

/-- **A section that starts within another** ranks below it. -/
theorem StartsAt.level_lt (ha : StartsAt nodes i a) (hb : StartsAt nodes j b) (hij : i < j)
    (hj : j < a.stop i) : a.level < b.level := by
  obtain ⟨child, hchild, hplace⟩ := ha.getElem?_child hij hj
  obtain rfl : b.heading = child := Option.some.inj (hb.getElem?_heading.symm.trans hplace)
  have hends := ha.within _ hchild
  simpa [Node.endsSection, hb.level] using hends

/-- A place has one section. -/
theorem StartsAt.places_eq (ha : StartsAt nodes i a) (hb : StartsAt nodes i b) :
    a.places i = b.places i := by
  have hlevel : a.level = b.level := by
    have hheading := Option.some.inj (ha.getElem?_heading.symm.trans hb.getElem?_heading)
    have hlevels := ha.level
    rw [hheading, hb.level] at hlevels
    exact (Option.some.inj hlevels).symm
  have hstart {c : Section} : i < c.stop i := by
    rw [Section.stop]
    omega
  have hstop : a.stop i = b.stop i :=
    le_antisymm (hb.stop_le ha hstart hlevel.ge) (ha.stop_le hb hstart hlevel.le)
  rw [Section.places, Section.places, hstop]

/-- Of two sections that start one after the other, the second is within the first, or after it. -/
theorem StartsAt.subset_or_disjoint (ha : StartsAt nodes i a) (hb : StartsAt nodes j b)
    (hij : i < j) : b.places j ⊆ a.places i ∨ Disjoint (a.places i) (b.places j) := by
  by_cases hj : j < a.stop i
  · left
    exact Finset.Ico_subset_Ico hij.le (ha.stop_le hb hj (ha.level_lt hb hij hj).le)
  · right
    rw [Finset.disjoint_left]
    intro place hplace hother
    rw [Section.places, Finset.mem_Ico] at hplace hother
    omega

/-- **Two sections** have no node in common, or one of them is within the other. -/
theorem StartsAt.laminar (ha : StartsAt nodes i a) (hb : StartsAt nodes j b) :
    Disjoint (a.places i) (b.places j) ∨ a.places i ⊆ b.places j ∨ b.places j ⊆ a.places i := by
  rcases lt_trichotomy i j with hij | rfl | hji
  · exact (ha.subset_or_disjoint hb hij).symm.imp_right .inr
  · exact .inr (.inl (ha.places_eq hb).subset)
  · rcases hb.subset_or_disjoint ha hji with hsubset | hdisjoint
    · exact .inr (.inl hsubset)
    · exact .inl hdisjoint.symm

/-- The inner of two sections ranks below the outer one. -/
theorem StartsAt.level_lt_of_ssubset (ha : StartsAt nodes i a) (hb : StartsAt nodes j b)
    (h : a.places i ⊂ b.places j) : b.level < a.level := by
  have hmem : i ∈ b.places j := by
    apply h.subset
    rw [Section.places, Section.stop, Finset.mem_Ico]
    omega
  rw [Section.places, Finset.mem_Ico] at hmem
  rcases hmem.1.lt_or_eq with hji | rfl
  · exact hb.level_lt ha hji hmem.2
  · exact absurd (ha.places_eq hb) h.ne

end Nested

/-- **Sections nest.** A search for a section and one for its heading stop at the same heading, the
first whose title passes, or both find none. The nodes of the section are those after the heading,
up to the next heading of its rank or above. Of the sections of two such headings, either no node
belongs to both, or one is within the other, and when it is only a part of the other its heading is
of a lower rank. -/
theorem sections_nest (nodes : List Node) (first second : String → Bool) (i j : Nat)
    (hfirst : indexWhere? nodes first = some i) (hsecond : indexWhere? nodes second = some j) :
    (∀ pattern : TitlePattern, headingIndex? nodes pattern = indexWhere? nodes pattern.fits ∧
      findSection? nodes pattern = sectionWhere? nodes pattern.fits) ∧
    (∀ test, sectionWhere? nodes test = none ↔ indexWhere? nodes test = none) ∧
    ∃ a b, sectionWhere? nodes first = some a ∧ sectionWhere? nodes second = some b ∧
      (StartsAt nodes i a ∧ FirstPasses nodes first i a.heading) ∧
      (StartsAt nodes j b ∧ FirstPasses nodes second j b.heading) ∧
      (Disjoint (a.places i) (b.places j) ∨ a.places i ⊆ b.places j ∨
        b.places j ⊆ a.places i) ∧
      (a.places i ⊂ b.places j → b.level < a.level) ∧
      (b.places j ⊂ a.places i → a.level < b.level) := by
  obtain ⟨a, hsectionA, hstartA, hpassesA⟩ := startsAt_of_indexWhere? hfirst
  obtain ⟨b, hsectionB, hstartB, hpassesB⟩ := startsAt_of_indexWhere? hsecond
  exact ⟨fun pattern => ⟨headingIndex?_eq_indexWhere? nodes pattern,
      findSection?_eq_sectionWhere? nodes pattern⟩,
    fun test => sectionWhere?_eq_none_iff, a, b, hsectionA, hsectionB, ⟨hstartA, hpassesA⟩,
    ⟨hstartB, hpassesB⟩, hstartA.laminar hstartB, hstartA.level_lt_of_ssubset hstartB,
    hstartB.level_lt_of_ssubset hstartA⟩

/-- Headings that skip a level on the way down and on the way up. -/
def skippingNodes : List Node :=
  [⟨.heading 1, "Guide", 1⟩, ⟨.paragraph, "Read this first.", 2⟩, ⟨.heading 3, "Search", 3⟩,
    ⟨.paragraph, "Finds notes.", 4⟩, ⟨.heading 2, "Export", 5⟩, ⟨.heading 1, "Search", 6⟩]

theorem sections_nest_skipping :
    indexWhere? skippingNodes (· == "Guide") = some 0 ∧
    indexWhere? skippingNodes (· == "Search") = some 2 ∧
    ∃ a b, sectionWhere? skippingNodes (· == "Guide") = some a ∧
      sectionWhere? skippingNodes (· == "Search") = some b ∧
      a.places 0 = {0, 1, 2, 3, 4} ∧ b.places 2 = {2, 3} ∧ a.level < b.level := by
  have hfirst : indexWhere? skippingNodes (· == "Guide") = some 0 := by decide
  have hsecond : indexWhere? skippingNodes (· == "Search") = some 2 := by decide
  obtain ⟨-, -, a, b, ha, hb, -, -, -, -, hlevel⟩ :=
    sections_nest skippingNodes _ _ 0 2 hfirst hsecond
  have houter : a.places 0 = {0, 1, 2, 3, 4} := by
    have hplaces : (sectionWhere? skippingNodes (· == "Guide")).map (·.places 0) =
        some {0, 1, 2, 3, 4} := by
      decide
    rw [ha] at hplaces
    exact Option.some.inj hplaces
  have hinner : b.places 2 = {2, 3} := by
    have hplaces : (sectionWhere? skippingNodes (· == "Search")).map (·.places 2) =
        some {2, 3} := by
      decide
    rw [hb] at hplaces
    exact Option.some.inj hplaces
  refine ⟨hfirst, hsecond, a, b, ha, hb, houter, hinner, hlevel ?_⟩
  rw [houter, hinner]
  decide

end SpecDraft.Markdown
