import SpecDraft.Proofs.Feature.Spans
import SpecDraft.Proofs.Markdown.Heading
import SpecDraft.Proofs.Markdown.Label
import SpecDraft.Proofs.Text.LetterCase

/-!
# Lists of dependencies

A heading or a paragraph announces the dependencies of a feature, and the items after it are those
dependencies. The ways to announce them are the styles of a label (`LabelStyle`), and each is
recognised (`isLabelFor_iff_exists_style`). All but one lead to the items
(`dependencies_of_styles`). Where a colon stands right after the name within bold marks, the
paragraph is taken for a line that lists the dependencies itself, and what it is taken to list is
the mark at its end (`dependencies_of_bold_colon`).
-/
set_option autoImplicit false

namespace SpecDraft.Feature

open Text Markdown

/-! ## The name of the list -/

/-- The names that a list of dependencies goes by. -/
def dependencyNames : List String := ["Dependencies", "Depends on"]

/-- Whether a text is one of these names, up to letter case. -/
def NamesDependencies (s : List Char) : Prop := ∃ name ∈ dependencyNames, SameLetters s name.toList

/-- The forms of the characters in these names. -/
def nameForms : List (List Char) :=
  [['d', 'e', 'p', 'e', 'n', 'd', 'e', 'n', 'c', 'i', 'e', 's'],
    ['d', 'e', 'p', 'e', 'n', 'd', 's', ' ', 'o', 'n']]

theorem fits_dependenciesLabel_iff {title : String} :
    dependenciesLabel.fits title = true ↔ NamesDependencies title.toList :=
  TitlePattern.fits_exactly_iff

namespace NamesDependencies
variable {name : List Char}

theorem forms_mem (h : NamesDependencies name) : name.map fold ∈ nameForms := by
  have hfirst : "Dependencies".toList.map fold =
      ['d', 'e', 'p', 'e', 'n', 'd', 'e', 'n', 'c', 'i', 'e', 's'] := by
    decide +kernel
  have hsecond : "Depends on".toList.map fold =
      ['d', 'e', 'p', 'e', 'n', 'd', 's', ' ', 'o', 'n'] := by
    decide +kernel
  obtain ⟨known, hknown, hsame⟩ := h
  simp only [dependencyNames, List.mem_cons, List.not_mem_nil, or_false] at hknown
  rw [SameLetters] at hsame
  rcases hknown with rfl | rfl
  · rw [hsame, hfirst]
    exact List.mem_cons_self
  · rw [hsame, hsecond]
    exact List.mem_cons_of_mem _ List.mem_cons_self

/-- No sign that has another form stands in a name. -/
theorem not_mem (h : NamesDependencies name) {c : Char}
    (hc : ∀ forms ∈ nameForms, fold c ∉ forms) : c ∉ name :=
  fun hmem => hc _ h.forms_mem (List.mem_map_of_mem hmem)

/-- A name starts with a letter. -/
theorem exists_cons (h : NamesDependencies name) :
    ∃ c rest, name = c :: rest ∧ fold c = 'd' ∧ isBlank c = false := by
  have hfirst : ∀ forms ∈ nameForms, forms.head? = some 'd' := by decide
  have hhead := hfirst _ h.forms_mem
  cases name with
  | nil => cases hhead
  | cons c rest =>
    have hform : fold c = 'd' := Option.some.inj hhead
    exact ⟨c, rest, rfl, hform, isBlank_of_fold hform (by decide)⟩

/-- A name ends with a letter. -/
theorem last (h : NamesDependencies name) : ∀ c ∈ name.getLast?, isBlank c = false ∧ c ≠ ':' := by
  have hlast : ∀ forms ∈ nameForms, (forms.getLast?.map isBlank) = some false := by decide
  intro c hc
  have hform : isBlank (fold c) = false := by
    have hmap := hlast _ h.forms_mem
    rw [List.getLast?_map, Option.mem_def.mp hc] at hmap
    exact Option.some.inj hmap
  refine ⟨isBlank_of_fold rfl hform, ?_⟩
  rintro rfl
  exact h.not_mem (by decide +kernel) (List.mem_of_getLast? hc)

theorem trim_eq_self (h : NamesDependencies name) : trim name = name := by
  obtain ⟨first, rest, rfl, -, hfirst⟩ := h.exists_cons
  refine trim_eq_self_iff.mpr ⟨fun c hc => ?_, fun c hc => (h.last c hc).1⟩
  rwa [← Option.some.inj hc]

/-- What follows a name is found after it. -/
theorem after (h : NamesDependencies name) (rest : List Char) :
    afterFoldAny? ["Depends on", "Dependencies"] (name ++ rest) = some rest := by
  obtain ⟨known, hknown, hsame⟩ := h
  have hself : afterFold? known.toList (name ++ rest) = some rest :=
    afterFold?_eq_some_iff.mpr ⟨name, rfl, hsame⟩
  simp only [dependencyNames, List.mem_cons, List.not_mem_nil, or_false] at hknown
  rcases hknown with rfl | rfl
  · -- The other name departs from this one.
    have hother : afterFold? "Depends on".toList (name ++ rest) = none := by
      refine afterFold?_of_departs ?_ rest
      rw [departs_eq_of_sameLetters _ hsame]
      decide +kernel
    rw [afterFoldAny?, List.findSome?_cons, hother, List.findSome?_cons, hself]
  · rw [afterFoldAny?, List.findSome?_cons, hself]

/-- No mark stands at the start of a name, or of blanks before it. -/
theorem boldMark?_append (h : NamesDependencies name) {lead : List Char}
    (hlead : allBlank lead = true) (s : List Char) : boldMark? (lead ++ (name ++ s)) = none := by
  refine boldMark?_append_of_blank hlead fun _ => boldMark?_eq_none fun c hc => ?_
  obtain ⟨first, rest, rfl, hform, -⟩ := h.exists_cons
  obtain rfl : first = c := Option.some.inj hc
  constructor
  · rintro rfl
    exact absurd hform (by decide)
  · rintro rfl
    exact absurd hform (by decide)

end NamesDependencies

/-- No name starts with a blank. -/
theorem not_after_of_blank {c : Char} (h : isBlank c = true) (s : List Char) :
    afterFoldAny? ["Depends on", "Dependencies"] (c :: s) = none := by
  rw [afterFoldAny?, List.findSome?_eq_none_iff]
  intro pattern hpattern
  have hnone : ∀ d rest, pattern.toList = d :: rest → fold d = 'd' →
      afterFold? pattern.toList (c :: s) = none := by
    intro d rest hcons hd
    rw [hcons, afterFold?, if_neg]
    rw [hd, fold_of_isBlank h]
    rintro rfl
    exact absurd h (by decide)
  simp only [List.mem_cons, List.not_mem_nil, or_false] at hpattern
  rcases hpattern with rfl | rfl
  · exact hnone 'D' _ rfl (by decide)
  · exact hnone 'D' _ rfl (by decide)

/-! ## Names in bold -/

/-- How a name stands in bold: between marks, with blanks and colons around it, and with what
follows the second mark. -/
structure BoldStyle where
  opening : List Char
  lead : List Char
  gap : List Char
  colons : List Char
  trail : List Char
  closing : List Char
  outer : List Char

namespace BoldStyle

/-- What stands between the marks. -/
def inside (style : BoldStyle) (name : List Char) : List Char :=
  style.lead ++ (name ++ (style.gap ++ (style.colons ++ style.trail)))

/-- The text of the paragraph. -/
def text (style : BoldStyle) (name : List Char) : List Char :=
  style.opening ++ (style.inside name ++ (style.closing ++ style.outer))

/-- Whether each part is what it stands for; after the second mark, one colon may follow. -/
structure Proper (style : BoldStyle) : Prop where
  opening : style.opening ∈ boldMarks
  lead : allBlank style.lead = true
  gap : allBlank style.gap = true
  colons : ∀ c ∈ style.colons, c = ':'
  trail : allBlank style.trail = true
  closing : style.closing ∈ boldMarks
  outer : trimLeft style.outer = [] ∨ trimLeft style.outer = [':']

variable {style : BoldStyle} {name : List Char}

/-- No mark stands between the marks. -/
theorem Proper.inside_ne (h : style.Proper) (hname : NamesDependencies name) :
    ∀ c ∈ style.inside name, c ≠ '*' ∧ c ≠ '_' := by
  have hblanks {s : List Char} (hs : allBlank s = true) {c : Char} (hc : c ∈ s) :
      c ≠ '*' ∧ c ≠ '_' := ne_mark_of_isBlank (List.all_eq_true.mp hs c hc)
  intro c hc
  simp only [inside, List.mem_append] at hc
  rcases hc with hc | hc | hc | hc | hc
  · exact hblanks h.lead hc
  · constructor
    · rintro rfl
      exact hname.not_mem (by decide +kernel) hc
    · rintro rfl
      exact hname.not_mem (by decide +kernel) hc
  · exact hblanks h.gap hc
  · rw [h.colons c hc]
    decide
  · exact hblanks h.trail hc

theorem Proper.boldMark?_text (h : style.Proper) (name : List Char) :
    boldMark? (style.text name) = some (style.inside name ++ (style.closing ++ style.outer)) :=
  boldMark?_eq_some_iff.mpr ⟨_, h.opening, rfl⟩

/-- The label of such a paragraph is what stands between the marks. -/
theorem Proper.boldLabel?_text (h : style.Proper) (hname : NamesDependencies name) :
    boldLabel? (style.text name) = some (style.inside name) := by
  have hmark := h.boldMark?_text name
  cases hinside : style.inside name with
  | nil =>
    obtain ⟨c, rest, rfl, -⟩ := hname.exists_cons
    simp [inside] at hinside
  | cons c before =>
    have hfirst : firstFrom boldEnd? (before ++ (style.closing ++ style.outer)) =
        some (before, ()) := by
      refine firstFrom_eq_some_iff.mpr ⟨_, rfl, ?_, fun skipped hskipped hne => ?_⟩
      · exact boldEnd?_isSome_iff.mpr ⟨_, h.closing, _, rfl, h.outer⟩
      · rw [boldEnd?, boldMark?_eq_none]
        intro d hd
        rw [List.head?_append_of_ne_nil _ hne] at hd
        have hmem : d ∈ c :: before :=
          List.mem_cons_of_mem c (hskipped.subset (List.mem_of_mem_head? hd))
        exact h.inside_ne hname d (hinside ▸ hmem)
    rw [hinside] at hmark
    rw [boldLabel?, hmark]
    dsimp only [List.cons_append]
    rw [hfirst]
    rfl

end BoldStyle

/-! ## Styles of a label -/

/-- The ways in which a name can stand as a label: as a heading, in a plain paragraph that ends in
a colon, or in bold. -/
inductive LabelStyle where
  | heading (level : Nat)
  | plain (lead gap : List Char)
  | bold (style : BoldStyle)

namespace LabelStyle

/-- The kind of the node. -/
def kind : LabelStyle → Block
  | .heading level => .heading level
  | .plain .. | .bold .. => .paragraph

/-- The text of the node. -/
def text (name : List Char) : LabelStyle → List Char
  | .heading _ => name
  | .plain lead gap => lead ++ (name ++ (gap ++ [':']))
  | .bold style => style.text name

/-- Whether a name can stand so; what is before the colon of a plain label is short. -/
def Proper (name : List Char) : LabelStyle → Prop
  | .heading _ => True
  | .plain lead gap =>
    allBlank lead = true ∧ allBlank gap = true ∧ (lead ++ (name ++ gap)).length ≤ 60
  | .bold style => style.Proper

/-- A label in this style. -/
def node (style : LabelStyle) (name : List Char) (line : Nat) : Node :=
  ⟨style.kind, String.ofList (style.text name), line⟩

variable {style : LabelStyle} {name : List Char}

@[simp] theorem toList_text_node (style : LabelStyle) (name : List Char) (line : Nat) :
    (style.node name line).text.toList = style.text name := String.toList_ofList

theorem eq_node {label : Node} (hkind : label.kind = style.kind)
    (htext : label.text.toList = style.text name) : label = style.node name label.line := by
  rw [node, ← htext, ← hkind, String.ofList_toList]

/-- Its label is the name. -/
theorem label?_node (h : style.Proper name) (hname : NamesDependencies name) (line : Nat) :
    (style.node name line).label? = some (String.ofList name) := by
  have hne : name ≠ [] := by
    obtain ⟨c, rest, rfl, -⟩ := hname.exists_cons
    exact List.cons_ne_nil c rest
  have hlast : ∀ c ∈ name.getLast?, c ≠ ':' := fun c hc => (hname.last c hc).2
  cases style with
  | heading level => rfl
  | plain lead gap =>
    obtain ⟨hlead, hgap, hlength⟩ := h
    have hplain : plainLabel? (lead ++ (name ++ (gap ++ [':']))) =
        some (lead ++ (name ++ gap)) := by
      refine plainLabel?_eq_some_iff.mpr ⟨by simp, ?_, hlength, ?_⟩
      · have := List.length_pos_iff.mpr hne
        simp only [List.length_append]
        omega
      · have hblanks {s : List Char} (hs : allBlank s = true) : ':' ∉ s := fun hmem =>
          absurd (List.all_eq_true.mp hs ':' hmem) (by decide)
        simp only [List.mem_append, not_or]
        exact ⟨hblanks hlead, hname.not_mem (by decide +kernel), hblanks hgap⟩
    have hbold : boldLabel? (lead ++ (name ++ (gap ++ [':']))) = none := by
      rw [boldLabel?, hname.boldMark?_append hlead]
    have hlabel : labelText (lead ++ (name ++ gap)) = String.ofList name := by
      have haround : labelText (lead ++ (name ++ (gap ++ ([] ++ [])))) = String.ofList name :=
        labelText_around hlead hname.trim_eq_self hlast hne hgap (by simp) rfl
      rwa [List.append_nil, List.append_nil] at haround
    show paragraphLabel? _ = _
    rw [paragraphLabel?, toList_text_node, text, hbold, hplain, Option.none_or,
      Option.map_some, hlabel]
  | bold style =>
    have hproper : style.Proper := h
    show paragraphLabel? _ = _
    rw [paragraphLabel?, toList_text_node, text, hproper.boldLabel?_text hname, Option.some_or,
      Option.map_some, BoldStyle.inside, labelText_around hproper.lead hname.trim_eq_self hlast hne
        hproper.gap hproper.colons hproper.trail]

end LabelStyle

/-- A paragraph that is read as a label with a name writes the name in bold or plain style. -/
theorem LabelStyle.exists_of_paragraphLabel? {label : Node} {title : String}
    (hkind : label.kind = .paragraph) (htitle : paragraphLabel? label.text = some title)
    (hname : NamesDependencies title.toList) : ∃ style : LabelStyle, ∃ name,
      style.Proper name ∧ NamesDependencies name ∧ label = style.node name label.line := by
  obtain ⟨inside, hinside, rfl⟩ := Option.map_eq_some_iff.mp htitle
  obtain ⟨lead, gap, colons, trail, haround, hlead, hgap, hcolons, htrail⟩ :=
    exists_around_labelText inside
  rcases Option.or_eq_some_iff.mp hinside with hbold | ⟨-, hplain⟩
  · obtain ⟨opening, hopening, closing, hclosing, outer, htext, houter⟩ :=
      exists_of_boldLabel? hbold
    refine ⟨.bold ⟨opening, lead, gap, colons, trail, closing, outer⟩, _,
      ⟨hopening, hlead, hgap, hcolons, htrail, hclosing, houter⟩, hname,
      LabelStyle.eq_node hkind ?_⟩
    rw [htext, LabelStyle.text, BoldStyle.text, BoldStyle.inside, ← haround]
  · obtain ⟨htext, -, hlength, hnone⟩ := plainLabel?_eq_some_iff.mp hplain
    have hcolonless : colons = [] := by
      refine List.eq_nil_iff_forall_not_mem.mpr fun c hc => hnone ?_
      rw [haround, ← hcolons c hc]
      simp [hc]
    rw [hcolonless, List.nil_append] at haround
    refine ⟨.plain lead (gap ++ trail), _, ⟨hlead, ?_, ?_⟩, hname,
      LabelStyle.eq_node hkind ?_⟩
    · rw [allBlank_append, hgap, htrail, Bool.and_self]
    · rwa [← haround]
    · rw [htext, LabelStyle.text]
      conv_lhs => rw [haround]
      simp only [List.append_assoc]

/-- **Whatever is recognised as the label of a list of dependencies** is one of the names in one of
the styles, and every name is recognised in every style. -/
theorem isLabelFor_iff_exists_style {label : Node} :
    label.isLabelFor dependenciesLabel = true ↔ ∃ style : LabelStyle, ∃ name,
      style.Proper name ∧ NamesDependencies name ∧ label = style.node name label.line := by
  constructor
  · intro h
    rw [Node.isLabelFor] at h
    split at h
    · rename_i title htitle
      have hname := fits_dependenciesLabel_iff.mp h
      rw [Node.label?] at htitle
      split at htitle
      · rename_i hheading
        obtain rfl := Option.some.inj htitle
        obtain ⟨level, hlevel⟩ := Option.isSome_iff_exists.mp hheading
        exact ⟨.heading level, label.text.toList, trivial, hname,
          LabelStyle.eq_node (kind_of_level? hlevel) rfl⟩
      · split at htitle
        · exact LabelStyle.exists_of_paragraphLabel? (of_decide_eq_true ‹_›) htitle hname
        · cases htitle
    · cases h
  · rintro ⟨style, name, hproper, hname, hlabel⟩
    rw [hlabel, Node.isLabelFor, LabelStyle.label?_node hproper hname]
    refine fits_dependenciesLabel_iff.mpr ?_
    rwa [String.toList_ofList]

/-! ## Paragraphs that list the dependencies -/

/-- Blanks keep a mark from being passed over. -/
theorem trimLeft_dropBoldMark {blanks s : List Char} (hblanks : allBlank blanks = true)
    (h : blanks = [] → boldMark? s = none) :
    trimLeft (dropBoldMark (blanks ++ s)) = trimLeft s := by
  rw [dropBoldMark, boldMark?_append_of_blank hblanks h, Option.getD_none,
    trimLeft_append_of_blank hblanks]

theorem trimLeft_mark {mark : List Char} (h : mark ∈ boldMarks) (s : List Char) :
    trimLeft (mark ++ s) = mark ++ s := by
  simp only [boldMarks, List.mem_cons, List.not_mem_nil, or_false] at h
  rcases h with rfl | rfl
  · exact trimLeft_cons_of_not_blank (by decide) _
  · exact trimLeft_cons_of_not_blank (by decide) _

theorem mark_ne_nil {mark : List Char} (h : mark ∈ boldMarks) : mark ≠ [] := by
  rintro rfl
  revert h
  decide

/-- A mark after the colon is passed over where something follows it. -/
theorem map_inlineList? {colons trail closing : List Char} (hcolons : ∀ c ∈ colons, c = ':')
    (htrail : allBlank trail = true) (hclosing : closing ∈ boldMarks) (outer : List Char) :
    (inlineList? (colons ++ (trail ++ (closing ++ outer)))).map commaItems =
      some (commaItems (if colons = [] ∧ outer ≠ [] then outer
        else colons ++ (trail ++ (closing ++ outer)))) := by
  have hsome : (colons ++ (trail ++ (closing ++ outer))).isEmpty = false := by
    simp [mark_ne_nil hclosing]
  rw [inlineList?, hsome, if_neg Bool.false_ne_true]
  cases colons with
  | cons c colons =>
    obtain rfl : c = ':' := hcolons c List.mem_cons_self
    rw [List.cons_append, trimLeft_cons_of_not_blank (by decide)]
    rfl
  | nil =>
    have hmark : boldMark? (closing ++ outer) = some outer :=
      boldMark?_eq_some_iff.mpr ⟨closing, hclosing, rfl⟩
    rw [List.nil_append, trimLeft_append_of_blank htrail, trimLeft_mark hclosing]
    dsimp only
    rw [hmark]
    by_cases houter : outer = []
    · subst houter
      rw [if_neg (fun h => h.2 rfl), ← commaItems_trimLeft (trail ++ _),
        trimLeft_append_of_blank htrail, trimLeft_mark hclosing]
      rfl
    · rw [if_pos ⟨rfl, houter⟩, ← commaItems_trimLeft outer]
      simp [houter]

namespace BoldStyle
variable {style : BoldStyle} {name : List Char}

/-- What a paragraph in bold is taken to list: where the name stands right after the mark and a
colon after the name, the rest of the paragraph. A mark at the start of the rest is passed over
where something follows it. -/
def afterColon? (style : BoldStyle) : Option (List Char) :=
  if style.lead = [] then
    style.colons.tail?.map fun colons =>
      if colons = [] ∧ style.outer ≠ [] then style.outer
      else colons ++ (style.trail ++ (style.closing ++ style.outer))
  else none

theorem inlineDependencies?_text (h : style.Proper) (hname : NamesDependencies name) :
    inlineDependencies? (String.ofList (style.text name)) =
      style.afterColon?.map commaItems := by
  have hopen : dropBoldMark (style.text name) =
      style.inside name ++ (style.closing ++ style.outer) := by
    rw [dropBoldMark, h.boldMark?_text, Option.getD_some]
  rw [inlineDependencies?, String.toList_ofList, hopen, inside, afterColon?]
  by_cases hlead : style.lead = []
  · rw [if_pos hlead, hlead, List.nil_append, List.append_assoc, hname.after, Option.bind_eq_bind,
      Option.bind_some, List.append_assoc, List.append_assoc]
    cases hcolons : style.colons with
    | cons colon colons =>
      have hall : ∀ c ∈ colon :: colons, c = ':' := hcolons ▸ h.colons
      obtain ⟨rfl, hmore⟩ := List.forall_mem_cons.mp hall
      rw [trimLeft_dropBoldMark h.gap fun _ => rfl, List.cons_append,
        trimLeft_cons_of_not_blank (by decide)]
      exact map_inlineList? hmore h.trail h.closing style.outer
    | nil =>
      -- Without a colon within the marks, only one after them could start a list.
      rw [List.nil_append, ← List.append_assoc]
      by_cases hblanks : style.gap ++ style.trail = []
      · have hdrop : dropBoldMark (style.closing ++ style.outer) = style.outer := by
          rw [dropBoldMark, boldMark?_eq_some_iff.mpr ⟨_, h.closing, rfl⟩, Option.getD_some]
        rw [hblanks, List.nil_append, hdrop]
        rcases h.outer with houter | houter
        · rw [houter]
          rfl
        · rw [houter]
          rfl
      · rw [trimLeft_dropBoldMark (by rw [allBlank_append, h.gap, h.trail, Bool.and_self])
          fun hnone => absurd hnone hblanks, trimLeft_mark h.closing]
        have hclosing := h.closing
        simp only [boldMarks, List.mem_cons, List.not_mem_nil, or_false] at hclosing
        rcases hclosing with hclosing | hclosing
        · rw [hclosing]
          rfl
        · rw [hclosing]
          rfl
  · rw [if_neg hlead]
    obtain ⟨blank, lead, hcons⟩ := List.exists_cons_of_ne_nil hlead
    have hblank : isBlank blank = true :=
      List.all_eq_true.mp h.lead blank (hcons ▸ List.mem_cons_self)
    rw [hcons, List.cons_append, List.cons_append, not_after_of_blank hblank]
    rfl

end BoldStyle

/-! ## The dependencies under a label -/

/-- What a label is taken to list itself. -/
def LabelStyle.afterColon? : LabelStyle → Option (List Char)
  | .heading _ | .plain .. => none
  | .bold style => style.afterColon?

/-- The dependencies that a node lists itself. -/
def ownList? (node : Node) : Option (List String) :=
  if node.isParagraph then inlineDependencies? node.text else none

theorem LabelStyle.ownList?_node {style : LabelStyle} {name : List Char} (h : style.Proper name)
    (hname : NamesDependencies name) (line : Nat) :
    ownList? (style.node name line) = style.afterColon?.map commaItems := by
  cases style with
  | heading level => rfl
  | plain lead gap =>
    show inlineDependencies? (String.ofList _) = none
    rw [inlineDependencies?, String.toList_ofList, text, dropBoldMark,
      hname.boldMark?_append h.1, Option.getD_none]
    cases lead with
    | cons blank lead =>
      rw [List.cons_append, not_after_of_blank (List.all_eq_true.mp h.1 blank List.mem_cons_self)]
      rfl
    | nil =>
      -- Nothing follows the colon.
      rw [List.nil_append, hname.after, Option.bind_eq_bind, Option.bind_some,
        trimLeft_dropBoldMark h.2.1 fun _ => rfl]
      rfl
  | bold style => exact style.inlineDependencies?_text h hname

/-- A list item whose text has no blanks around it, and is not empty. -/
structure IsListed (item : Node) : Prop where
  isItem : item.isItem = true
  stripped : strip item.text = item.text
  nonempty : item.text ≠ ""

namespace IsListed
variable {item : Node}

theorem exists_kind (h : IsListed item) : ∃ ordered indent, item.kind = .item ordered indent := by
  have hitem := h.isItem
  unfold Node.isItem at hitem
  split at hitem
  · rename_i ordered indent hkind
    exact ⟨ordered, indent, hkind⟩
  · cases hitem

theorem isParagraph_eq_false (h : IsListed item) : item.isParagraph = false := by
  obtain ⟨ordered, indent, hkind⟩ := h.exists_kind
  rw [Node.isParagraph, hkind]
  rfl

/-- An item is no label. -/
theorem label?_eq_none (h : IsListed item) : item.label? = none := by
  obtain ⟨ordered, indent, hkind⟩ := h.exists_kind
  rw [Node.label?, Node.isHeading, Node.level?, Node.isParagraph, hkind]
  rfl

end IsListed

/-- **The dependencies under a label** are those that the label lists itself, or else the items
after it. -/
theorem dependenciesOf_label {label : Node} {items : List Node}
    (hlabel : label.isLabelFor dependenciesLabel = true) (hitems : ∀ item ∈ items, IsListed item) :
    dependenciesOf (label :: items) = (ownList? label).getD (items.map (·.text)) := by
  have hinline : ((label :: items).filter (·.isParagraph)).findSome? (inlineDependencies? ·.text) =
      ownList? label := by
    have hnone : items.filter (·.isParagraph) = [] := by
      refine List.filter_eq_nil_iff.mpr fun item hitem => ?_
      rw [(hitems item hitem).isParagraph_eq_false]
      exact Bool.false_ne_true
    rw [List.filter_cons, hnone, ownList?]
    split
    · rw [List.findSome?_cons, List.findSome?_nil]
      cases inlineDependencies? label.text <;> rfl
    · rfl
  have hunder : itemsUnder? dependenciesLabel (label :: items) = some (items.map (·.text)) := by
    have hall : itemsUnder? dependenciesLabel ([] ++ label :: (items ++ [])) =
        some (itemTexts items) :=
      itemsUnder?_append (by simp) hlabel (fun item hitem => (hitems item hitem).label?_eq_none)
        (by simp)
    rw [List.nil_append, List.append_nil] at hall
    rw [hall, itemTexts, List.filter_eq_self.mpr fun item hitem => (hitems item hitem).isItem]
  have hkept : ((items.map (·.text)).map strip).filter (!·.isEmpty) = items.map (·.text) := by
    have hstrip : (items.map (·.text)).map strip = items.map (·.text) := by
      rw [List.map_map]
      exact List.map_congr_left fun item hitem => (hitems item hitem).stripped
    rw [hstrip]
    refine List.filter_eq_self.mpr fun text htext => ?_
    obtain ⟨item, hitem, rfl⟩ := List.mem_map.mp htext
    simp [(hitems item hitem).nonempty]
  rw [dependenciesOf, hinline, hunder]
  cases ownList? label with
  | some list => rfl
  | none => exact hkept

/-- **Dependencies by the style of their label.** A node is a label for dependencies exactly when it
is one of the two names in one of the styles. The dependencies are then the items after it, except
where a colon stands right after the name and the name right after a mark for bold text: there they
are read off the rest of the paragraph, which holds nothing but blanks, colons and a mark. -/
theorem dependencies_of_styles (label : Node) (items : List Node)
    (hitems : ∀ item ∈ items, IsListed item) :
    (label.isLabelFor dependenciesLabel = true ↔
      ∃ style : LabelStyle, ∃ name, style.Proper name ∧ NamesDependencies name ∧
        label = style.node name label.line) ∧
    ∀ (style : LabelStyle) (name : List Char), style.Proper name → NamesDependencies name →
      label = style.node name label.line →
      dependenciesOf (label :: items) =
        (style.afterColon?.map commaItems).getD (items.map (·.text)) := by
  refine ⟨isLabelFor_iff_exists_style, fun style name h hname hnode => ?_⟩
  have hlabel : label.isLabelFor dependenciesLabel = true :=
    isLabelFor_iff_exists_style.mpr ⟨style, name, h, hname, hnode⟩
  rw [dependenciesOf_label hlabel hitems, hnode, LabelStyle.ownList?_node h hname]

/-- A name in bold with a colon after the second mark. -/
def colonOutside : BoldStyle := ⟨['*', '*'], [], [], [], [], ['*', '*'], [':']⟩

/-- Two items. -/
def twoItems : List Node := [⟨.item false 0, "Index", 4⟩, ⟨.item false 0, "Notes", 5⟩]

theorem isListed_of_mem_twoItems : ∀ item ∈ twoItems, IsListed item := by
  intro item hitem
  simp only [twoItems, List.mem_cons, List.not_mem_nil, or_false] at hitem
  rcases hitem with rfl | rfl
  · exact ⟨rfl, rfl, by decide⟩
  · exact ⟨rfl, rfl, by decide⟩

theorem dependencies_of_styles_sample :
    (LabelStyle.bold colonOutside).Proper "depends on".toList ∧
    NamesDependencies "depends on".toList ∧ (∀ item ∈ twoItems, IsListed item) ∧
    dependenciesOf ((LabelStyle.bold colonOutside).node "depends on".toList 3 :: twoItems) =
      ["Index", "Notes"] := by
  have hproper : colonOutside.Proper :=
    ⟨List.mem_cons_self, rfl, rfl, by simp [colonOutside], rfl, List.mem_cons_self, .inr rfl⟩
  have hname : NamesDependencies "depends on".toList :=
    ⟨"Depends on", List.mem_cons_of_mem _ List.mem_cons_self, by decide +kernel⟩
  refine ⟨hproper, hname, isListed_of_mem_twoItems, ?_⟩
  exact (dependencies_of_styles _ twoItems isListed_of_mem_twoItems).2 (.bold colonOutside) _
    hproper hname rfl

/-- A document with a feature whose dependencies come after a label with the colon within the
marks. -/
def colonInsideContent : String := "# Features\n## Search\n**Dependencies:**\n- Index\n- Notes"

/-- The label in that document. -/
def colonInsideLabel : Node := ⟨.paragraph, "**Dependencies:**", 3⟩

/-- The nodes of that document. -/
def colonInsideNodes : List Node :=
  ⟨.heading 1, "Features", 1⟩ :: ⟨.heading 2, "Search", 2⟩ :: colonInsideLabel :: twoItems

theorem parse_colonInsideContent : Markdown.parse colonInsideContent = .ok colonInsideNodes := rfl

/-- **A colon within the marks hides the items**: the paragraph is a label for dependencies and
items are after it, but the only dependency is the mark that ends the label. -/
theorem dependencies_of_bold_colon : ∃ document feature,
    Document.parse colonInsideContent ⟨"/", ["spec.md"]⟩ "" = .ok document ∧
    document.nodes = colonInsideNodes ∧
    colonInsideLabel.isLabelFor dependenciesLabel = true ∧
    extract document none = .ok [feature] ∧ feature.dependencies = ["**"] := by
  obtain ⟨document, hparse, hnodes⟩ :=
    Document.exists_parse parse_colonInsideContent ⟨"/", ["spec.md"]⟩ ""
  have hstart : headingIndex? colonInsideNodes sectionTitle = some 0 := by decide
  have hspans : spans (range false (colonInsideNodes.drop 1)) =
      [(⟨.heading 2, "Search", 2⟩, colonInsideLabel :: twoItems)] := by decide
  have hextract : extract document none =
      .ok (ofSpans none 1 [(⟨.heading 2, "Search", 2⟩, colonInsideLabel :: twoItems)]) := by
    rw [← hnodes] at hstart hspans
    exact extract_of_spans hstart hspans (List.cons_ne_nil _ _)
  refine ⟨document, _, hparse, hnodes, by decide +kernel, hextract, ?_⟩
  show dependenciesOf (colonInsideLabel :: twoItems) = ["**"]
  decide +kernel

end SpecDraft.Feature
