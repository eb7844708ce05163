import Mathlib.Data.List.Basic
import SpecDraft.File.Path
import SpecDraft.Proofs.Text.Cutting

/-!
# Names on a path

A path in its shortest form starts with one slash or two and names what lies on the way, without
dots (`normalText_eq_iff`). Such a path is read as it is written (`parse_text`) and leads, from the
root, along its names (`resolve_of_plain`).
-/
set_option autoImplicit false

namespace SpecDraft.FilePath

/-! ## Names -/

/-- A name that leads to an entry of a directory: not empty, not a dot or two, and without
slashes. -/
structure IsName (part : String) : Prop where
  ne_empty : part ≠ ""
  ne_dot : part ≠ "."
  ne_dots : part ≠ ".."
  no_slash : '/' ∉ part.toList

/-- Whether a path from the root leads along names. -/
structure Plain (path : FilePath) : Prop where
  anchor : path.anchor = "/" ∨ path.anchor = "//"
  parts : ∀ part ∈ path.parts, IsName part

section Names
variable {parts : List String} {part : String}

theorem names_append {a : List Char} (ha : a ≠ []) (h : '/' ∉ a) (b : List Char) :
    names (a ++ '/' :: b) = String.ofList a :: names b := by
  rw [names, Text.split_append h, List.filter_cons_of_pos (by simpa using ha), List.map_cons]
  rfl

theorem names_slash (text : List Char) : names ('/' :: text) = names text := by
  rw [names, Text.split, if_pos rfl, List.filter_cons_of_neg (by simp)]
  rfl

theorem mem_names {text : List Char} (h : part ∈ names text) :
    part ≠ "" ∧ '/' ∉ part.toList := by
  obtain ⟨piece, hpiece, rfl⟩ := List.mem_map.mp h
  obtain ⟨hsplit, hempty⟩ := List.mem_filter.mp hpiece
  rw [String.toList_ofList]
  exact ⟨Text.ofList_ne_empty (by simpa using hempty), Text.not_mem_of_mem_split hsplit⟩

/-- Names that are joined by slashes are found again. -/
theorem names_join (h : ∀ part ∈ parts, part ≠ "" ∧ '/' ∉ part.toList) :
    names (Text.join "/" parts).toList = parts := by
  rw [Text.toList_join, names]
  by_cases hparts : parts = []
  · subst hparts
    rfl
  have hslash : ∀ piece ∈ parts.map String.toList, '/' ∉ piece := by
    intro piece hpiece
    obtain ⟨part, hpart, rfl⟩ := List.mem_map.mp hpiece
    exact (h part hpart).2
  have hempty : ∀ piece ∈ parts.map String.toList, (!piece.isEmpty) = true := by
    intro piece hpiece
    obtain ⟨part, hpart, rfl⟩ := List.mem_map.mp hpiece
    simpa using (h part hpart).1
  rw [show "/".toList = ['/'] from rfl, Text.split_intercalate (by simpa using hparts) hslash,
    List.filter_eq_self.mpr hempty, List.map_map]
  exact (List.map_congr_left fun part _ => String.ofList_toList).trans (List.map_id parts)

/-! ## Taking back double dots -/

/-- From the root every double dot is taken back. -/
theorem dots_not_mem_collapse (parts : List String) : ".." ∉ collapse true parts := by
  refine List.foldlRecOn (motive := fun kept => ".." ∉ kept) parts _ List.not_mem_nil ?_
  intro kept hkept part _
  split
  · exact hkept
  split
  · rename_i hadded
    rw [List.mem_append, List.mem_singleton]
    rintro (hmem | rfl)
    · exact hkept hmem
    -- Nothing is kept that a double dot could follow.
    · rcases hadded with hne | ⟨hrooted, -⟩ | hlast
      · exact absurd hne (by decide)
      · exact absurd hrooted (by decide)
      · exact hkept (List.mem_of_getLast? hlast)
  · exact fun hmem => hkept (List.dropLast_subset _ hmem)

/-- From the root only names are left. -/
theorem collapse_isName (h : ∀ part ∈ parts, part ≠ "" ∧ '/' ∉ part.toList) :
    ∀ part ∈ collapse true parts, IsName part := by
  have hkept : ∀ part ∈ collapse true parts, part ∈ parts ∧ part ≠ "." := by
    refine List.foldlRecOn (motive := fun kept => ∀ part ∈ kept, part ∈ parts ∧ part ≠ ".")
      parts _ (by simp) ?_
    intro kept hkept part hpart
    split
    · exact hkept
    rename_i hdot
    split
    · exact List.forall_mem_append.mpr
        ⟨hkept, List.forall_mem_singleton.mpr ⟨hpart, fun heq => hdot (.inr heq)⟩⟩
    · exact fun other hother => hkept other (List.dropLast_subset _ hother)
  intro part hpart
  obtain ⟨hmem, hdot⟩ := hkept part hpart
  obtain ⟨hempty, hslash⟩ := h part hmem
  exact ⟨hempty, hdot, fun heq => dots_not_mem_collapse parts (heq ▸ hpart), hslash⟩

/-- A path that is resolved holds no double dots. -/
theorem dots_not_mem_resolve (base path : FilePath) : ".." ∉ (base.resolve path).parts :=
  dots_not_mem_collapse _

theorem collapse_eq_self (h : ∀ part ∈ parts, IsName part) (rooted : Bool) :
    collapse rooted parts = parts := by
  have hstep : ∀ kept : List String, ∀ part ∈ parts,
      (if part = "" ∨ part = "." then kept
        else if part != ".." ∨ (!rooted ∧ kept.isEmpty) ∨ kept.getLast? = some ".." then
          kept ++ [part]
        else kept.dropLast) = kept ++ [part] := by
    intro kept part hpart
    obtain ⟨hempty, hdot, hdots, -⟩ := h part hpart
    rw [if_neg (not_or.mpr ⟨hempty, hdot⟩), if_pos (.inl (by simpa using hdots))]
  rw [collapse, List.foldl_ext _ _ _ hstep, List.foldl_append_eq_append]
  exact List.flatMap_singleton' parts

end Names

/-! ## Plain paths -/

section Plain
variable {path : FilePath} {text : String}

theorem anchorOf_cases (text : List Char) :
    anchorOf text = "" ∨ anchorOf text = "/" ∨ anchorOf text = "//" := by
  unfold anchorOf
  split
  · exact .inl rfl
  · exact .inr (.inr rfl)
  · exact .inr (.inl rfl)

theorem startsWith_slash_iff : text.startsWith "/" = true ↔ ∃ rest, text.toList = '/' :: rest := by
  rw [String.startsWith_string_iff]
  exact ⟨fun ⟨rest, h⟩ => ⟨rest, h.symm⟩, fun ⟨rest, h⟩ => ⟨rest, h.symm⟩⟩

theorem anchorOf_ne_empty (h : text.startsWith "/" = true) : anchorOf text.toList ≠ "" := by
  obtain ⟨rest, hrest⟩ := startsWith_slash_iff.mp h
  rw [hrest, anchorOf, List.takeWhile_cons_of_pos (by rfl), List.length_cons]
  split <;> simp_all

/-- One slash or two that no other follows are kept as they are. -/
theorem anchorOf_append {anchor : String} {rest : List Char} (h : anchor = "/" ∨ anchor = "//")
    (hrest : rest.head? ≠ some '/') : anchorOf (anchor.toList ++ rest) = anchor := by
  have hnone : rest.takeWhile (· == '/') = [] := by
    cases rest with
    | nil => rfl
    | cons c rest => exact List.takeWhile_cons_of_neg (by simpa using hrest)
  rcases h with rfl | rfl <;> simp [anchorOf, hnone]

theorem Plain.names (h : path.Plain) : ∀ part ∈ path.parts, part ≠ "" ∧ '/' ∉ part.toList :=
  fun part hpart => ⟨(h.parts part hpart).ne_empty, (h.parts part hpart).no_slash⟩

theorem Plain.text_eq (h : path.Plain) : path.text = path.anchor ++ Text.join "/" path.parts := by
  refine if_neg fun hempty => ?_
  rcases h.anchor with hanchor | hanchor <;> rw [hanchor] at hempty <;>
    exact absurd hempty.1 (by decide)

/-- The names on a path do not start with a slash. -/
theorem head_join_ne_slash {parts : List String} (h : ∀ part ∈ parts, IsName part) :
    (Text.join "/" parts).toList.head? ≠ some '/' := by
  rw [Text.toList_join]
  cases parts with
  | nil => simp
  | cons first rest =>
    obtain ⟨hempty, -, -, hslash⟩ := h first List.mem_cons_self
    cases hfirst : first.toList with
    | nil => exact absurd (String.toList_eq_nil_iff.mp hfirst) hempty
    | cons c chars =>
      rw [hfirst] at hslash
      have hhead : ("/".toList.intercalate ((first :: rest).map String.toList)).head? = some c := by
        cases rest <;> simp [hfirst]
      rw [hhead]
      rintro heq
      cases heq
      exact hslash List.mem_cons_self

theorem Plain.anchorOf_text (h : path.Plain) : anchorOf path.text.toList = path.anchor := by
  rw [h.text_eq, String.toList_append]
  exact anchorOf_append h.anchor (head_join_ne_slash h.parts)

theorem Plain.names_text (h : path.Plain) :
    FilePath.names path.text.toList = path.parts := by
  have hjoin := names_join h.names
  rw [h.text_eq, String.toList_append]
  rcases h.anchor with hanchor | hanchor <;> rw [hanchor]
  · exact (names_slash _).trans hjoin
  · exact (names_slash _).trans ((names_slash _).trans hjoin)

/-- **A plain path is read as it is written.** -/
theorem Plain.parse_text (h : path.Plain) : parse path.text = path := by
  rw [parse, h.anchorOf_text, h.names_text, List.filter_eq_self.mpr]
  intro part hpart
  simpa using (h.parts part hpart).ne_dot

theorem Plain.isAbsolute (h : path.Plain) : path.isAbsolute = true := by
  rw [FilePath.isAbsolute]
  rcases h.anchor with hanchor | hanchor <;> rw [hanchor] <;> decide

/-- A name is read as a path of one name. -/
theorem parse_of_isName {name : String} (h : IsName name) : parse name = ⟨"", [name]⟩ := by
  have hjoin : Text.join "/" [name] = name := by
    rw [← String.toList_inj, Text.toList_join]
    exact List.intercalate_singleton
  have hnames : FilePath.names name.toList = [name] := by
    have hread := names_join (List.forall_mem_singleton.mpr ⟨h.ne_empty, h.no_slash⟩)
    rwa [hjoin] at hread
  have hanchor : anchorOf name.toList = "" := by
    unfold anchorOf
    rw [List.takeWhile_eq_nil_iff.mpr fun hlength hslash => h.no_slash ?_]
    · rfl
    · rw [beq_iff_eq] at hslash
      exact hslash ▸ List.getElem_mem hlength
  rw [parse, hanchor, hnames, List.filter_cons_of_pos (by simpa using h.ne_dot), List.filter_nil]

theorem child_of_isName {name : String} (h : IsName name) (path : FilePath) :
    path.child name = { path with parts := path.parts ++ [name] } := by
  rw [child, parse_of_isName h]
  rfl

/-- A path stays plain when names are added. -/
theorem Plain.extend (h : path.Plain) {names : List String} (hnames : ∀ part ∈ names, IsName part) :
    Plain { path with parts := path.parts ++ names } :=
  ⟨h.anchor, List.forall_mem_append.mpr ⟨h.parts, hnames⟩⟩

theorem Plain.no_dots (h : path.Plain) : ".." ∉ path.parts :=
  fun hmem => (h.parts ".." hmem).ne_dots rfl

/-- **A plain path leads along its names**, wherever it is taken from. -/
theorem Plain.resolve (h : path.Plain) (base : FilePath) :
    FilePath.resolve base path = ⟨"/", path.parts⟩ := by
  rw [FilePath.resolve, append, if_pos h.isAbsolute, collapse_eq_self h.parts]

/-- **A resolved path is plain.** -/
theorem plain_resolve {base : FilePath} (hbase : ∀ part ∈ base.parts, part ≠ "" ∧ '/' ∉ part.toList)
    (hpath : ∀ part ∈ path.parts, part ≠ "" ∧ '/' ∉ part.toList) : (base.resolve path).Plain := by
  refine ⟨.inl rfl, collapse_isName fun part hpart => ?_⟩
  unfold append at hpart
  split at hpart
  · exact hpath part hpart
  · exact (List.mem_append.mp hpart).elim (hbase part) (hpath part)

theorem normalText_eq (h : anchorOf text.toList ≠ "") : normalText text =
    anchorOf text.toList ++ Text.join "/" (collapse true (FilePath.names text.toList)) := by
  have hrooted : (anchorOf text.toList).isEmpty = false := by simpa using h
  unfold normalText
  dsimp only
  rw [hrooted, Bool.not_false]
  exact if_neg (by simp [h])

/-- **A text from the root is in its shortest form** exactly when it is the text of a plain
path. -/
theorem normalText_eq_iff : text.startsWith "/" = true ∧ normalText text = text ↔
    (parse text).Plain ∧ (parse text).text = text := by
  constructor
  · rintro ⟨hstart, hnormal⟩
    have hanchor := anchorOf_ne_empty hstart
    -- The normal text is that of a plain path, which is then what the text is read as.
    have hplain : Plain ⟨anchorOf text.toList, collapse true (FilePath.names text.toList)⟩ :=
      ⟨(anchorOf_cases _).resolve_left hanchor, collapse_isName fun part hpart => mem_names hpart⟩
    have htext : FilePath.text ⟨anchorOf text.toList, collapse true (FilePath.names text.toList)⟩ =
        text := by
      rw [hplain.text_eq]
      exact (normalText_eq hanchor).symm.trans hnormal
    have hparse := hplain.parse_text
    rw [htext] at hparse
    rw [hparse]
    exact ⟨hplain, htext⟩
  · rintro ⟨hplain, htext⟩
    have hstart : text.startsWith "/" = true := by
      rw [← htext, startsWith_slash_iff, hplain.text_eq, String.toList_append]
      rcases hplain.anchor with h | h <;> rw [h] <;> exact ⟨_, rfl⟩
    refine ⟨hstart, (normalText_eq (anchorOf_ne_empty hstart)).trans ?_⟩
    rw [← htext, hplain.anchorOf_text, hplain.names_text, collapse_eq_self hplain.parts,
      ← hplain.text_eq, htext]

end Plain

end SpecDraft.FilePath
