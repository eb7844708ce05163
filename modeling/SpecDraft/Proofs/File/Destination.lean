import SpecDraft.File.Output
import SpecDraft.Proofs.Action
import SpecDraft.Proofs.File.Name
import SpecDraft.Proofs.Text.LetterCase

/-!
# Destinations of artifacts

Which paths are accepted as destinations (`checkedPath_spec`): those in their shortest form whose
names are all allowed and whose last name has the extension of artifacts in any letter case. The
blocked top-level directories are kept out of paths that start with one slash. Two slashes lead to
the same places, and there they are let in (`two_slashes_accepted`).
-/
set_option autoImplicit false

namespace SpecDraft.Output

/-- The names of the top-level directories that take no artifact. -/
def blockedTops : List String := ["etc", "sys", "proc", "dev"]

/-- The spellings of the extension of artifacts. -/
def extensions : List String := [".md", ".mD", ".Md", ".MD"]

/-- Whether names from the root lead into a top-level directory that takes no artifact. -/
def IsBlocked (parts : List String) : Prop := ∃ top ∈ blockedTops, parts.head? = some top

/-- Whether names lead to an artifact: none of them is blocked, and the last one has the extension
of artifacts after a text of its own. -/
structure Destination (parts : List String) : Prop where
  allowed : ∀ part ∈ parts, part ∉ blockedNames
  named : ∃ directories stem ending, parts = directories ++ [stem ++ ending] ∧ stem ≠ "" ∧
    ending ∈ extensions

/-- What follows a check is reached when the check passes. -/
theorem refuse_ok {α : Type} {broken : Bool} {failure : Failure} {rest : Outcome α} {result : α} :
    (if broken = true then (do throw failure; rest) else rest) = Except.ok result ↔
      broken = false ∧ rest = .ok result := by
  cases broken with
  | false => simp
  | true => exact ⟨fun h => (by cases h), fun h => (by cases h.1)⟩

theorem checkedPath_ok {path : String} {target : FilePath} :
    checkedPath path = .ok target ↔
      (path.startsWith "/" = true ∧ FilePath.normalText path = path) ∧
      (∀ root ∈ blockedRoots, isWithin path root = false) ∧
      (∀ part ∈ target.parts, part ∉ blockedNames) ∧
      Text.lower target.suffix = extension ∧ target = FilePath.parse path := by
  unfold checkedPath
  dsimp only
  simp only [refuse_ok]
  simp only [Bool.not_eq_false', bne_eq_false_iff_eq, Bool.or_eq_false_iff, List.any_eq_false,
    List.contains_iff_mem, Bool.not_eq_true]
  constructor
  · rintro ⟨hstart, hnormal, ⟨hroots, hnames⟩, -, hsuffix, htarget⟩
    cases htarget
    exact ⟨⟨hstart, hnormal⟩, hroots, hnames, hsuffix, rfl⟩
  · rintro ⟨⟨hstart, hnormal⟩, hroots, hnames, hsuffix, rfl⟩
    -- The extension of artifacts is not one of those that are refused by name.
    refine ⟨hstart, hnormal, ⟨hroots, hnames⟩, ?_, hsuffix, rfl⟩
    rw [hsuffix]
    decide

/-! ## Top-level directories -/

section Tops
variable {top : String} {target : FilePath}

theorem isName_of_top (h : top ∈ blockedTops) : FilePath.IsName top := by
  simp only [blockedTops, List.mem_cons, List.not_mem_nil, or_false] at h
  rcases h with rfl | rfl | rfl | rfl <;> constructor <;> decide

/-- A text that starts with a slash and a name has that name first on its way. -/
theorem names_of_top (htop : FilePath.IsName top) {text rest : List Char}
    (h : text = '/' :: (top.toList ++ '/' :: rest)) :
    FilePath.anchorOf text = "/" ∧ (FilePath.names text).head? = some top := by
  have hne : top.toList ≠ [] := by simpa using htop.ne_empty
  have hhead : (top.toList ++ '/' :: rest).head? ≠ some '/' := by
    rw [List.head?_append_of_ne_nil _ hne]
    exact fun hslash => htop.no_slash (List.mem_of_head? hslash)
  rw [h, FilePath.names_slash, FilePath.names_append hne htop.no_slash, String.ofList_toList]
  exact ⟨FilePath.anchorOf_append (.inl rfl) hhead, rfl⟩

theorem isWithin_iff (h : target.Plain) (htop : FilePath.IsName top) :
    isWithin target.text ("/" ++ top) = true ↔
      target.anchor = "/" ∧ target.parts.head? = some top := by
  have hdirectory : FilePath.Plain ⟨"/", [top]⟩ :=
    ⟨.inl rfl, List.forall_mem_singleton.mpr htop⟩
  have hdirectoryText : FilePath.text ⟨"/", [top]⟩ = "/" ++ top := by
    rw [hdirectory.text_eq, ← String.toList_inj]
    simp [Text.toList_join]
  rw [isWithin, Bool.or_eq_true, beq_iff_eq, String.startsWith_string_iff]
  constructor
  · rintro (heq | ⟨rest, hrest⟩)
    · -- The path is the directory itself.
      have hparse := h.parse_text
      rw [heq, ← hdirectoryText, hdirectory.parse_text] at hparse
      rw [← hparse]
      exact ⟨rfl, rfl⟩
    · have htext : target.text.toList = '/' :: (top.toList ++ '/' :: rest) := by
        rw [← hrest]
        simp
      have hnames := names_of_top htop htext
      rwa [h.anchorOf_text, h.names_text] at hnames
  · rintro ⟨hanchor, hhead⟩
    obtain ⟨anchor, parts⟩ := target
    obtain ⟨rest, rfl⟩ := List.head?_eq_some_iff.mp hhead
    cases hanchor
    cases rest with
    | nil => exact .inl hdirectoryText
    | cons part rest =>
      refine .inr ⟨(Text.join "/" (part :: rest)).toList, ?_⟩
      rw [h.text_eq]
      simp [Text.toList_join]

theorem not_isBlocked_iff (h : target.Plain) :
    (∀ root ∈ blockedRoots, isWithin target.text root = false) ↔
      (target.anchor = "/" → ¬ IsBlocked target.parts) := by
  have hroots : blockedRoots = blockedTops.map ("/" ++ ·) := by decide
  rw [hroots, List.forall_mem_map]
  constructor
  · rintro houtside hanchor ⟨top, htop, hhead⟩
    have hwithin := (isWithin_iff h (isName_of_top htop)).mpr ⟨hanchor, hhead⟩
    rw [houtside top htop] at hwithin
    cases hwithin
  · intro hblocked top htop
    rw [Bool.eq_false_iff]
    intro hwithin
    obtain ⟨hanchor, hhead⟩ := (isWithin_iff h (isName_of_top htop)).mp hwithin
    exact hblocked hanchor ⟨top, htop, hhead⟩

end Tops

/-! ## Extensions -/

section Extensions
variable {name stem ending : List Char} {target : FilePath}

theorem toList_of_mem_extensions (h : String.ofList ending ∈ extensions) :
    ending ∈ [".md".toList, ".mD".toList, ".Md".toList, ".MD".toList] := by
  rw [← String.toList_ofList (l := ending)]
  exact List.mem_map_of_mem h

theorem lowerFrom_extension : Text.lowerFrom false ending = extension.toList ↔
    String.ofList ending ∈ extensions := by
  constructor
  · intro h
    rw [show extension.toList = ['.', 'm', 'd'] by decide] at h
    obtain ⟨dot, rest, cased, rfl, hdot, hrest⟩ :=
      Text.lowerFrom_cons h (by decide) (by decide) (by decide)
    obtain ⟨m, rest, cased, rfl, hm, hrest⟩ :=
      Text.lowerFrom_cons hrest (by decide) (by decide) (by decide)
    obtain ⟨d, rest, cased, rfl, hd, hrest⟩ :=
      Text.lowerFrom_cons hrest (by decide) (by decide) (by decide)
    cases Text.lowerFrom_eq_nil hrest
    -- No character becomes a dot in lower case; the letters have a capital each.
    have hdot : dot = '.' := hdot.resolve_right fun ⟨hcapital, heq⟩ => by
      rw [show '.'.toNat = 46 by decide] at heq
      rw [show 'A'.toNat = 65 by decide] at hcapital
      omega
    have hm : m = 'm' ∨ m = 'M' := hm.imp_right fun ⟨_, heq⟩ => Char.toNat_inj.mp (by
      rw [show 'm'.toNat = 'M'.toNat + 32 by decide] at heq
      omega)
    have hd : d = 'd' ∨ d = 'D' := hd.imp_right fun ⟨_, heq⟩ => Char.toNat_inj.mp (by
      rw [show 'd'.toNat = 'D'.toNat + 32 by decide] at heq
      omega)
    subst hdot
    rcases hm with rfl | rfl <;> rcases hd with rfl | rfl <;> decide
  · intro h
    have hending := toList_of_mem_extensions h
    simp only [List.mem_cons, List.not_mem_nil, or_false] at hending
    rcases hending with rfl | rfl | rfl | rfl <;> decide

theorem suffixOf_append (hstem : stem ≠ []) (hending : ending ≠ []) (hdot : '.' ∉ ending) :
    FilePath.suffixOf (stem ++ '.' :: ending) = '.' :: ending := by
  have hafter : ((stem ++ '.' :: ending).reverse.takeWhile (· != '.')).reverse = ending := by
    rw [List.reverse_append, List.reverse_cons, List.append_assoc,
      List.takeWhile_append_of_pos (by
        intro c hc
        have hne : c ≠ '.' := by
          rintro rfl
          exact hdot (List.mem_reverse.mp hc)
        simpa using hne),
      List.singleton_append, List.takeWhile_cons_of_neg (by decide), List.append_nil,
      List.reverse_reverse]
  have hbefore : (stem ++ '.' :: ending).take
      ((stem ++ '.' :: ending).length - ending.length - 1) = stem :=
    List.take_left' (by rw [List.length_append, List.length_cons]; omega)
  unfold FilePath.suffixOf
  dsimp only
  rw [hafter, hbefore]
  refine if_neg ?_
  rw [List.length_append, List.length_cons, List.isEmpty_iff, List.isEmpty_iff]
  rintro (h | h | h)
  · exact hending h
  · exact hstem h
  · omega

/-- An extension starts at a dot of the name, and not at its first character. -/
theorem suffixOf_cases (name : List Char) : FilePath.suffixOf name = [] ∨
    ∃ stem ending, stem ≠ [] ∧ name = stem ++ '.' :: ending ∧
      FilePath.suffixOf name = '.' :: ending := by
  obtain ⟨ending, hending⟩ : ∃ ending, (name.reverse.takeWhile (· != '.')).reverse = ending :=
    ⟨_, rfl⟩
  have hsuffix : FilePath.suffixOf name =
      if ending.isEmpty ∨ (name.take (name.length - ending.length - 1)).isEmpty ∨
        ending.length = name.length then [] else '.' :: ending := by
    rw [← hending]
    rfl
  rw [hsuffix]
  split
  · exact .inl rfl
  · rename_i hkept
    simp only [not_or, List.isEmpty_iff] at hkept
    obtain ⟨-, hstem, hlength⟩ := hkept
    have hsplit := List.takeWhile_append_dropWhile (p := (· != '.')) (l := name.reverse)
    cases hdrop : name.reverse.dropWhile (· != '.') with
    | nil =>
      rw [hdrop, List.append_nil] at hsplit
      rw [← hending, hsplit, List.reverse_reverse] at hlength
      exact absurd rfl hlength
    | cons c rest =>
      have hdot := List.head?_dropWhile_not (· != '.') name.reverse
      rw [hdrop] at hdot hsplit
      have hc : c = '.' := by simpa using hdot
      have hname : name = rest.reverse ++ '.' :: ending :=
        calc name = name.reverse.reverse := (List.reverse_reverse name).symm
          _ = rest.reverse ++ '.' :: ending := by
            rw [← hsplit, List.reverse_append, hending, hc, List.reverse_cons, List.append_assoc,
              List.singleton_append]
      have hbefore : name.take (name.length - ending.length - 1) = rest.reverse := by
        rw [hname]
        exact List.take_left' (by rw [List.length_append, List.length_cons]; omega)
      exact .inr ⟨rest.reverse, ending, hbefore ▸ hstem, hname, rfl⟩

/-- The extension is spelled in one of the four ways, and something stands before it. -/
theorem lower_suffixOf_iff : Text.lowerFrom false (FilePath.suffixOf name) = extension.toList ↔
    ∃ stem ending, name = stem ++ ending ∧ stem ≠ [] ∧ String.ofList ending ∈ extensions := by
  constructor
  · intro h
    rcases suffixOf_cases name with hnone | ⟨stem, ending, hstem, hname, hsuffix⟩
    · rw [hnone] at h
      cases h
    · rw [hsuffix] at h
      exact ⟨stem, '.' :: ending, hname, hstem, lowerFrom_extension.mp h⟩
  · rintro ⟨stem, ending, rfl, hstem, hending⟩
    obtain ⟨letters, rfl, hne, hdot⟩ : ∃ letters, ending = '.' :: letters ∧ letters ≠ [] ∧
        '.' ∉ letters := by
      have hletters := toList_of_mem_extensions hending
      simp only [List.mem_cons, List.not_mem_nil, or_false] at hletters
      rcases hletters with rfl | rfl | rfl | rfl <;> exact ⟨_, rfl, by decide, by decide⟩
    rw [suffixOf_append hstem hne hdot]
    exact lowerFrom_extension.mpr hending

theorem lower_suffix_iff : Text.lower target.suffix = extension ↔
    ∃ directories stem ending, target.parts = directories ++ [stem ++ ending] ∧ stem ≠ "" ∧
      ending ∈ extensions := by
  rw [Text.lower, FilePath.suffix, String.toList_ofList, ← String.toList_inj, String.toList_ofList,
    lower_suffixOf_iff, FilePath.name]
  constructor
  · rintro ⟨stem, ending, hname, hstem, hending⟩
    rcases List.eq_nil_or_concat target.parts with hparts | ⟨directories, last, hparts⟩
    · rw [hparts] at hname
      exact absurd (List.append_eq_nil_iff.mp hname.symm).1 hstem
    · rw [hparts, List.concat_eq_append] at hname ⊢
      rw [List.getLast?_append, List.getLast?_singleton] at hname
      have hlast : last = String.ofList stem ++ String.ofList ending := by
        rw [← String.ofList_append, ← hname]
        exact (String.ofList_toList (s := last)).symm
      exact ⟨directories, String.ofList stem, String.ofList ending, by rw [hlast],
        Text.ofList_ne_empty hstem, hending⟩
  · rintro ⟨directories, stem, ending, hparts, hstem, hending⟩
    rw [hparts, List.getLast?_append, List.getLast?_singleton]
    refine ⟨stem.toList, ending.toList, String.toList_append, by simpa using hstem, ?_⟩
    rwa [String.ofList_toList]

end Extensions

theorem checkedPath_iff {path : String} {target : FilePath} :
    checkedPath path = .ok target ↔ target.text = path ∧ target.Plain ∧ Destination target.parts ∧
      (target.anchor = "/" → ¬ IsBlocked target.parts) := by
  rw [checkedPath_ok, FilePath.normalText_eq_iff]
  constructor
  · rintro ⟨⟨hplain, htext⟩, hroots, hnames, hsuffix, rfl⟩
    rw [← htext] at hroots
    exact ⟨htext, hplain, ⟨hnames, lower_suffix_iff.mp hsuffix⟩,
      (not_isBlocked_iff hplain).mp hroots⟩
  · rintro ⟨rfl, hplain, ⟨hnames, hnamed⟩, hblocked⟩
    rw [hplain.parse_text]
    exact ⟨⟨hplain, rfl⟩, (not_isBlocked_iff hplain).mpr hblocked, hnames,
      lower_suffix_iff.mpr hnamed, rfl⟩

/-- **The destinations that are accepted.** A path is accepted exactly when it is the text of a
plain path to an artifact, and does not lead from a single slash into a blocked top-level directory.
Wherever the path is taken from, it leads from the root along its names. -/
theorem checkedPath_spec (path : String) (target base : FilePath) :
    checkedPath path = .ok target ↔
      target.text = path ∧ target.Plain ∧ base.resolve target = ⟨"/", target.parts⟩ ∧
      Destination target.parts ∧ (target.anchor = "/" → ¬ IsBlocked target.parts) := by
  rw [checkedPath_iff]
  constructor
  · rintro ⟨htext, hplain, hrest⟩
    exact ⟨htext, hplain, hplain.resolve base, hrest⟩
  · rintro ⟨htext, hplain, -, hrest⟩
    exact ⟨htext, hplain, hrest⟩

/-- **Two slashes lead into a blocked directory.** -/
theorem two_slashes_accepted :
    checkedPath "//etc/x.md" = .ok ⟨"//", ["etc", "x.md"]⟩ ∧
    (∀ base : FilePath, base.resolve ⟨"//", ["etc", "x.md"]⟩ = ⟨"/", ["etc", "x.md"]⟩) ∧
    IsBlocked ["etc", "x.md"] := by
  have hplain : FilePath.Plain ⟨"//", ["etc", "x.md"]⟩ := by
    refine ⟨.inr rfl, ?_⟩
    rintro part hpart
    rcases List.mem_cons.mp hpart with rfl | hpart
    · exact isName_of_top (by decide)
    · rw [List.mem_singleton.mp hpart]
      constructor <;> decide
  refine ⟨checkedPath_iff.mpr ⟨by decide, hplain, ⟨by decide, ["etc"], "x", ".md", ?_⟩, ?_⟩,
    hplain.resolve, "etc", by decide, rfl⟩
  · decide
  · exact fun hanchor => absurd hanchor (by decide)

end SpecDraft.Output
