import Mathlib.Data.List.DropRight
import Mathlib.Data.List.TakeWhile
import SpecDraft.Text.Basic

/-!
# Trimming and cutting

What is left of a text after trimming it, what follows a pattern at its start, and which pieces a
separator cuts it into.
-/
set_option autoImplicit false

namespace SpecDraft.Text

theorem ofList_ne_empty {chars : List Char} (h : chars ≠ []) : String.ofList chars ≠ "" := by
  intro heq
  have hchars := congrArg String.toList heq
  rw [String.toList_ofList] at hchars
  exact h hchars

theorem mem_takeWhile {p : Char → Bool} {s : List Char} {c : Char} (h : c ∈ s.takeWhile p) :
    p c := by
  have hall := List.all_takeWhile (p := p) (l := s)
  exact List.all_eq_true.mp hall c h

section Trim
variable {s : List Char} {c : Char}

theorem dropRight_eq_nil_iff {p : Char → Bool} : dropRight p s = [] ↔ ∀ c ∈ s, p c := by
  rw [dropRight, List.reverse_eq_nil_iff, List.dropWhile_eq_nil_iff]
  simp only [List.mem_reverse]

theorem dropRight_append {p : Char → Bool} {trail : List Char} (h : ∀ c ∈ trail, p c = true)
    (s : List Char) : dropRight p (s ++ trail) = dropRight p s := by
  rw [dropRight, dropRight, List.reverse_append, List.dropWhile_append_of_pos (by simpa using h)]

/-- A text that ends with a character of another class keeps it. -/
theorem dropRight_eq_self {p : Char → Bool} (h : ∀ c ∈ s.getLast?, p c = false) :
    dropRight p s = s := by
  refine List.rdropWhile_eq_self_iff.mpr fun hne => ?_
  simp [h _ (List.getLast?_eq_some_getLast hne)]

theorem exists_dropRight (p : Char → Bool) (s : List Char) :
    ∃ tail, s = dropRight p s ++ tail ∧ ∀ c ∈ tail, p c = true :=
  ⟨s.rtakeWhile p, (List.rdropWhile_append_rtakeWhile ..).symm, fun _ => List.mem_rtakeWhile_imp⟩

theorem trimLeft_eq_nil_iff : trimLeft s = [] ↔ allBlank s := by
  rw [trimLeft, List.dropWhile_eq_nil_iff, allBlank, List.all_eq_true]

/-- What is left after trimming starts with a character that is not blank. -/
theorem head_trimLeft {rest : List Char} (h : trimLeft s = c :: rest) :
    isBlank c = false := by
  have hhead := List.head?_dropWhile_not isBlank s
  rw [← trimLeft, h] at hhead
  simpa using hhead

theorem trim_eq_nil_iff : trim s = [] ↔ allBlank s := by
  rw [← trimLeft_eq_nil_iff, trim, trimRight, dropRight_eq_nil_iff]
  cases hleft : trimLeft s with
  | nil => exact ⟨fun _ => rfl, fun _ c hc => (by cases hc)⟩
  | cons c rest =>
    refine ⟨fun h => ?_, fun h => (by cases h)⟩
    exact absurd (h c List.mem_cons_self) (by simp [head_trimLeft hleft])

theorem trimLeft_cons_of_blank (h : isBlank c = true) (s : List Char) :
    trimLeft (c :: s) = trimLeft s := List.dropWhile_cons_of_pos h

theorem trimLeft_cons_of_not_blank (h : isBlank c = false) (s : List Char) :
    trimLeft (c :: s) = c :: s := List.dropWhile_cons_of_neg (by simp [h])

theorem trim_cons_of_blank (h : isBlank c = true) (s : List Char) : trim (c :: s) = trim s := by
  rw [trim, trimLeft_cons_of_blank h, trim]

theorem trimLeft_append_of_blank {blanks : List Char} (h : allBlank blanks = true) (s : List Char) :
    trimLeft (blanks ++ s) = trimLeft s :=
  List.dropWhile_append_of_pos (List.all_eq_true.mp h)

theorem trim_trimLeft (s : List Char) : trim (trimLeft s) = trim s :=
  congrArg trimRight (List.dropWhile_idempotent (p := isBlank) s)

/-- A text that starts with a character of another class keeps it. -/
theorem dropRight_cons {p : Char → Bool} (h : p c = false) (s : List Char) :
    dropRight p (c :: s) = c :: dropRight p s := by
  rw [dropRight, dropRight, List.reverse_cons, List.dropWhile_append]
  cases hrest : s.reverse.dropWhile p with
  | nil => simp [h]
  | cons d rest => simp

theorem exists_dropRight_cons {p : Char → Bool} (h : p c = false) (s : List Char) :
    ∃ rest, dropRight p (c :: s) = c :: rest := ⟨_, dropRight_cons h s⟩

/-- A text that starts with no blank keeps its first character. -/
theorem exists_trim_cons (h : isBlank c = false) (s : List Char) :
    ∃ rest, trim (c :: s) = c :: rest := by
  rw [trim, trimLeft_cons_of_not_blank h]
  exact exists_dropRight_cons h s

/-- Trimming twice is trimming once. -/
theorem trim_trim (s : List Char) : trim (trim s) = trim s := by
  have hright : trimRight (trim s) = trim s := List.rdropWhile_idempotent isBlank (trimLeft s)
  suffices hleft : trimLeft (trim s) = trim s by rw [trim, hleft, hright]
  rw [trim]
  cases hs : trimLeft s with
  | nil => rfl
  | cons c rest =>
    obtain ⟨rest', hrest⟩ := exists_dropRight_cons (head_trimLeft hs) rest
    rw [trimRight, hrest, trimLeft_cons_of_not_blank (head_trimLeft hs)]

/-- A text is trimmed when it neither starts nor ends with a blank. -/
theorem trim_eq_self_iff : trim s = s ↔
    (∀ c ∈ s.head?, isBlank c = false) ∧ (∀ c ∈ s.getLast?, isBlank c = false) := by
  constructor
  · intro h
    constructor
    · intro c hc
      obtain ⟨rest, hrest⟩ := List.head?_eq_some_iff.mp hc
      cases hleft : trimLeft s with
      | nil =>
        rw [trim, hleft, hrest] at h
        cases h
      | cons first tail =>
        obtain ⟨tail', htail⟩ := exists_dropRight_cons (head_trimLeft hleft) tail
        rw [trim, hleft, trimRight, htail, hrest] at h
        rw [← (List.cons.inj h).1]
        exact head_trimLeft hleft
    · intro c hc
      have hright : trimRight s = s := by
        rw [← h]
        exact List.rdropWhile_idempotent isBlank (trimLeft s)
      have hne : s ≠ [] := by
        rintro rfl
        cases hc
      have hlast := List.rdropWhile_eq_self_iff.mp hright hne
      rw [List.getLast?_eq_some_getLast hne] at hc
      rw [← Option.some.inj hc]
      simpa using hlast
  · rintro ⟨hhead, hlast⟩
    have hleft : trimLeft s = s := by
      cases s with
      | nil => rfl
      | cons c s => exact trimLeft_cons_of_not_blank (hhead c rfl) s
    rw [trim, hleft]
    exact dropRight_eq_self hlast

/-- A trimmed text stays trimmed when something is put before it that starts with no blank. -/
theorem trim_cons_append {b : List Char} (hc : isBlank c = false) (a : List Char)
    (hb : trim b = b) (hne : b ≠ []) : trim (c :: (a ++ b)) = c :: (a ++ b) := by
  rw [trim_eq_self_iff] at hb ⊢
  refine ⟨fun d hd => by rw [← Option.some.inj hd]; exact hc, fun d hd => hb.2 d ?_⟩
  rwa [← List.cons_append, List.getLast?_append_of_ne_nil _ hne] at hd

/-- What trimming takes away are blanks. -/
theorem exists_trim (s : List Char) : ∃ lead trail, s = lead ++ (trim s ++ trail) ∧
    allBlank lead = true ∧ allBlank trail = true := by
  refine ⟨s.takeWhile isBlank, (trimLeft s).rtakeWhile isBlank, ?_, List.all_takeWhile, ?_⟩
  · have hright : trim s ++ (trimLeft s).rtakeWhile isBlank = trimLeft s :=
      List.rdropWhile_append_rtakeWhile ..
    rw [hright, trimLeft, List.takeWhile_append_dropWhile]
  · exact List.all_eq_true.mpr fun c hc => List.mem_rtakeWhile_imp hc

theorem allBlank_append (a b : List Char) : allBlank (a ++ b) = (allBlank a && allBlank b) :=
  List.all_append

/-- Blanks after a text are trimmed away. -/
theorem trim_append_of_blank {trail : List Char} (h : allBlank trail = true) (s : List Char) :
    trim (s ++ trail) = trim s := by
  cases hs : trimLeft s with
  | nil =>
    have hblank : allBlank (s ++ trail) = true := by
      rw [allBlank_append, trimLeft_eq_nil_iff.mp hs, h, Bool.and_self]
    rw [trim_eq_nil_iff.mpr hblank, trim, hs]
    rfl
  | cons c rest =>
    have hleft : trimLeft (s ++ trail) = trimLeft s ++ trail := by
      have hne : (s.dropWhile isBlank).isEmpty = false := by
        rw [← trimLeft, hs]
        rfl
      rw [trimLeft, List.dropWhile_append, hne]
      rfl
    rw [trim, trim, hleft]
    exact dropRight_append (List.all_eq_true.mp h) (trimLeft s)

theorem trim_blank_append {lead : List Char} (h : allBlank lead = true) (s : List Char) :
    trim (lead ++ s) = trim s := by
  rw [trim, trimLeft_append_of_blank h, trim]

/-- Trimming leaves a part of a text. -/
theorem trim_infix_self (s : List Char) : trim s <:+: s :=
  (List.rdropWhile_prefix isBlank _).isInfix.trans (List.dropWhile_suffix isBlank).isInfix

theorem allBlank_trim (s : List Char) : allBlank (trim s) = allBlank s := by
  rw [Bool.eq_iff_iff, ← trim_eq_nil_iff, trim_trim, trim_eq_nil_iff]

theorem strip_eq_empty_iff {s : String} : strip s = "" ↔ allBlank s.toList := by
  rw [← trim_eq_nil_iff, strip, ← String.toList_eq_nil_iff, String.toList_ofList]

theorem strip_infix_self (s : String) : (strip s).toList <:+: s.toList := by
  rw [strip, String.toList_ofList]
  exact trim_infix_self s.toList

end Trim

theorem after?_some {pattern text rest : List Char} :
    after? pattern text = some rest ↔ text = pattern ++ rest := by
  induction pattern generalizing text with
  | nil => exact ⟨fun h => Option.some.inj h, fun h => congrArg some h⟩
  | cons p pattern ih =>
    cases text with
    | nil => exact ⟨fun h => (by cases h), fun h => (by cases h)⟩
    | cons c text =>
      rw [after?]
      split
      · rename_i hc
        rw [ih, hc, List.cons_append, List.cons.injEq, eq_self, true_and]
      · rename_i hc
        refine ⟨fun h => (by cases h), fun h => ?_⟩
        exact absurd (List.cons.inj h).1.symm hc

theorem after?_eq_none_iff {pattern text : List Char} :
    after? pattern text = none ↔ ¬ pattern <+: text := by
  rw [← Option.not_isSome_iff_eq_none, Option.isSome_iff_exists]
  simp only [after?_some]
  exact not_congr ⟨fun ⟨rest, h⟩ => ⟨rest, h.symm⟩, fun ⟨rest, h⟩ => ⟨rest, h.symm⟩⟩

/-! ## Pieces -/

section Split
variable {separator : Char} {a b piece : List Char} {pieces : List (List Char)}

theorem split_of_not_mem (h : separator ∉ a) : split separator a = [a] := by
  induction a with
  | nil => rfl
  | cons c a ih =>
    obtain ⟨hc, ha⟩ := List.ne_and_not_mem_of_not_mem_cons h
    rw [split, if_neg (Ne.symm hc), ih ha]

theorem split_append (h : separator ∉ a) (b : List Char) :
    split separator (a ++ separator :: b) = a :: split separator b := by
  induction a with
  | nil => rw [List.nil_append, split, if_pos rfl]
  | cons c a ih =>
    obtain ⟨hc, ha⟩ := List.ne_and_not_mem_of_not_mem_cons h
    rw [List.cons_append, split, if_neg (Ne.symm hc), ih ha]

/-- Pieces without separators are found again after they were joined. -/
theorem split_intercalate (hne : pieces ≠ []) (h : ∀ piece ∈ pieces, separator ∉ piece) :
    split separator ([separator].intercalate pieces) = pieces := by
  induction pieces with
  | nil => exact absurd rfl hne
  | cons first rest ih =>
    obtain ⟨hfirst, hrest⟩ := List.forall_mem_cons.mp h
    cases rest with
    | nil =>
      rw [List.intercalate_singleton]
      exact split_of_not_mem hfirst
    | cons second rest =>
      rw [List.intercalate_cons_cons, List.append_assoc, List.singleton_append,
        split_append hfirst, ih (List.cons_ne_nil _ _) hrest]

/-- What is joined is in a piece or in what stands between the pieces. -/
theorem mem_intercalate {c : Char} {joint : List Char} (h : c ∈ joint.intercalate pieces) :
    (∃ piece ∈ pieces, c ∈ piece) ∨ c ∈ joint := by
  induction pieces with
  | nil => cases h
  | cons first rest ih =>
    cases rest with
    | nil =>
      rw [List.intercalate_singleton] at h
      exact .inl ⟨first, List.mem_cons_self, h⟩
    | cons second rest =>
      rw [List.intercalate_cons_cons, List.append_assoc, List.mem_append, List.mem_append] at h
      rcases h with hfirst | hjoint | hrest
      · exact .inl ⟨first, List.mem_cons_self, hfirst⟩
      · exact .inr hjoint
      · exact (ih hrest).imp_left fun ⟨piece, hpiece, hc⟩ => ⟨piece, .tail _ hpiece, hc⟩

theorem mem_intercalate_concat {c : Char} {joint last : List Char}
    (h : c ∈ joint.intercalate pieces) : c ∈ joint.intercalate (pieces ++ [last]) := by
  induction pieces with
  | nil => cases h
  | cons first rest ih =>
    cases rest with
    | nil =>
      rw [List.intercalate_singleton] at h
      rw [List.singleton_append, List.intercalate_cons_cons]
      exact List.mem_append_left _ (List.mem_append_left _ h)
    | cons second rest =>
      rw [List.intercalate_cons_cons, List.mem_append] at h
      rw [List.cons_append, List.cons_append, List.intercalate_cons_cons, List.mem_append]
      exact h.imp_right ih

/-- Two lists of pieces that are joined together are joined each on its own. -/
theorem intercalate_append {joint : List Char} {a b : List (List Char)} (ha : a ≠ [])
    (hb : b ≠ []) :
    joint.intercalate (a ++ b) = joint.intercalate a ++ joint ++ joint.intercalate b := by
  obtain ⟨second, rest, rfl⟩ := List.exists_cons_of_ne_nil hb
  induction a with
  | nil => exact absurd rfl ha
  | cons first a ih =>
    cases a with
    | nil =>
      rw [List.singleton_append, List.intercalate_cons_cons, List.intercalate_singleton]
    | cons next a =>
      rw [List.cons_append, List.cons_append, List.intercalate_cons_cons, ← List.cons_append,
        ih (List.cons_ne_nil _ _), List.intercalate_cons_cons]
      simp only [List.append_assoc]

theorem not_mem_of_mem_split {s : List Char} (h : piece ∈ split separator s) :
    separator ∉ piece := by
  induction s generalizing piece with
  | nil =>
    rw [List.mem_singleton.mp h]
    exact List.not_mem_nil
  | cons c s ih =>
    rw [split] at h
    split at h
    · rcases List.mem_cons.mp h with rfl | h
      · exact List.not_mem_nil
      · exact ih h
    · rename_i hc
      split at h
      · rw [List.mem_singleton.mp h, List.mem_singleton]
        exact Ne.symm hc
      · rename_i first rest hsplit
        rw [hsplit] at ih
        rcases List.mem_cons.mp h with rfl | h
        · exact List.not_mem_cons_of_ne_of_not_mem (Ne.symm hc) (ih List.mem_cons_self)
        · exact ih (List.mem_cons_of_mem _ h)

/-- The pieces of a text are parts of it, by induction on the text: the first piece is its start. -/
theorem exists_split (separator : Char) (s : List Char) : ∃ first pieces,
    split separator s = first :: pieces ∧ first <+: s ∧ ∀ piece ∈ pieces, piece <:+: s := by
  induction s with
  | nil => exact ⟨[], [], rfl, List.prefix_refl [], by simp⟩
  | cons c s ih =>
    obtain ⟨first, pieces, hsplit, hfirst, hpieces⟩ := ih
    rw [split]
    split
    · refine ⟨[], split separator s, rfl, List.nil_prefix, fun piece hpiece => ?_⟩
      rw [hsplit, List.mem_cons] at hpiece
      rcases hpiece with rfl | hpiece
      · exact List.infix_cons hfirst.isInfix
      · exact List.infix_cons (hpieces piece hpiece)
    · rw [hsplit]
      exact ⟨c :: first, pieces, rfl, (List.prefix_cons_inj c).mpr hfirst,
        fun piece hpiece => List.infix_cons (hpieces piece hpiece)⟩

/-- Texts put together with a separator between them have the pieces of both. -/
theorem split_append_split (a b : List Char) :
    split separator (a ++ separator :: b) = split separator a ++ split separator b := by
  induction a with
  | nil => exact if_pos rfl
  | cons c a ih =>
    rw [List.cons_append, split, split, ih]
    split
    · rfl
    · obtain ⟨first, pieces, hsplit, -⟩ := exists_split separator a
      rw [hsplit]
      rfl

/-- There is one more piece than separators. -/
theorem length_split (a : List Char) : (split separator a).length = a.count separator + 1 := by
  induction a with
  | nil => rfl
  | cons c a ih =>
    rw [split]
    split
    · rename_i hc
      rw [hc, List.length_cons, ih, List.count_cons_self]
    · rename_i hc
      obtain ⟨first, pieces, hsplit, -⟩ := exists_split separator a
      rw [hsplit] at ih ⊢
      rw [List.count_cons_of_ne hc]
      exact ih

theorem infix_of_mem_split {s : List Char} (h : piece ∈ split separator s) : piece <:+: s := by
  obtain ⟨first, pieces, hsplit, hfirst, hpieces⟩ := exists_split separator s
  rw [hsplit, List.mem_cons] at h
  rcases h with rfl | h
  · exact hfirst.isInfix
  · exact hpieces piece h

theorem infix_of_mem_commaItems {s : List Char} {item : String} (h : item ∈ commaItems s) :
    item.toList <:+: s := by
  obtain ⟨trimmed, htrimmed, rfl⟩ := List.mem_map.mp h
  obtain ⟨piece, hpiece, rfl⟩ := List.mem_map.mp (List.mem_filter.mp htrimmed).1
  rw [String.toList_ofList]
  exact (trim_infix_self piece).trans (infix_of_mem_split hpiece)

/-- Blanks before a list of items do not matter. -/
theorem commaItems_trimLeft (s : List Char) : commaItems (trimLeft s) = commaItems s := by
  induction s with
  | nil => rfl
  | cons c s ih =>
    cases hblank : isBlank c with
    | false => rw [trimLeft_cons_of_not_blank hblank]
    | true =>
      have hcomma : c ≠ ',' := by
        rintro rfl
        exact absurd hblank (by decide)
      obtain ⟨first, pieces, hsplit, -⟩ := exists_split ',' s
      rw [trimLeft_cons_of_blank hblank, ih, commaItems, commaItems, split, if_neg hcomma, hsplit]
      dsimp only
      rw [List.map_cons, List.map_cons, trim_cons_of_blank hblank]

theorem toList_join (separator : String) (parts : List String) :
    (join separator parts).toList = separator.toList.intercalate (parts.map String.toList) :=
  String.toList_intercalate

/-- Joining without a separator puts the texts one after the other. -/
theorem toList_join_empty (parts : List String) :
    (join "" parts).toList = parts.flatMap String.toList := by
  rw [toList_join]
  induction parts with
  | nil => rfl
  | cons first rest ih =>
    cases rest with
    | nil => simp
    | cons second rest =>
      rw [List.map_cons, List.map_cons, List.intercalate_cons_cons, ← List.map_cons, ih]
      simp

theorem lines_newline_cons (s : List Char) : lines ('\n' :: s) = [] :: lines s := by
  rw [lines, split, if_pos rfl, ← lines]

theorem lines_cons_of_ne {c : Char} {s first : List Char} {rest : List (List Char)}
    (hc : c ≠ '\n') (h : lines s = first :: rest) : lines (c :: s) = (c :: first) :: rest := by
  rw [lines] at h ⊢
  rw [split, if_neg hc, h]

/-- The first line of a text goes up to the first line feed. -/
theorem lines_eq_takeWhile_cons (s : List Char) :
    ∃ rest, lines s = s.takeWhile (· != '\n') :: rest := by
  induction s with
  | nil => exact ⟨[], rfl⟩
  | cons c s ih =>
    obtain ⟨rest, hrest⟩ := ih
    by_cases hc : c = '\n'
    · subst hc
      exact ⟨lines s, lines_newline_cons s⟩
    · rw [List.takeWhile_cons_of_pos (by simpa using hc)]
      exact ⟨rest, lines_cons_of_ne hc hrest⟩

/-- The text of lines, each ended by a line feed. -/
def writtenLines (lines : List (List Char)) : List Char := lines.flatMap (· ++ ['\n'])

theorem writtenLines_cons (line : List Char) (lines : List (List Char)) :
    writtenLines (line :: lines) = line ++ '\n' :: writtenLines lines := by
  simp [writtenLines]

theorem writtenLines_append (a b : List (List Char)) :
    writtenLines (a ++ b) = writtenLines a ++ writtenLines b := List.flatMap_append

/-- What is written as lines is read as the lines of each text. -/
theorem lines_writtenLines_flatMap (written : List (List Char)) :
    lines (writtenLines written) = written.flatMap lines ++ [[]] := by
  induction written with
  | nil => rfl
  | cons line written ih =>
    rw [writtenLines_cons, lines, split_append_split, ← lines, ← lines, ih, List.flatMap_cons,
      List.append_assoc]

/-- Texts are their own lines when none of them holds a line break. -/
theorem flatMap_lines_eq_self_iff {texts : List (List Char)} :
    texts.flatMap lines = texts ↔ ∀ text ∈ texts, '\n' ∉ text := by
  constructor
  · intro h text htext
    rw [← h] at htext
    obtain ⟨other, -, hline⟩ := List.mem_flatMap.mp htext
    exact not_mem_of_mem_split hline
  · intro h
    have hsingle : ∀ text ∈ texts, lines text = [text] := fun text htext =>
      split_of_not_mem (h text htext)
    rw [List.flatMap_congr hsingle, List.flatMap_singleton']

/-- Lines that were written are found again, with an empty one after the last line feed. -/
theorem lines_writtenLines {written : List (List Char)} (h : ∀ line ∈ written, '\n' ∉ line) :
    lines (writtenLines written) = written ++ [[]] := by
  rw [lines_writtenLines_flatMap, flatMap_lines_eq_self_iff.mpr h]

end Split

end SpecDraft.Text
