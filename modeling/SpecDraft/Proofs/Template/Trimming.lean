import SpecDraft.Proofs.Template.Layout
import SpecDraft.Proofs.Template.Outline

/-!
# Trimming block lines

Trimming takes indentation and line ends away from block tags that stand alone on their lines
(`Layout.trimmed`). It goes through a template character by character; what it does between two
tags shows in the texts around them (`trimmedFrom_text`). A part of a text that holds no tag holds
none either, and so the tags stay the ones that they were (`tokens_trimBlockLines`).
-/
set_option autoImplicit false

namespace SpecDraft.Template

open Text

/-! ## Trimming a layout -/

/-- Whether a character can indent a line. -/
def isIndent (c : Char) : Bool := c = ' ' || c = '\t'

/-- Whether the last line of a text is blank so far; `start` tells whether the text starts a
line. -/
def atLineStart (start : Bool) (chars : List Char) : Bool :=
  match (dropRight isIndent chars).getLast? with
  | none => start
  | some c => c == '\n'

/-- Whether a block tag stands alone on its line, between the texts before it and after it. -/
def standsAlone (start : Bool) (before : List Char) (tag : Token) (after : List Char) : Bool :=
  tag.isBlockTag && atLineStart start before && (lineEnd? after).isSome

/-- What trimming leaves of a text: after a tag that stands alone the end of the line goes, and
before one the indentation. -/
def trimmedText (afterAlone beforeAlone : Bool) (chars : List Char) : List Char :=
  let rest := if afterAlone then (lineEnd? chars).getD chars else chars
  if beforeAlone then dropRight isIndent rest else rest

/-- What trimming leaves of a text and of the tags after it. -/
def trimmedTags (start afterAlone : Bool) (before : List Char) : List (Token × List Char) → Layout
  | [] => ⟨trimmedText afterAlone false before, []⟩
  | (tag, after) :: tags =>
    let alone := standsAlone start before tag after
    let rest := trimmedTags false alone after tags
    ⟨trimmedText afterAlone alone before, (tag, rest.head) :: rest.tags⟩

/-- What trimming leaves of a layout: all tags, with the texts between them trimmed. -/
def Layout.trimmed (layout : Layout) : Layout := trimmedTags true false layout.head layout.tags

section TrimmedText
variable {chars rest : List Char} {afterAlone beforeAlone start : Bool}
  {tags : List (Token × List Char)} {layout : Layout}

/-- A line end is blanks and a line break. -/
theorem lineEnd?_some (h : lineEnd? chars = some rest) : ∃ blanks ending,
    chars = blanks ++ ending ++ rest ∧ (∀ c ∈ blanks, isIndent c) ∧
      (ending = ['\n'] ∨ ending = ['\r', '\n']) := by
  have hsplit := List.takeWhile_append_dropWhile (p := isIndent) (l := chars)
  have hblanks : ∀ c ∈ chars.takeWhile isIndent, isIndent c := fun c => mem_takeWhile
  unfold lineEnd? at h
  split at h
  · rename_i tail heq
    cases h
    rw [show chars.dropWhile isIndent = '\n' :: rest from heq] at hsplit
    exact ⟨_, ['\n'], by rw [List.append_assoc]; exact hsplit.symm, hblanks, .inl rfl⟩
  · rename_i tail heq
    cases h
    rw [show chars.dropWhile isIndent = '\r' :: '\n' :: rest from heq] at hsplit
    exact ⟨_, ['\r', '\n'], by rw [List.append_assoc]; exact hsplit.symm, hblanks, .inr rfl⟩
  · cases h

/-- What goes of a text stands at its ends. -/
theorem trimmedText_infix_self (afterAlone beforeAlone : Bool) (chars : List Char) :
    trimmedText afterAlone beforeAlone chars <:+: chars := by
  have hafter : (if afterAlone then (lineEnd? chars).getD chars else chars) <:+: chars := by
    cases afterAlone with
    | false => exact List.infix_rfl
    | true =>
      cases hend : lineEnd? chars with
      | none => exact List.infix_rfl
      | some rest =>
        obtain ⟨blanks, ending, rfl, -, -⟩ := lineEnd?_some hend
        exact (List.suffix_append _ _).isInfix
  cases beforeAlone with
  | false => exact hafter
  | true => exact (List.rdropWhile_prefix isIndent _).isInfix.trans hafter

theorem clear_trimmedTags (hchars : IsTagFree chars) (htags : ClearTags tags) :
    (trimmedTags start afterAlone chars tags).Clear := by
  induction tags generalizing start afterAlone chars with
  | nil => exact ⟨hchars.of_infix (trimmedText_infix_self afterAlone false chars), clearTags_nil⟩
  | cons pair tags ih =>
    obtain ⟨tag, after⟩ := pair
    obtain ⟨⟨htag, hafter⟩, htags⟩ := List.forall_mem_cons.mp htags
    have hrest : (trimmedTags false (standsAlone start chars tag after) after tags).Clear :=
      ih hafter htags
    exact ⟨hchars.of_infix (trimmedText_infix_self afterAlone _ chars),
      List.forall_mem_cons.mpr ⟨⟨htag, hrest.head⟩, hrest.tags⟩⟩

/-- **Trimming makes no tag and breaks none.** -/
theorem Layout.Clear.trimmed (h : layout.Clear) : layout.trimmed.Clear :=
  clear_trimmedTags h.head h.tags

theorem map_fst_trimmedTags :
    (trimmedTags start afterAlone chars tags).tags.map Prod.fst = tags.map Prod.fst := by
  induction tags generalizing start afterAlone chars with
  | nil => rfl
  | cons pair tags ih => exact congrArg (pair.1 :: ·) ih

end TrimmedText

/-! ## Trimming character by character -/

/-- What trimming makes of a text whose start is, or is not, the start of a line. -/
def trimmedFrom (start : Bool) (s : List Char) : List Char := trimmedWithin s.length start s

section Walk
variable {s rest chars tail : List Char} {token : Token} {start : Bool} {c : Char}
  {tags : List (Token × List Char)} {layout : Layout}

theorem standalone?_some (h : standalone? s = some (token, rest)) : token.isBlockTag = true ∧
    ∃ after, tag? (s.dropWhile isIndent) = some (token, after) ∧ lineEnd? after = some rest := by
  obtain ⟨⟨found, after⟩, htag, hblock⟩ := Option.bind_eq_some_iff.mp h
  dsimp only at hblock
  split at hblock
  · rename_i hfound
    obtain ⟨rest', hend, heq⟩ := Option.bind_eq_some_iff.mp hblock
    cases heq
    exact ⟨hfound, after, htag, hend⟩
  · cases hblock

theorem length_of_standalone? (h : standalone? s = some (token, rest)) :
    rest.length < s.length := by
  obtain ⟨-, after, htag, hend⟩ := standalone?_some h
  obtain ⟨blanks, ending, rfl, -, -⟩ := lineEnd?_some hend
  obtain ⟨hist, hs⟩ := tag?_some htag
  have hdrop := (List.dropWhile_suffix (l := s) isIndent).length_le
  have hsource := List.length_pos_iff.mpr (source_ne_nil hist)
  rw [hs] at hdrop
  simp only [List.length_append] at hdrop
  omega

/-- Fuel beyond the number of characters changes nothing. -/
theorem trimmedWithin_eq {fuel : Nat} (h : s.length ≤ fuel) :
    trimmedWithin fuel start s = trimmedFrom start s := by
  rw [trimmedFrom]
  generalize hshort : s.length = short at h ⊢
  replace hshort : s.length ≤ short := hshort.le
  induction fuel generalizing short s start with
  | zero =>
    obtain rfl : short = 0 := by omega
    rfl
  | succ fuel ih =>
    cases s with
    | nil => cases short <;> rfl
    | cons c s =>
      rw [List.length_cons] at hshort
      obtain ⟨short, rfl⟩ := Nat.exists_eq_add_of_le' (show 1 ≤ short by omega)
      rw [trimmedWithin, trimmedWithin]
      cases hfound : (if start then standalone? (c :: s) else none) with
      | none => exact congrArg (c :: ·) (ih short (by omega) (by omega))
      | some found =>
        obtain ⟨token, rest⟩ := found
        have hstandalone : standalone? (c :: s) = some (token, rest) := by
          split at hfound
          · exact hfound
          · cases hfound
        have hlength := length_of_standalone? hstandalone
        rw [List.length_cons] at hlength
        exact congrArg (token.source.toList ++ ·) (ih short (by omega) (by omega))

theorem trimmedFrom_standalone (h : standalone? s = some (token, rest)) :
    trimmedFrom true s = token.source.toList ++ trimmedFrom true rest := by
  have hlength := length_of_standalone? h
  cases s with
  | nil => cases hlength
  | cons c s =>
    rw [trimmedFrom, List.length_cons, trimmedWithin, if_pos rfl, h]
    rw [List.length_cons] at hlength
    exact congrArg (token.source.toList ++ ·) (trimmedWithin_eq (by omega))

theorem trimmedFrom_cons (h : start = true → standalone? (c :: s) = none) :
    trimmedFrom start (c :: s) = c :: trimmedFrom (c = '\n') s := by
  have hnone : (if start then standalone? (c :: s) else none) = none := by
    cases start with
    | false => rfl
    | true => exact h rfl
  rw [trimmedFrom, List.length_cons, trimmedWithin, hnone]
  rfl

theorem standalone?_append (h : ∀ c ∈ chars, isIndent c) (rest : List Char) :
    standalone? (chars ++ rest) = standalone? rest := by
  have hdrop : (chars ++ rest).dropWhile isIndent = rest.dropWhile isIndent :=
    List.dropWhile_append_of_pos h
  unfold standalone?
  exact congrArg (· >>= _) (congrArg tag? hdrop)

/-- A line that starts with more than blanks does not start with a tag where no tag starts. -/
theorem standalone?_eq_none
    (hnone : ∀ before here, chars = before ++ here → here ≠ [] → tag? (here ++ rest) = none)
    (h : ¬ ∀ c ∈ chars, isIndent c) : standalone? (chars ++ rest) = none := by
  rw [← List.dropWhile_eq_nil_iff] at h
  have hsplit := List.takeWhile_append_dropWhile (p := isIndent) (l := chars)
  have htag := hnone _ _ hsplit.symm h
  cases hfound : standalone? (chars ++ rest) with
  | none => rfl
  | some found =>
    obtain ⟨token, line⟩ := found
    obtain ⟨-, after, hread, -⟩ := standalone?_some hfound
    rw [List.dropWhile_append, if_neg (by simpa using h), htag] at hread
    cases hread

theorem standalone?_source (h : token.IsTag) (rest : List Char) :
    standalone? (token.source.toList ++ rest) =
      if token.isBlockTag then (lineEnd? rest).map fun line => (token, line) else none := by
  have htag := tag?_source h rest
  obtain ⟨tail, htail⟩ := source_eq_cons h
  rw [htail, List.cons_append] at htag ⊢
  rw [standalone?_of_start (by decide) (by decide), htag, Option.bind_some]
  dsimp only
  cases lineEnd? rest <;> rfl

/-- Characters at which nothing starts that stands alone go through. -/
theorem trimmedFrom_through (hc : c ≠ '\n')
    (h : ∀ before here, chars = before ++ here → standalone? (here ++ c :: rest) = none) :
    trimmedFrom start (chars ++ c :: rest) = chars ++ c :: trimmedFrom false rest := by
  induction chars generalizing start with
  | nil =>
    refine (trimmedFrom_cons fun _ => h [] [] rfl).trans ?_
    rw [decide_eq_false hc]
    rfl
  | cons d chars ih =>
    refine (trimmedFrom_cons fun _ => h [] (d :: chars) rfl).trans (congrArg (d :: ·) ?_)
    exact ih fun before here heq => h (d :: before) here (congrArg (d :: ·) heq)

/-- A tag that does not stand alone goes through, line breaks in it included. -/
theorem trimmedFrom_source (h : token.IsTag)
    (hnone : start = true → standalone? (token.source.toList ++ rest) = none) :
    trimmedFrom start (token.source.toList ++ rest) =
      token.source.toList ++ trimmedFrom false rest := by
  obtain ⟨content, hbrace, hsource⟩ := source_eq_braces h
  have hthrough : trimmedFrom false ((content ++ ['\x7d']) ++ '\x7d' :: rest) =
      (content ++ ['\x7d']) ++ '\x7d' :: trimmedFrom false rest := by
    refine trimmedFrom_through (by decide) fun before here heq => ?_
    have hhere : '\x7b' ∉ here ++ ['\x7d'] := by
      intro hmem
      have hcontent : '\x7b' ∉ (content ++ ['\x7d']) ++ ['\x7d'] := by simpa using hbrace
      rw [heq, List.append_assoc] at hcontent
      exact hcontent (List.mem_append_right _ hmem)
    refine (congrArg standalone? (List.append_cons here '\x7d' rest)).trans
      (standalone?_eq_none (fun before' here' heq' hne => ?_) fun hall => ?_)
    · obtain ⟨d, ds, rfl⟩ := List.exists_cons_of_ne_nil hne
      refine tag?_of_not_brace ?_ _
      rintro rfl
      exact hhere (heq' ▸ by simp)
    · exact absurd (hall '\x7d' (by simp)) (by decide)
  rw [hsource] at hnone ⊢
  refine (trimmedFrom_cons hnone).trans (congrArg ('\x7b' :: ·) ?_)
  refine (trimmedFrom_cons fun hstart => absurd hstart (by decide)).trans
    (congrArg ('\x7b' :: ·) ?_)
  have hlast (s : List Char) : (content ++ ['\x7d', '\x7d']) ++ s =
      (content ++ ['\x7d']) ++ '\x7d' :: s := by simp
  exact (congrArg (trimmedFrom false) (hlast rest)).trans (hthrough.trans (hlast _).symm)

theorem dropRight_cons_of_not_all (h : ¬ ∀ d ∈ c :: chars, isIndent d) :
    dropRight isIndent (c :: chars) = c :: dropRight isIndent chars := by
  rw [dropRight, dropRight, List.reverse_cons, List.dropWhile_append]
  split
  · rename_i hempty
    have hchars : ∀ d ∈ chars, isIndent d := by
      simpa [List.dropWhile_eq_nil_iff] using hempty
    have hc : isIndent c = false := by
      by_contra hc
      exact h (List.forall_mem_cons.mpr ⟨by simpa using hc, hchars⟩)
    rw [List.isEmpty_iff.mp hempty]
    simp [hc]
  · simp

theorem atLineStart_of_all (h : ∀ d ∈ chars, isIndent d) : atLineStart start chars = start := by
  rw [atLineStart, dropRight_eq_nil_iff.mpr h]
  rfl

theorem atLineStart_cons (h : ¬ ∀ d ∈ c :: chars, isIndent d) :
    atLineStart start (c :: chars) = atLineStart (c = '\n') chars := by
  rw [atLineStart, dropRight_cons_of_not_all h, atLineStart, List.getLast?_cons]
  cases (dropRight isIndent chars).getLast? <;> rfl

theorem standsAlone_iff : standsAlone start chars token rest = true ↔
    token.isBlockTag = true ∧ atLineStart start chars = true ∧
      ∃ line, lineEnd? rest = some line := by
  rw [standsAlone, Bool.and_eq_true, Bool.and_eq_true, Option.isSome_iff_exists, and_assoc]

theorem standalone?_of_standsAlone (htag : token.IsTag)
    (h : standsAlone start chars token rest = true) :
    standalone? (token.source.toList ++ rest) = some (token, (lineEnd? rest).getD rest) := by
  obtain ⟨hblock, -, line, hend⟩ := standsAlone_iff.mp h
  rw [standalone?_source htag, if_pos hblock, hend]
  rfl

theorem standalone?_of_not_standsAlone (htag : token.IsTag)
    (h : standsAlone start chars token rest = false) (hstart : atLineStart start chars = true) :
    standalone? (token.source.toList ++ rest) = none := by
  rw [standalone?_source htag]
  rw [standsAlone, hstart, Bool.and_true] at h
  split
  · rename_i hblock
    rw [hblock, Bool.true_and, Option.isSome_eq_false_iff, Option.isNone_iff_eq_none] at h
    rw [h]
    rfl
  · rfl

/-- **A text and the tag after it** are trimmed by what they look like, by induction on the text:
the line that the tag stands on starts at the last line break of the text. -/
theorem trimmedFrom_text (hfree : IsTagFree chars) (htag : token.IsTag) :
    trimmedFrom start (chars ++ (token.source.toList ++ rest)) =
      if standsAlone start chars token rest then
        dropRight isIndent chars ++
          (token.source.toList ++ trimmedFrom true ((lineEnd? rest).getD rest))
      else chars ++ (token.source.toList ++ trimmedFrom false rest) := by
  induction chars generalizing start with
  | nil =>
    cases halone : standsAlone start [] token rest with
    | true =>
      obtain ⟨-, hstart, -⟩ := standsAlone_iff.mp halone
      obtain rfl : start = true := hstart
      exact trimmedFrom_standalone (standalone?_of_standsAlone htag halone)
    | false =>
      exact trimmedFrom_source htag fun hstart =>
        standalone?_of_not_standsAlone htag halone hstart
  | cons c chars ih =>
    have hchars : IsTagFree chars := hfree.of_infix (List.suffix_cons c chars).isInfix
    have hnone : ∀ before here, c :: chars = before ++ here → here ≠ [] →
        tag? (here ++ (token.source.toList ++ rest)) = none := by
      intro before here heq hne
      obtain ⟨content, -, hsource⟩ := source_eq_braces htag
      refine tag?_of_isTagFree (hfree.of_infix (heq ▸ (List.suffix_append _ _).isInfix)) hne
        (.inr ⟨content ++ ['\x7d', '\x7d'] ++ rest, ?_⟩)
      rw [hsource]
      rfl
    by_cases hall : ∀ d ∈ c :: chars, isIndent d
    · -- Nothing but indentation stands before the tag.
      have hindent := standalone?_append hall (token.source.toList ++ rest)
      have hbreak : decide (c = '\n') = false := by
        rw [decide_eq_false_iff_not]
        rintro rfl
        exact absurd (hall _ List.mem_cons_self) (by decide)
      obtain ⟨-, htail⟩ := List.forall_mem_cons.mp hall
      cases halone : standsAlone start (c :: chars) token rest with
      | true =>
        obtain ⟨-, hstart, -⟩ := standsAlone_iff.mp halone
        rw [atLineStart_of_all hall] at hstart
        obtain rfl := hstart
        rw [standalone?_of_standsAlone htag halone] at hindent
        rw [trimmedFrom_standalone hindent, if_pos rfl, dropRight_eq_nil_iff.mpr hall]
        rfl
      | false =>
        refine (trimmedFrom_cons fun hstart => hindent.trans ?_).trans
          (congrArg (c :: ·) ((ih hchars).trans (if_neg ?_)))
        · exact standalone?_of_not_standsAlone htag halone
            ((atLineStart_of_all hall).trans hstart)
        · rw [hbreak, standsAlone, atLineStart_of_all htail]
          simp
    · have hstands : standsAlone start (c :: chars) token rest =
          standsAlone (c = '\n') chars token rest := by
        rw [standsAlone, atLineStart_cons hall, standsAlone]
      refine (trimmedFrom_cons fun _ => standalone?_eq_none hnone hall).trans ?_
      rw [hstands, dropRight_cons_of_not_all hall]
      refine (congrArg (c :: ·) (ih hchars)).trans ?_
      split <;> rfl

/-- A text that no tag follows stays as it is. -/
theorem trimmedFrom_last (h : IsTagFree chars) : trimmedFrom start chars = chars := by
  induction chars generalizing start with
  | nil => rfl
  | cons c chars ih =>
    have hnone : standalone? (c :: chars) = none := by
      cases hfound : standalone? (c :: chars) with
      | none => rfl
      | some found =>
        obtain ⟨tag, rest⟩ := found
        obtain ⟨-, after, hread, -⟩ := standalone?_some hfound
        obtain ⟨htag, hsource⟩ := tag?_some hread
        have hstart := List.prefix_append tag.source.toList after
        rw [← hsource] at hstart
        exact absurd (hstart.isInfix.trans (List.dropWhile_suffix isIndent).isInfix) (h tag htag)
    rw [trimmedFrom_cons fun _ => hnone]
    rw [ih (h.of_infix (List.suffix_cons c chars).isInfix)]

/-- Behind a line break a line starts, whatever came before it. -/
theorem atLineStart_append (before chars : List Char) :
    atLineStart start (before ++ '\n' :: chars) = atLineStart true chars := by
  induction before generalizing start with
  | nil => exact atLineStart_cons fun hall => absurd (hall _ List.mem_cons_self) (by decide)
  | cons d before ih =>
    refine (atLineStart_cons fun hall => ?_).trans ih
    exact absurd (hall '\n' (by simp)) (by decide)

/-- The rest of a text behind a line end starts a line. -/
theorem trimmedTags_of_lineEnd (h : lineEnd? chars = some rest) :
    trimmedTags false true chars tags = trimmedTags true false rest tags := by
  have htext (alone : Bool) : trimmedText true alone chars = trimmedText false alone rest := by
    rw [trimmedText, if_pos rfl, h]
    rfl
  cases tags with
  | nil => rw [trimmedTags, trimmedTags, htext]
  | cons pair tags =>
    obtain ⟨tag, after⟩ := pair
    have hstart : atLineStart false chars = atLineStart true rest := by
      obtain ⟨blanks, ending, rfl, -, rfl | rfl⟩ := lineEnd?_some h
      · rw [List.append_assoc]
        exact atLineStart_append blanks rest
      · rw [List.append_assoc]
        exact (congrArg (atLineStart false) (List.append_cons blanks '\r' _)).trans
          (atLineStart_append _ rest)
    have hstands : standsAlone false chars tag after = standsAlone true rest tag after := by
      rw [standsAlone, hstart, standsAlone]
    rw [trimmedTags, trimmedTags, hstands, htext]

/-- A line does not end in the tag that follows a text. -/
theorem lineEnd?_append (hrest : rest = [] ∨ ∃ s, rest = '\x7b' :: '\x7b' :: s) :
    lineEnd? (chars ++ rest) = (lineEnd? chars).map (· ++ rest) := by
  rcases hrest with rfl | ⟨s, rfl⟩
  · simp
  · have hdrop : (chars ++ '\x7b' :: '\x7b' :: s).dropWhile isIndent =
        chars.dropWhile isIndent ++ '\x7b' :: '\x7b' :: s := by
      rw [List.dropWhile_append]
      split
      · rename_i hempty
        rw [List.isEmpty_iff.mp hempty]
        rfl
      · rfl
    unfold lineEnd?
    rw [show (fun c : Char => (c = ' ' || c = '\t' : Bool)) = isIndent from rfl, hdrop]
    rcases chars.dropWhile isIndent with _ | ⟨c, _ | ⟨d, left⟩⟩
    · rfl
    · by_cases hbreak : c = '\n'
      · rw [hbreak]
        rfl
      · by_cases hreturn : c = '\r'
        · rw [hreturn]
          rfl
        · simp [hbreak]
    · by_cases hbreak : c = '\n'
      · rw [hbreak]
        rfl
      · by_cases hreturn : c = '\r'
        · rw [hreturn]
          by_cases hsecond : d = '\n'
          · rw [hsecond]
            rfl
          · simp [hsecond]
        · simp [hbreak, hreturn]

theorem spelling_textTokens (chars : List Char) (a : List Token) :
    spelling (textTokens chars ++ a) = chars ++ spelling a := by
  by_cases hne : chars = []
  · rw [textTokens, if_pos hne, hne]
    rfl
  · rw [textTokens_of_ne_nil hne]
    exact spelling_text chars a

/-- **Trimming** makes of a layout what it leaves of its texts, by induction on the tags. -/
theorem trimmedFrom_layout (hchars : IsTagFree chars) (htags : ClearTags tags) :
    trimmedFrom start (spelling (textTokens chars ++ tagTokens tags)) =
      spelling (trimmedTags start false chars tags).tokens := by
  induction tags generalizing start chars with
  | nil =>
    rw [trimmedTags, Layout.tokens, spelling_textTokens, spelling_textTokens]
    exact (congrArg (trimmedFrom start) (List.append_nil chars)).trans
      ((trimmedFrom_last hchars).trans (List.append_nil chars).symm)
  | cons pair tags ih =>
    obtain ⟨tag, after⟩ := pair
    obtain ⟨⟨htag, hafter⟩, htags⟩ := List.forall_mem_cons.mp htags
    have hend : lineEnd? (spelling (textTokens after ++ tagTokens tags)) =
        (lineEnd? after).map (· ++ spelling (tagTokens tags)) := by
      rw [spelling_textTokens]
      exact lineEnd?_append (spelling_tagTokens htags)
    have hstands : standsAlone start chars tag (spelling (textTokens after ++ tagTokens tags)) =
        standsAlone start chars tag after := by
      rw [standsAlone, hend, Option.isSome_map, standsAlone]
    rw [trimmedTags, Layout.tokens, spelling_textTokens, spelling_textTokens, tagTokens_cons,
      tagTokens_cons, spelling_cons, spelling_cons, trimmedFrom_text hchars htag, hstands]
    cases halone : standsAlone start chars tag after with
    | true =>
      obtain ⟨-, -, line, hline⟩ := standsAlone_iff.mp halone
      obtain ⟨blanks, ending, heq, -, -⟩ := lineEnd?_some hline
      have hfree : IsTagFree line := hafter.of_infix (heq ▸ (List.suffix_append _ _).isInfix)
      have hrest : trimmedFrom true (spelling (textTokens line ++ tagTokens tags)) =
          spelling (trimmedTags true false line tags).tokens := ih hfree htags
      rw [spelling_textTokens] at hrest
      rw [if_pos rfl, hend, hline, Option.map_some, Option.getD_some, hrest,
        ← trimmedTags_of_lineEnd hline]
      rfl
    | false =>
      rw [if_neg (by simp), ih hafter htags]
      rfl

/-- **Trimming a template** takes away only what stands around the tags that stand alone. -/
theorem tokens_trimBlockLines (template : String) :
    tokens (trimBlockLines template) = (layoutOf (tokens template)).trimmed.tokens := by
  obtain ⟨htokens, hclear⟩ := layoutOf_spec (lexical_tokens template)
  refine tokens_of_lexical hclear.trimmed.lexical ?_
  have hwalk : trimmedFrom true (spelling (layoutOf (tokens template)).tokens) =
      spelling (layoutOf (tokens template)).trimmed.tokens :=
    trimmedFrom_layout hclear.head hclear.tags
  rw [← hwalk, htokens, spelling_tokens, trimBlockLines, String.toList_ofList]
  rfl

end Walk

section Parse
variable {layout : Layout}

theorem tagsOf_textTokens (chars : List Char) (a : List Token) :
    tagsOf (textTokens chars ++ a) = tagsOf a := by
  by_cases hne : chars = []
  · rw [textTokens, if_pos hne]
    rfl
  · rw [textTokens_of_ne_nil hne]
    rfl

theorem Layout.Clear.tagsOf_tokens (h : layout.Clear) :
    tagsOf layout.tokens = layout.tags.map Prod.fst := by
  obtain ⟨head, tags⟩ := layout
  obtain ⟨-, htags⟩ := h
  dsimp only at htags ⊢
  rw [Layout.tokens, tagsOf_textTokens]
  induction tags with
  | nil => rfl
  | cons pair tags ih =>
    obtain ⟨tag, after⟩ := pair
    obtain ⟨⟨htag, -⟩, htags⟩ := List.forall_mem_cons.mp htags
    rw [tagTokens_cons, tagsOf_cons htag.ne_text, tagsOf_textTokens]
    exact congrArg (tag :: ·) (ih htags)

theorem tagsOf_trimBlockLines (template : String) :
    tagsOf (tokens (trimBlockLines template)) = tagsOf (tokens template) := by
  obtain ⟨htokens, hclear⟩ := layoutOf_spec (lexical_tokens template)
  have htags := hclear.tagsOf_tokens
  rw [htokens] at htags
  rw [tokens_trimBlockLines, hclear.trimmed.tagsOf_tokens, htags]
  exact map_fst_trimmedTags

/-- **Trimming changes only blanks.** The tags are the same ones in the same order; so the template
is read exactly when it is read as it stands, with the same blocks and variables in the same places,
and otherwise refused with the same failure. The texts between the tags are the same ones, less the
indentation before each block tag that stood alone on its line, and the blanks and the line break
after it. -/
theorem trimBlockLines_spec (template : String) :
    tagsOf (tokens (trimBlockLines template)) = tagsOf (tokens template) ∧
    (∀ limit, (parse limit true template).map Node.outlineOf =
      (parse limit false template).map Node.outlineOf) ∧
    layoutOf (tokens (trimBlockLines template)) = (layoutOf (tokens template)).trimmed := by
  refine ⟨tagsOf_trimBlockLines template, fun limit => ?_, ?_⟩
  · change (treeOf limit (tokens (trimBlockLines template))).map Node.outlineOf =
      (treeOf limit (tokens template)).map Node.outlineOf
    rw [outline_treeOf, outline_treeOf, tagsOf_trimBlockLines]
  · obtain ⟨-, hclear⟩ := layoutOf_spec (lexical_tokens template)
    rw [tokens_trimBlockLines, layoutOf_tokens hclear.trimmed]

end Parse

end SpecDraft.Template
