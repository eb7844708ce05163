import SpecDraft.Proofs.Action
import SpecDraft.Proofs.Template.Token
import SpecDraft.Template.Tree

/-!
# Writing templates

A tree can be written as tokens, and tokens as a text. Reading takes both steps back: a text has
one reading only (`lexical_unique`), and the tokens of a tree build that tree as long as it is not
too deep (`treeOf_tokens`). Between the two, lines that hold nothing but a block tag lose the rest
of the line (`trimBlockLines_lines`).
-/
set_option autoImplicit false

namespace SpecDraft.Text

theorem exists_of_inRanges {ranges : List (Nat × Nat)} {n : Nat} (h : inRanges ranges n = true) :
    ∃ range ∈ ranges, range.1 ≤ n ∧ n ≤ range.2 := by
  induction ranges with
  | nil => cases h
  | cons range ranges ih =>
    rw [inRanges] at h
    split at h
    · cases h
    split at h
    · exact ⟨range, List.mem_cons_self, by omega, by omega⟩
    · obtain ⟨other, hmem, hother⟩ := ih h
      exact ⟨other, List.mem_cons_of_mem range hmem, hother⟩

/-- A character of a word is no blank. -/
theorem not_isBlank_of_isWord {c : Char} (h : isWord c = true) : isBlank c = false := by
  have hdisjoint : ∀ range ∈ blankRanges, ∀ n ∈ List.range' range.1 (range.2 + 1 - range.1),
      (if n < 0x3000 then inRanges wordRangesLow n else inRanges wordRangesHigh n) = false := by
    decide +kernel
  rw [Bool.eq_false_iff]
  intro hblank
  obtain ⟨range, hmem, hle, hge⟩ := exists_of_inRanges hblank
  have hnot := hdisjoint range hmem c.toNat (List.mem_range'_1.mpr ⟨hle, by omega⟩)
  rw [isWord, hnot] at h
  cases h

end SpecDraft.Text

namespace SpecDraft.Template

open Text

/-! ## Reading a tag -/

section Tags
variable {name gap keyword : String} {rest : List Char}

theorem after?_cons_ne {p c : Char} (h : p ≠ c) (pattern text : List Char) :
    after? (p :: pattern) (c :: text) = none := if_neg h

/-- The run of characters of a class that starts a text ends where another character follows. -/
theorem takeWhile_run {p : Char → Bool} {run : List Char} {c : Char} (h : ∀ c ∈ run, p c = true)
    (hc : p c = false) (rest : List Char) :
    (run ++ c :: rest).takeWhile p = run ∧ (run ++ c :: rest).dropWhile p = c :: rest := by
  rw [List.takeWhile_append_of_pos h, List.dropWhile_append_of_pos h]
  simp [hc]

theorem word?_append (h : IsWord name) (rest : List Char) :
    word? (name.toList ++ '\x7d' :: rest) = some (name, '\x7d' :: rest) := by
  obtain ⟨htake, hdrop⟩ := takeWhile_run h.2 (show isWord '\x7d' = false by decide) rest
  have hne : name.toList.isEmpty = false := by simpa using h.1
  simp [word?, htake, hdrop, hne]

theorem IsWord.exists_cons (h : IsWord name) :
    ∃ c cs, name.toList = c :: cs ∧ isWord c = true := by
  obtain ⟨c, cs, hcons⟩ := List.exists_cons_of_ne_nil (l := name.toList) (by simpa using h.1)
  exact ⟨c, cs, hcons, h.2 c (by simp [hcons])⟩

theorem opening?_append (hgap : IsGap gap) (hname : IsWord name) (keyword : String)
    (rest : List Char) :
    opening? keyword (keyword.toList ++ (gap.toList ++ (name.toList ++ '\x7d' :: rest))) =
      some (gap, name, '\x7d' :: rest) := by
  obtain ⟨c, cs, hcons, hc⟩ := hname.exists_cons
  obtain ⟨htake, hdrop⟩ := takeWhile_run hgap.2 (not_isBlank_of_isWord hc) (cs ++ '\x7d' :: rest)
  rw [← List.cons_append, ← hcons] at htake hdrop
  have hne : gap.toList.isEmpty = false := by simpa using hgap.1
  have hafter := Text.after?_some.mpr
    (Eq.refl (keyword.toList ++ (gap.toList ++ (name.toList ++ '\x7d' :: rest))))
  simp only [opening?, hafter, Option.bind_eq_bind, Option.bind_some, htake, hdrop, hne,
    word?_append hname]
  simp

/-- A word is not taken for a keyword. -/
theorem tagContent?_ref (hname : IsWord name) (helse : name ≠ "else") (rest : List Char) :
    tagContent? (name.toList ++ '\x7d' :: rest) = some (.ref name, '\x7d' :: rest) := by
  obtain ⟨c, cs, hcons, hc⟩ := hname.exists_cons
  have hkeyword {p : Char} (hp : isWord p = false) (pattern : List Char) :
      after? (p :: pattern) (name.toList ++ '\x7d' :: rest) = none := by
    rw [hcons, List.cons_append]
    refine after?_cons_ne ?_ _ _
    rintro rfl
    exact absurd hc (by simp [hp])
  have hsign : isWord '#' = false := by decide
  have hslash : isWord '/' = false := by decide
  simp only [tagContent?, opening?, show "#each".toList = '#' :: "each".toList from rfl,
    show "#if".toList = '#' :: "if".toList from rfl,
    show "/if".toList = '/' :: "if".toList from rfl,
    show "/each".toList = '/' :: "each".toList from rfl, hkeyword hsign, hkeyword hslash,
    word?_append hname]
  simp [helse]

/-- **A tag is read** where its token is written, whatever follows it. -/
theorem tag?_source {token : Token} (h : token.IsTag) (rest : List Char) :
    tag? (token.source.toList ++ rest) = some (token, rest) := by
  -- It is enough to read what stands between the braces.
  have hbraced {content : String} (hcontent :
      tagContent? (content.toList ++ '\x7d' :: '\x7d' :: rest) =
        some (token, '\x7d' :: '\x7d' :: rest)) :
      tag? ((braced content).toList ++ rest) = some (token, rest) := by
    have hafter : after? openBraces.toList ((braced content).toList ++ rest) =
        some (content.toList ++ '\x7d' :: '\x7d' :: rest) :=
      Text.after?_some.mpr (by simp [braced, closeBraces])
    rw [tag?, hafter]
    simp only [Option.bind_eq_bind, Option.bind_some, hcontent]
    rfl
  cases token with
  | text chars => cases h
  | ref name => exact hbraced (tagContent?_ref h.1 h.2 _)
  | each gap name =>
    refine hbraced ?_
    rw [String.toList_append, String.toList_append, List.append_assoc, List.append_assoc,
      tagContent?, opening?_append h.1 h.2]
  | choice gap name =>
    refine hbraced ?_
    rw [String.toList_append, String.toList_append, List.append_assoc, List.append_assoc,
      tagContent?, opening?_append h.1 h.2]
    rfl
  | otherwise => exact hbraced rfl
  | endChoice => exact hbraced rfl
  | endEach => exact hbraced rfl

end Tags

/-! ## The one reading of a text -/

section Reading
variable {a b : List Token} {s rest here : List Char} {token : Token}

/-- Where a tag can be read, lexical tokens that make up the text start with it. -/
theorem Lexical.head_of_tag? (h : Lexical a) (htag : tag? (spelling a) = some (token, rest)) :
    ∃ tokens, a = token :: tokens ∧ spelling tokens = rest ∧ Lexical tokens := by
  cases a with
  | nil => cases htag
  | cons first tokens =>
    cases first with
    | text chars =>
      obtain ⟨hne, -, hnone, -⟩ := h
      rw [spelling_text] at htag
      have hstart := hnone [] chars rfl hne
      rw [htag] at hstart
      cases hstart
    | _ =>
      obtain ⟨-, hread, hrest⟩ := h
      rw [spelling_cons, hread] at htag
      cases htag
      exact ⟨tokens, rfl, rfl, hrest⟩

/-- Lexical tokens without a text in front start with a tag, or make up nothing. -/
theorem Lexical.exists_tag? (h : Lexical a) (hhead : ∀ other, a.head? ≠ some (.text other))
    (hne : spelling a ≠ []) : tag? (spelling a) ≠ none := by
  cases a with
  | nil => exact absurd rfl hne
  | cons first tokens =>
    cases first with
    | text chars => exact absurd rfl (hhead chars)
    | _ =>
      obtain ⟨-, hread, -⟩ := h
      rw [spelling_cons, hread]
      exact Option.some_ne_none _

/-- A text does not go on where another reading has ended it. -/
theorem text_eq_of_prefix {chars more : List Char} (ha : Lexical (.text chars :: a))
    (hb : Lexical (.text (chars ++ more) :: b)) (h : spelling a = more ++ spelling b) :
    more = [] := by
  obtain ⟨-, hhead, -, hrest⟩ := ha
  obtain ⟨-, -, hnone, -⟩ := hb
  by_contra hmore
  have hstart := hnone chars more rfl hmore
  rw [← h] at hstart
  refine hrest.exists_tag? hhead ?_ hstart
  rw [h]
  simp [hmore]

/-- Lexical tokens that make up nothing are none. -/
theorem Lexical.eq_nil (h : Lexical a) (hempty : spelling a = []) : a = [] := by
  cases a with
  | nil => rfl
  | cons first tokens =>
    exfalso
    cases first with
    | text chars =>
      rw [spelling_text] at hempty
      exact h.1 (List.append_eq_nil_iff.mp hempty).1
    | _ =>
      rw [spelling_cons] at hempty
      exact source_ne_nil h.1 (List.append_eq_nil_iff.mp hempty).1

/-- Where no tag can be read, lexical tokens that make up the text start with a text. -/
theorem Lexical.head_of_no_tag (h : Lexical a) (hne : spelling a ≠ [])
    (hnone : tag? (spelling a) = none) : ∃ chars tokens, a = .text chars :: tokens := by
  by_contra hhead
  refine h.exists_tag? (fun chars hchars => hhead ?_) hne hnone
  obtain ⟨tokens, rfl⟩ := List.head?_eq_some_iff.mp hchars
  exact ⟨chars, tokens, rfl⟩

/-- Two readings of a text that start with texts start with the same one. -/
theorem text_unique {chars chars' : List Char} (ha : Lexical (.text chars :: a))
    (hb : Lexical (.text chars' :: b)) (h : chars ++ spelling a = chars' ++ spelling b) :
    chars = chars' ∧ spelling a = spelling b := by
  rcases List.append_eq_append_iff.mp h with ⟨more, rfl, hrest⟩ | ⟨more, rfl, hrest⟩
  · obtain rfl := text_eq_of_prefix ha hb hrest
    exact ⟨(List.append_nil _).symm, hrest⟩
  · obtain rfl := text_eq_of_prefix hb ha hrest
    exact ⟨List.append_nil _, hrest.symm⟩

/-- **A text has one reading**: lexical tokens are determined by the text they make up. -/
theorem lexical_unique (ha : Lexical a) (hb : Lexical b) (h : spelling a = spelling b) : a = b := by
  induction a generalizing b with
  | nil => exact (hb.eq_nil h.symm).symm
  | cons first tokens ih =>
    cases first with
    | text chars =>
      have hall := ha
      obtain ⟨hne, -, hnone, htokens⟩ := ha
      -- The other reading starts with a text too, for no tag stands there.
      have hstart := hnone [] chars rfl hne
      rw [← spelling_text, h] at hstart
      have hmade : spelling b ≠ [] := by
        rw [← h, spelling_text]
        exact List.append_ne_nil_of_left_ne_nil hne _
      obtain ⟨chars', tokens', rfl⟩ := hb.head_of_no_tag hmade hstart
      rw [spelling_text, spelling_text] at h
      obtain ⟨rfl, hrest⟩ := text_unique hall hb h
      obtain ⟨-, -, -, htokens'⟩ := hb
      rw [ih htokens htokens' hrest]
    | _ =>
      obtain ⟨-, hread, htokens⟩ := ha
      rw [← spelling_cons, h] at hread
      obtain ⟨tokens', rfl, hrest, htokens'⟩ := hb.head_of_tag? hread
      rw [ih htokens htokens' hrest.symm]

theorem tokens_of_lexical {template : String} (ha : Lexical a)
    (h : spelling a = template.toList) : tokens template = a :=
  lexical_unique (lexical_tokens template) ha ((spelling_tokens template).trans h.symm)

instance (name : String) : Decidable (IsWord name) :=
  decidable_of_iff (name ≠ "" ∧ name.toList.all isWord) (and_congr_right' List.all_eq_true)

instance (gap : String) : Decidable (IsGap gap) :=
  decidable_of_iff (gap ≠ "" ∧ gap.toList.all isBlank) (and_congr_right' List.all_eq_true)

instance : (token : Token) → Decidable token.IsTag
  | .text _ => isFalse id
  | .ref name => inferInstanceAs (Decidable (IsWord name ∧ name ≠ "else"))
  | .each gap name | .choice gap name => inferInstanceAs (Decidable (IsGap gap ∧ IsWord name))
  | .otherwise | .endChoice | .endEach => isTrue trivial

/-- Whether tokens start with a text. -/
def startsWithText : List Token → Bool
  | .text _ :: _ => true
  | _ => false

/-- Whether tokens can be told apart at a glance: tags are tags, and texts are not empty, hold no
opening brace and do not follow one another. -/
def isPlain : List Token → Bool
  | [] => true
  | .text chars :: rest =>
    !chars.isEmpty && !chars.contains '\x7b' && !startsWithText rest && isPlain rest
  | token :: rest => decide token.IsTag && isPlain rest

theorem tag?_of_not_brace {c : Char} (h : '\x7b' ≠ c) (s : List Char) : tag? (c :: s) = none := by
  rw [tag?, show openBraces.toList = '\x7b' :: ['\x7b'] from rfl, after?_cons_ne h]
  rfl

theorem lexical_of_plain (h : isPlain a = true) : Lexical a := by
  induction a with
  | nil => trivial
  | cons token tokens ih =>
    cases token with
    | text chars =>
      simp only [isPlain, Bool.and_eq_true, Bool.not_eq_true', List.isEmpty_eq_false_iff,
        List.contains_eq_mem, decide_eq_false_iff_not] at h
      obtain ⟨⟨⟨hne, hbrace⟩, htext⟩, htokens⟩ := h
      refine ⟨hne, fun other hother => ?_, fun before here heq hhere => ?_, ih htokens⟩
      · obtain ⟨rest, rfl⟩ := List.head?_eq_some_iff.mp hother
        cases htext
      · obtain ⟨c, here, rfl⟩ := List.exists_cons_of_ne_nil hhere
        refine tag?_of_not_brace ?_ _
        rintro rfl
        exact hbrace (by simp [heq])
    | _ =>
      obtain ⟨htag, htokens⟩ := Bool.and_eq_true_iff.mp h
      have htag := of_decide_eq_true htag
      exact ⟨htag, tag?_source htag _, ih htokens⟩

end Reading

/-! ## Lines -/

/-- The text of lines of tokens. -/
def linesText (lines : List (List Token)) : List Char :=
  lines.flatMap fun line => spelling line ++ ['\n']

/-- Whether a line is a block tag and nothing else. -/
def isAlone : List Token → Bool
  | [token] => token.isBlockTag
  | _ => false

/-- What trimming leaves of a line. -/
def trimmedLine (line : List Token) : List Char :=
  if isAlone line then spelling line else spelling line ++ ['\n']

/-- Whether a line shows where it starts what becomes of it: it is a tag and nothing else, or it is
empty, or it starts with a text that starts with no blank and no brace. -/
def plainStart : List Token → Bool
  | [] => true
  | .text [] :: _ => false
  | .text (c :: _) :: _ => c != ' ' && c != '\t' && c != '\x7b'
  | token :: rest => decide token.IsTag && rest.isEmpty

/-- Whether a line shows where it starts what becomes of it, and is a single line. -/
def isPlainLine (line : List Token) : Bool := plainStart line && !(spelling line).contains '\n'

section Lines
variable {line : List Token} {lines : List (List Token)} {token : Token} {s rest : List Char}
  {fuel : Nat}

theorem source_eq_cons (h : token.IsTag) : ∃ tail, token.source.toList = '\x7b' :: tail := by
  have hbraced (content : String) : ∃ tail, (braced content).toList = '\x7b' :: tail :=
    ⟨_, by rw [braced, String.toList_append, String.toList_append]; rfl⟩
  cases token with
  | text chars => cases h
  | _ => exact hbraced _

theorem standalone?_of_start {c : Char} (hspace : c ≠ ' ') (htab : c ≠ '\t') (s : List Char) :
    standalone? (c :: s) = (tag? (c :: s)).bind fun (token, rest) =>
      if token.isBlockTag then (lineEnd? rest).bind fun rest => some (token, rest) else none := by
  rw [standalone?, List.dropWhile_cons_of_neg (by simp [hspace, htab])]
  rfl

/-- A tag on a line of its own is taken out of the line if it is a block tag. -/
theorem standalone?_tag (h : token.IsTag) (rest : List Char) :
    standalone? (token.source.toList ++ '\n' :: rest) =
      if token.isBlockTag then some (token, rest) else none := by
  have htag := tag?_source h ('\n' :: rest)
  obtain ⟨tail, htail⟩ := source_eq_cons h
  rw [htail, List.cons_append] at htag ⊢
  rw [standalone?_of_start (by decide) (by decide), htag]
  rfl

/-- A line that is no block tag is left as it is. -/
theorem standalone?_of_plain (h : plainStart line = true) (halone : isAlone line = false)
    (rest : List Char) : standalone? (spelling line ++ '\n' :: rest) = none := by
  cases line with
  | nil =>
    refine (standalone?_of_start (by decide) (by decide) rest).trans ?_
    rw [tag?_of_not_brace (by decide)]
    rfl
  | cons token tokens =>
    cases token with
    | text chars =>
      cases chars with
      | nil => cases h
      | cons c cs =>
        simp only [plainStart, Bool.and_eq_true, bne_iff_ne] at h
        obtain ⟨⟨hspace, htab⟩, hbrace⟩ := h
        rw [spelling_text, List.cons_append, List.cons_append, standalone?_of_start hspace htab,
          tag?_of_not_brace hbrace.symm]
        rfl
    | _ =>
      simp only [plainStart, Bool.and_eq_true, decide_eq_true_iff, List.isEmpty_iff] at h
      obtain ⟨htag, rfl⟩ := h
      rw [spelling_cons, show spelling [] = [] from rfl, List.append_nil, standalone?_tag htag,
        if_neg (by simpa [isAlone] using halone)]

/-- A line that is left as it is goes through character by character. -/
theorem trimmedWithin_line (hs : '\n' ∉ s) {start : Bool}
    (hstart : start = true → standalone? (s ++ '\n' :: rest) = none) :
    trimmedWithin (s.length + 1 + fuel) start (s ++ '\n' :: rest) =
      s ++ '\n' :: trimmedWithin fuel true rest := by
  have hnone : (if start then standalone? (s ++ '\n' :: rest) else none) = none := by
    split
    · exact hstart ‹_›
    · rfl
  induction s generalizing start with
  | nil =>
    rw [List.length_nil, Nat.zero_add, Nat.add_comm, List.nil_append, trimmedWithin]
    rw [List.nil_append] at hnone
    rw [hnone]
    rfl
  | cons c s ih =>
    obtain ⟨hc, hs⟩ := List.ne_and_not_mem_of_not_mem_cons hs
    rw [List.length_cons, show s.length + 1 + 1 + fuel = s.length + 1 + fuel + 1 by omega,
      List.cons_append, trimmedWithin]
    rw [List.cons_append] at hnone
    rw [hnone]
    simp only [Ne.symm hc, decide_false]
    rw [ih hs (fun h => (by cases h)) rfl, List.cons_append]

theorem trimmedWithin_alone (h : token.IsTag) (hblock : token.isBlockTag = true) :
    trimmedWithin (fuel + 1) true (token.source.toList ++ '\n' :: rest) =
      token.source.toList ++ trimmedWithin fuel true rest := by
  have hstandalone := standalone?_tag h rest
  rw [if_pos hblock] at hstandalone
  obtain ⟨tail, htail⟩ := source_eq_cons h
  rw [htail, List.cons_append] at hstandalone
  rw [htail, List.cons_append, trimmedWithin, if_pos rfl, hstandalone]
  dsimp only
  rw [htail]

theorem trimmedWithin_lines (h : lines.all isPlainLine = true)
    (hfuel : (linesText lines).length ≤ fuel) :
    trimmedWithin fuel true (linesText lines) = lines.flatMap trimmedLine := by
  induction lines generalizing fuel with
  | nil => cases fuel <;> rfl
  | cons line lines ih =>
    simp only [List.all_cons, isPlainLine, Bool.and_eq_true, Bool.not_eq_true',
      List.contains_eq_mem, decide_eq_false_iff_not] at h
    obtain ⟨⟨hplain, hline⟩, hlines⟩ := h
    have htext : linesText (line :: lines) = spelling line ++ '\n' :: linesText lines := by
      simp [linesText]
    rw [htext, List.length_append, List.length_cons] at hfuel
    rw [htext, List.flatMap_cons, trimmedLine]
    cases halone : isAlone line with
    | false =>
      obtain ⟨more, rfl⟩ := Nat.exists_eq_add_of_le
        (show (spelling line).length + 1 ≤ fuel by omega)
      rw [trimmedWithin_line hline fun _ => standalone?_of_plain hplain halone _,
        ih hlines (by omega)]
      simp
    | true =>
      obtain ⟨token, rfl⟩ : ∃ token, line = [token] := by
        unfold isAlone at halone
        split at halone
        · exact ⟨_, rfl⟩
        · cases halone
      have htag : token.IsTag := by
        cases token with
        | text | ref => cases halone
        | _ => simpa [plainStart] using hplain
      rw [spelling_cons, show spelling [] = [] from rfl, List.append_nil] at hfuel ⊢
      obtain ⟨fuel, rfl⟩ := Nat.exists_eq_add_of_le' (show 1 ≤ fuel by omega)
      have hsource := List.length_pos_iff.mpr (source_ne_nil htag)
      rw [trimmedWithin_alone htag halone, ih hlines (by omega), if_pos rfl]

/-- **Lines are trimmed one by one.** -/
theorem trimBlockLines_lines {template : String} (htext : template.toList = linesText lines)
    (h : lines.all isPlainLine = true) :
    (trimBlockLines template).toList = lines.flatMap trimmedLine := by
  rw [trimBlockLines, String.toList_ofList, htext]
  exact trimmedWithin_lines h (Nat.le_refl _)

end Lines

/-! ## The tokens of a tree -/

namespace Node

mutual

/-- The tokens that a node is written as. -/
def tokens : Node → List Token
  | text chars => [.text chars.toList]
  | ref name => [.ref name]
  | choice name yes no => .choice " " name :: (tokensOf yes ++ (tokensOfElse no ++ [.endChoice]))
  | loop name body => .each " " name :: (tokensOf body ++ [.endEach])

/-- The tokens of nodes, one after the other. -/
def tokensOf : List Node → List Token
  | [] => []
  | node :: nodes => node.tokens ++ tokensOf nodes

/-- The tokens of the second branch of a choice, with the division before it. -/
def tokensOfElse : Option (List Node) → List Token
  | none => []
  | some nodes => .otherwise :: tokensOf nodes

end

mutual

/-- How many blocks of a node stand within one another. -/
def depth : Node → Nat
  | text _ | ref _ => 0
  | choice _ yes no => max (depthOf yes) (depthOfElse no) + 1
  | loop _ body => depthOf body + 1

/-- How many blocks of some nodes stand within one another. -/
def depthOf : List Node → Nat
  | [] => 0
  | node :: nodes => max node.depth (depthOf nodes)

/-- How many blocks of the second branch of a choice stand within one another. -/
def depthOfElse : Option (List Node) → Nat
  | none => 0
  | some nodes => depthOf nodes

end

end Node

section Tree
variable {limit : Int} {frames : List Frame} {before : List Node} {builder next : Builder}
  {token : Token} {a b : List Token}

theorem run_cons (h : builder.step limit token = .ok next) :
    (token :: a).foldlM (Builder.step limit) builder = a.foldlM (Builder.step limit) next := by
  rw [List.foldlM_cons, h]
  rfl

theorem run_append (h : a.foldlM (Builder.step limit) builder = .ok next) :
    (a ++ b).foldlM (Builder.step limit) builder = b.foldlM (Builder.step limit) next := by
  rw [List.foldlM_append, h]
  rfl

/-- A block is opened as long as the limit allows for one more. -/
theorem opened_of_le (h : (frames.length + 1 : Nat) ≤ limit) (block : OpenBlock) :
    Builder.opened limit ⟨frames, before⟩ block = .ok ⟨⟨block, before⟩ :: frames, []⟩ := by
  rw [Builder.opened, if_neg (by dsimp only; omega)]

mutual

/-- **A node is built** from its tokens, and put after those that are there. -/
theorem run_tokens (node : Node) (frames : List Frame) (before : List Node)
    (h : (frames.length + node.depth : Nat) ≤ limit) :
    node.tokens.foldlM (Builder.step limit) ⟨frames, before⟩ = .ok ⟨frames, node :: before⟩ := by
  cases node with
  | text chars =>
    refine (run_cons rfl).trans ?_
    rw [String.ofList_toList]
    rfl
  | ref name => rfl
  | loop name body =>
    rw [Node.depth] at h
    have hopened : Builder.step limit ⟨frames, before⟩ (.each " " name) =
        .ok ⟨⟨.loop name, before⟩ :: frames, []⟩ := opened_of_le (by omega) (.loop name)
    have hbody := run_tokensOf body (⟨.loop name, before⟩ :: frames) []
      (by rw [List.length_cons]; omega)
    refine (run_cons hopened).trans ((run_append hbody).trans ((run_cons rfl).trans ?_))
    rw [List.append_nil, List.reverse_reverse]
    rfl
  | choice name yes no =>
    rw [Node.depth] at h
    have hopened : Builder.step limit ⟨frames, before⟩ (.choice " " name) =
        .ok ⟨⟨.choice name, before⟩ :: frames, []⟩ := opened_of_le (by omega) (.choice name)
    have hyes := run_tokensOf yes (⟨.choice name, before⟩ :: frames) []
      (by rw [List.length_cons]; omega)
    refine (run_cons hopened).trans ((run_append hyes).trans ?_)
    rw [List.append_nil]
    cases no with
    | none =>
      refine (run_cons rfl).trans ?_
      rw [List.reverse_reverse]
      rfl
    | some no =>
      rw [Node.depthOfElse] at h
      have hno := run_tokensOf no (⟨.otherwise name yes, before⟩ :: frames) []
        (by rw [List.length_cons]; omega)
      have hdivided : Builder.step limit ⟨⟨.choice name, before⟩ :: frames, yes.reverse⟩
          .otherwise = .ok ⟨⟨.otherwise name yes, before⟩ :: frames, []⟩ := by
        rw [Builder.step, Builder.divided, List.reverse_reverse]
      refine (run_cons hdivided).trans ((run_append hno).trans ((run_cons rfl).trans ?_))
      rw [List.append_nil, List.reverse_reverse]
      rfl

/-- Nodes are built one after the other. -/
theorem run_tokensOf (nodes : List Node) (frames : List Frame) (before : List Node)
    (h : (frames.length + Node.depthOf nodes : Nat) ≤ limit) :
    (Node.tokensOf nodes).foldlM (Builder.step limit) ⟨frames, before⟩ =
      .ok ⟨frames, nodes.reverse ++ before⟩ := by
  cases nodes with
  | nil => rfl
  | cons node nodes =>
    rw [Node.depthOf] at h
    have hnode := run_tokens node frames before (by omega)
    have hnodes := run_tokensOf nodes frames (node :: before) (by omega)
    refine (run_append hnode).trans (hnodes.trans ?_)
    rw [List.reverse_cons, List.append_assoc, List.singleton_append]

end

/-- **The tokens of a tree** build the tree, as long as the limit allows for its depth. -/
theorem treeOf_tokens (nodes : List Node) (h : (Node.depthOf nodes : Int) ≤ limit) :
    treeOf limit (Node.tokensOf nodes) = .ok nodes := by
  rw [treeOf, Builder.empty, run_tokensOf nodes [] [] (by simpa using h)]
  refine congrArg Except.ok ?_
  rw [List.append_nil, List.reverse_reverse]

end Tree

end SpecDraft.Template
