import SpecDraft.Proofs.Template.Writing

/-!
# Templates as tags and texts

A template is its tags with texts between them, of which some may be empty (`layoutOf`). Any tags
and texts go together as long as no text holds a tag (`Layout.Clear.lexical`): a tag that ran from
a text into the tag after it would need the two opening braces of that one, and no tag has any
behind its own (`source_within`).
-/
set_option autoImplicit false

namespace SpecDraft.Template

open Text

/-! ## Tags and the texts between them -/

/-- A template taken apart: the text before the first tag, and each tag with the text after it. -/
structure Layout where
  head : List Char
  tags : List (Token × List Char)

/-- The layout of a list of tokens. -/
def layoutOf : List Token → Layout
  | [] => ⟨[], []⟩
  | .text chars :: rest => ⟨chars ++ (layoutOf rest).head, (layoutOf rest).tags⟩
  | tag :: rest => ⟨[], (tag, (layoutOf rest).head) :: (layoutOf rest).tags⟩

/-- A text as tokens; there is no token for the empty one. -/
def textTokens (chars : List Char) : List Token :=
  if chars = [] then [] else [.text chars]

/-- The tokens of tags and of the texts after them. -/
def tagTokens (tags : List (Token × List Char)) : List Token :=
  tags.flatMap fun (tag, after) => tag :: textTokens after

/-- The tokens of a layout. -/
def Layout.tokens (layout : Layout) : List Token := textTokens layout.head ++ tagTokens layout.tags

/-- Whether a text holds no tag. -/
def IsTagFree (chars : List Char) : Prop :=
  ∀ tag : Token, tag.IsTag → ¬ tag.source.toList <:+: chars

/-- Whether the tags are tags, and no text after one holds any. -/
def ClearTags (tags : List (Token × List Char)) : Prop :=
  ∀ pair ∈ tags, pair.1.IsTag ∧ IsTagFree pair.2

/-- Whether the tags are tags, and no text holds one. -/
structure Layout.Clear (layout : Layout) : Prop where
  head : IsTagFree layout.head
  tags : ClearTags layout.tags

section Braces
variable {token : Token} {chars rest : List Char} {tags : List (Token × List Char)}

theorem not_brace_of_isBlank {c : Char} (h : isBlank c = true) : '\x7b' ≠ c := by
  rintro rfl
  exact absurd h (by decide)

theorem not_brace_of_isWord {c : Char} (h : isWord c = true) : '\x7b' ≠ c := by
  rintro rfl
  exact absurd h (by decide)

/-- A tag has no opening braces but the two that it starts with. -/
theorem source_eq_braces (h : token.IsTag) : ∃ content, '\x7b' ∉ content ∧
    token.source.toList = '\x7b' :: '\x7b' :: (content ++ ['\x7d', '\x7d']) := by
  have hbraced (content : String) : (braced content).toList =
      '\x7b' :: '\x7b' :: (content.toList ++ ['\x7d', '\x7d']) := by
    rw [braced, String.toList_append, String.toList_append]
    rfl
  have hopening {keyword gap name : String} (hkeyword : '\x7b' ∉ keyword.toList)
      (hgap : IsGap gap) (hname : IsWord name) : '\x7b' ∉ (keyword ++ gap ++ name).toList := by
    simp only [String.toList_append, List.mem_append, not_or]
    exact ⟨⟨hkeyword, fun hc => not_brace_of_isBlank (hgap.2 _ hc) rfl⟩,
      fun hc => not_brace_of_isWord (hname.2 _ hc) rfl⟩
  cases token with
  | text chars => cases h
  | ref name => exact ⟨_, fun hc => not_brace_of_isWord (h.1.2 _ hc) rfl, hbraced name⟩
  | each gap name => exact ⟨_, hopening (by decide) h.1 h.2, hbraced _⟩
  | choice gap name => exact ⟨_, hopening (by decide) h.1 h.2, hbraced _⟩
  | otherwise => exact ⟨_, by decide, hbraced "else"⟩
  | endChoice => exact ⟨_, by decide, hbraced "/if"⟩
  | endEach => exact ⟨_, by decide, hbraced "/each"⟩

theorem isTagFree_nil : IsTagFree [] :=
  fun _ htag hin => source_ne_nil htag (List.infix_nil.mp hin)

theorem Token.IsTag.ne_text (h : token.IsTag) (chars : List Char) : token ≠ .text chars := by
  rintro rfl
  exact h

theorem clearTags_nil : ClearTags [] := fun _ hpair => (by cases hpair)

theorem IsTagFree.of_infix (h : IsTagFree rest) (hpart : chars <:+: rest) : IsTagFree chars :=
  fun tag htag hin => h tag htag (hin.trans hpart)

/-- No tag ends where another one has begun: behind its first character it holds no two braces,
and it does not end with one. -/
theorem source_within {more s after : List Char} (h : token.IsTag) (hne : chars ≠ [])
    (hsource : token.source.toList = chars ++ more)
    (hmore : '\x7b' :: '\x7b' :: s = more ++ after) : more = [] := by
  obtain ⟨c, cs, rfl⟩ := List.exists_cons_of_ne_nil hne
  obtain ⟨content, hbrace, hcontent⟩ := source_eq_braces h
  rw [hcontent] at hsource
  match more, hmore with
  | [], _ => rfl
  | [m], hmore =>
    obtain rfl : '\x7b' = m := (List.cons.inj hmore).1
    have hends : ('\x7b' :: '\x7b' :: content ++ ['\x7d']) ++ ['\x7d'] = (c :: cs) ++ ['\x7b'] := by
      rw [← hsource]
      simp
    have hlast := (List.append_inj' hends rfl).2
    exact absurd (List.cons.inj hlast).1 (by decide)
  | m :: n :: more, hmore =>
    obtain rfl : '\x7b' = n := (List.cons.inj (List.cons.inj hmore).2).1
    have hdrop := congrArg (List.drop 2) hsource
    have hmem : '\x7b' ∈ content ++ ['\x7d', '\x7d'] := by
      refine (show content ++ _ = _ from hdrop) ▸ ?_
      cases cs <;> simp
    exact absurd hmem (by simpa using hbrace)

/-- A tag that starts in a text without tags would have to run into the one that follows. -/
theorem tag?_of_isTagFree (h : IsTagFree chars) (hne : chars ≠ [])
    (hrest : rest = [] ∨ ∃ s, rest = '\x7b' :: '\x7b' :: s) : tag? (chars ++ rest) = none := by
  cases hread : tag? (chars ++ rest) with
  | none => rfl
  | some found =>
    exfalso
    obtain ⟨tag, after⟩ := found
    obtain ⟨htag, heq⟩ := tag?_some hread
    rcases List.append_eq_append_iff.mp heq with ⟨more, hsource, hmore⟩ | ⟨more, hchars, -⟩
    · obtain rfl : more = [] := by
        rcases hrest with rfl | ⟨s, rfl⟩
        · exact (List.append_eq_nil_iff.mp hmore.symm).1
        · exact source_within htag hne hsource hmore
      rw [List.append_nil] at hsource
      exact h tag htag (hsource ▸ List.infix_rfl)
    · exact h tag htag (hchars ▸ (List.prefix_append _ _).isInfix)

end Braces

section Layouts
variable {a : List Token} {chars : List Char} {tags : List (Token × List Char)} {layout : Layout}

theorem layoutOf_tag {tag : Token} (h : tag.IsTag) (rest : List Token) :
    layoutOf (tag :: rest) = ⟨[], (tag, (layoutOf rest).head) :: (layoutOf rest).tags⟩ := by
  cases tag with
  | text chars => cases h
  | _ => rfl

theorem tagTokens_cons (tag : Token) (after : List Char) (tags : List (Token × List Char)) :
    tagTokens ((tag, after) :: tags) = tag :: (textTokens after ++ tagTokens tags) :=
  List.flatMap_cons

theorem textTokens_of_ne_nil (h : chars ≠ []) : textTokens chars = [.text chars] := if_neg h

theorem head_layoutOf (h : ∀ other, a.head? ≠ some (.text other)) : (layoutOf a).head = [] := by
  cases a with
  | nil => rfl
  | cons token rest =>
    cases token with
    | text chars => exact absurd rfl (h chars)
    | _ => rfl

/-- **Taking tokens apart** loses nothing, and no text of theirs holds a tag. -/
theorem layoutOf_spec (h : Lexical a) : (layoutOf a).tokens = a ∧ (layoutOf a).Clear := by
  induction a with
  | nil => exact ⟨rfl, isTagFree_nil, clearTags_nil⟩
  | cons token rest ih =>
    cases token with
    | text chars =>
      obtain ⟨hne, hhead, hnone, hrest⟩ := h
      obtain ⟨htokens, hclear⟩ := ih hrest
      rw [Layout.tokens, head_layoutOf hhead] at htokens
      refine ⟨?_, ?_, hclear.tags⟩
      · rw [layoutOf, head_layoutOf hhead, List.append_nil, Layout.tokens, textTokens_of_ne_nil hne]
        exact congrArg (Token.text chars :: ·) htokens
      · rw [layoutOf, head_layoutOf hhead, List.append_nil]
        rintro tag htag ⟨before, after, rfl⟩
        have hread := hnone before (tag.source.toList ++ after) (List.append_assoc ..)
          (by simp [source_ne_nil htag])
        rw [List.append_assoc, tag?_source htag] at hread
        cases hread
    | _ =>
      obtain ⟨htag, -, hrest⟩ := h
      obtain ⟨htokens, hclear⟩ := ih hrest
      exact ⟨congrArg (_ :: ·) htokens, isTagFree_nil,
        List.forall_mem_cons.mpr ⟨⟨htag, hclear.head⟩, hclear.tags⟩⟩

/-- After a text there is the end or a tag. -/
theorem head_tagTokens (h : ClearTags tags) (other : List Char) :
    (tagTokens tags).head? ≠ some (.text other) := by
  cases tags with
  | nil => exact fun hother => (by cases hother)
  | cons pair tags =>
    obtain ⟨tag, after⟩ := pair
    rintro ⟨⟩
    exact (h _ List.mem_cons_self).1

theorem spelling_tagTokens (h : ClearTags tags) :
    spelling (tagTokens tags) = [] ∨ ∃ s, spelling (tagTokens tags) = '\x7b' :: '\x7b' :: s := by
  cases tags with
  | nil => exact .inl rfl
  | cons pair tags =>
    obtain ⟨tag, after⟩ := pair
    obtain ⟨content, -, hcontent⟩ := source_eq_braces (h _ List.mem_cons_self).1
    refine .inr ⟨(content ++ ['\x7d', '\x7d']) ++ spelling (textTokens after ++ tagTokens tags), ?_⟩
    rw [tagTokens_cons, spelling_cons, hcontent]
    rfl

theorem lexical_textTokens (h : IsTagFree chars) (htags : ClearTags tags)
    (hlexical : Lexical (tagTokens tags)) : Lexical (textTokens chars ++ tagTokens tags) := by
  by_cases hne : chars = []
  · rw [textTokens, if_pos hne]
    exact hlexical
  · rw [textTokens_of_ne_nil hne]
    refine ⟨hne, head_tagTokens htags, fun before here heq hhere => ?_, hlexical⟩
    exact tag?_of_isTagFree (h.of_infix (heq ▸ (List.suffix_append _ _).isInfix)) hhere
      (spelling_tagTokens htags)

/-- **A clear layout** is read as its tokens. -/
theorem Layout.Clear.lexical (h : layout.Clear) : Lexical layout.tokens := by
  refine lexical_textTokens h.head h.tags ?_
  obtain ⟨head, tags⟩ := layout
  obtain ⟨-, htags⟩ := h
  dsimp only at htags ⊢
  induction tags with
  | nil => trivial
  | cons pair tags ih =>
    obtain ⟨tag, after⟩ := pair
    obtain ⟨⟨htag, hafter⟩, htags⟩ := List.forall_mem_cons.mp htags
    rw [tagTokens_cons]
    have hrest := lexical_textTokens hafter htags (ih htags)
    exact lexical_tag (tag?_source htag _) hrest

/-- **The tokens of a layout** have that layout. -/
theorem layoutOf_tokens (h : layout.Clear) : layoutOf layout.tokens = layout := by
  obtain ⟨head, tags⟩ := layout
  obtain ⟨-, htags⟩ := h
  dsimp only at htags
  have htext (chars : List Char) {tags : List (Token × List Char)}
      (h : layoutOf (tagTokens tags) = ⟨[], tags⟩) :
      layoutOf (textTokens chars ++ tagTokens tags) = ⟨chars, tags⟩ := by
    by_cases hne : chars = []
    · rw [textTokens, if_pos hne, hne]
      exact h
    · rw [textTokens_of_ne_nil hne, List.singleton_append, layoutOf, h, List.append_nil]
  refine htext head ?_
  induction tags with
  | nil => rfl
  | cons pair tags ih =>
    obtain ⟨tag, after⟩ := pair
    obtain ⟨⟨htag, -⟩, htags⟩ := List.forall_mem_cons.mp htags
    rw [tagTokens_cons, layoutOf_tag htag, htext after (ih htags)]

end Layouts

end SpecDraft.Template
