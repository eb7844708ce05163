import SpecDraft.Proofs.Text.Cutting
import SpecDraft.Template.Token

/-!
# The tokens of a template

The tokens of a template make it up (`spelling_tokens`), and they are read from left to right:
each tag is the one that stands at its place, and no tag starts inside a text (`lexical_tokens`).
-/
set_option autoImplicit false

namespace SpecDraft.Template

open Text

/-! ## Tags -/

/-- A run of word characters, at least one. -/
def IsWord (name : String) : Prop := name ≠ "" ∧ ∀ c ∈ name.toList, isWord c

/-- A run of blanks, at least one. -/
def IsGap (gap : String) : Prop := gap ≠ "" ∧ ∀ c ∈ gap.toList, isBlank c

/-- Whether a token is a tag, with names and blanks as tags have them. -/
def Token.IsTag : Token → Prop
  | .text _ => False
  | .ref name => IsWord name ∧ name ≠ "else"
  | .each gap name | .choice gap name => IsGap gap ∧ IsWord name
  | .otherwise | .endChoice | .endEach => True

section Tags
variable {s rest : List Char} {keyword gap name : String} {token : Token}

theorem word?_some (h : word? s = some (name, rest)) : s = name.toList ++ rest ∧ IsWord name := by
  unfold word? at h
  dsimp only at h
  split at h
  · cases h
  · rename_i hempty
    cases h
    refine ⟨?_, ofList_ne_empty (by simpa using hempty), ?_⟩
    · rw [String.toList_ofList, List.takeWhile_append_dropWhile]
    · rw [String.toList_ofList]
      exact fun c hc => mem_takeWhile hc

theorem opening?_some (h : opening? keyword s = some (gap, name, rest)) :
    s = (keyword ++ gap ++ name).toList ++ rest ∧ IsGap gap ∧ IsWord name := by
  unfold opening? at h
  obtain ⟨after, hafter, hopening⟩ := Option.bind_eq_some_iff.mp h
  dsimp only at hopening
  split at hopening
  · cases hopening
  · rename_i hempty
    obtain ⟨⟨word, tail⟩, hword, heq⟩ := Option.bind_eq_some_iff.mp hopening
    cases heq
    obtain ⟨hdrop, hname⟩ := word?_some hword
    refine ⟨?_, ⟨ofList_ne_empty (by simpa using hempty), ?_⟩, hname⟩
    · rw [Text.after?_some.mp hafter, String.toList_append, String.toList_append,
        String.toList_ofList, List.append_assoc, List.append_assoc, ← hdrop,
        List.takeWhile_append_dropWhile]
    · rw [String.toList_ofList]
      exact fun c hc => mem_takeWhile hc

/-- What stands in a tag is what the token says. -/
theorem tagContent?_some (h : tagContent? s = some (token, rest)) :
    token.IsTag ∧ ∃ content, token.source = braced content ∧ s = content.toList ++ rest := by
  unfold tagContent? at h
  split at h
  · rename_i gap name rest' hopening
    cases h
    obtain ⟨hs, hgap, hname⟩ := opening?_some hopening
    exact ⟨⟨hgap, hname⟩, _, rfl, hs⟩
  split at h
  · rename_i gap name rest' hopening
    cases h
    obtain ⟨hs, hgap, hname⟩ := opening?_some hopening
    exact ⟨⟨hgap, hname⟩, _, rfl, hs⟩
  split at h
  · rename_i rest' hafter
    cases h
    exact ⟨trivial, _, rfl, Text.after?_some.mp hafter⟩
  split at h
  · rename_i rest' hafter
    cases h
    exact ⟨trivial, _, rfl, Text.after?_some.mp hafter⟩
  · obtain ⟨⟨name, tail⟩, hword, heq⟩ := Option.map_eq_some_iff.mp h
    obtain ⟨hs, hname⟩ := word?_some hword
    dsimp only at heq
    split at heq
    · rename_i helse
      cases heq
      exact ⟨trivial, name, by rw [helse]; rfl, hs⟩
    · rename_i helse
      cases heq
      exact ⟨⟨hname, helse⟩, name, rfl, hs⟩

/-- **A tag stands in the text as its token is written.** -/
theorem tag?_some (h : tag? s = some (token, rest)) :
    token.IsTag ∧ s = token.source.toList ++ rest := by
  unfold tag? at h
  obtain ⟨inner, hopen, hcontent⟩ := Option.bind_eq_some_iff.mp h
  obtain ⟨⟨token', tail⟩, htoken, hclosed⟩ := Option.bind_eq_some_iff.mp hcontent
  obtain ⟨rest', hclose, heq⟩ := Option.bind_eq_some_iff.mp hclosed
  cases heq
  obtain ⟨htag, content, hsource, hinner⟩ := tagContent?_some htoken
  refine ⟨htag, ?_⟩
  rw [hsource, braced, Text.after?_some.mp hopen, hinner, Text.after?_some.mp hclose]
  simp only [String.toList_append, List.append_assoc]

theorem source_ne_nil (h : token.IsTag) : token.source.toList ≠ [] := by
  cases token with
  | text chars => cases h
  | _ => simp [Token.source, braced, openBraces]

end Tags

/-! ## Texts -/

/-- The text that tokens make up. -/
def spelling (tokens : List Token) : List Char :=
  tokens.flatMap fun token => token.source.toList

/-- Whether the tokens are read from the text they make up from left to right: each tag is the one
that stands at its place, no tag starts inside a text, and no text follows another one. -/
def Lexical : List Token → Prop
  | [] => True
  | .text chars :: rest => chars ≠ [] ∧ (∀ other, rest.head? ≠ some (.text other)) ∧
      (∀ before here, chars = before ++ here → here ≠ [] → tag? (here ++ spelling rest) = none) ∧
      Lexical rest
  | token :: rest => token.IsTag ∧
      tag? (token.source.toList ++ spelling rest) = some (token, spelling rest) ∧ Lexical rest

section Texts
variable {s rest chars : List Char} {c : Char} {token : Token} {tokens : List Token}

theorem spelling_cons (token : Token) (tokens : List Token) :
    spelling (token :: tokens) = token.source.toList ++ spelling tokens := List.flatMap_cons

theorem spelling_text (chars : List Char) (tokens : List Token) :
    spelling (.text chars :: tokens) = chars ++ spelling tokens := by
  rw [spelling_cons, Token.source, String.toList_ofList]

theorem spelling_consChar (c : Char) (tokens : List Token) :
    spelling (Token.consChar c tokens) = c :: spelling tokens := by
  unfold Token.consChar
  split
  · rw [spelling_text, spelling_text, List.cons_append]
  · rw [spelling_text, List.singleton_append]

theorem lexical_tag (h : tag? s = some (token, spelling tokens)) (hlexical : Lexical tokens) :
    Lexical (token :: tokens) := by
  obtain ⟨htag, rfl⟩ := tag?_some h
  cases token with
  | text chars => cases htag
  | _ => exact ⟨htag, h, hlexical⟩

theorem lexical_consChar (h : tag? (c :: spelling tokens) = none) (hlexical : Lexical tokens) :
    Lexical (Token.consChar c tokens) := by
  unfold Token.consChar
  split
  · -- The character joins a text; only there a tag could start that was not looked for yet.
    rename_i chars rest
    obtain ⟨-, hhead, hnone, hrest⟩ := hlexical
    rw [spelling_text] at h
    refine ⟨List.cons_ne_nil c chars, hhead, fun before here heq hhere => ?_, hrest⟩
    cases before with
    | nil =>
      rw [List.nil_append] at heq
      rw [← heq]
      exact h
    | cons b before => exact hnone before here (List.cons.inj heq).2 hhere
  · rename_i htext
    refine ⟨List.cons_ne_nil c [], fun other hother => ?_, fun before here heq hhere => ?_,
      hlexical⟩
    · cases tokens with
      | nil => cases hother
      | cons first rest => exact htext other rest (by rw [Option.some.inj hother])
    · cases before with
      | nil =>
        rw [List.nil_append] at heq
        rw [← heq]
        exact h
      | cons b before => exact absurd (List.append_eq_nil_iff.mp (List.cons.inj heq).2.symm).2 hhere

theorem tokensWithin_spec (fuel : Nat) (s : List Char) (h : s.length ≤ fuel) :
    spelling (tokensWithin fuel s) = s ∧ Lexical (tokensWithin fuel s) := by
  induction fuel generalizing s with
  | zero =>
    obtain rfl := List.length_eq_zero_iff.mp (Nat.le_zero.mp h)
    exact ⟨rfl, trivial⟩
  | succ fuel ih =>
    cases s with
    | nil => exact ⟨rfl, trivial⟩
    | cons c s =>
      rw [tokensWithin]
      split
      · rename_i token rest hfound
        obtain ⟨htag, hs⟩ := tag?_some hfound
        -- A tag takes some characters, so that the fuel suffices for the rest.
        have hlength : rest.length ≤ fuel := by
          have hcons := congrArg List.length hs
          have hsource := List.length_pos_iff.mpr (source_ne_nil htag)
          rw [List.length_append] at hcons
          omega
        obtain ⟨hspelling, hlexical⟩ := ih rest hlength
        rw [← hspelling] at hfound
        refine ⟨?_, lexical_tag hfound hlexical⟩
        rw [spelling_cons, hspelling, hs]
      · rename_i hnone
        obtain ⟨hspelling, hlexical⟩ := ih s (Nat.le_of_succ_le_succ h)
        refine ⟨?_, lexical_consChar (by rwa [hspelling]) hlexical⟩
        rw [spelling_consChar, hspelling]

end Texts

/-- **The tokens of a template make up the template.** -/
theorem spelling_tokens (template : String) : spelling (tokens template) = template.toList :=
  (tokensWithin_spec _ template.toList (Nat.le_refl _)).1

/-- **The tokens of a template are read from left to right.** -/
theorem lexical_tokens (template : String) : Lexical (tokens template) :=
  (tokensWithin_spec _ template.toList (Nat.le_refl _)).2

end SpecDraft.Template
