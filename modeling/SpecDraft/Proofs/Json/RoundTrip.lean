import SpecDraft.Proofs.Json.Layout
import SpecDraft.Proofs.Json.Numeral
import SpecDraft.Proofs.Json.Quoted
import SpecDraft.Proofs.Json.WellFormed

/-!
# Values read back

The text of a well-formed value within the limits reads as that value, in whatever layout it is
written (`read_pretty`, `read_compact`). The reader recurs on its fuel, and so does the proof: with
fuel for the length of the text, a value is read up to what follows it, and the items of an array
and the members of an object up to the closing bracket (`ReadsBack`).
-/
set_option autoImplicit false

namespace SpecDraft.Json.Reader

open Printer

/-! ## Blanks -/

theorem skip_cons {c : Char} (hc : isSpace c = false) (s : List Char) : skip (c :: s) = c :: s :=
  List.dropWhile_cons_of_neg (by simp [hc])

/-- Blanks do not matter. -/
theorem skip_blanks {blanks : List Char} (h : ∀ c ∈ blanks, isSpace c = true) (s : List Char) :
    skip (blanks ++ s) = skip s :=
  List.dropWhile_append_of_pos h

/-- No number runs on over a blank. -/
theorem ends_blanks {blanks s : List Char} (h : ∀ c ∈ blanks, isSpace c = true) (hs : Ends s) :
    Ends (blanks ++ s) := by
  cases blanks with
  | nil => exact hs
  | cons c blanks =>
    have hc : isSpace c = true := h c List.mem_cons_self
    simp only [isSpace, Bool.or_eq_true, beq_iff_eq] at hc
    refine ends_cons ?_
    rcases hc with ((rfl | rfl) | rfl) | rfl <;> decide

/-! ## How a value starts -/

/-- A character that starts a number. -/
def StartsNumber (c : Char) : Prop := c.isDigit ∨ c = '-' ∨ c = 'N' ∨ c = 'I'

theorem exists_head_of_number {limits : Limits} {s : List Char} {r : Json × List Char}
    (h : number limits s = .ok r) : ∃ c t, s = c :: t ∧ StartsNumber c := by
  unfold number at h
  split at h
  · exact ⟨_, _, rfl, .inr (.inr (.inl rfl))⟩
  · exact ⟨_, _, rfl, .inr (.inr (.inr rfl))⟩
  · exact ⟨_, _, rfl, .inr (.inl rfl)⟩
  · exact ⟨_, _, rfl, .inr (.inl rfl)⟩
  · obtain ⟨c, t, rfl, hc⟩ := exists_digit_of_unsigned h
    exact ⟨c, t, rfl, .inl hc⟩

/-- No number starts like another token. -/
theorem StartsNumber.ne {c d : Char} (h : StartsNumber c)
    (hd : ¬ d.isDigit ∧ d ≠ '-' ∧ d ≠ 'N' ∧ d ≠ 'I') : c ≠ d := by
  rintro rfl
  rcases h with h | h | h | h
  · exact hd.1 h
  · exact hd.2.1 h
  · exact hd.2.2.1 h
  · exact hd.2.2.2 h

theorem StartsNumber.not_space {c : Char} (h : StartsNumber c) : isSpace c = false := by
  simp [isSpace, h.ne (d := ' ') (by decide), h.ne (d := '\t') (by decide),
    h.ne (d := '\n') (by decide), h.ne (d := '\r') (by decide)]

theorem value_of_number {limits : Limits} {fuel level : Nat} {c : Char} {t : List Char}
    (hc : StartsNumber c) :
    value limits (fuel + 1) level (c :: t) = number limits (c :: t) := by
  rw [value]
  · exact fun _ h => hc.ne (by decide) (List.cons.inj h).1
  · exact fun _ h => hc.ne (by decide) (List.cons.inj h).1
  · exact fun _ h => hc.ne (by decide) (List.cons.inj h).1
  · exact fun _ h => hc.ne (by decide) (List.cons.inj h).1
  · exact fun _ h => hc.ne (by decide) (List.cons.inj h).1
  · exact fun _ h => hc.ne (by decide) (List.cons.inj h).1

theorem exists_head_int (n : Int) : ∃ c t, Printer.int n = c :: t ∧ StartsNumber c := by
  have h := number_int .unlimited (n := n) ends_nil rfl
  rw [List.append_nil] at h
  exact exists_head_of_number h

theorem exists_head_real {x : Binary64} (hx : x.Representable) :
    ∃ c t, Printer.real x = c :: t ∧ StartsNumber c := by
  have h := number_real .unlimited hx ends_nil
  rw [List.append_nil] at h
  exact exists_head_of_number h

/-- The text of a value starts with neither a blank nor a closing bracket. -/
theorem exists_head_written {v : Json} (hv : v.WellFormed) (layout : Layout) (indent : Nat) :
    ∃ c t, written layout indent v = c :: t ∧ isSpace c = false ∧ c ≠ ']' := by
  cases v with
  | null => exact ⟨_, _, rfl, rfl, by decide⟩
  | bool b => cases b <;> exact ⟨_, _, rfl, rfl, by decide⟩
  | int n =>
    obtain ⟨c, t, h, hc⟩ := exists_head_int n
    exact ⟨c, t, h, hc.not_space, hc.ne (by decide)⟩
  | real x =>
    obtain ⟨c, t, h, hc⟩ := exists_head_real hv
    exact ⟨c, t, h, hc.not_space, hc.ne (by decide)⟩
  | str s => exact ⟨_, _, rfl, rfl, by decide⟩
  | arr items => cases items <;> exact ⟨_, _, rfl, rfl, by decide⟩
  | obj members => cases members <;> exact ⟨_, _, rfl, rfl, by decide⟩

theorem skip_written {v : Json} (hv : v.WellFormed) (layout : Layout) (indent : Nat)
    (s : List Char) : skip (written layout indent v ++ s) = written layout indent v ++ s := by
  obtain ⟨c, t, h, hc, -⟩ := exists_head_written hv layout indent
  rw [h]
  exact skip_cons hc (t ++ s)

/-! ## Reading back with some fuel -/

/-- The text of the items of an array up to its closing bracket. -/
def itemsText (layout : Layout) (indent outer : Nat) (item : Json) (items : List Json)
    (rest : List Char) : List Char :=
  written layout indent item ++
    (writtenItems layout indent items ++ (layout.closing outer ++ ']' :: rest))

/-- The text of the members of an object up to its closing brace. -/
def membersText (layout : Layout) (indent outer : Nat) (key : String) (v : Json)
    (members : Members) (rest : List Char) : List Char :=
  quoted layout.ascii key ++ (':' :: ' ' :: (written layout indent v ++
    (writtenMembers layout indent members ++ (layout.closing outer ++ '}' :: rest))))

/-- The reader with some fuel reads back what fits into the fuel. -/
structure ReadsBack (layout : Layout) (limits : Limits) (fuel : Nat) : Prop where
  value : ∀ (v : Json) (indent level : Nat) (rest : List Char), v.WellFormed →
    excess? limits level v = none → (written layout indent v).length ≤ fuel → Ends rest →
    value limits fuel level (written layout indent v ++ rest) = .ok (v, rest)
  items : ∀ (item : Json) (items : List Json) (indent outer level : Nat) (rest : List Char),
    ItemsWellFormed (item :: items) → itemsExcess? limits level (item :: items) = none →
    (written layout indent item).length + (writtenItems layout indent items).length < fuel →
    Reader.items limits fuel level (itemsText layout indent outer item items rest) =
      .ok (item :: items, rest)
  members : ∀ (key : String) (v : Json) (members : Members) (indent outer level : Nat)
    (rest : List Char), MembersWellFormed ((key, v) :: members) →
    membersExcess? limits level ((key, v) :: members) = none →
    (written layout indent v).length + (writtenMembers layout indent members).length < fuel →
    Reader.members limits fuel level (membersText layout indent outer key v members rest) =
      .ok ((key, v) :: members, rest)

section Step
variable {layout : Layout} {limits : Limits} {fuel : Nat}

theorem string_after_quote (ascii : Bool) (s : String) (rest : List Char) :
    ∃ t, quoted ascii s ++ rest = '"' :: t ∧ string? t = some (s, rest) := by
  refine ⟨s.toList.flatMap (escape ascii) ++ '"' :: rest, ?_, string_quoted ascii s rest⟩
  rw [quoted, List.cons_append, List.append_assoc]
  rfl

theorem itemsExcess?_cons {level : Nat} {item : Json} {items : List Json}
    (h : itemsExcess? limits level (item :: items) = none) :
    excess? limits level item = none ∧ itemsExcess? limits level items = none := by
  rw [itemsExcess?] at h
  exact Option.or_eq_none_iff.mp h

theorem membersExcess?_cons {level : Nat} {key : String} {v : Json} {members : Members}
    (h : membersExcess? limits level ((key, v) :: members) = none) :
    excess? limits level v = none ∧ membersExcess? limits level members = none := by
  rw [membersExcess?] at h
  exact Option.or_eq_none_iff.mp h

theorem excess?_arr {level : Nat} {items : List Json}
    (h : excess? limits level (.arr items) = none) :
    limits.isTooDeep level = false ∧ itemsExcess? limits (level + 1) items = none := by
  rw [excess?] at h
  by_cases hdeep : limits.isTooDeep level = true
  · rw [if_pos hdeep] at h
    cases h
  · rw [if_neg hdeep] at h
    exact ⟨Bool.eq_false_iff.mpr hdeep, h⟩

theorem excess?_obj {level : Nat} {members : Members}
    (h : excess? limits level (.obj members) = none) :
    limits.isTooDeep level = false ∧ membersExcess? limits (level + 1) members = none := by
  rw [excess?] at h
  by_cases hdeep : limits.isTooDeep level = true
  · rw [if_pos hdeep] at h
    cases h
  · rw [if_neg hdeep] at h
    exact ⟨Bool.eq_false_iff.mpr hdeep, h⟩

/-- What follows an item: the next one, or the closing bracket. -/
theorem ends_writtenItems (indent outer : Nat) (items : List Json) (s : List Char) :
    Ends (writtenItems layout indent items ++ (layout.closing outer ++ ']' :: s)) := by
  cases items with
  | nil =>
    rw [writtenItems, List.nil_append]
    exact ends_blanks (layout.closing_blank outer) (ends_cons (by decide))
  | cons item items => exact ends_cons (by decide)

theorem ends_writtenMembers (indent outer : Nat) (members : Members) (s : List Char) :
    Ends (writtenMembers layout indent members ++ (layout.closing outer ++ '}' :: s)) := by
  cases members with
  | nil =>
    rw [writtenMembers, List.nil_append]
    exact ends_blanks (layout.closing_blank outer) (ends_cons (by decide))
  | cons pair members => exact ends_cons (by decide)

theorem items_step (h : ReadsBack layout limits fuel) (item : Json) (items : List Json)
    (indent outer level : Nat) (rest : List Char) (hwf : ItemsWellFormed (item :: items))
    (hlimit : itemsExcess? limits level (item :: items) = none)
    (hfuel : (written layout indent item).length + (writtenItems layout indent items).length <
      fuel + 1) :
    Reader.items limits (fuel + 1) level (itemsText layout indent outer item items rest) =
      .ok (item :: items, rest) := by
  obtain ⟨hitem, hitems⟩ := hwf
  obtain ⟨hlimit, hlimits⟩ := itemsExcess?_cons hlimit
  have hfirst := h.value item indent level
    (writtenItems layout indent items ++ (layout.closing outer ++ ']' :: rest)) hitem hlimit
    (by omega) (ends_writtenItems indent outer items _)
  rw [itemsText, Reader.items, hfirst]
  cases items with
  | nil =>
    simp only [writtenItems, List.nil_append, skip_blanks (layout.closing_blank outer),
      skip_cons (c := ']') rfl]
  | cons next items =>
    have hlength :
        (written layout indent next).length + (writtenItems layout indent items).length < fuel := by
      simp only [writtenItems, List.length_cons, List.length_append] at hfuel
      omega
    have hrest := h.items next items indent outer level rest hitems hlimits hlength
    simp only [writtenItems, List.cons_append, List.append_assoc, skip_cons (c := ',') rfl,
      skip_blanks (layout.between_blank indent), skip_written hitems.1]
    rw [itemsText] at hrest
    rw [hrest]
    rfl

theorem members_step (h : ReadsBack layout limits fuel) (key : String) (v : Json) (members : Members)
    (indent outer level : Nat) (rest : List Char)
    (hwf : MembersWellFormed ((key, v) :: members))
    (hlimit : membersExcess? limits level ((key, v) :: members) = none)
    (hfuel : (written layout indent v).length + (writtenMembers layout indent members).length <
      fuel + 1) :
    Reader.members limits (fuel + 1) level (membersText layout indent outer key v members rest) =
      .ok ((key, v) :: members, rest) := by
  obtain ⟨hvalue, hmembers⟩ := hwf
  obtain ⟨hlimit, hlimits⟩ := membersExcess?_cons hlimit
  have hfirst := h.value v indent level
    (writtenMembers layout indent members ++ (layout.closing outer ++ '}' :: rest)) hvalue hlimit
    (by omega) (ends_writtenMembers indent outer members _)
  obtain ⟨t, ht, hkey⟩ := string_after_quote layout.ascii key (':' :: ' ' ::
    (written layout indent v ++
      (writtenMembers layout indent members ++ (layout.closing outer ++ '}' :: rest))))
  rw [membersText, ht, Reader.members, hkey]
  simp only [skip_cons (c := ':') rfl]
  rw [show ' ' :: (written layout indent v ++ _) = [' '] ++ (written layout indent v ++ _) from rfl,
    skip_blanks (List.forall_mem_singleton.mpr rfl), skip_written hvalue, hfirst]
  cases members with
  | nil =>
    simp only [writtenMembers, List.nil_append, skip_blanks (layout.closing_blank outer),
      skip_cons (c := '}') rfl]
  | cons next members =>
    obtain ⟨nextKey, nextValue⟩ := next
    have hlength : (written layout indent nextValue).length +
        (writtenMembers layout indent members).length < fuel := by
      simp only [writtenMembers, List.length_cons, List.length_append] at hfuel
      omega
    have hrest := h.members nextKey nextValue members indent outer level rest hmembers hlimits
      hlength
    obtain ⟨t', ht', -⟩ := string_after_quote layout.ascii nextKey (':' :: ' ' ::
      (written layout indent nextValue ++
        (writtenMembers layout indent members ++ (layout.closing outer ++ '}' :: rest))))
    rw [membersText, ht'] at hrest
    simp only [writtenMembers, List.cons_append, List.append_assoc, skip_cons (c := ',') rfl,
      skip_blanks (layout.between_blank indent), ht', skip_cons (c := '"') rfl, hrest]
    rfl

theorem arr_step (h : ReadsBack layout limits fuel) (items : List Json) (indent level : Nat)
    (rest : List Char) (hwf : ItemsWellFormed items)
    (hlimit : excess? limits level (.arr items) = none)
    (hfuel : (written layout indent (.arr items)).length ≤ fuel + 1) :
    value limits (fuel + 1) level (written layout indent (.arr items) ++ rest) =
      .ok (.arr items, rest) := by
  obtain ⟨hlevel, hlimits⟩ := excess?_arr hlimit
  cases items with
  | nil =>
    simp only [written, value, hlevel, Bool.false_eq_true, if_false]
    rfl
  | cons item items =>
    have hlength : (written layout (indent + 1) item).length +
        (writtenItems layout (indent + 1) items).length < fuel := by
      simp only [written, List.length_cons, List.length_append] at hfuel
      omega
    have hread := h.items item items (indent + 1) indent (level + 1) rest hwf hlimits hlength
    obtain ⟨c, t, ht, hc, hne⟩ := exists_head_written hwf.1 layout (indent + 1)
    rw [itemsText, ht] at hread
    simp only [written, List.cons_append, List.append_assoc, value, hlevel, Bool.false_eq_true,
      if_false, skip_blanks (layout.opening_blank (indent + 1)), ht, skip_cons hc,
      List.nil_append]
    -- No value starts with the bracket that would close the list.
    split
    · rename_i heq
      exact absurd (List.cons.inj heq).1 hne
    · rw [List.cons_append] at hread
      rw [hread]
      rfl

theorem obj_step (h : ReadsBack layout limits fuel) (members : Members) (indent level : Nat)
    (rest : List Char) (hwf : WellFormed (.obj members))
    (hlimit : excess? limits level (.obj members) = none)
    (hfuel : (written layout indent (.obj members)).length ≤ fuel + 1) :
    value limits (fuel + 1) level (written layout indent (.obj members) ++ rest) =
      .ok (.obj members, rest) := by
  obtain ⟨hlevel, hlimits⟩ := excess?_obj hlimit
  cases members with
  | nil =>
    simp only [written, List.cons_append, List.nil_append, value, hlevel, Bool.false_eq_true,
      if_false]
    rfl
  | cons pair members =>
    obtain ⟨key, v⟩ := pair
    have hlength : (written layout (indent + 1) v).length +
        (writtenMembers layout (indent + 1) members).length < fuel := by
      simp only [written, List.length_cons, List.length_append] at hfuel
      omega
    have hread := h.members key v members (indent + 1) indent (level + 1) rest hwf.2 hlimits
      hlength
    obtain ⟨t, ht, -⟩ := string_after_quote layout.ascii key (':' :: ' ' ::
      (written layout (indent + 1) v ++
        (writtenMembers layout (indent + 1) members ++ (layout.closing indent ++ '}' :: rest))))
    rw [membersText, ht] at hread
    simp only [written, List.cons_append, List.append_assoc, value, hlevel, Bool.false_eq_true,
      if_false, skip_blanks (layout.opening_blank (indent + 1)), List.nil_append, ht,
      skip_cons (c := '"') rfl]
    split
    · rename_i heq
      exact absurd (List.cons.inj heq).1 (by decide)
    · -- Of two members with one key the reader would keep one; here every key comes once.
      rw [hread]
      exact congrArg (fun members => Except.ok (Json.obj members, rest))
        (Members.ofPairs_of_nodup hwf.1)

theorem value_step (h : ReadsBack layout limits fuel) (v : Json) (indent level : Nat)
    (rest : List Char) (hwf : v.WellFormed) (hlimit : excess? limits level v = none)
    (hfuel : (written layout indent v).length ≤ fuel + 1) (hrest : Ends rest) :
    value limits (fuel + 1) level (written layout indent v ++ rest) = .ok (v, rest) := by
  cases v with
  | null => rfl
  | bool b => cases b <;> rfl
  | int n =>
    obtain ⟨c, t, ht, hc⟩ := exists_head_int n
    have hread := number_int limits hrest hlimit
    rw [ht] at hread
    rw [written, ht]
    exact (value_of_number hc).trans hread
  | real x =>
    obtain ⟨c, t, ht, hc⟩ := exists_head_real hwf
    have hread := number_real limits hwf hrest
    rw [ht] at hread
    rw [written, ht]
    exact (value_of_number hc).trans hread
  | str s =>
    obtain ⟨t, ht, hread⟩ := string_after_quote layout.ascii s rest
    rw [written, ht, value, hread]
    rfl
  | arr items => exact arr_step h items indent level rest hwf hlimit hfuel
  | obj members => exact obj_step h members indent level rest hwf hlimit hfuel

end Step

theorem readsBack (layout : Layout) (limits : Limits) : ∀ fuel, ReadsBack layout limits fuel
  | 0 =>
    { value := fun v indent _ _ hwf _ hfuel _ => by
        obtain ⟨c, t, h, -⟩ := exists_head_written hwf layout indent
        rw [h] at hfuel
        cases hfuel
      items := fun _ _ _ _ _ _ _ _ hfuel => absurd hfuel (Nat.not_lt_zero _)
      members := fun _ _ _ _ _ _ _ _ _ hfuel => absurd hfuel (Nat.not_lt_zero _) }
  | fuel + 1 =>
    have h := readsBack layout limits fuel
    ⟨value_step h, items_step h, members_step h⟩

end SpecDraft.Json.Reader

namespace SpecDraft.Json

section Read
variable {limits : Limits} {value : Json}

/-- **Values read back**, in whatever layout they are written. -/
theorem read_written (layout : Layout) (hwf : value.WellFormed)
    (hlimit : value.excess? limits 0 = none) :
    Reader.read limits (written layout 0 value) = .ok value := by
  have hread := (Reader.readsBack layout limits ((written layout 0 value).length + 1)).value value
    0 0 [] hwf hlimit (Nat.le_succ _) Reader.ends_nil
  have hskip := Reader.skip_written hwf layout 0 []
  rw [List.append_nil] at hread hskip
  rw [Reader.read, hskip, hread]
  rfl

theorem read_pretty (hwf : value.WellFormed) (hlimit : value.excess? limits 0 = none) :
    read limits value.pretty = .ok value := by
  rw [read, pretty, String.toList_ofList, ← written_indented]
  exact read_written .indented hwf hlimit

theorem read_compact (hwf : value.WellFormed) (hlimit : value.excess? limits 0 = none) :
    read limits value.compact = .ok value := by
  rw [read, compact, String.toList_ofList, ← written_oneLine 0]
  exact read_written .oneLine hwf hlimit

end Read

/-! ## No limits -/

mutual

/-- Nothing is beyond limits that are not there. -/
theorem excess?_unlimited (level : Nat) : ∀ v, excess? .unlimited level v = none
  | .null => rfl
  | .bool _ => rfl
  | .int _ => rfl
  | .real _ => rfl
  | .str _ => rfl
  | .arr items => itemsExcess?_unlimited (level + 1) items
  | .obj members => membersExcess?_unlimited (level + 1) members

theorem itemsExcess?_unlimited (level : Nat) : ∀ items, itemsExcess? .unlimited level items = none
  | [] => rfl
  | item :: items => by
    rw [itemsExcess?, excess?_unlimited level item, itemsExcess?_unlimited level items]
    rfl

theorem membersExcess?_unlimited (level : Nat) :
    ∀ members, membersExcess? .unlimited level members = none
  | [] => rfl
  | (_, value) :: members => by
    rw [membersExcess?, excess?_unlimited level value, membersExcess?_unlimited level members]
    rfl

end

theorem read?_compact {value : Json} (hwf : value.WellFormed) :
    read? value.compact = some value := by
  rw [read?, read_compact hwf (excess?_unlimited 0 value)]
  rfl

end SpecDraft.Json
