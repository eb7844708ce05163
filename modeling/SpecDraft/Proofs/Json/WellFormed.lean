import SpecDraft.Json.Reader
import SpecDraft.Proofs.Json.Members
import SpecDraft.Proofs.Number.Rounding

/-!
# Well-formed values

A value is well-formed when its objects name each key once and its binary64 numbers are ones
that the format has. Whatever the reader returns is well-formed (`wellFormed_of_read`): of two
members with one key it keeps one, and a decimal is rounded.
-/
set_option autoImplicit false

namespace SpecDraft

namespace Json

mutual

/-- Whether objects name each key once and numbers are ones of the format. -/
def WellFormed : Json → Prop
  | .real x => x.Representable
  | .arr items => ItemsWellFormed items
  | .obj members => (Members.keys members).Nodup ∧ MembersWellFormed members
  | .null | .bool _ | .int _ | .str _ => True

/-- Whether every value of a list is well-formed. -/
def ItemsWellFormed : List Json → Prop
  | [] => True
  | item :: items => item.WellFormed ∧ ItemsWellFormed items

/-- Whether the value of every member is well-formed. -/
def MembersWellFormed : List (String × Json) → Prop
  | [] => True
  | (_, value) :: members => value.WellFormed ∧ MembersWellFormed members

end

theorem wellFormed_null : WellFormed .null := trivial

theorem wellFormed_str (text : String) : WellFormed (.str text) := trivial

theorem wellFormed_ofText? (text : Option String) : (ofText? text).WellFormed := by
  cases text <;> trivial

theorem itemsWellFormed_iff {items : List Json} :
    ItemsWellFormed items ↔ ∀ item ∈ items, item.WellFormed := by
  induction items with
  | nil => simp [ItemsWellFormed]
  | cons item items ih => simp [ItemsWellFormed, ih]

theorem membersWellFormed_iff {members : Members} :
    MembersWellFormed members ↔ ∀ pair ∈ members, pair.2.WellFormed := by
  induction members with
  | nil => simp [MembersWellFormed]
  | cons pair members ih => simp [MembersWellFormed, ih]

end Json

namespace Members

/-- Members with distinct keys and well-formed values. -/
structure WellFormed (members : Members) : Prop where
  nodup : members.keys.Nodup
  values : ∀ pair ∈ members, pair.2.WellFormed

theorem wellFormed_nil : WellFormed [] := ⟨List.nodup_nil, by simp⟩

theorem wellFormed_obj {members : Members} :
    (Json.obj members).WellFormed ↔ members.WellFormed := by
  rw [Json.WellFormed, Json.membersWellFormed_iff]
  exact ⟨fun ⟨hn, hv⟩ => ⟨hn, hv⟩, fun ⟨hn, hv⟩ => ⟨hn, hv⟩⟩

section
variable {members updates : Members}

theorem WellFormed.get? (h : members.WellFormed) {key : String} {value : Json}
    (hget : members.get? key = some value) : value.WellFormed :=
  h.values _ (mem_of_get? hget)

theorem WellFormed.getD (h : members.WellFormed) {default : Json} (hdefault : default.WellFormed)
    (key : String) : ((members.get? key).getD default).WellFormed := by
  cases hget : members.get? key with
  | none => exact hdefault
  | some value => exact h.get? hget

theorem WellFormed.put (h : members.WellFormed) {value : Json} (hvalue : value.WellFormed)
    (key : String) : (members.put key value).WellFormed where
  nodup := Assoc.nodup_names_put h.nodup key value
  values pair hpair := by
    rcases Assoc.mem_put hpair with rfl | hpair
    · exact hvalue
    · exact h.values pair hpair

theorem WellFormed.merge (h : members.WellFormed) (hvalues : ∀ pair ∈ updates, pair.2.WellFormed) :
    (members.merge updates).WellFormed := by
  induction updates generalizing members with
  | nil => exact h
  | cons pair updates ih =>
    obtain ⟨key, value⟩ := pair
    exact ih (h.put (hvalues (key, value) List.mem_cons_self) key)
      (fun p hp => hvalues p (List.mem_cons_of_mem _ hp))

theorem WellFormed.filter (h : members.WellFormed) (p : String × Json → Bool) :
    WellFormed (members.filter p) where
  nodup := h.nodup.sublist (List.filter_sublist.map _)
  values pair hpair := h.values pair (List.mem_filter.mp hpair).1

theorem ofPairs_wellFormed {pairs : Members} (h : ∀ pair ∈ pairs, pair.2.WellFormed) :
    (Members.ofPairs pairs).WellFormed :=
  wellFormed_nil.merge h

end

end Members

/-! ## What the reader returns -/

namespace Json.Reader

variable {limits : Limits}

/-- Whether the value that was read, if any, is accepted by a predicate. -/
def Returns {α : Type} (p : α → Prop) (parsed : Parsed α) : Prop :=
  ∀ a rest, parsed = .ok (a, rest) → p a

theorem returns_error {α : Type} {p : α → Prop} {refusal : Refusal} :
    Returns p (.error refusal) := fun _ _ h => by cases h

theorem returns_ok {α : Type} {p : α → Prop} {a : α} {rest : List Char} (h : p a) :
    Returns p (.ok (a, rest)) := fun _ _ heq => by cases heq; exact h

theorem Returns.map {α β : Type} {p : α → Prop} {q : β → Prop} {parsed : Parsed α} {f : α → β}
    (h : Returns p parsed) (hf : ∀ a, p a → q (f a)) :
    Returns q (parsed.map fun (a, rest) => (f a, rest)) := by
  cases parsed with
  | error refusal => exact returns_error
  | ok pair => exact returns_ok (hf pair.1 (h pair.1 pair.2 rfl))

theorem unsigned_wellFormed (negative : Bool) (s : List Char) :
    Returns WellFormed (unsigned limits negative s) := by
  unfold unsigned
  dsimp only
  split
  · exact returns_error
  split
  · split
    · exact returns_error
    · exact returns_ok trivial
  · exact returns_ok (Binary64.ofDecimal_representable ..)

theorem number_wellFormed (s : List Char) : Returns WellFormed (number limits s) := by
  unfold number
  split
  · exact returns_ok trivial
  · exact returns_ok trivial
  · exact returns_ok trivial
  · exact unsigned_wellFormed _ _
  · exact unsigned_wellFormed _ _

/-- What a reader with some fuel returns is well-formed. -/
structure ReturnsWellFormed (limits : Limits) (fuel : Nat) : Prop where
  value : ∀ level s, Returns WellFormed (value limits fuel level s)
  items : ∀ level s, Returns (fun items => ∀ item ∈ items, item.WellFormed)
    (items limits fuel level s)
  members : ∀ level s, Returns (fun members => ∀ pair ∈ members, pair.2.WellFormed)
    (members limits fuel level s)

variable {fuel : Nat}

theorem value_wellFormed (h : ReturnsWellFormed limits fuel) (level : Nat) (s : List Char) :
    Returns WellFormed (value limits (fuel + 1) level s) := by
  unfold value
  split
  · rename_i rest
    cases string? rest with
    | none => exact returns_error
    | some parsed => exact returns_ok trivial
  · split
    · exact returns_error
    split
    · exact returns_ok (Members.wellFormed_obj.mpr Members.wellFormed_nil)
    · exact (h.members _ _).map fun pairs hpairs =>
        Members.wellFormed_obj.mpr (Members.ofPairs_wellFormed hpairs)
  · split
    · exact returns_error
    split
    · exact returns_ok trivial
    · exact (h.items _ _).map fun items hitems => itemsWellFormed_iff.mpr hitems
  · exact returns_ok trivial
  · exact returns_ok trivial
  · exact returns_ok trivial
  · exact number_wellFormed s

theorem items_wellFormed (h : ReturnsWellFormed limits fuel) (level : Nat) (s : List Char) :
    Returns (fun items => ∀ item ∈ items, item.WellFormed)
      (items limits (fuel + 1) level s) := by
  unfold items
  split
  · exact returns_error
  · rename_i item rest hitem
    have hfirst := h.value level s item rest hitem
    split
    · exact returns_ok (by simpa using hfirst)
    · exact (h.items _ _).map fun items hitems => by simpa using ⟨hfirst, hitems⟩
    · exact returns_error

theorem members_wellFormed (h : ReturnsWellFormed limits fuel) (level : Nat) (s : List Char) :
    Returns (fun members => ∀ pair ∈ members, pair.2.WellFormed)
      (members limits (fuel + 1) level s) := by
  unfold members
  split
  · split
    · exact returns_error
    split
    · split
      · exact returns_error
      · rename_i value rest hvalue
        have hfirst := h.value level _ value rest hvalue
        split
        · exact returns_ok (by simpa using hfirst)
        · refine (h.members _ _).map fun pairs hpairs pair hpair => ?_
          rcases List.mem_cons.mp hpair with rfl | hpair
          · exact hfirst
          · exact hpairs pair hpair
        · exact returns_error
    · exact returns_error
  · exact returns_error

theorem returnsWellFormed (limits : Limits) : ∀ fuel, ReturnsWellFormed limits fuel
  | 0 => ⟨fun _ _ => returns_error, fun _ _ => returns_error, fun _ _ => returns_error⟩
  | fuel + 1 =>
    have h := returnsWellFormed limits fuel
    ⟨value_wellFormed h, items_wellFormed h, members_wellFormed h⟩

end Json.Reader

/-- **What is read is well-formed.** -/
theorem Json.wellFormed_of_read {limits : Limits} {s : String} {value : Json}
    (h : Json.read limits s = .ok value) : value.WellFormed := by
  unfold Json.read Reader.read at h
  split at h
  · rename_i parsed rest hparsed
    split at h
    · cases h
      exact (Reader.returnsWellFormed limits _).value _ _ _ _ hparsed
    · cases h
  · cases h

end SpecDraft
