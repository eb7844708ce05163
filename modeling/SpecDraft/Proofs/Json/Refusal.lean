import SpecDraft.Json.Reader

/-!
# Refused texts

A reader without limits refuses a text only because it is malformed (`malformed_of_read_unlimited`):
the number of its digits and its nesting are never the reason.
-/
set_option autoImplicit false

namespace SpecDraft.Json.Reader

/-- Whether what is refused, if anything, is malformed. -/
def RefusesMalformed {α : Type} (parsed : Parsed α) : Prop :=
  ∀ refusal, parsed = .error refusal → refusal = .malformed

section
variable {α β : Type}

theorem refusesMalformed_ok {pair : α × List Char} :
    RefusesMalformed (.ok pair : Parsed α) := fun _ h => by cases h

theorem refusesMalformed_malformed : RefusesMalformed (.error .malformed : Parsed α) :=
  fun _ h => by cases h; rfl

theorem refusesMalformed_wellFormed (parsed : Option (α × List Char)) :
    RefusesMalformed (wellFormed parsed) := by
  cases parsed with
  | none => exact refusesMalformed_malformed
  | some pair => exact refusesMalformed_ok

theorem RefusesMalformed.map {parsed : Parsed α} (h : RefusesMalformed parsed)
    (f : α × List Char → β × List Char) : RefusesMalformed (parsed.map f) := by
  cases parsed with
  | error refusal =>
    intro refusal' heq
    cases heq
    exact h refusal rfl
  | ok pair => exact refusesMalformed_ok

end

theorem unsigned_refusesMalformed (negative : Bool) (s : List Char) :
    RefusesMalformed (unsigned .unlimited negative s) := by
  unfold unsigned
  dsimp only
  split
  · exact refusesMalformed_malformed
  split
  · exact refusesMalformed_ok
  · exact refusesMalformed_ok

theorem number_refusesMalformed (s : List Char) :
    RefusesMalformed (number .unlimited s) := by
  unfold number
  split
  · exact refusesMalformed_ok
  · exact refusesMalformed_ok
  · exact refusesMalformed_ok
  · exact unsigned_refusesMalformed _ _
  · exact unsigned_refusesMalformed _ _

/-- A reader without limits and with some fuel refuses only what is malformed. -/
structure AllRefuseMalformed (fuel : Nat) : Prop where
  value : ∀ level s, RefusesMalformed (value .unlimited fuel level s)
  items : ∀ level s, RefusesMalformed (items .unlimited fuel level s)
  members : ∀ level s, RefusesMalformed (members .unlimited fuel level s)

section Step
variable {fuel : Nat}

theorem value_refusesMalformed (h : AllRefuseMalformed fuel) (level : Nat) (s : List Char) :
    RefusesMalformed (value .unlimited (fuel + 1) level s) := by
  -- Without a limit no container is nested too deep.
  have hshallow : Limits.isTooDeep .unlimited level = false := rfl
  unfold value
  split
  · exact (refusesMalformed_wellFormed _).map _
  · rw [hshallow, if_neg Bool.false_ne_true]
    split
    · exact refusesMalformed_ok
    · exact (h.members _ _).map _
  · rw [hshallow, if_neg Bool.false_ne_true]
    split
    · exact refusesMalformed_ok
    · exact (h.items _ _).map _
  · exact refusesMalformed_ok
  · exact refusesMalformed_ok
  · exact refusesMalformed_ok
  · exact number_refusesMalformed s

theorem items_refusesMalformed (h : AllRefuseMalformed fuel) (level : Nat) (s : List Char) :
    RefusesMalformed (items .unlimited (fuel + 1) level s) := by
  unfold items
  split
  · rename_i refusal hitem
    rw [h.value level s refusal hitem]
    exact refusesMalformed_malformed
  · split
    · exact refusesMalformed_ok
    · exact (h.items _ _).map _
    · exact refusesMalformed_malformed

theorem members_refusesMalformed (h : AllRefuseMalformed fuel) (level : Nat) (s : List Char) :
    RefusesMalformed (members .unlimited (fuel + 1) level s) := by
  unfold members
  split
  · split
    · exact refusesMalformed_malformed
    split
    · split
      · rename_i refusal hvalue
        rw [h.value level _ refusal hvalue]
        exact refusesMalformed_malformed
      · split
        · exact refusesMalformed_ok
        · exact (h.members _ _).map _
        · exact refusesMalformed_malformed
    · exact refusesMalformed_malformed
  · exact refusesMalformed_malformed

end Step

/-- By induction on the fuel, of which every nested reader has one less. -/
theorem allRefuseMalformed : ∀ fuel, AllRefuseMalformed fuel
  | 0 => ⟨fun _ _ => refusesMalformed_malformed, fun _ _ => refusesMalformed_malformed,
      fun _ _ => refusesMalformed_malformed⟩
  | fuel + 1 =>
    have h := allRefuseMalformed fuel
    ⟨value_refusesMalformed h, items_refusesMalformed h, members_refusesMalformed h⟩

end SpecDraft.Json.Reader

namespace SpecDraft.Json

/-- **Without limits only malformed texts are refused.** -/
theorem malformed_of_read_unlimited {s : String} {refusal : Refusal}
    (h : read .unlimited s = .error refusal) : refusal = .malformed := by
  unfold read Reader.read at h
  split at h
  · split at h
    · cases h
    · cases h
      rfl
  · rename_i refusal' hvalue
    cases h
    exact (Reader.allRefuseMalformed _).value _ _ _ hvalue

end SpecDraft.Json
