import SpecDraft.Session.Basic

/-!
# Running actions

An action that can fail is a function from the surroundings to a result and the surroundings
afterwards. Actions are taken apart along their steps: what a sequence of two did when it
succeeded (`run_bind_ok`), and what it did when it failed (`run_bind_error`).
-/
set_option autoImplicit false

namespace SpecDraft.Action

variable {σ α β : Type} {a : ExceptT Failure (StateM σ) α}
  {f : α → ExceptT Failure (StateM σ) β} {s s' : σ}

@[simp] theorem run_get (s : σ) :
    (get : ExceptT Failure (StateM σ) σ).run s = (.ok s, s) := rfl

@[simp] theorem run_modify (change : σ → σ) (s : σ) :
    (modify change : ExceptT Failure (StateM σ) Unit).run s = (.ok (), change s) := rfl

@[simp] theorem run_lift (result : Outcome α) (s : σ) :
    (liftM result : ExceptT Failure (StateM σ) α).run s = (result, s) := by
  cases result <;> rfl

theorem run_bind_of_ok {x : α} (h : a.run s = (.ok x, s')) :
    (a >>= f).run s = (f x).run s' := by
  change (match a.run s with | (result, after) => ExceptT.bindCont f result after) = _
  rw [h]
  rfl

theorem run_bind_of_error {failure : Failure} (h : a.run s = (.error failure, s')) :
    (a >>= f).run s = (.error failure, s') := by
  change (match a.run s with | (result, after) => ExceptT.bindCont f result after) = _
  rw [h]
  rfl

theorem run_tryCatch (a : ExceptT Failure (StateM σ) α)
    (g : Failure → ExceptT Failure (StateM σ) α) (s : σ) :
    (tryCatch a g).run s = match a.run s with
      | (.ok x, after) => (.ok x, after)
      | (.error failure, after) => (g failure).run after := by
  simp only [tryCatch, tryCatchThe, MonadExceptOf.tryCatch, ExceptT.tryCatch, ExceptT.run,
    ExceptT.mk, bind, StateT.bind]
  rcases (a s : Except Failure α × σ) with ⟨_ | _, _⟩ <;> rfl

/-- What a sequence of two actions did when it succeeded. -/
theorem run_bind_ok {y : β} (h : (a >>= f).run s = (.ok y, s')) :
    ∃ x mid, a.run s = (.ok x, mid) ∧ (f x).run mid = (.ok y, s') := by
  rcases hrun : a.run s with ⟨failure | x, mid⟩
  · rw [run_bind_of_error hrun] at h
    cases h
  · rw [run_bind_of_ok hrun] at h
    exact ⟨x, mid, rfl, h⟩

/-- What a sequence of two actions did when it failed. -/
theorem run_bind_error {failure : Failure} (h : (a >>= f).run s = (.error failure, s')) :
    a.run s = (.error failure, s') ∨
      ∃ x mid, a.run s = (.ok x, mid) ∧ (f x).run mid = (.error failure, s') := by
  rcases hrun : a.run s with ⟨failure' | x, mid⟩
  · rw [run_bind_of_error hrun] at h
    cases h
    exact .inl rfl
  · rw [run_bind_of_ok hrun] at h
    exact .inr ⟨x, mid, rfl, h⟩

theorem bind_ok {x : Outcome α} {g : α → Outcome β} {y : β} :
    (x >>= g) = .ok y ↔ ∃ a, x = .ok a ∧ g a = .ok y := by
  cases x with
  | error failure => exact ⟨fun h => (by cases h), fun ⟨_, h, _⟩ => (by cases h)⟩
  | ok a => exact ⟨fun h => ⟨a, rfl, h⟩, fun ⟨_, heq, h⟩ => (by cases heq; exact h)⟩

theorem mapError_ok {ε ε' : Type} {g : ε → ε'} {result : Except ε α} {x : α} :
    result.mapError g = .ok x ↔ result = .ok x := by
  cases result with
  | error failure => exact ⟨fun h => (by cases h), fun h => (by cases h)⟩
  | ok y => exact ⟨fun h => (by cases h; rfl), fun h => (by cases h; rfl)⟩

theorem bind_error {x : Outcome α} {g : α → Outcome β} {failure : Failure} :
    (x >>= g) = .error failure ↔ x = .error failure ∨ ∃ a, x = .ok a ∧ g a = .error failure := by
  cases x with
  | error cause =>
    refine ⟨fun h => .inl (by cases h; rfl), fun h => ?_⟩
    rcases h with h | ⟨_, h, _⟩
    · cases h
      rfl
    · cases h
  | ok a =>
    refine ⟨fun h => .inr ⟨a, rfl, h⟩, fun h => ?_⟩
    rcases h with h | ⟨_, heq, h⟩
    · cases h
    · cases heq
      exact h

theorem mapError_error {ε ε' : Type} {g : ε → ε'} {result : Except ε α} {cause : ε'} :
    result.mapError g = .error cause ↔ ∃ failure, result = .error failure ∧ g failure = cause := by
  cases result with
  | error failure =>
    refine ⟨fun h => ⟨failure, rfl, by cases h; rfl⟩, fun ⟨_, heq, h⟩ => ?_⟩
    cases heq
    exact congrArg Except.error h
  | ok x => exact ⟨fun h => (by cases h), fun ⟨_, h, _⟩ => (by cases h)⟩

/-! ## Relations that every step keeps -/

/-- Whether the surroundings after an action are related to those before it, whatever its
result. -/
def Keeps (R : σ → σ → Prop) (a : ExceptT Failure (StateM σ) α) : Prop := ∀ s, R s (a.run s).2

section Keeps
variable {R : σ → σ → Prop}

theorem Keeps.of_run (h : Keeps R a) {result : Except Failure α} (hrun : a.run s = (result, s')) :
    R s s' := by
  have hs := h s
  rwa [hrun] at hs

theorem Keeps.pure (hrefl : ∀ s, R s s) (x : α) :
    Keeps R (pure x : ExceptT Failure (StateM σ) α) := hrefl

theorem Keeps.throw (hrefl : ∀ s, R s s) (failure : Failure) :
    Keeps R (throw failure : ExceptT Failure (StateM σ) α) := hrefl

theorem Keeps.lift (hrefl : ∀ s, R s s) (result : Outcome α) :
    Keeps R (liftM result : ExceptT Failure (StateM σ) α) := by
  intro s
  rw [run_lift]
  exact hrefl s

theorem Keeps.bind (htrans : ∀ a b c, R a b → R b c → R a c) (ha : Keeps R a)
    (hf : ∀ x, Keeps R (f x)) : Keeps R (a >>= f) := by
  intro s
  rcases hrun : a.run s with ⟨failure | x, mid⟩
  · rw [run_bind_of_error hrun]
    exact ha.of_run hrun
  · rw [run_bind_of_ok hrun]
    exact htrans s mid _ (ha.of_run hrun) (hf x mid)

theorem Keeps.tryCatch (htrans : ∀ a b c, R a b → R b c → R a c) (ha : Keeps R a)
    {g : Failure → ExceptT Failure (StateM σ) α} (hg : ∀ failure, Keeps R (g failure)) :
    Keeps R (tryCatch a g) := by
  intro s
  rw [run_tryCatch]
  rcases hrun : a.run s with ⟨failure | x, mid⟩
  · exact htrans s mid _ (ha.of_run hrun) (hg failure mid)
  · exact ha.of_run hrun

end Keeps

/-! ## Failures of a kind -/

/-- Whether every failure of an action is of a kind. -/
def Throws (P : Failure → Prop) (a : ExceptT Failure (StateM σ) α) : Prop :=
  ∀ s failure s', a.run s = (.error failure, s') → P failure

section Throws
variable {P : Failure → Prop}

theorem Throws.pure (x : α) : Throws P (pure x : ExceptT Failure (StateM σ) α) := by
  rintro s failure s' ⟨⟩

theorem Throws.throw {failure : Failure} (h : P failure) :
    Throws P (throw failure : ExceptT Failure (StateM σ) α) := by
  rintro s _ s' ⟨⟩
  exact h

theorem Throws.get : Throws P (get : ExceptT Failure (StateM σ) σ) := by
  rintro s failure s' ⟨⟩

theorem Throws.modify (change : σ → σ) :
    Throws P (modify change : ExceptT Failure (StateM σ) Unit) := by
  rintro s failure s' ⟨⟩

theorem Throws.bind (ha : Throws P a) (hf : ∀ x, Throws P (f x)) : Throws P (a >>= f) := by
  intro s failure s' h
  rcases run_bind_error h with hfirst | ⟨x, mid, -, hrest⟩
  · exact ha s failure s' hfirst
  · exact hf x mid failure s' hrest

/-- A handler is given failures of the kind. -/
theorem Throws.tryCatch (ha : Throws P a) {g : Failure → ExceptT Failure (StateM σ) α}
    (hg : ∀ failure, P failure → Throws P (g failure)) : Throws P (tryCatch a g) := by
  intro s failure s' h
  rw [run_tryCatch] at h
  rcases hrun : a.run s with ⟨cause | x, mid⟩
  · rw [hrun] at h
    exact hg cause (ha s cause mid hrun) mid failure s' h
  · rw [hrun] at h
    cases h

end Throws

end SpecDraft.Action
