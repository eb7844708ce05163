import SpecDraft.Artifact
import SpecDraft.Proofs.Action

/-!
# The hours of a plan

A plan is shown with the sum of the hours of its tasks. Real numbers can always be added up
(`Quantity.exists_sum`). A whole number that is too large to be made a real one can keep a plan from
being shown, and nothing else can (`Plan.templateData_error`).
-/
set_option autoImplicit false

namespace SpecDraft

namespace Quantity

variable {a b total : Quantity} {quantities : List Quantity} {failure : Failure}

theorem toReal_error (h : a.toReal = .error failure) : ∃ message, failure = .overflow message := by
  cases a with
  | whole n =>
    rw [toReal, ofWhole] at h
    cases hfound : Binary64.ofInt? n with
    | none =>
      rw [hfound] at h
      cases h
      exact ⟨_, rfl⟩
    | some x =>
      rw [hfound] at h
      cases h
  | real x => cases h

/-- Only a whole number that is too large keeps two quantities from being added. -/
theorem add_error (h : add a b = .error failure) : ∃ message, failure = .overflow message := by
  have hreals (hmixed : add a b =
      (do return real (Binary64.add (← a.toReal) (← b.toReal)))) :
      ∃ message, failure = .overflow message := by
    rw [hmixed] at h
    cases ha : a.toReal with
    | error other =>
      rw [ha] at h
      cases h
      exact toReal_error ha
    | ok x =>
      cases hb : b.toReal with
      | error other =>
        rw [ha, hb] at h
        cases h
        exact toReal_error hb
      | ok y =>
        rw [ha, hb] at h
        cases h
  cases a with
  | whole n =>
    cases b with
    | whole m => cases h
    | real y => exact hreals rfl
  | real x => exact hreals rfl

theorem foldlM_add_error (h : quantities.foldlM add total = .error failure) :
    ∃ message, failure = .overflow message := by
  induction quantities generalizing total with
  | nil => cases h
  | cons a quantities ih =>
    rw [List.foldlM_cons] at h
    cases hadd : total.add a with
    | error other =>
      rw [hadd] at h
      cases h
      exact add_error hadd
    | ok next =>
      rw [hadd] at h
      exact ih h

/-- Real numbers can always be added up. -/
theorem exists_sum (h : ∀ a ∈ quantities, ∃ x, a = real x) :
    ∃ total, sum quantities = .ok total := by
  have hfold {rest : List Quantity} (hrest : ∀ a ∈ rest, ∃ x, a = real x) (x : Binary64) :
      ∃ total, rest.foldlM add (real x) = .ok total := by
    induction rest generalizing x with
    | nil => exact ⟨_, rfl⟩
    | cons a rest ih =>
      obtain ⟨⟨y, rfl⟩, htail⟩ := List.forall_mem_cons.mp hrest
      exact ih htail (Binary64.add x y)
  cases quantities with
  | nil => exact ⟨_, rfl⟩
  | cons a quantities =>
    obtain ⟨⟨y, rfl⟩, hrest⟩ := List.forall_mem_cons.mp h
    have hzero : Binary64.ofInt? 0 = some (.finite false 0) := by decide +kernel
    have hfirst : (whole 0).add (real y) = .ok (real (Binary64.add (.finite false 0) y)) := by
      rw [add, toReal, ofWhole, hzero]
      · rfl
      · intro n m _ hm
        cases hm
    rw [sum, List.foldlM_cons, hfirst]
    exact hfold hrest (Binary64.add (.finite false 0) y)

end Quantity

namespace Plan

variable {plan : Plan} {failure : Failure}

/-- A plan has its data unless its hours cannot be added up. -/
theorem templateData_error (h : plan.templateData = .error failure) :
    ∃ message, failure = .overflow message := by
  cases htotal : plan.totalHours with
  | ok hours =>
    rw [templateData, htotal] at h
    cases h
  | error other =>
    rw [templateData, htotal] at h
    cases h
    exact Quantity.foldlM_add_error htotal

theorem exists_templateData (h : ∀ task ∈ plan.tasks, ∃ x, task.hours = .real x) :
    ∃ data, plan.templateData = .ok data := by
  have hhours : ∀ a ∈ plan.tasks.map (·.hours), ∃ x, a = Quantity.real x := by
    simpa using h
  obtain ⟨hours, htotal⟩ := Quantity.exists_sum hhours
  have hdata : plan.totalHours = .ok hours := htotal
  rw [templateData, hdata]
  exact ⟨_, rfl⟩

end Plan

end SpecDraft
