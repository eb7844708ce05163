import Mathlib.Data.List.Nodup
import SpecDraft.Assoc

/-!
# Looking up named things

What putting a thing under a name does to the names of a list and to what is found under them.
-/
set_option autoImplicit false

namespace SpecDraft.Assoc

variable {α : Type} {items : List (String × α)} {name other : String} {item : α}

@[simp] theorem names_nil : names ([] : List (String × α)) = [] := rfl

@[simp] theorem names_cons (name : String) (item : α) (items : List (String × α)) :
    names ((name, item) :: items) = name :: names items := rfl

@[simp] theorem names_append (a b : List (String × α)) : names (a ++ b) = names a ++ names b :=
  List.map_append

theorem lookup_cons_self (name : String) (item : α) (items : List (String × α)) :
    ((name, item) :: items).lookup name = some item := by
  simp

theorem lookup_cons_ne (h : other ≠ name) (item : α) (items : List (String × α)) :
    ((other, item) :: items).lookup name = items.lookup name := by
  rw [List.lookup_cons, show (name == other) = false by simpa using h.symm]

theorem mem_names_iff : name ∈ names items ↔ ∃ item, items.lookup name = some item := by
  induction items with
  | nil => simp
  | cons pair items ih =>
    obtain ⟨k, v⟩ := pair
    rw [names_cons, List.mem_cons, ih]
    by_cases h : k = name
    · subst h
      simp
    · rw [lookup_cons_ne h]
      simp [Ne.symm h]

theorem lookup_eq_none_iff : items.lookup name = none ↔ name ∉ names items := by
  rw [mem_names_iff, ← Option.isSome_iff_exists, Bool.not_eq_true, Option.isSome_eq_false_iff,
    Option.isNone_iff_eq_none]

theorem mem_of_lookup (h : items.lookup name = some item) : (name, item) ∈ items := by
  induction items with
  | nil => cases h
  | cons pair items ih =>
    obtain ⟨k, v⟩ := pair
    by_cases hk : k = name
    · subst hk
      rw [lookup_cons_self] at h
      injection h with h
      rw [h]
      exact List.mem_cons_self
    · rw [lookup_cons_ne hk] at h
      exact List.mem_cons_of_mem _ (ih h)

/-- Where no name comes twice, everything is found under its name. -/
theorem lookup_of_mem {pair : String × α} (hnames : (names items).Nodup) (h : pair ∈ items) :
    items.lookup pair.1 = some pair.2 := by
  induction items with
  | nil => cases h
  | cons first items ih =>
    obtain ⟨hnew, hnames⟩ := List.nodup_cons.mp hnames
    rcases List.mem_cons.mp h with rfl | hmem
    · exact lookup_cons_self _ _ _
    · have hne : first.1 ≠ pair.1 := fun heq => hnew (heq ▸ List.mem_map_of_mem hmem)
      exact (lookup_cons_ne hne _ _).trans (ih hnames hmem)

/-- A new name goes to the end. -/
theorem put_of_not_mem (h : name ∉ names items) :
    put items name item = items ++ [(name, item)] := by
  induction items with
  | nil => rfl
  | cons pair items ih =>
    obtain ⟨k, v⟩ := pair
    rw [names_cons, List.mem_cons, not_or] at h
    rw [put, if_neg (Ne.symm h.1), ih h.2]
    rfl

theorem names_put_of_mem (h : name ∈ names items) : names (put items name item) = names items := by
  induction items with
  | nil => cases h
  | cons pair items ih =>
    obtain ⟨k, v⟩ := pair
    rw [put]
    split
    · rfl
    · rename_i hne
      rw [names_cons, List.mem_cons] at h
      rw [names_cons, names_cons, ih (h.resolve_left (Ne.symm hne))]

theorem names_put (items : List (String × α)) (name : String) (item : α) :
    names (put items name item) =
      if name ∈ names items then names items else names items ++ [name] := by
  split
  · exact names_put_of_mem ‹_›
  · rw [put_of_not_mem ‹_›, names_append]
    rfl

/-- Distinct names stay distinct. -/
theorem nodup_names_put (h : (names items).Nodup) (name : String) (item : α) :
    (names (put items name item)).Nodup := by
  rw [names_put]
  split
  · exact h
  · rw [List.nodup_append]
    refine ⟨h, List.nodup_singleton name, ?_⟩
    intro k hk k' hk' heq
    rw [List.mem_singleton] at hk'
    exact ‹name ∉ names items› (hk' ▸ heq ▸ hk)

/-- What is in the list afterwards is the new thing or was there before. -/
theorem mem_put {pair : String × α} (h : pair ∈ put items name item) :
    pair = (name, item) ∨ pair ∈ items := by
  induction items with
  | nil => exact .inl (List.mem_singleton.mp h)
  | cons first items ih =>
    obtain ⟨k, v⟩ := first
    rw [put] at h
    split at h
    · rename_i hk
      rcases List.mem_cons.mp h with rfl | h
      · exact .inl (by rw [hk])
      · exact .inr (List.mem_cons_of_mem _ h)
    · rcases List.mem_cons.mp h with rfl | h
      · exact .inr List.mem_cons_self
      · exact (ih h).imp_right (List.mem_cons_of_mem _)

theorem lookup_put_self (items : List (String × α)) (name : String) (item : α) :
    (put items name item).lookup name = some item := by
  induction items with
  | nil => exact lookup_cons_self name item []
  | cons pair items ih =>
    obtain ⟨k, v⟩ := pair
    rw [put]
    split
    · subst k
      exact lookup_cons_self name item items
    · rw [lookup_cons_ne ‹_›]
      exact ih

theorem lookup_put_ne (h : other ≠ name) (items : List (String × α)) (item : α) :
    (put items name item).lookup other = items.lookup other := by
  induction items with
  | nil => exact lookup_cons_ne (Ne.symm h) item []
  | cons pair items ih =>
    obtain ⟨k, v⟩ := pair
    rw [put]
    split
    · subst k
      rw [lookup_cons_ne (Ne.symm h), lookup_cons_ne (Ne.symm h)]
    · by_cases hk : k = other
      · subst hk
        rw [lookup_cons_self, lookup_cons_self]
      · rw [lookup_cons_ne hk, lookup_cons_ne hk, ih]

theorem lookup_append (a b : List (String × α)) (name : String) :
    (a ++ b).lookup name = (a.lookup name).or (b.lookup name) := by
  induction a with
  | nil => rfl
  | cons pair a ih =>
    obtain ⟨k, v⟩ := pair
    by_cases hk : k = name
    · subst hk
      rw [List.cons_append, lookup_cons_self, lookup_cons_self, Option.some_or]
    · rw [List.cons_append, lookup_cons_ne hk, lookup_cons_ne hk, ih]

/-- Two lists with the same distinct names that hold the same under each are equal. -/
theorem ext_of_names {a b : List (String × α)} (hnames : names a = names b)
    (hnodup : (names a).Nodup) (hlookup : ∀ name, a.lookup name = b.lookup name) : a = b := by
  induction a generalizing b with
  | nil =>
    cases b with
    | nil => rfl
    | cons pair b => cases hnames
  | cons pair a ih =>
    cases b with
    | nil => cases hnames
    | cons pair' b =>
      obtain ⟨k, v⟩ := pair
      obtain ⟨k', v'⟩ := pair'
      rw [names_cons, names_cons] at hnames
      obtain ⟨rfl, htail⟩ := List.cons.inj hnames
      obtain ⟨hnew, hnodup⟩ := List.nodup_cons.mp hnodup
      have hfirst := hlookup k
      rw [lookup_cons_self, lookup_cons_self] at hfirst
      obtain rfl := Option.some.inj hfirst
      have hrest (name : String) : a.lookup name = b.lookup name := by
        by_cases hk : k = name
        · subst hk
          rw [lookup_eq_none_iff.mpr hnew, lookup_eq_none_iff.mpr (htail ▸ hnew)]
        · have h := hlookup name
          rwa [lookup_cons_ne hk, lookup_cons_ne hk] at h
      rw [ih htail hnodup hrest]

theorem lookup_filter_ne (h : other ≠ name) (items : List (String × α)) :
    (items.filter (·.1 != name)).lookup other = items.lookup other := by
  induction items with
  | nil => rfl
  | cons pair items ih =>
    obtain ⟨k, v⟩ := pair
    by_cases hk : k = name
    · subst hk
      rw [List.filter_cons_of_neg (by simp), ih, lookup_cons_ne (Ne.symm h)]
    · rw [List.filter_cons_of_pos (by simpa using hk)]
      by_cases ho : k = other
      · subst ho
        rw [lookup_cons_self, lookup_cons_self]
      · rw [lookup_cons_ne ho, lookup_cons_ne ho, ih]

end SpecDraft.Assoc
