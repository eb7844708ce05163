import SpecDraft.Json.Basic
import SpecDraft.Proofs.Assoc

/-!
# Member lists

What looking up, putting and merging do to the keys and the values of a list of members.
-/
set_option autoImplicit false

namespace SpecDraft.Members

/-- The keys of a list of members, in order. -/
def keys (members : Members) : List String := Assoc.names members

@[simp] theorem keys_nil : keys [] = [] := rfl

@[simp] theorem keys_cons (key : String) (value : Json) (members : Members) :
    keys ((key, value) :: members) = key :: keys members := rfl

@[simp] theorem keys_append (a b : Members) : keys (a ++ b) = a.keys ++ b.keys :=
  Assoc.names_append a b

theorem get?_cons_self (key : String) (value : Json) (members : Members) :
    get? ((key, value) :: members) key = some value :=
  Assoc.lookup_cons_self key value members

theorem get?_cons_ne {key other : String} (h : other ≠ key) (value : Json) (members : Members) :
    get? ((other, value) :: members) key = get? members key :=
  Assoc.lookup_cons_ne h value members

theorem mem_keys_iff {members : Members} {key : String} :
    key ∈ members.keys ↔ ∃ value, members.get? key = some value :=
  Assoc.mem_names_iff

theorem get?_eq_none_iff {members : Members} {key : String} :
    members.get? key = none ↔ key ∉ members.keys :=
  Assoc.lookup_eq_none_iff

theorem mem_of_get? {members : Members} {key : String} {value : Json}
    (h : members.get? key = some value) : (key, value) ∈ members :=
  Assoc.mem_of_lookup h

/-- A new key goes to the end. -/
theorem put_of_not_mem {members : Members} {key : String} {value : Json}
    (h : key ∉ members.keys) : members.put key value = members ++ [(key, value)] :=
  Assoc.put_of_not_mem h

theorem keys_put (members : Members) (key : String) (value : Json) :
    (members.put key value).keys =
      if key ∈ members.keys then members.keys else members.keys ++ [key] :=
  Assoc.names_put members key value

theorem get?_put_self (members : Members) (key : String) (value : Json) :
    (members.put key value).get? key = some value :=
  Assoc.lookup_put_self members key value

theorem get?_put_ne {key other : String} (h : other ≠ key) (members : Members) (value : Json) :
    (members.put key value).get? other = members.get? other :=
  Assoc.lookup_put_ne h members value

theorem get?_put (members : Members) (key : String) (value : Json) (name : String) :
    (members.put key value).get? name =
      if name = key then some value else members.get? name := by
  split
  · rename_i hkey
    rw [hkey, get?_put_self]
  · exact get?_put_ne ‹_› members value

theorem get?_append (a b : Members) (key : String) :
    (a ++ b).get? key = (a.get? key).or (b.get? key) :=
  Assoc.lookup_append a b key

theorem has_eq_false_iff {members : Members} {key : String} :
    members.has key = false ↔ key ∉ members.keys := by
  rw [has, List.any_eq_false, keys, Assoc.names, List.mem_map]
  constructor
  · rintro h ⟨pair, hpair, rfl⟩
    exact h pair hpair (beq_self_eq_true _)
  · intro h pair hpair heq
    exact h ⟨pair, hpair, by simpa using heq⟩

section Without
variable {members : Members} {listed : List String} {key : String}

theorem keys_without (members : Members) (listed : List String) :
    (members.without listed).keys = members.keys.filter fun key => !listed.contains key := by
  rw [keys, keys, Assoc.names, Assoc.names, List.filter_map]
  rfl

theorem not_mem_of_mem_keys_without (h : key ∈ (members.without listed).keys) : key ∉ listed := by
  rw [keys_without, List.mem_filter] at h
  simpa using h.2

theorem get?_without_of_not_mem (h : key ∉ listed) :
    (members.without listed).get? key = members.get? key := by
  induction members with
  | nil => rfl
  | cons pair members ih =>
    obtain ⟨k, v⟩ := pair
    rw [without] at ih ⊢
    by_cases hk : k ∈ listed
    · have hne : k ≠ key := by
        rintro rfl
        exact h hk
      rw [List.filter_cons_of_neg (by simpa using hk), ih, get?_cons_ne hne]
    · rw [List.filter_cons_of_pos (by simpa using hk)]
      by_cases heq : k = key
      · subst heq
        rw [get?_cons_self, get?_cons_self]
      · rw [get?_cons_ne heq, get?_cons_ne heq, ih]

theorem without_eq_self (h : ∀ key ∈ members.keys, key ∉ listed) :
    members.without listed = members := by
  rw [without, List.filter_eq_self]
  intro pair hpair
  simpa using h pair.1 (List.mem_map_of_mem hpair)

theorem without_eq_nil (h : ∀ key ∈ members.keys, key ∈ listed) :
    members.without listed = [] := by
  rw [without, List.filter_eq_nil_iff]
  intro pair hpair
  simpa using h pair.1 (List.mem_map_of_mem hpair)

theorem without_append (a b : Members) (listed : List String) :
    (a ++ b).without listed = a.without listed ++ b.without listed :=
  List.filter_append ..

end Without

/-- Merging gives new keys places after the old ones. -/
theorem keys_merge (members updates : Members) :
    ∃ new, (members.merge updates).keys = members.keys ++ new := by
  induction updates generalizing members with
  | nil => exact ⟨[], (List.append_nil _).symm⟩
  | cons pair updates ih =>
    obtain ⟨key, value⟩ := pair
    obtain ⟨new, hnew⟩ := ih (members.put key value)
    change ∃ new, (merge (members.put key value) updates).keys = _
    rw [hnew, keys_put]
    split
    · exact ⟨new, rfl⟩
    · exact ⟨key :: new, List.append_assoc ..⟩

/-- What is merged in last counts. -/
theorem get?_merge_of_not_mem {members updates : Members} {key : String}
    (h : key ∉ updates.keys) : (members.merge updates).get? key = members.get? key := by
  induction updates generalizing members with
  | nil => rfl
  | cons pair updates ih =>
    obtain ⟨k, v⟩ := pair
    rw [keys_cons, List.mem_cons, not_or] at h
    exact (ih h.2).trans (get?_put_ne h.1 members v)

/-- The members of an object overwrite those of another one. -/
theorem get?_merge (members : Members) {updates : Members} (h : updates.keys.Nodup)
    (name : String) :
    (members.merge updates).get? name = (updates.get? name).or (members.get? name) := by
  induction updates generalizing members with
  | nil => rfl
  | cons pair updates ih =>
    obtain ⟨key, value⟩ := pair
    obtain ⟨hnew, hnodup⟩ := List.nodup_cons.mp h
    refine (ih (members.put key value) hnodup).trans ?_
    rw [get?_put]
    by_cases hkey : name = key
    · subst hkey
      rw [get?_eq_none_iff.mpr hnew, get?_cons_self, if_pos rfl]
      rfl
    · rw [get?_cons_ne (Ne.symm hkey), if_neg hkey]

/-- Keys that are new and distinct go to the end, in order. -/
theorem merge_of_disjoint {members updates : Members}
    (h : (members.keys ++ updates.keys).Nodup) : members.merge updates = members ++ updates := by
  induction updates generalizing members with
  | nil => rw [List.append_nil]; rfl
  | cons pair updates ih =>
    obtain ⟨key, value⟩ := pair
    have hnew : key ∉ members.keys := by
      intro hmem
      exact (List.nodup_append.mp h).2.2 key hmem key List.mem_cons_self rfl
    have hput : members.put key value = members ++ [(key, value)] := put_of_not_mem hnew
    change merge (members.put key value) updates = _
    rw [hput, ih (by simpa using h), List.append_assoc]
    rfl

theorem ofPairs_of_nodup {pairs : Members} (h : pairs.keys.Nodup) :
    Members.ofPairs pairs = pairs :=
  @merge_of_disjoint [] pairs h

end SpecDraft.Members
