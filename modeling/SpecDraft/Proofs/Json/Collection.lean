import SpecDraft.Json.Collection
import SpecDraft.Proofs.Action
import SpecDraft.Proofs.Json.WellFormed

/-!
# Members made of values

What a well-formed value stands for as members is well-formed too, be it an object or a list of
pairs.
-/
set_option autoImplicit false

namespace SpecDraft.Json

theorem exists_of_mapM {α β : Type} {f : α → Outcome β} {items : List α} {results : List β}
    (h : items.mapM f = .ok results) : ∀ result ∈ results, ∃ item ∈ items, f item = .ok result := by
  induction items generalizing results with
  | nil =>
    cases h
    simp
  | cons item items ih =>
    rw [List.mapM_cons] at h
    cases hfirst : f item with
    | error failure => rw [hfirst] at h; cases h
    | ok first =>
      cases hrest : items.mapM f with
      | error failure => rw [hfirst, hrest] at h; cases h
      | ok rest =>
        rw [hfirst, hrest] at h
        cases h
        intro result hresult
        rcases List.mem_cons.mp hresult with rfl | hresult
        · exact ⟨item, List.mem_cons_self, hfirst⟩
        · obtain ⟨other, hother, hf⟩ := ih hrest result hresult
          exact ⟨other, List.mem_cons_of_mem _ hother, hf⟩

theorem elements?_wellFormed {value : Json} (hwf : value.WellFormed) {items : List Json}
    (h : value.elements? = some items) : ∀ item ∈ items, item.WellFormed := by
  cases value with
  | arr items' =>
    cases h
    exact itemsWellFormed_iff.mp hwf
  | str text =>
    cases h
    intro item hitem
    obtain ⟨c, -, rfl⟩ := List.mem_map.mp hitem
    trivial
  | obj members =>
    cases h
    intro item hitem
    obtain ⟨pair, -, rfl⟩ := List.mem_map.mp hitem
    trivial
  | _ => cases h

theorem elements_wellFormed {value : Json} (hwf : value.WellFormed) {items : List Json}
    (h : value.elements = .ok items) : ∀ item ∈ items, item.WellFormed := by
  unfold elements at h
  split at h
  · cases h
    exact elements?_wellFormed hwf ‹_›
  · cases h

theorem pairAt_wellFormed {place : Nat} {item : Json} (hwf : item.WellFormed)
    {pair : String × Json} (h : pairAt place item = .ok pair) : pair.2.WellFormed := by
  unfold pairAt at h
  split at h
  · rename_i key value heq
    cases hkey : key.checkKey with
    | error failure => rw [hkey] at h; cases h
    | ok _ =>
      rw [hkey] at h
      cases h
      exact elements?_wellFormed hwf heq value (by simp)
  · cases h
  · cases h

theorem toMembers_wellFormed {value : Json} (hwf : value.WellFormed) {members : Members}
    (h : value.toMembers = .ok members) : members.WellFormed := by
  unfold toMembers at h
  split at h
  · cases h
    exact Members.wellFormed_obj.mp hwf
  · obtain ⟨items, hitems, hbody⟩ := Action.bind_ok.mp h
    obtain ⟨pairs, hpairs, hmembers⟩ := Action.bind_ok.mp hbody
    cases hmembers
    refine Members.ofPairs_wellFormed fun pair hpair => ?_
    obtain ⟨⟨item, place⟩, hitem, hpairAt⟩ := exists_of_mapM hpairs pair hpair
    have hwfitem := elements_wellFormed hwf hitems item (List.fst_mem_of_mem_zipIdx hitem)
    exact pairAt_wellFormed hwfitem hpairAt

end SpecDraft.Json
