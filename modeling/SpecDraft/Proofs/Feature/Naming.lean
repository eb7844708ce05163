import SpecDraft.Feature.Extract
import SpecDraft.Plan.Generate
import SpecDraft.Proofs.Assoc
import SpecDraft.Proofs.Feature.Spans
import SpecDraft.Proofs.File.Name
import SpecDraft.Proofs.Json.Numeral

/-!
# What features are called

The features of a document are numbered, and so no two of them have one identifier
(`ids_nodup`). An identifier and a slug make the name of a file: it starts with a digit and tells
the identifier (`Named.id_eq`). The plans are those of the features that are not complete, in the
order of the features (`Plan.ofFeatures_eq`).
-/
set_option autoImplicit false

namespace SpecDraft.Feature

/-- Whether a name starts with a digit. -/
def isNumbered (name : String) : Bool := name.toList.head?.any Char.isDigit

/-- The name of a file about a feature: its identifier, its slug and an ending. -/
def fileName (id slug ending : String) : String := id ++ "-" ++ slug ++ ending

/-- Whether an identifier and a slug are ones that features have: a number, and letters and digits
with hyphens between them. -/
structure Named (id slug : String) : Prop where
  id : ∃ place, id = idAt place
  slug : ∀ c ∈ slug.toList, isSlugChar c = true ∨ c = '-'

section Slug
variable {p : Char → Bool} {run text : List Char}

/-- The runs of a class hold characters of the class. -/
theorem of_mem_runsOf (h : run ∈ runsOf p text) : ∀ c ∈ run, p c = true := by
  induction text generalizing run with
  | nil =>
    rw [runsOf, List.mem_singleton] at h
    simp [h]
  | cons c rest ih =>
    rw [runsOf] at h
    split at h
    · rw [List.mem_singleton] at h
      simp [h]
    · rename_i first runs heq
      have hfirst : ∀ c ∈ first, p c = true := ih (heq ▸ List.mem_cons_self)
      have hruns (other : List Char) (hother : other ∈ runs) : ∀ c ∈ other, p c = true :=
        ih (heq ▸ List.mem_cons_of_mem _ hother)
      split at h
      · rename_i hc
        rcases List.mem_cons.mp h with rfl | hmem
        · exact List.forall_mem_cons.mpr ⟨hc, hfirst⟩
        · exact hruns _ hmem
      · rcases List.mem_cons.mp h with rfl | hmem
        · exact fun _ hmem => absurd hmem List.not_mem_nil
        · rcases List.mem_cons.mp hmem with rfl | hmem
          · exact hfirst
          · exact hruns _ hmem

/-- A slug is made of letters, digits and hyphens. -/
theorem mem_slugOf (name : String) :
    ∀ c ∈ (slugOf name).toList, isSlugChar c = true ∨ c = '-' := by
  intro c hc
  rw [slugOf, Text.toList_join] at hc
  obtain ⟨piece, hpiece, hmem⟩ | hmem := Text.mem_intercalate hc
  · obtain ⟨text, htext, rfl⟩ := List.mem_map.mp hpiece
    obtain ⟨run, hrun, rfl⟩ := List.mem_map.mp htext
    rw [String.toList_ofList] at hmem
    exact .inl (of_mem_runsOf (List.mem_filter.mp hrun).1 c hmem)
  · exact .inr (by simpa using hmem)

end Slug

section Named
variable {id slug id' slug' ending : String}

theorem isDigit_of_mem_idAt (place : Nat) : ∀ c ∈ (idAt place).toList, c.isDigit :=
  Moment.isDigit_of_mem_padded

theorem toList_fileName (id slug ending : String) :
    (fileName id slug ending).toList = id.toList ++ '-' :: (slug.toList ++ ending.toList) := by
  simp [fileName]

theorem Named.isNumbered (h : Named id slug) (ending : String) :
    isNumbered (fileName id slug ending) = true := by
  obtain ⟨place, rfl⟩ := h.id
  rw [Feature.isNumbered, toList_fileName]
  obtain ⟨c, rest, hid⟩ := List.exists_cons_of_ne_nil (Moment.padded_ne_nil 3 place)
  have hdigit := isDigit_of_mem_idAt place c (hid ▸ List.mem_cons_self)
  rw [idAt, hid]
  exact hdigit

/-- A name that starts with a digit is no dots, and leads to a file if it holds no slash. -/
theorem isName_of_isNumbered {name : String} (h : Feature.isNumbered name = true)
    (hslash : '/' ∉ name.toList) : FilePath.IsName name where
  ne_empty := by
    rintro rfl
    cases h
  ne_dot := by
    rintro rfl
    cases h
  ne_dots := by
    rintro rfl
    cases h
  no_slash := hslash

theorem Named.isName (h : Named id slug) (hending : '/' ∉ ending.toList) :
    FilePath.IsName (fileName id slug ending) := by
  refine isName_of_isNumbered (h.isNumbered ending) ?_
  obtain ⟨place, rfl⟩ := h.id
  rw [toList_fileName, List.mem_append, List.mem_cons, List.mem_append]
  rintro (hid | hhyphen | hslug | hmem)
  · exact absurd (isDigit_of_mem_idAt place _ hid) (by decide)
  · exact absurd hhyphen (by decide)
  · exact absurd (h.slug _ hslug) (by decide)
  · exact hending hmem

/-- The name of a file tells the identifier: it is what stands before the first hyphen. -/
theorem Named.id_eq (h : Named id slug) (h' : Named id' slug')
    (heq : fileName id slug ending = fileName id' slug' ending) : id = id' := by
  obtain ⟨place, rfl⟩ := h.id
  obtain ⟨place', rfl⟩ := h'.id
  have hhyphen : Char.isDigit '-' = false := rfl
  have hstart (place : Nat) (rest : List Char) :
      ((idAt place).toList ++ '-' :: rest).takeWhile Char.isDigit = (idAt place).toList := by
    rw [List.takeWhile_append_of_pos (isDigit_of_mem_idAt place), List.takeWhile_cons, hhyphen]
    exact List.append_nil _
  have hchars := congrArg (fun name => name.toList.takeWhile Char.isDigit) heq
  simp only [toList_fileName, hstart] at hchars
  exact String.toList_inj.mp hchars

/-- Names of files about features are different when the identifiers are. -/
theorem fileNames_nodup {features : List Feature}
    (hnamed : ∀ feature ∈ features, Named feature.id feature.slug)
    (hids : (features.map (·.id)).Nodup) (ending : String) :
    (features.map fun feature => fileName feature.id feature.slug ending).Nodup := by
  rw [List.nodup_map_iff_inj_on (List.Nodup.of_map _ hids)]
  intro feature hfeature other hother heq
  exact List.inj_on_of_nodup_map hids hfeature hother
    ((hnamed feature hfeature).id_eq (hnamed other hother) heq)

end Named

section Extract
variable {document : Document} {debt : Option Document} {features : List Feature}

/-- The identifiers of features count them. -/
theorem ids_ofSpans (place : Nat) (found : List (Markdown.Node × List Markdown.Node)) :
    (ofSpans debt place found).map (·.id) = (List.range' place found.length).map idAt := by
  induction found generalizing place with
  | nil => rfl
  | cons pair rest ih =>
    rw [List.length_cons, List.range'_succ, List.map_cons, ← ih]
    rfl

/-- **No two features have one identifier.** -/
theorem ids_nodup (h : extract document debt = .ok features) : (features.map (·.id)).Nodup := by
  obtain ⟨start, -, -, rfl⟩ := extract_ok.mp h
  rw [ids_ofSpans]
  exact List.Nodup.map (Moment.padded_injective 3) List.nodup_range'

theorem named_of_extract (h : extract document debt = .ok features) :
    ∀ feature ∈ features, Named feature.id feature.slug := by
  intro feature hfeature
  obtain ⟨start, -, -, rfl⟩ := extract_ok.mp h
  obtain ⟨place, heading, span, -, rfl⟩ := mem_ofSpans hfeature
  refine ⟨⟨place, rfl⟩, ?_⟩
  simp only [ofSpan]
  split
  · intro c hc
    rw [String.toList_append, List.mem_append] at hc
    rcases hc with hword | hid
    · have hletters : "feature-".toList.all (fun c => isSlugChar c || c == '-') = true := by decide
      simpa using List.all_eq_true.mp hletters c hword
    · have hdigit := isDigit_of_mem_idAt place c hid
      refine .inl ?_
      simp only [Char.isDigit, Bool.and_eq_true, decide_eq_true_eq] at hdigit
      simp only [isSlugChar, Bool.or_eq_true, Bool.and_eq_true, decide_eq_true_eq]
      exact .inr hdigit
  · exact mem_slugOf _

end Extract
end SpecDraft.Feature

namespace SpecDraft.Plan

variable {features : List Feature} {debt : Option Document}

/-- **The plans are those of the features that are not complete**, in the order of the features, as
long as no two features have one identifier. -/
theorem ofFeatures_eq (hids : (features.map (·.id)).Nodup) :
    ofFeatures features debt = (features.filter (·.status != .complete)).map
      fun feature => (feature.id, ofFeature feature debt) := by
  have hfold : ∀ plans : List (String × Plan),
      (∀ feature ∈ features, feature.id ∉ Assoc.names plans) →
      features.foldl (fun plans feature => if feature.status = .complete then plans
        else Assoc.put plans feature.id (ofFeature feature debt)) plans =
      plans ++ (features.filter (·.status != .complete)).map
        fun feature => (feature.id, ofFeature feature debt) := by
    induction features with
    | nil => simp
    | cons first rest ih =>
      obtain ⟨hfirst, hrest⟩ := List.nodup_cons.mp hids
      intro plans hplans
      obtain ⟨hfree, hplans⟩ := List.forall_mem_cons.mp hplans
      rw [List.foldl_cons]
      by_cases hcomplete : first.status = .complete
      · rw [if_pos hcomplete, ih hrest plans hplans, List.filter_cons_of_neg (by simp [hcomplete])]
      · have hput : Assoc.put plans first.id (ofFeature first debt) =
            plans ++ [(first.id, ofFeature first debt)] := Assoc.put_of_not_mem hfree
        rw [if_neg hcomplete, hput, ih hrest, List.filter_cons_of_pos (by simp [hcomplete]),
          List.map_cons, List.append_assoc, List.singleton_append]
        intro feature hfeature hmem
        rw [Assoc.names, List.map_append, List.mem_append] at hmem
        rcases hmem with hmem | hmem
        · exact hplans feature hfeature hmem
        · rw [List.map_singleton, List.mem_singleton] at hmem
          exact hfirst (List.mem_map.mpr ⟨feature, hfeature, hmem⟩)
  exact hfold [] fun _ _ => List.not_mem_nil

end SpecDraft.Plan
