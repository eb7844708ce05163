import SpecDraft.Proofs.Feature.Naming
import SpecDraft.Proofs.File.Reading
import SpecDraft.Proofs.File.Rewriting
import SpecDraft.Proofs.State.Storage
import SpecDraft.Proofs.Workflow.Questions

/-!
# Where the files of a project are

The artifacts of a project lie below a directory of their own (`Project.artifacts`). Neither the
documents nor the state nor a template lies there, and so what the stages ask is answered as before
when artifacts were written (`specificationIn_congr`, `debtIn_congr`, `renderedIn_congr`,
`routeIn_congr`). The files of different artifacts do not get in each other's way
(`spares_numbered`, `spares_constitution`).
-/
set_option autoImplicit false

namespace SpecDraft.Workflow.Project

open Disk

/-! ## Paths -/

/-- The path of an entry below the root of a project. -/
def below (project : Project) (names : List String) : FilePath :=
  { project.root with parts := project.root.parts ++ names }

/-- The names of the directory of the artifacts. -/
def memory : List String := [".specify", "memory"]

/-- The names of the directory of the documents. -/
def docs : List String := ["docs", "reverse-engineering"]

section Paths
variable (project : Project)

theorem writer_directory : project.writer.directory = project.below memory := by
  have hparse : FilePath.parse ".specify/memory" = ⟨"", memory⟩ := by decide
  rw [writer, FilePath.child, hparse]
  rfl

theorem child_below (names : List String) {name : String} (h : FilePath.IsName name) :
    (project.below names).child name = project.below (names ++ [name]) := by
  rw [FilePath.child_of_isName h, below, below, List.append_assoc]

theorem writer_child {name : String} (h : FilePath.IsName name) :
    project.writer.directory.child name = project.below (memory ++ [name]) := by
  rw [writer_directory, child_below project memory h]

theorem writer_specifications : project.writer.specifications =
    project.below (memory ++ ["specifications"]) :=
  writer_child project (by constructor <;> decide)

theorem writer_plans : project.writer.plans = project.below (memory ++ ["plans"]) :=
  writer_child project (by constructor <;> decide)

theorem document_eq {name : String} (hname : FilePath.parse ("docs/reverse-engineering/" ++ name) =
    ⟨"", docs ++ [name]⟩) : project.document name = project.below (docs ++ [name]) := by
  rw [document, FilePath.child, hname]
  rfl

theorem functionalSpecification_eq :
    project.functionalSpecification = project.below (docs ++ ["functional-specification.md"]) :=
  document_eq project (by decide)

theorem debtAnalysis_eq :
    project.debtAnalysis = project.below (docs ++ ["technical-debt-analysis.md"]) :=
  document_eq project (by decide)

theorem store_file : project.store.file = project.below [Store.fileName] := by
  rw [Store.file_eq]
  rfl

end Paths

/-! ## Places -/

/-- The names of the artifacts below the root of a project: the constitution, and in each of two
directories the files whose names start with a digit. -/
def artifactNames : Set (List String) :=
  {names | names = memory ++ ["constitution.md"] ∨ ∃ directory name,
    (directory = "specifications" ∨ directory = "plans") ∧ Feature.isNumbered name = true ∧
      names = memory ++ [directory, name]}

/-- The places of the artifacts of a project. -/
def artifacts (project : Project) : Set Location :=
  {place | ∃ names ∈ artifactNames, place = project.root.parts ++ names}

/-- The places where a project writes: those of the artifacts, and that of the state. -/
def written (project : Project) : Set Location := project.artifacts ∪ {project.store.file.parts}

section Places
variable {project : Project} {names : List String}

theorem below_mem_artifacts : project.root.parts ++ names ∈ project.artifacts ↔
    names ∈ artifactNames :=
  ⟨fun ⟨_, hnames, heq⟩ => List.append_cancel_left heq ▸ hnames, fun hnames => ⟨names, hnames, rfl⟩⟩

theorem below_mem_written : project.root.parts ++ names ∈ project.written ↔
    names ∈ artifactNames ∨ names = [Store.fileName] := by
  rw [written, Set.mem_union, below_mem_artifacts, Set.mem_singleton_iff, store_file, below]
  exact or_congr_right ⟨List.append_cancel_left, fun heq => heq ▸ rfl⟩

/-- The names of the directories on the way from the root of a project to its artifacts. -/
def wayNames : List (List String) :=
  [[".specify"], memory, memory ++ ["specifications"], memory ++ ["plans"]]

/-- What lies on the way to where a project writes is above its root, or it is one of the
directories for artifacts. -/
theorem wayTo_written {place : Location} (h : place ∈ wayTo project.written) :
    place <+: project.root.parts ∨ ∃ names ∈ wayNames, place = project.root.parts ++ names := by
  obtain ⟨goal, hgoal, hprefix, hne⟩ := h
  obtain ⟨rest, rfl⟩ : ∃ rest, goal = project.root.parts ++ rest := by
    rcases hgoal with ⟨names, -, rfl⟩ | rfl
    · exact ⟨names, rfl⟩
    · rw [store_file]
      exact ⟨_, rfl⟩
  rcases List.prefix_or_prefix_of_prefix hprefix (List.prefix_append _ _) with habove | ⟨names, rfl⟩
  · exact .inl habove
  rw [List.prefix_append_right_inj] at hprefix
  have hne' : names ≠ rest := fun heq => hne (heq ▸ rfl)
  by_cases hnil : names = []
  · rw [hnil, List.append_nil]
    exact .inl List.prefix_rfl
  refine .inr ⟨names, ?_, rfl⟩
  rcases below_mem_written.mp hgoal with (rfl | ⟨directory, name, hdirectory, -, rfl⟩) | rfl
  · simp [memory, List.prefix_cons_iff] at hprefix hne'
    grind [wayNames, memory]
  · simp [memory, List.prefix_cons_iff] at hprefix hne'
    grind [wayNames, memory]
  · simp [List.prefix_cons_iff] at hprefix hne'
    grind

theorem not_wayTo_written (hnil : names ≠ []) (h : names ∉ wayNames) :
    project.root.parts ++ names ∉ wayTo project.written := by
  intro hway
  rcases wayTo_written hway with habove | ⟨other, hother, heq⟩
  · have hlength := habove.length_le
    rw [List.length_append] at hlength
    have := List.length_pos_iff.mpr hnil
    omega
  · exact h (List.append_cancel_left heq ▸ hother)

theorem below_parts (project : Project) (names : List String) :
    (project.below names).parts = project.root.parts ++ names := rfl

theorem below_parent (names : List String) (name : String) :
    (project.below (names ++ [name])).parent = project.below names := by
  rw [FilePath.parent, below, below, ← List.append_assoc, List.dropLast_concat]

theorem below_name (names : List String) (name : String) :
    (project.below (names ++ [name])).name = name := by
  rw [FilePath.name, below, ← List.append_assoc, List.getLast?_concat]
  rfl

theorem below_plain (hroot : project.root.Plain) (hnames : ∀ part ∈ names, FilePath.IsName part) :
    (project.below names).Plain :=
  hroot.extend hnames

end Places

/-! ## Artifacts leave each other alone -/

section Spares
variable {project : Project} {names : List String} {name directory : String}

/-- A name that starts with a dot. -/
def IsHidden (name : String) : Prop := name.toList.head? = some '.'

/-- An artifact leaves another one alone when its temporary files are in nobody's way. -/
theorem spares_below (hgoal : names ++ [name] ∉ wayNames) (hparent : names ∉ artifactNames)
    (hstate : names ≠ [Store.fileName]) (htemporary : ∀ other, IsHidden other →
      names ++ [other] ∉ artifactNames ∧ names ++ [other] ≠ [Store.fileName] ∧
        names ++ [other] ∉ wayNames) :
    Spares (project.below (names ++ [name])) ("." ++ (project.below (names ++ [name])).name ++ ".")
      (project.written \ {(project.below (names ++ [name])).parts}) where
  goal := ⟨fun hmem => hmem.2 rfl, fun hway =>
    not_wayTo_written (by simp) hgoal (wayTo_mono Set.sdiff_subset hway)⟩
  parent := by
    rw [below_parent]
    exact fun hmem => (below_mem_written.mp hmem.1).elim hparent hstate
  temporary := by
    rintro place ⟨n, rfl⟩
    rw [below_parent, below_name, below_parts project names, List.append_assoc]
    have hhidden : IsHidden ("." ++ name ++ "." ++ temporaryTag n ++ ".tmp") := by
      simp [IsHidden]
    obtain ⟨hfree, hstate', hway⟩ := htemporary _ hhidden
    exact ⟨fun hmem => (below_mem_written.mp hmem.1).elim hfree hstate',
      fun hmem => not_wayTo_written (by simp) hway (wayTo_mono Set.sdiff_subset hmem)⟩

theorem spares_constitution : Spares (project.below (memory ++ ["constitution.md"]))
    ("." ++ (project.below (memory ++ ["constitution.md"])).name ++ ".")
    (project.written \ {(project.below (memory ++ ["constitution.md"])).parts}) := by
  refine spares_below (by decide) ?_ (by decide) fun other hother => ?_
  · rintro (heq | ⟨directory, name, -, -, heq⟩)
    · exact absurd heq (by decide)
    · exact absurd (congrArg List.length heq) (by simp [memory])
  · refine ⟨?_, by simp [memory], ?_⟩
    · rintro (heq | ⟨directory, name, -, -, heq⟩)
      · obtain rfl : other = "constitution.md" := by simpa [memory] using heq
        cases hother
      · exact absurd (congrArg List.length heq) (by simp [memory])
    · intro hway
      have hcases : other = "specifications" ∨ other = "plans" := by
        simpa [wayNames, memory] using hway
      rcases hcases with rfl | rfl <;> cases hother

theorem spares_numbered (hdirectory : directory = "specifications" ∨ directory = "plans") :
    Spares (project.below (memory ++ [directory] ++ [name]))
      ("." ++ (project.below (memory ++ [directory] ++ [name])).name ++ ".")
      (project.written \ {(project.below (memory ++ [directory] ++ [name])).parts}) := by
  refine spares_below (by simp [wayNames, memory]) ?_ (by simp [memory]) fun other hother => ?_
  · rintro (heq | ⟨directory', name', -, -, heq⟩)
    · rcases hdirectory with rfl | rfl <;> exact absurd heq (by decide)
    · exact absurd (congrArg List.length heq) (by simp [memory])
  · refine ⟨?_, by simp [memory], by simp [wayNames, memory]⟩
    rintro (heq | ⟨directory', name', -, hname', heq⟩)
    · exact absurd (congrArg List.length heq) (by simp [memory])
    · obtain ⟨-, rfl⟩ : directory = directory' ∧ other = name' := by simpa [memory] using heq
      rw [Feature.isNumbered, hother] at hname'
      cases hname'

/-- The file of the state is left alone by artifacts. -/
theorem spares_state : Spares project.store.file (Store.fileName ++ ".") project.artifacts := by
  have hsubset : project.artifacts ⊆ project.written := Set.subset_union_left
  have hfile : project.store.file = project.below ([] ++ [Store.fileName]) := store_file project
  have hshort {other : String} : [other] ∉ artifactNames := by
    rintro (heq | ⟨directory, name, -, -, heq⟩) <;>
    exact absurd (congrArg List.length heq) (by simp [memory])
  rw [hfile]
  refine ⟨⟨fun hmem => hshort (below_mem_artifacts.mp hmem), fun hway => ?_⟩, ?_, ?_⟩
  · exact not_wayTo_written (by simp) (by decide) (wayTo_mono hsubset hway)
  · rw [below_parent, below, below_mem_artifacts]
    rintro (heq | ⟨directory, name, -, -, heq⟩) <;>
    exact absurd (congrArg List.length heq) (by simp [memory])
  · rintro place ⟨n, rfl⟩
    rw [below_parent, below, List.append_assoc]
    refine ⟨fun hmem => hshort (below_mem_artifacts.mp hmem), fun hway => ?_⟩
    refine not_wayTo_written (by simp) ?_ (wayTo_mono hsubset hway)
    intro hmem
    have heq : Store.fileName ++ "." ++ temporaryTag n ++ ".tmp" = ".specify" := by
      simpa [wayNames, memory] using hmem
    have hlength := congrArg String.length heq
    simp only [String.length_append] at hlength
    have hlong : ".specify".length < Store.fileName.length := by decide
    omega

end Spares

/-! ## What is asked is answered as before -/

section Same
variable {project : Project} {old new : Disk} {names : List String} {name : String}

/-- A document is shown as before when artifacts, or the state, were written. -/
theorem shown_document (hroot : project.root.Plain)
    (h : Grows project.root.anchor project.written old new)
    (hdocs : old.sight (project.root.parts ++ docs) = some (.directory [])) (hname : name ≠ "..") :
    new.shown (project.below (docs ++ [name])) = old.shown (project.below (docs ++ [name])) := by
  refine h.shown_under ?_ ?_ ?_ fun hway => absurd hway (not_wayTo_written (by simp) ?_)
  · rw [below_parts, List.mem_append, List.mem_append, List.mem_singleton]
    rintro (hmem | hmem | rfl)
    · exact hroot.no_dots hmem
    · exact absurd hmem (by decide)
    · exact hname rfl
  · rwa [below_parent]
  · rw [below_parts, below_mem_written]
    rintro ((heq | ⟨directory, name', -, -, heq⟩) | heq) <;> simp [docs, memory] at heq
  · simp [wayNames, docs, memory]

theorem specificationIn_congr (hroot : project.root.Plain)
    (h : Grows project.root.anchor project.written old new)
    (hdocs : old.sight (project.root.parts ++ docs) = some (.directory [])) :
    project.specificationIn new = project.specificationIn old := by
  have hname : "functional-specification.md" ≠ ".." := by decide
  have hshown := shown_document hroot h hdocs hname
  rw [← functionalSpecification_eq] at hshown
  unfold specificationIn Document.readFrom
  rw [pathExists_congr hshown, readText_congr hshown, modifiedAt_congr hshown]

theorem debtIn_congr (hroot : project.root.Plain)
    (h : Grows project.root.anchor project.written old new)
    (hdocs : old.sight (project.root.parts ++ docs) = some (.directory [])) :
    project.debtIn new = project.debtIn old := by
  have hname : "technical-debt-analysis.md" ≠ ".." := by decide
  have hshown := shown_document hroot h hdocs hname
  rw [← debtAnalysis_eq] at hshown
  unfold debtIn Document.readOptionalFrom Document.readFrom
  rw [isReadable_congr hshown, readText_congr hshown, modifiedAt_congr hshown]

/-- Whether the path of a template directory leads to a directory. -/
def LeadsToDirectory (disk : Disk) (path : FilePath) : Prop :=
  ∃ here, disk.root.follow [] path.parts = .ok here ∧ disk.sight here = some (.directory [])

/-- No template has the name of a file that is written, or of a directory on the way to one. -/
theorem template_name (template : Template.Bundled) :
    FilePath.IsName (template.name ++ ".md") ∧ Feature.isNumbered (template.name ++ ".md") = false ∧
      template.name ++ ".md" ∉ [".specify", "memory", "constitution.md", "specifications", "plans",
        Store.fileName] := by
  cases template <;> exact ⟨by constructor <;> decide, by decide, by decide⟩

theorem getLast?_of_eq_below {here root names : Location} (heq : here ++ [name] = root ++ names)
    (hnil : names ≠ []) : names.getLast? = some name := by
  rw [← List.getLast?_append_of_ne_nil root hnil, ← heq, List.getLast?_concat]

/-- A file with the name of a template is none that is written, wherever it is. -/
theorem template_not_mem_written (template : Template.Bundled) (here : Location) :
    here ++ [template.name ++ ".md"] ∉ project.written := by
  obtain ⟨-, hnumbered, hothers⟩ := template_name template
  intro hmem
  rcases hmem with ⟨names, hnames, heq⟩ | heq
  · rcases hnames with rfl | ⟨directory, name, -, hname, rfl⟩
    · have hsame := getLast?_of_eq_below heq (by simp)
      simp [memory] at hsame
      rw [← hsame] at hothers
      exact hothers (by decide)
    · have hsame := getLast?_of_eq_below heq (by simp)
      simp [memory] at hsame
      rw [hsame, hnumbered] at hname
      cases hname
  · rw [Set.mem_singleton_iff, store_file, below_parts] at heq
    have hsame := getLast?_of_eq_below heq (by simp)
    simp at hsame
    rw [← hsame] at hothers
    exact hothers (by decide)

/-- On the way to what is written, a template can only have the place of a directory above the root
of the project. -/
theorem template_wayTo_written {template : Template.Bundled} {here : Location}
    (hway : here ++ [template.name ++ ".md"] ∈ wayTo project.written) :
    here ++ [template.name ++ ".md"] <+: project.root.parts := by
  obtain ⟨-, -, hothers⟩ := template_name template
  refine (wayTo_written hway).resolve_right ?_
  rintro ⟨names, hnames, heq⟩
  have hsame := getLast?_of_eq_below heq (by rintro rfl; exact absurd hnames (by decide))
  simp only [wayNames, List.mem_cons, List.not_mem_nil, or_false] at hnames
  rcases hnames with rfl | rfl | rfl | rfl <;>
  · simp [memory] at hsame
    rw [← hsame] at hothers
    exact absurd (by decide) hothers

/-- A template is rendered as before when artifacts, or the state, were written: the templates may
lie anywhere, even among the artifacts. -/
theorem renderedIn_congr (h : Grows project.root.anchor project.written old new)
    (hroot : old.sight project.root.parts = some (.directory []))
    (htemplates : ∀ path, project.settings.templateDirectory = some path → LeadsToDirectory old path)
    (template : Template.Bundled) (data : Members) :
    project.renderedIn template data new = project.renderedIn template data old := by
  unfold renderedIn templates
  cases hdirectory : project.settings.templateDirectory with
  | none => rfl
  | some path =>
    obtain ⟨here, hfollow, hhere⟩ := htemplates path hdirectory
    obtain ⟨hname, -, -⟩ := template_name template
    have hshown : new.shown (path.child (template.name ++ ".md")) =
        old.shown (path.child (template.name ++ ".md")) := by
      rw [FilePath.child_of_isName hname]
      refine h.shown_below rfl hname.ne_dots hfollow hhere (template_not_mem_written template here)
        fun hway => ?_
      rw [sight_above hroot (template_wayTo_written hway)]
      exact Option.some_ne_none _
    simp only [Option.map_some, Option.getD_some, Template.Source.textIn]
    rw [inDirectory_congr hshown]

theorem state_no_dots (hroot : project.root.Plain) : ".." ∉ project.store.file.parts := by
  rw [store_file, below_parts, List.mem_append, List.mem_singleton]
  exact fun hmem => hmem.elim hroot.no_dots (by decide)

/-- The state is read as before when artifacts were written. -/
theorem state_congr (hroot : project.root.Plain)
    (h : Grows project.root.anchor project.artifacts old new)
    (hhere : old.sight project.root.parts = some (.directory [])) :
    new.isFile project.store.file = old.isFile project.store.file ∧
      project.store.stateIn new = project.store.stateIn old := by
  have hshown : new.shown project.store.file = old.shown project.store.file := by
    have hspares := @spares_state project
    refine h.shown_under (state_no_dots hroot) ?_ hspares.goal.1 fun hway =>
      absurd hway hspares.goal.2
    have hparent : project.store.file.parent.parts = project.root.parts := by
      rw [store_file, show [Store.fileName] = [] ++ [Store.fileName] from rfl, below_parent,
        below_parts, List.append_nil]
    rwa [hparent]
  have hfile : new.isFile project.store.file = old.isFile project.store.file :=
    check_congr hshown fun _ _ => rfl
  refine ⟨hfile, ?_⟩
  unfold Store.stateIn readJson
  rw [hfile, readText_congr hshown]

theorem routeIn_congr (hroot : project.root.Plain)
    (h : Grows project.root.anchor project.artifacts old new)
    (hhere : old.sight project.root.parts = some (.directory [])) (given : Json) :
    project.routeIn given new = project.routeIn given old := by
  obtain ⟨hfile, hstate⟩ := state_congr hroot h hhere
  unfold routeIn
  rw [hfile, hstate]

end Same

/-! ## What answers tell -/

section Answers
variable {project : Project} {disk : Disk}

/-- Where the functional specification was read, there is the directory of the documents. -/
theorem docs_of_specificationIn (hroot : project.root.Plain) {document : Document}
    (h : project.specificationIn disk = .ok document) :
    disk.sight (project.root.parts ++ docs) = some (.directory []) := by
  unfold specificationIn Document.readFrom at h
  obtain ⟨present, -, h⟩ := Action.bind_ok.mp h
  cases present with
  | false => cases h
  | true =>
    obtain ⟨content, hread, -⟩ := Action.bind_ok.mp h
    obtain ⟨bytes, modified, hstatus, -⟩ := readText_ok.mp hread
    rw [functionalSpecification_eq] at hstatus
    have hplain : (project.below (docs ++ ["functional-specification.md"])).Plain :=
      below_plain hroot fun part hpart => by
        simp only [docs, List.cons_append, List.nil_append, List.mem_cons, List.not_mem_nil,
          or_false] at hpart
        rcases hpart with rfl | rfl | rfl <;> constructor <;> decide
    have habove := sight_parent_of_status hplain.no_dots (by simp [below]) hstatus
    rwa [below_parent] at habove

/-- Where a template was rendered, the directory of the templates is there. -/
theorem leads_of_renderedIn {template : Template.Bundled} {data : Members} {content : String}
    (h : project.renderedIn template data disk = .ok content) {path : FilePath}
    (hpath : project.settings.templateDirectory = some path) : LeadsToDirectory disk path := by
  unfold renderedIn templates at h
  rw [hpath] at h
  obtain ⟨text, htext, -⟩ := Action.bind_ok.mp h
  have hstatus : ∃ entry, disk.status (path.child (template.name ++ ".md")) = .ok entry := by
    change Template.Source.inDirectory disk path template.name = .ok text at htext
    unfold Template.Source.inDirectory at htext
    cases hstatus : disk.status (path.child (template.name ++ ".md")) with
    | ok entry => exact ⟨entry, rfl⟩
    | error failure =>
      rw [hstatus] at htext
      cases failure <;> cases htext
  obtain ⟨entry, hstatus⟩ := hstatus
  obtain ⟨place, hleads, -⟩ := status_ok.mp hstatus
  have hlocate := hleads.locate
  rw [FilePath.child_of_isName (template_name template).1] at hlocate
  unfold locate at hlocate
  split at hlocate
  · cases hlocate
  rw [Entry.follow_append] at hlocate
  obtain ⟨here, hfollow, hlast⟩ : ∃ here, disk.root.follow [] path.parts = .ok here ∧
      disk.root.follow here [template.name ++ ".md"] = .ok place := by
    cases hfollow : disk.root.follow [] path.parts with
    | error cause =>
      rw [hfollow] at hlocate
      cases hlocate
    | ok here =>
      rw [hfollow] at hlocate
      exact ⟨here, rfl, hlocate⟩
  exact ⟨here, hfollow, Entry.sight_eq_directory.mpr (Entry.follow_cons_ok hlast)⟩

end Answers
end SpecDraft.Workflow.Project
