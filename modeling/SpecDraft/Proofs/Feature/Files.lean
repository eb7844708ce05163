import SpecDraft.Proofs.Feature.Naming
import SpecDraft.Proofs.File.Destination
import SpecDraft.Proofs.Markdown.Heading

/-!
# The files of features

A directory takes artifacts (`TakesArtifacts`) when it leads around the blocked places. What is
accepted for the constitution of a project tells this of its directory, and then the files about
its features are accepted as well, each directly in the directory for its kind and no two of them
the same (`paths_of_features`).
-/
set_option autoImplicit false

namespace SpecDraft.FilePath

/-- The names of a path that was read are not empty, and hold no slash. -/
theorem mem_parts_parse (text : String) :
    ∀ part ∈ (parse text).parts, part ≠ "" ∧ '/' ∉ part.toList :=
  fun _ hpart => mem_names (List.mem_filter.mp hpart).1

end SpecDraft.FilePath

namespace SpecDraft.Output

/-! ## Directories that take artifacts -/

/-- A directory that takes artifacts: it leads from the root along names that are allowed. -/
structure TakesArtifacts (directory : FilePath) : Prop where
  plain : directory.Plain
  allowed : ∀ part ∈ directory.parts, part ∉ blockedNames
  outside : directory.anchor = "/" → ¬ IsBlocked directory.parts

/-- Whether a path lies directly in a directory. -/
def LiesIn (directory path : FilePath) : Prop :=
  ∃ name, FilePath.IsName name ∧ path = { directory with parts := directory.parts ++ [name] }

section Directories
variable {directory target : FilePath} {name stem : String}

/-- The way to a blocked directory is blocked from its start. -/
theorem IsBlocked.append {parts : List String} (h : IsBlocked parts) (rest : List String) :
    IsBlocked (parts ++ rest) := by
  obtain ⟨top, htop, hhead⟩ := h
  exact ⟨top, htop, by rw [List.head?_append, hhead, Option.some_or]⟩

/-- One more name blocks the way only at its start. -/
theorem isBlocked_concat {parts : List String} (hname : name ∉ blockedTops)
    (h : IsBlocked (parts ++ [name])) : IsBlocked parts := by
  obtain ⟨top, htop, hhead⟩ := h
  cases parts with
  | nil =>
    obtain rfl : name = top := by simpa using hhead
    exact absurd htop hname
  | cons first parts => exact ⟨top, htop, by simpa using hhead⟩

/-- A directory takes artifacts when one is accepted in it. -/
theorem takesArtifacts_of_checked (hplain : directory.Plain) (hname : FilePath.IsName name)
    (h : checkedPath (directory.child name).text = .ok target) : TakesArtifacts directory := by
  rw [FilePath.child_of_isName hname] at h
  obtain ⟨htext, htarget, ⟨hallowed, -⟩, hblocked⟩ := checkedPath_iff.mp h
  have hpath : target = { directory with parts := directory.parts ++ [name] } := by
    have hread := (hplain.extend (List.forall_mem_singleton.mpr hname)).parse_text
    rw [← htarget.parse_text, htext, hread]
  subst hpath
  exact ⟨hplain, fun part hpart => hallowed part (List.mem_append_left _ hpart),
    fun hanchor hhead => hblocked hanchor (hhead.append _)⟩

/-- So does a directory in it. -/
theorem TakesArtifacts.child (h : TakesArtifacts directory) (hname : FilePath.IsName name)
    (hallowed : name ∉ blockedNames) (htop : name ∉ blockedTops) :
    TakesArtifacts (directory.child name) := by
  rw [FilePath.child_of_isName hname]
  exact ⟨h.plain.extend (List.forall_mem_singleton.mpr hname),
    List.forall_mem_append.mpr ⟨h.allowed, List.forall_mem_singleton.mpr hallowed⟩,
    fun hanchor hblocked => h.outside hanchor (isBlocked_concat htop hblocked)⟩

/-- No blocked name has the extension of artifacts. -/
theorem not_blocked_of_extension (stem : String) :
    stem ++ extension ∉ blockedNames ∧ stem ++ extension ∉ blockedTops := by
  have hnone : ∀ blocked ∈ blockedNames ++ blockedTops,
      ¬ extension.toList <:+ blocked.toList := by decide
  have hsuffix : extension.toList <:+ (stem ++ extension).toList := by
    rw [String.toList_append]
    exact List.suffix_append _ _
  exact ⟨fun h => hnone _ (List.mem_append_left _ h) hsuffix,
    fun h => hnone _ (List.mem_append_right _ h) hsuffix⟩

/-- **A file with the extension of artifacts is accepted** in a directory that takes them. -/
theorem TakesArtifacts.accepts (h : TakesArtifacts directory) (hstem : stem ≠ "")
    (hname : FilePath.IsName (stem ++ extension)) :
    checkedPath (directory.child (stem ++ extension)).text =
      .ok (directory.child (stem ++ extension)) := by
  obtain ⟨hallowed, htop⟩ := not_blocked_of_extension stem
  have hchild := h.child hname hallowed htop
  refine checkedPath_iff.mpr ⟨rfl, hchild.plain, ⟨hchild.allowed, ?_⟩, hchild.outside⟩
  rw [FilePath.child_of_isName hname]
  exact ⟨directory.parts, stem, extension, rfl, hstem, by decide⟩

theorem liesIn_child (hname : FilePath.IsName name) : LiesIn directory (directory.child name) :=
  ⟨name, hname, FilePath.child_of_isName hname directory⟩

end Directories

/-! ## Files of features -/

/-- How the paths of files lie in a directory: no two files have one path, and each is accepted and
lies directly in the directory. -/
structure Placed (directory : FilePath) (paths : List FilePath) : Prop where
  distinct : (paths.map FilePath.text).Nodup
  accepted : ∀ path ∈ paths, checkedPath path.text = .ok path
  inside : ∀ path ∈ paths, LiesIn directory path

section Features
variable {directory : FilePath} {features : List Feature}

/-- Files of different names in one directory have different paths. -/
theorem texts_nodup {α : Type} {items : List α} {name : α → String} (hplain : directory.Plain)
    (hnames : ∀ item ∈ items, FilePath.IsName (name item)) (hdistinct : (items.map name).Nodup) :
    ((items.map fun item => directory.child (name item)).map FilePath.text).Nodup := by
  rw [List.map_map, List.nodup_map_iff_inj_on hdistinct.of_map]
  intro item hitem other hother htext
  have hread {item : α} (hitem : item ∈ items) :
      FilePath.parse (directory.child (name item)).text =
        { directory with parts := directory.parts ++ [name item] } := by
    rw [FilePath.child_of_isName (hnames item hitem)]
    exact (hplain.extend (List.forall_mem_singleton.mpr (hnames item hitem))).parse_text
  have hpaths := congrArg FilePath.parse htext
  rw [Function.comp_apply, Function.comp_apply, hread hitem, hread hother] at hpaths
  exact List.inj_on_of_nodup_map hdistinct hitem hother (by simpa using hpaths)

/-- **Files about features are placed** in a directory that takes artifacts. -/
theorem placed_features (h : TakesArtifacts directory)
    (hnamed : ∀ feature ∈ features, Feature.Named feature.id feature.slug)
    (hids : (features.map (·.id)).Nodup) {ending stem : String}
    (hending : ending = stem ++ extension) (hslash : '/' ∉ ending.toList) :
    Placed directory (features.map fun feature =>
      directory.child (Feature.fileName feature.id feature.slug ending)) := by
  have hnames : ∀ feature ∈ features,
      FilePath.IsName (Feature.fileName feature.id feature.slug ending) :=
    fun feature hfeature => (hnamed feature hfeature).isName hslash
  refine ⟨?_, ?_, ?_⟩
  · exact texts_nodup h.plain hnames (Feature.fileNames_nodup hnamed hids ending)
  · refine List.forall_mem_map.mpr fun feature hfeature => ?_
    have hsplit : Feature.fileName feature.id feature.slug ending =
        feature.id ++ "-" ++ feature.slug ++ stem ++ extension := by
      rw [Feature.fileName, hending, String.append_assoc, String.append_assoc,
        String.append_assoc, String.append_assoc, String.append_assoc]
    have hname := hnames feature hfeature
    rw [hsplit] at hname ⊢
    exact h.accepts (by simp) hname
  · exact List.forall_mem_map.mpr fun feature hfeature => liesIn_child (hnames feature hfeature)

end Features

namespace Writer

/-- **The files of features neither collide nor escape.** Let artifacts go to a directory that a
text names from another directory, and the constitution be accepted there. Then the specifications
of the features of a document are placed in the directory for specifications, and their plans in the
directory for plans. -/
theorem paths_of_features (document : Document) (debt : Option Document) (features : List Feature)
    (hfeatures : Feature.extract document debt = .ok features) (base text : String)
    (writer : Writer) (hwriter : writer.directory = (FilePath.parse base).resolve (.parse text))
    (target : FilePath)
    (haccepted : checkedPath (writer.directory.child "constitution.md").text = .ok target) :
    Placed writer.specifications
      (features.map fun feature => writer.specificationPath feature.id feature.slug) ∧
    Placed writer.plans (features.map fun feature => writer.planPath feature.id feature.slug) := by
  have hplain : writer.directory.Plain := by
    rw [hwriter]
    exact FilePath.plain_resolve (FilePath.mem_parts_parse base) (FilePath.mem_parts_parse text)
  have htakes := takesArtifacts_of_checked hplain (by constructor <;> decide) haccepted
  have hnamed := Feature.named_of_extract hfeatures
  have hids := Feature.ids_nodup hfeatures
  have hspecifications : TakesArtifacts writer.specifications :=
    htakes.child (by constructor <;> decide) (by decide) (by decide)
  have hplans : TakesArtifacts writer.plans :=
    htakes.child (by constructor <;> decide) (by decide) (by decide)
  have hspecification := placed_features hspecifications hnamed hids
    (by decide : ".md" = "" ++ extension) (by decide)
  have hplan := placed_features hplans hnamed hids
    (by decide : "-impl-plan.md" = "-impl-plan" ++ extension) (by decide)
  exact ⟨hspecification, hplan⟩

/-- A document with two features, of which one has a name without letters. -/
def symbolContent : String := "# Features\n## Über-Search!\n## ★"

/-- The nodes of that document. -/
def symbolNodes : List Markdown.Node :=
  [⟨.heading 1, "Features", 1⟩, ⟨.heading 2, "Über-Search!", 2⟩, ⟨.heading 2, "★", 3⟩]

theorem parse_symbolContent : Markdown.parse symbolContent = .ok symbolNodes :=
  Markdown.parse_of_toOption (by decide +kernel)

/-- A writer below a directory for work. -/
def symbolWriter : Writer :=
  ⟨(FilePath.parse "/work").resolve (.parse ".specify/memory"), standardLimit⟩

theorem paths_of_features_sample : ∃ document features,
    Document.parse symbolContent ⟨"/", ["spec.md"]⟩ "" = .ok document ∧
    Feature.extract document none = .ok features ∧
    checkedPath (symbolWriter.directory.child "constitution.md").text =
      .ok (symbolWriter.directory.child "constitution.md") ∧
    (features.map fun feature =>
      (symbolWriter.specificationPath feature.id feature.slug).text) =
        ["/work/.specify/memory/specifications/001-ber-search.md",
          "/work/.specify/memory/specifications/002-feature-002.md"] ∧
    Placed symbolWriter.specifications
      (features.map fun feature => symbolWriter.specificationPath feature.id feature.slug) := by
  obtain ⟨document, hparse, hnodes⟩ :=
    Document.exists_parse parse_symbolContent ⟨"/", ["spec.md"]⟩ ""
  have hextract : Feature.extract document none =
      .ok (Feature.ofSpans none 1 (Feature.spans (symbolNodes.drop 1))) := by
    have hstart : Markdown.headingIndex? symbolNodes Feature.sectionTitle = some 0 := by
      decide +kernel
    have hrange : Feature.range false (symbolNodes.drop 1) = symbolNodes.drop 1 := by decide +kernel
    rw [← hnodes] at hstart
    exact Feature.extract_of_spans hstart (by rw [hnodes, hrange]) (by decide +kernel)
  have haccepted : checkedPath (symbolWriter.directory.child "constitution.md").text =
      .ok (symbolWriter.directory.child "constitution.md") := by
    have htakes : TakesArtifacts symbolWriter.directory :=
      ⟨FilePath.plain_resolve (FilePath.mem_parts_parse _) (FilePath.mem_parts_parse _),
        by decide, fun _ => by unfold IsBlocked; decide⟩
    have hname : "constitution.md" = "constitution" ++ extension := by decide
    rw [hname]
    exact htakes.accepts (by decide) (by constructor <;> decide)
  have hwriter : symbolWriter.directory =
      (FilePath.parse "/work").resolve (.parse ".specify/memory") := rfl
  obtain ⟨hplaced, -⟩ := paths_of_features document none _ hextract "/work" ".specify/memory"
    symbolWriter hwriter _ haccepted
  refine ⟨document, _, hparse, hextract, haccepted, ?_, hplaced⟩
  decide +kernel

end Writer
end SpecDraft.Output
