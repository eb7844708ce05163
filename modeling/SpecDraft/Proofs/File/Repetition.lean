import SpecDraft.Proofs.File.Outcome

/-!
# The same change on another disk

How a change of a disk ends depends on what the operating system refuses, on what is seen at the
path and above it, and on which temporary names are taken. On another disk where these are the same
it ends in the same way: making a directory (`making_congr`), and replacing a file
(`replacement_congr`).
-/
set_option autoImplicit false

namespace SpecDraft.Disk

section Above
variable {old new : Disk} {path : FilePath}

/-- Where a path leads depends on the directory above it alone. -/
theorem located_congr (hdots : ".." ∉ path.parts)
    (hold : path.parts ≠ [] → old.sight path.parent.parts = some (.directory []))
    (hnew : path.parts ≠ [] → new.sight path.parent.parts = some (.directory [])) :
    new.located path = old.located path := by
  have hlocate : new.locate path = old.locate path := by
    refine locate_congr hdots fun place hplace hne => ?_
    have hnamed : path.parts ≠ [] := by
      intro hnone
      rw [hnone, List.prefix_nil] at hplace
      exact hne (hplace.trans hnone.symm)
    have habove := prefix_parent hplace hne
    rw [sight_above (hold hnamed) habove, sight_above (hnew hnamed) habove]
  unfold located
  rw [hlocate]

/-- **A directory is made in the same way** where the same is refused and the same is there. -/
theorem making_congr (hdots : ".." ∉ path.parts) (hlocated : new.located path = old.located path)
    (hrefuses : new.refuses = old.refuses) (hsight : new.sight path.parts = old.sight path.parts) :
    new.making path = old.making path := by
  have hallowed : new.allowed .makeDirectory path = old.allowed .makeDirectory path := by
    unfold allowed
    rw [hrefuses]
  unfold making
  rw [hlocated, hallowed]
  cases hplace : old.located path with
  | error failure => rfl
  | ok place =>
    obtain rfl := (located_ok.mp hplace).eq_parts hdots
    unfold sight Entry.sight at hsight
    dsimp only [bind, Except.bind]
    rcases hnew : new.root.at? path.parts with _ | ⟨_, _⟩ | _ <;>
    rcases hold : old.root.at? path.parts with _ | ⟨_, _⟩ | _ <;>
    simp [hnew, hold, Entry.bare] at hsight ⊢

end Above

/-! ## Temporary names -/

section Temporary
variable {start finish : String} {old new : Disk} {target : FilePath}

theorem find?_range {p : Nat → Bool} {short long : Nat} (hle : short ≤ long)
    (h : ((List.range short).find? p).isSome) :
    (List.range long).find? p = (List.range short).find? p := by
  obtain ⟨more, rfl⟩ := Nat.exists_eq_add_of_le hle
  obtain ⟨n, hn⟩ := Option.isSome_iff_exists.mp h
  rw [List.range_add, List.find?_append, hn]
  rfl

/-- The first free name is the same where the same candidates are taken. -/
theorem unusedName_congr {entries others : List (String × Entry)}
    (h : ∀ n, others.any (·.1 == start ++ temporaryTag n ++ finish) =
      entries.any (·.1 == start ++ temporaryTag n ++ finish)) :
    unusedName start finish others = unusedName start finish entries := by
  have hisSome (listed : List (String × Entry)) :
      ((List.range (listed.length + 1)).find?
        fun n => !listed.any (·.1 == start ++ temporaryTag n ++ finish)).isSome := by
    obtain ⟨n, hn⟩ := find?_unused start finish listed
    rw [List.find?_map, Option.map_eq_some_iff] at hn
    obtain ⟨m, hm, -⟩ := hn
    exact Option.isSome_iff_exists.mpr ⟨m, hm⟩
  have hfind : (List.range (others.length + 1)).find?
        (fun n => !others.any (·.1 == start ++ temporaryTag n ++ finish)) =
      (List.range (entries.length + 1)).find?
        fun n => !entries.any (·.1 == start ++ temporaryTag n ++ finish) := by
    have hothers := hisSome others
    simp only [h] at hothers ⊢
    rcases Nat.le_total others.length entries.length with hle | hle
    · exact (find?_range (by omega) hothers).symm
    · exact find?_range (by omega) (hisSome entries)
  unfold unusedName
  dsimp only
  rw [List.find?_map, List.find?_map]
  exact congrArg (fun found : Option Nat =>
    (found.map fun n => start ++ temporaryTag n ++ finish).getD start) hfind

/-- Whether a directory lists a name is seen at the place of that name. -/
theorem any_eq_isSome_sight {disk : Disk} {here : Location} {entries : List (String × Entry)}
    (h : disk.root.at? here = some (.directory entries)) (name : String) :
    entries.any (·.1 == name) = (disk.sight (here ++ [name])).isSome := by
  have hsight : disk.sight (here ++ [name]) = (entries.lookup name).map Entry.bare := by
    rw [sight, Entry.sight, Entry.at?_append, h, Option.bind_some, Entry.at?_directory]
    cases entries.lookup name with
    | none => rfl
    | some found => rw [Option.bind_some, Entry.at?_nil]
  rw [hsight, Option.isSome_map, Bool.eq_iff_iff, List.any_eq_true, Option.isSome_iff_ne_none,
    ne_eq, Assoc.lookup_eq_none_iff, not_not, Assoc.names, List.mem_map]
  constructor
  · rintro ⟨pair, hpair, hname⟩
    exact ⟨pair, hpair, eq_of_beq hname⟩
  · rintro ⟨pair, hpair, hname⟩
    exact ⟨pair, hpair, beq_iff_eq.mpr hname⟩

/-- The temporary file has the same path where the same temporary names are taken. -/
theorem temporaryBeside_congr (hdots : ".." ∉ target.parts)
    (hold : old.sight target.parent.parts = some (.directory []))
    (hnew : new.sight target.parent.parts = some (.directory []))
    (hnames : ∀ n, (new.sight (target.parent.parts ++ [start ++ temporaryTag n ++ ".tmp"])).isSome =
      (old.sight (target.parent.parts ++ [start ++ temporaryTag n ++ ".tmp"])).isSome) :
    new.temporaryBeside target start = old.temporaryBeside target start := by
  have hparent : ".." ∉ target.parent.parts := fun hmem => hdots (List.dropLast_subset _ hmem)
  have hlocate : new.locate target.parent = old.locate target.parent :=
    locate_congr hparent fun place hplace _ => by
      rw [sight_above hold hplace, sight_above hnew hplace]
  have hunused : unusedName start ".tmp" (new.entriesAt target.parent) =
      unusedName start ".tmp" (old.entriesAt target.parent) := by
    unfold entriesAt entry?
    rw [hlocate]
    cases hgoal : old.locate target.parent with
    | error cause => rfl
    | ok goal =>
      have hfollow := hgoal
      unfold locate at hfollow
      split at hfollow
      · cases hfollow
      obtain rfl : goal = target.parent.parts := Entry.follow_of_no_dots hparent hfollow
      obtain ⟨entries, hentries⟩ := Entry.sight_eq_directory.mp hold
      obtain ⟨others, hothers⟩ := Entry.sight_eq_directory.mp hnew
      dsimp only [bind, Except.bind]
      rw [hentries, hothers]
      refine unusedName_congr fun n => ?_
      dsimp only [pure, Except.pure, Entry.entries]
      rw [any_eq_isSome_sight hothers, any_eq_isSome_sight hentries, hnames]
  unfold temporaryBeside
  rw [hunused]

/-- **A replacement ends in the same way** on a disk where the same is refused, the same temporary
names are taken and no other directory is in the way. -/
theorem replacement_congr (h : Replaceable target start) (hdots : ".." ∉ target.parts)
    (hrefuses : new.refuses = old.refuses)
    (hold : old.sight target.parent.parts = some (.directory []))
    (hnew : new.sight target.parent.parts = some (.directory []))
    (hnames : ∀ n, (new.sight (target.parent.parts ++ [start ++ temporaryTag n ++ ".tmp"])).isSome =
      (old.sight (target.parent.parts ++ [start ++ temporaryTag n ++ ".tmp"])).isSome)
    (hgoal : new.sight target.parts = some (.directory []) ↔
      old.sight target.parts = some (.directory [])) :
    new.replacement target (new.temporaryBeside target start) =
      old.replacement target (old.temporaryBeside target start) := by
  rw [temporaryBeside_congr hdots hold hnew hnames]
  have hrenamed : new.renamed target = old.renamed target := by
    refine renamed_congr hdots hrefuses (fun place hplace hne => ?_) hgoal
    have habove := prefix_parent hplace hne
    rw [sight_above hold habove, sight_above hnew habove]
  have hlocated : new.located (old.temporaryBeside target start) =
      old.located (old.temporaryBeside target start) := by
    obtain ⟨tail, hname, -⟩ := unusedName_spec start ".tmp" (old.entriesAt target.parent)
    have hparts : (old.temporaryBeside target start).parts =
        target.parent.parts ++ [start ++ tail] := by
      rw [temporaryBeside, hname]
    have habove : (old.temporaryBeside target start).parent.parts = target.parent.parts := by
      rw [FilePath.parent, hparts, List.dropLast_concat]
    refine located_congr ?_ (fun _ => habove ▸ hold) fun _ => habove ▸ hnew
    rw [hparts, List.mem_append, List.mem_singleton]
    rintro (hmem | heq)
    · exact hdots (List.dropLast_subset _ hmem)
    · exact (h.temporary tail).1 heq.symm
  have hallowed (step : WriteStep) (path : FilePath) :
      new.allowed step path = old.allowed step path := by
    unfold allowed
    rw [hrefuses]
  unfold replacement
  rw [hlocated, hallowed, hallowed, hallowed, hrenamed]

end Temporary
end SpecDraft.Disk
