import SpecDraft.Proofs.File.Outcome
import SpecDraft.Proofs.File.Writing
import Mathlib.Data.Set.Basic

/-!
# Disks that grow

A disk grows at some places when files are written there and the directories above them are made,
where they are missing (`Disk.Grows`). Nothing else changes. A writer of artifacts makes the disk
grow at the place that its path names (`Writer.write_grows`), however the write ends.
-/
set_option autoImplicit false

namespace SpecDraft.Disk

/-- The places on the way to some places, without these. -/
def wayTo (places : Set Location) : Set Location :=
  {place | ∃ goal ∈ places, place <+: goal ∧ place ≠ goal}

/-- How what is seen at a place may change while files are written at some places: not at all, or
to a directory on the way, which the operating system does not refuse, or to one of the files. -/
inductive Change (anchor : String) (places : Set Location) (old new : Disk) (place : Location) :
    Prop
  | same : new.sight place = old.sight place → Change anchor places old new place
  | made : place ∈ wayTo places → old.sight place = none →
      old.refuses .makeDirectory ⟨anchor, place⟩ = none →
      new.sight place = some (.directory []) → Change anchor places old new place
  | written {content : ByteArray} {modified : Moment} : place ∈ places →
      old.sight place ≠ some (.directory []) → new.sight place = some (.file content modified) →
      Change anchor places old new place

/-- Whether a disk differs from an earlier one at most in files at some places, and in directories
that were made on the way to them. Paths from an anchor lead there. -/
structure Grows (anchor : String) (places : Set Location) (old new : Disk) : Prop where
  refuses : new.refuses = old.refuses
  change : ∀ place, Change anchor places old new place

section Grows
variable {anchor : String} {places more : Set Location} {a b c old new : Disk} {place : Location}

theorem wayTo_mono (h : places ⊆ more) : wayTo places ⊆ wayTo more :=
  fun _ ⟨goal, hgoal, hway⟩ => ⟨goal, h hgoal, hway⟩

theorem Grows.refl (anchor : String) (places : Set Location) (disk : Disk) :
    Grows anchor places disk disk :=
  ⟨rfl, fun _ => .same rfl⟩

theorem Grows.mono (h : places ⊆ more) (hgrows : Grows anchor places old new) :
    Grows anchor more old new := by
  refine ⟨hgrows.refuses, fun place => ?_⟩
  cases hgrows.change place with
  | same hsame => exact .same hsame
  | made hway hnone hallowed hnew => exact .made (wayTo_mono h hway) hnone hallowed hnew
  | written hplace hold hnew => exact .written (h hplace) hold hnew

/-- A directory stays a directory. -/
theorem Grows.directory (h : Grows anchor places old new)
    (hold : old.sight place = some (.directory [])) : new.sight place = some (.directory []) := by
  cases h.change place with
  | same hsame => rw [hsame, hold]
  | made _ hnone => rw [hold] at hnone; cases hnone
  | written _ hfile => exact absurd hold hfile

/-- What is there stays as it is, unless it is one of the files. -/
theorem Grows.kept (h : Grows anchor places old new) (hplace : place ∉ places) {entry : Entry}
    (hold : old.sight place = some entry) : new.sight place = some entry := by
  cases h.change place with
  | same hsame => rw [hsame, hold]
  | made _ hnone => rw [hold] at hnone; cases hnone
  | written hmem => exact absurd hmem hplace

/-- What is no file, and was there before if it is on the way to one, stays as it is. -/
theorem Grows.settled (h : Grows anchor places old new) (hplace : place ∉ places)
    (hway : place ∈ wayTo places → old.sight place ≠ none) : new.sight place = old.sight place := by
  cases h.change place with
  | same hsame => exact hsame
  | made hmem hnone => exact absurd hnone (hway hmem)
  | written hmem => exact absurd hmem hplace

/-- Beside the files and the ways to them everything stays as it is. -/
theorem Grows.beside (h : Grows anchor places old new) (hplace : place ∉ places)
    (hway : place ∉ wayTo places) : new.sight place = old.sight place :=
  h.settled hplace fun hmem => absurd hmem hway

theorem Grows.trans (hab : Grows anchor places a b) (hbc : Grows anchor places b c) :
    Grows anchor places a c := by
  refine ⟨hbc.refuses.trans hab.refuses, fun place => ?_⟩
  cases hab.change place with
  | same hsame =>
    cases hbc.change place with
    | same hsame' => exact .same (hsame'.trans hsame)
    | made hway hnone hallowed hnew => exact .made hway (hsame ▸ hnone) (hab.refuses ▸ hallowed) hnew
    | written hplace hold hnew => exact .written hplace (hsame ▸ hold) hnew
  | made hway hnone hallowed hnew => exact .made hway hnone hallowed (hbc.directory hnew)
  | written hplace hold hnew =>
    cases hbc.change place with
    | same hsame => exact .written hplace hold (hsame.trans hnew)
    | made _ hnone => rw [hnew] at hnone; cases hnone
    | written _ _ hlater => exact .written hplace hold hlater

/-- Names lead where they led. -/
theorem Grows.follow (h : Grows anchor places old new) {here goal : Location} {names : List String}
    (hgoal : old.root.follow here names = .ok goal) : new.root.follow here names = .ok goal :=
  Entry.follow_mono (fun _ _ hplace => Entry.sight_eq_directory.mp
    (h.directory (Entry.sight_eq_directory.mpr ⟨_, hplace⟩))) hgoal

end Grows

section Make
variable {target : FilePath} {disk after : Disk}

/-- **Making directories on the way to a target** adds these, where they are missing, and nothing
else. -/
theorem makeDirectories_grows (hdots : ".." ∉ target.parts) (hnamed : target.parts ≠ []) :
    Action.Keeps (Grows target.anchor {target.parts}) (makeDirectories target.parent) := by
  refine makeDirectories_related (.refl _ _) (fun _ _ _ => .trans) target.parent
    fun disk parts place habove hmake => ⟨rfl, fun other => ?_⟩
  have hdots' : ".." ∉ parts := fun hmem => hdots (List.dropLast_subset _ (habove.subset hmem))
  obtain rfl : place = parts := hmake.leads.eq_parts hdots'
  by_cases hother : other = place
  · subst hother
    refine .made ⟨target.parts, rfl, habove.trans (List.dropLast_prefix _), ?_⟩
      (Entry.sight_eq_none.mpr hmake.free) hmake.allowed ((hmake.sight hdots' _).trans (if_pos rfl))
    rintro rfl
    have hlength := habove.length_le
    rw [FilePath.parent, List.length_dropLast] at hlength
    have := List.length_pos_iff.mpr hnamed
    omega
  · exact .same ((hmake.sight hdots' _).trans (if_neg hother))

end Make

section Replace
variable {target : FilePath} {temporary : FilePath} {content : ByteArray} {now : Moment}
  {disk after : Disk}

theorem renamed_of_replacement (h : disk.replacement target temporary = .ok ()) :
    disk.renamed target = .ok () := by
  unfold replacement at h
  obtain ⟨_, -, h⟩ := Action.bind_ok.mp h
  obtain ⟨_, -, h⟩ := Action.bind_ok.mp h
  obtain ⟨_, -, h⟩ := Action.bind_ok.mp h
  obtain ⟨_, -, h⟩ := Action.bind_ok.mp h
  exact h

/-- A file is replaced where no directory is, and a directory is above it. -/
theorem sight_of_replacement (hdots : ".." ∉ target.parts) (hnamed : target.parts ≠ [])
    (h : disk.replacement target temporary = .ok ()) :
    disk.Leads target target.parts ∧ disk.sight target.parent.parts = some (.directory []) ∧
      disk.sight target.parts ≠ some (.directory []) := by
  obtain ⟨goal, hgoal, hfile⟩ := renamed_ok (renamed_of_replacement h)
  have hleads := located_ok.mp hgoal
  obtain rfl := hleads.eq_parts hdots
  refine ⟨hleads, hleads.above hdots hnamed, fun hdirectory => ?_⟩
  obtain ⟨entries, hentries⟩ := Entry.sight_eq_directory.mp hdirectory
  cases hfile _ hentries

/-- A replacement makes the disk grow at the place of its target. -/
theorem Replaces.grows {result : Except Failure Unit}
    (h : Replaces target content now result disk after)
    (hfile : result = .ok () → disk.sight target.parts ≠ some (.directory [])) :
    Grows target.anchor {target.parts} disk after := by
  refine ⟨h.refuses, fun place => ?_⟩
  have hsight := h.sight place
  cases result with
  | error failure => exact .same hsight
  | ok _ =>
    dsimp only at hsight
    by_cases hplace : place = target.parts
    · rw [if_pos hplace] at hsight
      exact .written hplace (hplace ▸ hfile rfl) hsight
    · rw [if_neg hplace] at hsight
      exact .same hsight

/-- Puts a file at a target, above which directories are made first. -/
def install (target : FilePath) (start : String) (content : ByteArray) (now : Moment) :
    DiskM Unit := do
  makeDirectories target.parent
  replaceFile target start content now

/-- **A file that is put at a target** makes the disk grow there, however that ends. -/
theorem install_grows {start : String} (h : Replaceable target start) (hdots : ".." ∉ target.parts)
    (content : ByteArray) (now : Moment) :
    Action.Keeps (Grows target.anchor {target.parts}) (install target start content now) := by
  refine Action.Keeps.bind (fun _ _ _ => .trans) (makeDirectories_grows hdots h.named)
    fun _ disk => ?_
  obtain ⟨after, hrun, hreplaces⟩ := replaceFile_run h hdots content now disk
  rw [hrun]
  exact hreplaces.grows fun hok => (sight_of_replacement hdots h.named hok).2.2

end Replace
end SpecDraft.Disk

namespace SpecDraft.Output

section Write
variable {target : FilePath} {disk after : Disk}

/-- A plain path is accepted as itself or refused. -/
theorem eq_of_checked (hplain : target.Plain) {goal : FilePath}
    (h : checkedPath target.text = .ok goal) : goal = target := by
  obtain ⟨htext, hgoal, -⟩ := checkedPath_iff.mp h
  rw [← hgoal.parse_text, htext, hplain.parse_text]

/-- **A writer makes the disk grow** at the place that its path names, however the write ends. -/
theorem Writer.write_grows (writer : Writer) (hplain : target.Plain) (content : String)
    (now : Moment) :
    Action.Keeps (Disk.Grows target.anchor {target.parts})
      (writer.write target.text content now) := by
  have hrefl (disk : Disk) : Disk.Grows target.anchor {target.parts} disk disk := .refl _ _ disk
  have htrans (a b c : Disk) (hab : Disk.Grows target.anchor {target.parts} a b)
      (hbc : Disk.Grows target.anchor {target.parts} b c) :
      Disk.Grows target.anchor {target.parts} a c := hab.trans hbc
  unfold write
  cases hchecked : checkedPath target.text with
  | error failure => exact fun disk => hrefl disk
  | ok goal =>
    obtain rfl := eq_of_checked hplain hchecked
    intro disk
    rw [Action.run_bind_of_ok (Action.run_lift _ disk)]
    refine Action.Keeps.bind htrans (.lift hrefl _) (fun bytes => ?_) disk
    refine Action.Keeps.bind htrans (.tryCatch htrans ?_ fun _ => .throw hrefl _) fun _ => ?_
    · exact Disk.install_grows (replaceable_of_checked hchecked) (no_dots_of_checked hchecked) bytes now
    · exact .pure hrefl _

end Write
end SpecDraft.Output
