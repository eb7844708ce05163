import SpecDraft.Proofs.File.Growth
import SpecDraft.Proofs.File.Repetition

/-!
# Writing a file once more

When a file is written once more, after a first attempt and after other files were written
elsewhere, the write ends as the first one did (`install_again`). An artifact that is written once
more with the same content is replaced by itself, and what was refused is refused again, so that
nothing on the disk looks different (`Writer.write_again`).
-/
set_option autoImplicit false

namespace SpecDraft

/-- An entry with the moment of its last change left out. -/
def Entry.undated : Entry → Entry
  | file content _ => file content ⟨0⟩
  | directory entries => directory entries

namespace Disk

/-- What is seen at a place, apart from the moments of changes. -/
def look (disk : Disk) (place : Location) : Option Entry := (disk.sight place).map Entry.undated

/-- The places of the temporary files for a target, whose names start as given. -/
def temporaryPlaces (target : FilePath) (start : String) : Set Location :=
  {place | ∃ n, place = target.parent.parts ++ [start ++ temporaryTag n ++ ".tmp"]}

/-- Whether files at some places leave alone what a replacement of a target needs: the target, its
temporary files, and the directory above. -/
structure Spares (target : FilePath) (start : String) (places : Set Location) : Prop where
  goal : target.parts ∉ places ∧ target.parts ∉ wayTo places
  parent : target.parent.parts ∉ places
  temporary : ∀ place ∈ temporaryPlaces target start, place ∉ places ∧ place ∉ wayTo places

section Again
variable {target : FilePath} {start : String} {places : Set Location} {content : ByteArray}
  {now : Moment} {disk mid after later : Disk} {result : Except Failure Unit}

theorem look_congr {place : Location} (h : after.sight place = disk.sight place) :
    after.look place = disk.look place := by
  rw [look, look, h]

/-- The temporary files lie beside the target. -/
theorem temporary_beside (h : Replaceable target start) {place : Location}
    (hplace : place ∈ temporaryPlaces target start) :
    place ≠ target.parts ∧ place ∉ wayTo {target.parts} := by
  obtain ⟨n, rfl⟩ := hplace
  have hne : target.parent.parts ++ [start ++ temporaryTag n ++ ".tmp"] ≠ target.parts := by
    rw [parts_eq h.named, String.append_assoc]
    intro heq
    exact (h.temporary _).2 (List.singleton_inj.mp (List.append_cancel_left heq))
  refine ⟨hne, ?_⟩
  rintro ⟨goal, rfl, hway, -⟩
  refine hne (hway.eq_of_length ?_)
  rw [parts_eq h.named]
  simp

/-! ## Making the directory -/

theorem prefix_grandparent {path : FilePath} :
    path.parent.parent.parts <+: path.parent.parts := List.dropLast_prefix _

/-- Where a directory is and the path leads there, none is made. -/
theorem makeDirectories_of_sight {path : FilePath} (hlocated : disk.located path = .ok path.parts)
    (h : disk.sight path.parts = some (.directory [])) :
    (makeDirectories path).run disk = (.ok (), disk) := by
  obtain ⟨entries, hentries⟩ := Entry.sight_eq_directory.mp h
  exact makeDirectories_of_present (status_ok.mpr ⟨_, located_ok.mp hlocated, hentries⟩)

/-- A directory that could not be made cannot be made later either. -/
theorem making_again {path : FilePath} (hdots : ".." ∉ path.parts)
    (habove : path.parts ≠ [] → disk.sight path.parent.parts = some (.directory []))
    (hlater : Grows path.anchor places disk later) (hplace : path.parts ∉ places) {failure : Failure}
    (h : disk.making path = .error failure) : later.making path = .error failure := by
  have hlocated : later.located path = disk.located path :=
    located_congr hdots habove fun hnamed => hlater.directory (habove hnamed)
  cases hlater.change path.parts with
  | same hsame => rw [making_congr hdots hlocated hlater.refuses hsame, h]
  | written hmem => exact absurd hmem hplace
  | made _ hnone hallowed _ =>
    -- A directory was made there meanwhile, and so it is the way that is refused.
    unfold making at h ⊢
    rw [hlocated]
    cases hgoal : disk.located path with
    | error cause => rwa [hgoal] at h
    | ok goal =>
      obtain rfl := (located_ok.mp hgoal).eq_parts hdots
      rw [hgoal] at h
      dsimp only [bind, Except.bind] at h
      rw [Entry.sight_eq_none.mp hnone, allowed_ok.mpr hallowed] at h
      cases h

/-- When directories were made for a target that is then replaced, or below a directory that was
there, the path of the directory leads there. -/
theorem located_of_made (h : Replaceable target start)
    (hdots : ".." ∉ target.parts) (hmade : (makeDirectories target.parent).run disk = (.ok (), mid))
    (hready : (∃ temporary, mid.replacement target temporary = .ok ()) ∨
      disk.sight target.parent.parent.parts = some (.directory [])) :
    mid.located target.parent = .ok target.parent.parts ∧
      mid.sight target.parent.parts = some (.directory []) := by
  have hdots' : ".." ∉ target.parent.parts := fun hmem => hdots (List.dropLast_subset _ hmem)
  rcases hready with ⟨temporary, hreplaced⟩ | habove
  · obtain ⟨hleads, hsight, -⟩ := sight_of_replacement hdots h.named hreplaced
    obtain ⟨entries, hstatus⟩ := parent_status hleads hdots h.named
    obtain ⟨place, hparent, -⟩ := status_ok.mp hstatus
    obtain rfl := hparent.eq_parts hdots'
    exact ⟨located_ok.mpr hparent, hsight⟩
  · obtain ⟨mid', hrun, hmakes⟩ := makeDirectories_run hdots' fun _ => habove
    obtain ⟨hmaking, rfl⟩ := Prod.mk.inj (hmade.symm.trans hrun)
    rw [← hmaking] at hmakes
    have hsight := hmakes.sight target.parent.parts
    dsimp only at hsight
    rw [if_pos rfl] at hsight
    refine ⟨?_, hsight⟩
    rw [located_congr hdots' (fun _ => habove) fun _ => sight_above hsight prefix_grandparent]
    unfold making at hmaking
    obtain ⟨place, hlocated, -⟩ := Action.bind_ok.mp hmaking.symm
    rw [hlocated, (located_ok.mp hlocated).eq_parts hdots']

/-! ## Replacing -/

/-- A replacement ends as it did before, and what is seen at the place of the target afterwards is
the new content, or what was seen there before. -/
theorem replaceFile_again (h : Replaceable target start) (hdots : ".." ∉ target.parts)
    (habove : mid.sight target.parent.parts = some (.directory []))
    (hreplaces : Replaces target content now result mid after)
    (hresult : mid.replacement target (mid.temporaryBeside target start) = result)
    (hlater : Grows target.anchor places after later) (hspares : Spares target start places)
    (content' : ByteArray) (now' : Moment) :
    ∃ again, (replaceFile target start content' now').run later = (result, again) ∧
      Replaces target content' now' result later again := by
  obtain ⟨again, hrun, hagain⟩ := replaceFile_run h hdots content' now' later
  have hgrows : Grows target.anchor {target.parts} mid after := hreplaces.grows fun hok =>
    (sight_of_replacement hdots h.named (hresult.trans hok)).2.2
  have hsame : later.replacement target (later.temporaryBeside target start) = result := by
    rw [← hresult]
    refine replacement_congr h hdots (hlater.refuses.trans hgrows.refuses) habove
      (hlater.directory (hgrows.directory habove)) (fun n => ?_) ?_
    · obtain ⟨hne, hway⟩ := temporary_beside h ⟨n, rfl⟩
      obtain ⟨hfree, hfreeWay⟩ := hspares.temporary _ ⟨n, rfl⟩
      rw [hlater.beside hfree hfreeWay, hgrows.beside hne hway]
    · rw [hlater.beside hspares.goal.1 hspares.goal.2, hreplaces.sight]
      cases result with
      | error failure => exact Iff.rfl
      | ok _ =>
        rw [if_pos rfl]
        exact iff_of_false (fun hfile => by cases hfile)
          (sight_of_replacement hdots h.named hresult).2.2
  rw [hsame] at hrun hagain
  exact ⟨again, hrun, hagain⟩

/-- **A file that is put at a target once more**, after files were put elsewhere, is put there with
the same outcome, whatever its content is now: when the first attempt succeeded, or when it was made
below a directory that was there. -/
theorem install_again (h : Replaceable target start) (hdots : ".." ∉ target.parts)
    (hrun : (install target start content now).run disk = (result, after))
    (hready : result = .ok () ∨ disk.sight target.parent.parent.parts = some (.directory []))
    (hlater : Grows target.anchor places after later) (hspares : Spares target start places)
    (content' : ByteArray) (now' : Moment) :
    (result = .ok () → after.sight target.parts = some (.file content now)) ∧
      ∃ again, (install target start content' now').run later = (result, again) ∧
        Replaces target content' now' result later again := by
  have hdots' : ".." ∉ target.parent.parts := fun hmem => hdots (List.dropLast_subset _ hmem)
  unfold install at hrun ⊢
  rcases hmade : (makeDirectories target.parent).run disk with ⟨failure | _, mid⟩
  · rw [Action.run_bind_of_error hmade] at hrun
    cases hrun
    have habove := hready.resolve_left fun hok => by cases hok
    obtain ⟨mid', hmake, hmakes⟩ := makeDirectories_run hdots' fun _ => habove
    obtain ⟨hmaking, rfl⟩ := Prod.mk.inj (hmade.symm.trans hmake)
    rw [← hmaking] at hmakes
    have hgrows : Grows target.anchor places disk later :=
      Grows.trans ⟨hmakes.refuses, fun place => .same (hmakes.sight place)⟩ hlater
    obtain ⟨again, hagain, hmakes'⟩ :=
      makeDirectories_run hdots' fun _ => hgrows.directory habove
    rw [making_again hdots' (fun _ => habove) hgrows hspares.parent hmaking.symm] at hagain hmakes'
    exact ⟨fun hok => (by cases hok), again, Action.run_bind_of_error hagain, hmakes'.refuses,
      hmakes'.sight⟩
  · rw [Action.run_bind_of_ok hmade] at hrun
    obtain ⟨after', hreplace, hreplaces⟩ := replaceFile_run h hdots content now mid
    obtain ⟨hresult, rfl⟩ := Prod.mk.inj (hrun.symm.trans hreplace)
    rw [← hresult] at hreplaces
    obtain ⟨hlocated, habove⟩ := located_of_made h hdots hmade
      (hready.imp_left fun hok => ⟨_, hresult.symm.trans hok⟩)
    have hgrows : Grows target.anchor {target.parts} mid after := hreplaces.grows fun hok =>
      (sight_of_replacement hdots h.named (hresult.symm.trans hok)).2.2
    have habove' := hlater.directory (hgrows.directory habove)
    have hlocated' : later.located target.parent = .ok target.parent.parts := by
      rw [located_congr hdots' (fun _ => sight_above habove prefix_grandparent)
        fun _ => sight_above habove' prefix_grandparent, hlocated]
    refine ⟨fun hok => ?_, ?_⟩
    · rw [hreplaces.sight, hok]
      exact if_pos rfl
    · obtain ⟨again, hagain, hreplaces'⟩ :=
        replaceFile_again h hdots habove hreplaces hresult.symm hlater hspares content' now'
      exact ⟨again, (Action.run_bind_of_ok (makeDirectories_of_sight hlocated' habove')).trans hagain,
        hreplaces'⟩

/-- A file that is replaced by itself looks the same. -/
theorem Replaces.look {after : Disk} (h : Replaces target content now result disk after)
    (hsame : result = .ok () → ∃ modified, disk.sight target.parts = some (.file content modified))
    (place : Location) : after.look place = disk.look place := by
  have hsight := h.sight place
  cases result with
  | error failure => exact look_congr hsight
  | ok _ =>
    dsimp only at hsight
    by_cases hplace : place = target.parts
    · obtain ⟨modified, hbefore⟩ := hsame rfl
      rw [if_pos hplace] at hsight
      rw [look, look, hsight, hplace, hbefore]
      rfl
    · rw [if_neg hplace] at hsight
      exact look_congr hsight

end Again
end Disk

/-! ## Artifacts -/

namespace Output.Writer

open Disk

variable {writer : Writer} {target : FilePath} {content : String} {places : Set Location}
  {now : Moment} {disk after later : Disk} {result : Except Failure Written}

/-- **An artifact that is written once more**, after files were written elsewhere, is written with
the same outcome, and nothing on the disk looks different afterwards: when the first attempt
succeeded, or when it was made below a directory that was there. -/
theorem write_again (hplain : target.Plain)
    (hrun : (writer.write target.text content now).run disk = (result, after))
    (hready : (∃ written, result = .ok written) ∨
      disk.sight target.parent.parent.parts = some (.directory []))
    (hlater : Grows target.anchor places after later)
    (hspares : Spares target ("." ++ target.name ++ ".") places) (now' : Moment) :
    ∃ again, (writer.write target.text content now').run later = (result, again) ∧
      ∀ spot, again.look spot = later.look spot := by
  by_cases haccepts : ∃ goal bytes, writer.Accepts target.text content goal bytes
  · obtain ⟨goal, bytes, haccepts⟩ := haccepts
    obtain rfl := eq_of_checked hplain haccepts.path
    rw [run_write haccepts] at hrun
    rcases hplace : (place goal bytes now).run disk with ⟨placed, after'⟩
    have hready' : placed = .ok () ∨ disk.sight goal.parent.parent.parts = some (.directory []) := by
      refine hready.imp_left fun ⟨written, hok⟩ => ?_
      rw [hplace] at hrun
      cases placed with
      | error failure => cases hrun; cases hok
      | ok _ => rfl
    have hafter : after' = after := by
      rw [hplace] at hrun
      cases placed <;> exact (Prod.mk.inj hrun).2
    subst hafter
    obtain ⟨hseen, again, hagain, hreplaces⟩ := install_again (replaceable_of_checked haccepts.path)
      (no_dots_of_checked haccepts.path) hplace hready' hlater hspares bytes now'
    refine ⟨again, ?_, hreplaces.look fun hok => ⟨now, ?_⟩⟩
    · rw [run_write haccepts, show (place goal bytes now').run later = (placed, again) from hagain]
      rw [hplace] at hrun
      cases placed <;> exact Prod.ext (Prod.mk.inj hrun).1 rfl
    · rw [hlater.beside hspares.goal.1 hspares.goal.2, hseen hok]
  · obtain ⟨failure, hrefused⟩ := run_write_of_refused fun goal bytes h => haccepts ⟨goal, bytes, h⟩
    rw [hrefused] at hrun
    cases hrun
    exact ⟨later, hrefused now' later, fun _ => rfl⟩

end Output.Writer
end SpecDraft
