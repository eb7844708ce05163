import Mathlib.Data.String.Basic
import SpecDraft.Proofs.File.Access
import SpecDraft.Proofs.Json.Decoding
import SpecDraft.Proofs.Workflow.Questions

/-!
# What the metadata of a document describes

A file is read with every line break as a line feed, and the metadata of its document is taken from
the text that was read. So its size lacks one byte for each carriage return before a line feed, and
its checksum is that of the bytes of the text (`Document.load_measures`). They are those of the file
exactly as far as the file has no such line breaks.
-/
set_option autoImplicit false

namespace SpecDraft

namespace Text

/-- A text with every line break as a line feed. -/
def unified (text : String) : String := String.ofList (unifyNewlines text.toList)

/-- The number of carriage returns that a line feed follows. -/
def returnsBeforeFeeds : List Char → Nat
  | [] => 0
  | '\r' :: '\n' :: rest => returnsBeforeFeeds rest + 1
  | _ :: rest => returnsBeforeFeeds rest

section Unified
variable {s : List Char} {text : String}

theorem return_not_mem_unifyNewlines (s : List Char) : '\r' ∉ unifyNewlines s := by
  fun_induction unifyNewlines s with
  | case1 => exact List.not_mem_nil
  | case2 rest ih => exact List.not_mem_cons_of_ne_of_not_mem (by decide) ih
  | case3 c rest _ ih =>
    refine List.not_mem_cons_of_ne_of_not_mem ?_ ih
    split
    · decide
    · rename_i hc
      exact Ne.symm hc

/-- A text without carriage returns is all that stays as it is. -/
theorem unified_eq_self_iff : unified text = text ↔ '\r' ∉ text.toList := by
  rw [unified, ← String.toList_inj, String.toList_ofList]
  constructor
  · intro h
    rw [← h]
    exact return_not_mem_unifyNewlines _
  · exact unifyNewlines_of_not_mem

/-- **What is lost in bytes**: one for each carriage return before a line feed. A carriage return on
its own becomes a line feed, which is as long. -/
theorem utf8Len_unifyNewlines (s : List Char) :
    String.utf8Len (unifyNewlines s) + returnsBeforeFeeds s = String.utf8Len s := by
  fun_induction unifyNewlines s with
  | case1 => rfl
  | case2 rest ih =>
    have hfeed : '\n'.utf8Size = 1 := by decide
    have hreturn : '\r'.utf8Size = 1 := by decide
    simp only [returnsBeforeFeeds, String.utf8Len_cons, hfeed, hreturn]
    omega
  | case3 c rest hpair ih =>
    have hsize : (if c = '\r' then '\n' else c).utf8Size = c.utf8Size := by
      split
      · rename_i hc
        rw [hc]
        decide
      · rfl
    rw [returnsBeforeFeeds, String.utf8Len_cons, String.utf8Len_cons, hsize]
    · omega
    · exact hpair

theorem returnsBeforeFeeds_eq_zero_iff :
    returnsBeforeFeeds s = 0 ↔ ¬ ['\r', '\n'] <:+: s := by
  fun_induction returnsBeforeFeeds s with
  | case1 => simp
  | case2 rest ih =>
    have hpair : ['\r', '\n'] <:+: '\r' :: '\n' :: rest := ⟨[], rest, rfl⟩
    simp [hpair]
  | case3 c rest hpair ih =>
    have hstart : ¬ ['\r', '\n'] <+: c :: rest := by
      rintro ⟨tail, htail⟩
      obtain ⟨hc, hrest⟩ := List.cons.inj htail
      exact hpair tail hc.symm hrest.symm
    rw [ih, List.infix_cons_iff, not_or]
    exact ⟨fun h => ⟨hstart, h⟩, fun h => h.2⟩

theorem size_toUTF8 (text : String) : text.toUTF8.size = String.utf8Len text.toList := by
  rw [← String.utf8ByteSize_ofList, String.ofList_toList]
  rfl

theorem size_unified (text : String) :
    (unified text).toUTF8.size + returnsBeforeFeeds text.toList = text.toUTF8.size := by
  rw [size_toUTF8, size_toUTF8, unified, String.toList_ofList, utf8Len_unifyNewlines]

end Unified
end Text

theorem toUTF8_of_fromUTF8? {content : ByteArray} {text : String}
    (h : String.fromUTF8? content = some text) : text.toUTF8 = content := by
  unfold String.fromUTF8? at h
  split at h
  · cases h
    rfl
  · cases h

namespace Document

open Text

/-- What a document says about the file that it was read from. -/
structure Measures (document : Document) (content : ByteArray) (text : String) : Prop where
  size : document.metadata.fileSize + returnsBeforeFeeds text.toList = content.size
  checksum : document.metadata.checksum = Digest.hexText (unified text).toUTF8
  /-- The size is that of the file exactly when no carriage return stands before a line feed. -/
  size_iff : document.metadata.fileSize = content.size ↔ ¬ ['\r', '\n'] <:+: text.toList
  /-- The checksum is taken of the bytes of the file exactly when there is no carriage return. -/
  bytes_iff : (unified text).toUTF8 = content ↔ '\r' ∉ text.toList
  described : '\r' ∉ text.toList → document.metadata.checksum = Digest.hexText content

section Load
variable {session : Session} {path : FilePath} {limit : Int} {content : ByteArray}
  {modified : Moment} {text : String} {nodes : List Markdown.Node}

theorem readFrom_of_file {disk : Disk} (hfile : disk.status path = .ok (.file content modified))
    (hlimit : content.size ≤ limit) (htext : String.fromUTF8? content = some text) :
    readFrom disk path limit = parse (unified text) path modified.filed.isoText := by
  have hread : disk.readText path limit = .ok (unified text) :=
    Disk.readText_ok.mpr ⟨content, modified, hfile, hlimit, by rw [Disk.decodeText?, htext]; rfl⟩
  have hmodified : disk.modifiedAt path = .ok modified := by
    rw [Disk.modifiedAt, hfile]
    rfl
  rw [readFrom, hread, hmodified]
  dsimp only [bind, Except.bind]

theorem measures_of_bytes {document : Document} (htext : text.toUTF8 = content)
    (hsize : document.metadata.fileSize = (unified text).toUTF8.size)
    (hchecksum : document.metadata.checksum = Digest.hexText (unified text).toUTF8) :
    document.Measures content text := by
  have hlost := size_unified text
  rw [htext] at hlost
  have hbytes : (unified text).toUTF8 = content ↔ '\r' ∉ text.toList := by
    rw [← htext, String.toUTF8_eq_toByteArray, String.toUTF8_eq_toByteArray,
      String.toByteArray_inj, unified_eq_self_iff]
  refine ⟨by rw [hsize, hlost], hchecksum, ?_, hbytes, fun h => ?_⟩
  · rw [← returnsBeforeFeeds_eq_zero_iff, hsize]
    omega
  · rw [hchecksum, hbytes.mpr h]

/-- **Loading a document.** A file in UTF-8 that is not too large, and whose text with every line
break as a line feed can be parsed, gives the document of the nodes of that text. Its size and its
checksum are those of the bytes of that text: the size is that of the file exactly when no carriage
return stands before a line feed, and the checksum is taken of the bytes of the file exactly when it
has no carriage return at all. -/
theorem load_measures (hfile : session.disk.status path = .ok (.file content modified))
    (hlimit : content.size ≤ limit) (htext : String.fromUTF8? content = some text)
    (hparse : Markdown.parse (unified text) = .ok nodes) :
    ∃ document after, (load path limit).run session = (.ok document, after) ∧
      document.content = unified text ∧ document.nodes = nodes ∧
      document.Measures content text := by
  obtain ⟨after, hrun, -⟩ := load_asks path limit session
  have hread : readFrom session.disk path limit =
      parse (unified text) path modified.filed.isoText := readFrom_of_file hfile hlimit htext
  rw [parse, hparse] at hread
  dsimp only at hrun
  rw [hread] at hrun
  exact ⟨_, after, hrun, rfl, rfl, measures_of_bytes (toUTF8_of_fromUTF8? htext) rfl rfl⟩

end Load

/-! ## A file with line breaks of its own -/

/-- A disk with one document on it. -/
def sampleDisk (content : ByteArray) : Disk :=
  ⟨.directory [("spec.md", .file content ⟨0⟩)], fun _ _ => none⟩

/-- Where the document is. -/
def samplePath : FilePath := ⟨"/", ["spec.md"]⟩

/-- A title whose line ends with a carriage return and a line feed. -/
def returnContent : ByteArray := "a\r\n".toUTF8

/-- The metadata may describe other bytes than those of the file: three bytes count as two, and the
checksum is not theirs. -/
theorem load_miscounts : ∃ document after,
    (load samplePath 100).run (.start ⟨0⟩ (sampleDisk returnContent)) = (.ok document, after) ∧
      document.nodes = [⟨.paragraph, "a", 1⟩] ∧ returnContent.size = 3 ∧
      document.metadata.fileSize = 2 ∧
      document.metadata.checksum ≠ Digest.hexText returnContent := by
  obtain ⟨after, hrun, -⟩ := load_asks samplePath 100 (.start ⟨0⟩ (sampleDisk returnContent))
  refine ⟨_, after, hrun.trans (congrArg (·, after) rfl), rfl, by decide, by decide +kernel,
    by decide +kernel⟩

/-- A document with a carriage return that ends a line on its own, and one that does not. -/
def mixedContent : String := "# T\r\nx\ry"

theorem load_measures_mixed : ∃ document after,
    (load samplePath 100).run (.start ⟨0⟩ (sampleDisk mixedContent.toUTF8)) =
        (.ok document, after) ∧
      document.nodes = [⟨.heading 1, "T", 1⟩, ⟨.paragraph, "x", 2⟩, ⟨.paragraph, "y", 3⟩] ∧
      document.metadata.fileSize + 1 = mixedContent.toUTF8.size := by
  have hfile : (Session.start ⟨0⟩ (sampleDisk mixedContent.toUTF8)).disk.status samplePath =
      .ok (.file mixedContent.toUTF8 ⟨0⟩) := rfl
  have hlimit : (mixedContent.toUTF8.size : Int) ≤ 100 := by decide
  have hparse : Markdown.parse (unified mixedContent) =
      .ok [⟨.heading 1, "T", 1⟩, ⟨.paragraph, "x", 2⟩, ⟨.paragraph, "y", 3⟩] := rfl
  obtain ⟨document, after, hrun, -, hnodes, hmeasures⟩ :=
    load_measures hfile hlimit (fromUTF8?_toUTF8 mixedContent) hparse
  exact ⟨document, after, hrun, hnodes, hmeasures.size⟩

end Document
end SpecDraft
