import SpecDraft.Log
import SpecDraft.Proofs.Json.Characters
import SpecDraft.Proofs.Json.RoundTrip
import SpecDraft.Proofs.Text.Cutting

/-!
# Lines of log records

A file of log records has a line for each of them. Whatever a record says, its line is printable
ASCII, so that no text in it can end the line or start another record, and the line reads back as
one object (`line_reads`). The object holds what the record says of itself, except where a further
field has that name, and the further fields: no more and no less.
-/
set_option autoImplicit false

namespace SpecDraft.Log.Record

/-! ## What a record says -/

/-- What a record says of itself, by name. -/
def own? (r : Record) : String → Option Json
  | "timestamp" => some (.str r.moment.recorded.isoText)
  | "level" => some (.str (levelName r.level))
  | "logger" => some (.str r.logger)
  | "module" => r.origin.map fun origin => .str origin.module
  | "function" => r.origin.map fun origin => .ofText? origin.function
  | "line" => r.origin.map fun origin => .int origin.line
  | "message" => some (.str r.message)
  | "exception" => r.exception.map .str
  | _ => none

theorem nodup_keys_ownMembers (r : Record) : (Members.keys r.ownMembers).Nodup := by
  unfold ownMembers
  cases r.origin <;> cases r.exception
  all_goals simp [Origin.members]

theorem get?_ownMembers (r : Record) (key : String) :
    Members.get? r.ownMembers key = r.own? key := by
  unfold own?
  split
  case h_9 =>
    rw [Members.get?_eq_none_iff, ownMembers]
    cases r.origin <;> cases r.exception
    all_goals simp_all [Origin.members]
  all_goals
    rw [ownMembers]
    cases r.origin <;> cases r.exception
    all_goals rfl

theorem wellFormed_ownMembers (r : Record) : Members.WellFormed r.ownMembers where
  nodup := r.nodup_keys_ownMembers
  values := by
    unfold ownMembers
    cases r.origin <;> cases r.exception
    all_goals simp [Origin.members, Json.WellFormed, Json.wellFormed_ofText?]

/-! ## The line -/

section Line
variable {r : Record}

theorem wellFormed_members (h : r.fields.WellFormed) : r.members.WellFormed :=
  r.wellFormed_ownMembers.merge h.values

theorem get?_members (h : r.fields.WellFormed) (key : String) :
    r.members.get? key = (r.fields.get? key).or (r.own? key) := by
  rw [members, Members.get?_merge _ h.nodup, get?_ownMembers]

/-- **A record is one line that reads back.** Its characters are printable ASCII, and it reads as
an object that has, under every name, the further field of that name or else what the record says
of itself. A reader with limits agrees, unless the record is beyond them. -/
theorem line_reads (h : r.fields.WellFormed) :
    (∀ c ∈ r.line.toList, Printable c) ∧
    ∃ members : Members,
      Json.read? r.line = some (.obj members) ∧
      (∀ limits, (Json.obj members).excess? limits 0 = none →
        Json.read limits r.line = .ok (.obj members)) ∧
      members.keys.Nodup ∧
      ∀ key, members.get? key = (r.fields.get? key).or (r.own? key) := by
  have hwf : (Json.obj r.members).WellFormed := Members.wellFormed_obj.mpr (wellFormed_members h)
  have hread (limits : Json.Limits) (hlimit : (Json.obj r.members).excess? limits 0 = none) :
      Json.read limits r.line = .ok (.obj r.members) :=
    Json.read_compact hwf hlimit
  exact ⟨Json.printable_compact _, r.members, Json.read?_compact hwf, hread,
    (wellFormed_members h).nodup, get?_members h⟩

end Line

/-- A record with a message over two lines. One of its further fields has the name of one of its
own, and another one nests values. -/
def forged : Record where
  moment := ⟨1700000000250000⟩
  level := error
  logger := "stackshift.errors"
  origin := some ⟨"/srv/stackshift/workflow.py", some "generate", 214⟩
  message := "Error: \"café\" 😀\n\x7b\"level\": \"INFO\"\x7d\r\n\u2028"
  exception := some "ValueError: stop"
  fields := [("level", .str "FATAL\n"),
    ("context", .obj [("tries", .arr [.int (-2), .null]), ("share", .real (.finite true 0))])]

theorem wellFormed_forged : forged.fields.WellFormed := by
  have hcontext : (Json.obj [("tries", .arr [.int (-2), .null]),
      ("share", .real (.finite true 0))]).WellFormed :=
    ⟨by decide, ⟨trivial, trivial, trivial⟩, Binary64.fits_zero, trivial⟩
  exact Members.wellFormed_obj.mp ⟨by decide, trivial, hcontext, trivial⟩

theorem line_reads_forged : forged.fields.WellFormed ∧
    (∀ c ∈ forged.line.toList, Printable c) ∧
    ∃ members : Members, Json.read? forged.line = some (.obj members) ∧
      members.get? "message" = some (.str "Error: \"café\" 😀\n\x7b\"level\": \"INFO\"\x7d\r\n\u2028") ∧
      members.get? "level" = some (.str "FATAL\n") ∧
      members.get? "module" = some (.str "workflow") ∧
      members.get? "thread" = none := by
  obtain ⟨hprintable, members, hread, -, -, hget⟩ := line_reads wellFormed_forged
  refine ⟨wellFormed_forged, hprintable, members, hread, ?_, ?_, ?_, ?_⟩
  · exact hget "message"
  · exact hget "level"
  · exact hget "module"
  · exact hget "thread"

/-! ## The lines of a file -/

theorem lineFeed_not_mem_line (r : Record) : '\n' ∉ r.line.toList :=
  fun hmem => absurd (Json.printable_compact _ '\n' hmem) (by decide)

/-- **A file of records has one line for each of them**, in order, whatever they say. -/
theorem lines_file (records : List Record) :
    Text.lines (records.flatMap fun r => r.line.toList ++ ['\n']) =
      records.map (·.line.toList) ++ [[]] := by
  induction records with
  | nil => rfl
  | cons r records ih =>
    rw [Text.lines] at ih ⊢
    rw [List.flatMap_cons, List.append_assoc, List.singleton_append,
      Text.split_append r.lineFeed_not_mem_line, ih]
    rfl

end SpecDraft.Log.Record
