import SpecDraft.Json.Display
import SpecDraft.Json.Printer
import SpecDraft.Failure
import SpecDraft.Text.Basic
import SpecDraft.Time

/-!
# Log records

A record says when, how important, from which logger and what; it may carry further fields, which
replace its own where they have the same name. It is written as one line of JSON.
-/
set_option autoImplicit false

namespace SpecDraft.Log

/-- The importance of a record; larger is more important. -/
abbrev Level := Int

/-- The level for details of how something works. -/
def debug : Level := 10

/-- The level for things that go as they should. -/
def info : Level := 20

/-- The level for things that may go wrong. -/
def warning : Level := 30

/-- The level for things that went wrong. -/
def error : Level := 40

/-- The names of levels; of two names for one level the first is shown. -/
def levelNames : List (String × Level) :=
  [("CRITICAL", 50), ("FATAL", 50), ("ERROR", 40), ("WARNING", 30), ("WARN", 30), ("INFO", 20),
    ("DEBUG", 10), ("NOTSET", 0)]

/-- The name that is shown for a level. -/
def levelName (level : Level) : String :=
  match levelNames.find? (·.2 == level) with
  | some (name, _) => name
  | none => "Level " ++ toString level

/-- The level of a name. -/
def levelOfName (name : String) : Outcome Level :=
  match levelNames.lookup name with
  | some level => .ok level
  | none => .error (.argument ("Unknown level: " ++ Json.Display.quoted name))

/-- The place in a program that a record comes from. -/
structure Origin where
  path : String
  function : Option String
  line : Int
  deriving DecidableEq, Repr

namespace Origin

/-- The last name of a path. -/
def fileName (path : String) : List Char :=
  (path.toList.reverse.takeWhile (· != '/')).reverse

/-- A file name without its last extension. Dots at its start begin no extension. -/
def stem (name : List Char) : List Char :=
  let dots := name.takeWhile (· == '.')
  let rest := name.dropWhile (· == '.')
  let before := (rest.reverse.dropWhile (· != '.')).drop 1
  if before.isEmpty then name else dots ++ before.reverse

/-- The name of the module that an origin lies in. -/
def module (origin : Origin) : String := String.ofList (stem (fileName origin.path))

/-- The members that describe an origin. -/
def members (origin : Origin) : Members :=
  [("module", .str origin.module), ("function", .ofText? origin.function),
    ("line", .int origin.line)]

end Origin

/-- A log record. -/
structure Record where
  moment : Moment
  level : Level
  logger : String
  origin : Option Origin
  message : String
  exception : Option String
  fields : Members

namespace Record

/-- The members of a record without its further fields. -/
def ownMembers (r : Record) : Members :=
  [("timestamp", .str r.moment.recorded.isoText), ("level", .str (levelName r.level)),
    ("logger", .str r.logger)] ++
  (r.origin.map Origin.members).getD [] ++ [("message", .str r.message)] ++
  (r.exception.map fun text => ("exception", Json.str text)).toList

/-- The members of a record. -/
def members (r : Record) : Members := r.ownMembers.merge r.fields

/-- The line of a record. -/
def line (r : Record) : String := (Json.obj r.members).compact

end Record

/-- The text of a failure as a record shows it. -/
def exceptionText (failure : Failure) : String :=
  if failure.message.isEmpty then failure.kind else failure.kind ++ ": " ++ failure.message

/-- The logger above all others of this library. -/
def rootLogger : String := "stackshift"

/-- How records are kept: those of at least some level go to the console and perhaps to a file.
-/
structure Setup where
  level : Level
  toFile : Bool
  deriving DecidableEq, Repr

namespace Setup

/-- How many handlers a setup has. -/
def handlers (setup : Setup) : Nat := if setup.toFile then 2 else 1

/-- The least level that passes. A setup without a level takes that of the surroundings, which
let warnings pass. -/
def threshold (setup : Setup) : Level := if setup.level = 0 then warning else setup.level

/-- Whether a logger is below the root logger. -/
def covers (logger : String) : Bool :=
  logger == rootLogger || logger.startsWith (rootLogger ++ ".")

/-- Whether a record is handed on. -/
def passes (setup : Setup) (r : Record) : Bool :=
  covers r.logger && 0 < r.level && setup.threshold ≤ r.level

/-- The record that announces a setup. -/
def announcement (now : Moment) : Record :=
  ⟨now, info, rootLogger, none, "StackShift logging initialized", none, []⟩

/-- The records that reach the file; it takes nothing below the level for details. -/
def fileRecords (setup : Setup) (now : Moment) (records : List Record) : List Record :=
  (announcement now :: records).filter fun r => setup.passes r && debug ≤ r.level

end Setup
end SpecDraft.Log
