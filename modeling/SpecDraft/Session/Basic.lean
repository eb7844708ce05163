import SpecDraft.File.Disk
import SpecDraft.Log

/-!
# Sessions

Everything that an operation reads and changes besides its arguments: the clock and the
stopwatch, the disk, the log, the metrics and the hooks. An `Effect` cannot fail; an `Action`
can, and what it did before it failed stays done.
-/
set_option autoImplicit false

namespace SpecDraft

/-- A change that a hook makes to the hooks when it is called. -/
inductive HookChange where
  | register (event hook : String)
  | unregister (event hook : String)
  deriving DecidableEq, Repr

/-- What a hook does when it is called: changes to the hooks, and perhaps a failure with some
text. -/
structure Reaction where
  changes : List HookChange
  failure : Option String
  deriving DecidableEq, Repr

/-- A call of a hook. -/
structure HookCall where
  hook : String
  event : String
  data : Members

/-- How a hook behaves: its reaction to a call, given all calls of hooks so far, of which the last
is its own. -/
abbrev Behaviour := List HookCall → Reaction

/-- The surroundings of an operation. `elapsed` is what the stopwatch shows when an operation
ends, in seconds. Hooks go by names; `reactions` says how each behaves. -/
structure Session where
  now : Moment
  elapsed : Binary64
  disk : Disk
  log : List Log.Record
  metrics : List (String × List Json)
  hooks : List (String × List String)
  reactions : List (String × Behaviour)
  calls : List HookCall

namespace Session

/-- A session on a disk in which nothing has happened. -/
def start (now : Moment) (disk : Disk) : Session :=
  { now, disk, elapsed := .zero, log := [], metrics := [], hooks := [], reactions := []
    calls := [] }

end Session

/-- A change to a session that cannot fail. -/
abbrev Effect (α : Type) := StateM Session α

/-- A change to a session that can fail. -/
abbrev Action (α : Type) := ExceptT Failure (StateM Session) α

/-- An action on the disk of the session. -/
def onDisk {α : Type} (action : DiskM α) : Action α :=
  ExceptT.mk fun session =>
    let (result, disk) := action.run session.disk
    (result, { session with disk })

/-- A question to the disk of the session. -/
def askDisk {α : Type} (question : Disk → Outcome α) : Action α := do
  match question (← get).disk with
  | .ok answer => return answer
  | .error failure => throw failure

/-- Runs an action and returns its failure instead of failing. -/
def attempt {α : Type} (action : Action α) : Effect (Except Failure α) := action.run

/-- An action that returns the failure of another one. -/
def attempted {α : Type} (action : Action α) : Action (Except Failure α) :=
  ExceptT.lift (attempt action)

namespace Log

/-- Writes a record to the log. -/
def write (level : Level) (logger message : String) (fields : Members) : Effect Unit :=
  modify fun session =>
    { session with
      log := session.log ++ [⟨session.now, level, logger, none, message, none, fields⟩] }

end Log
end SpecDraft
