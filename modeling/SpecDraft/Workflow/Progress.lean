import SpecDraft.Session.Event

/-!
# Progress

A job is an action that notes its progress and the route it works for. The notes of a job that
failed are kept, and its failure is the last of them.
-/
set_option autoImplicit false

namespace SpecDraft.Workflow

/-- A note on the progress of a job. -/
structure Progress where
  phase : String
  status : String
  message : String
  details : Members

namespace Progress

/-- The note as a record, with details only where there are some. -/
def toJson (progress : Progress) : Json :=
  .obj ([("phase", .str progress.phase), ("status", .str progress.status),
    ("message", .str progress.message)] ++
    if progress.details.isEmpty then [] else [("details", .obj progress.details)])

/-- The note on a failure. -/
def ofFailure (failure : Failure) : Progress := ⟨"error", "error", failure.message, []⟩

end Progress

/-- What a job has noted so far: its progress and its route, as far as that is known. -/
structure Trace where
  progress : List Progress
  route : Json

/-- An action that notes its progress. -/
abbrev Job (α : Type) := ExceptT Failure (StateT Trace (StateM Session)) α

/-- An action as a job that notes nothing. -/
instance : MonadLift (ExceptT Failure (StateM Session))
    (ExceptT Failure (StateT Trace (StateM Session))) where
  monadLift action := ExceptT.mk (StateT.lift action.run)

namespace Job

/-- Adds a note. -/
def note (phase status message : String) (details : Members) : Job Unit :=
  modifyThe Trace fun trace =>
    { trace with progress := trace.progress ++ [⟨phase, status, message, details⟩] }

/-- Notes that a phase starts. -/
def starting (phase message : String) : Job Unit := note phase "starting" message []

/-- Notes that a phase is done. -/
def completed (phase message : String) (details : Members) : Job Unit :=
  note phase "completed" message details

/-- Notes the route that the job works for. -/
def settle (route : Json) : Job Unit := modifyThe Trace fun trace => { trace with route }

end Job

/-- How a job ended, and its notes. -/
structure Ended (α : Type) where
  outcome : Except Failure α
  progress : List Progress

namespace Ended

/-- Whether a job succeeded. -/
def succeeded {α : Type} (ended : Ended α) : Bool := ended.outcome.toBool

/-- The notes as a value. -/
def notes {α : Type} (ended : Ended α) : Json := .arr (ended.progress.map (·.toJson))

end Ended
end SpecDraft.Workflow
