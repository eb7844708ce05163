import SpecDraft.Session.Metric

/-!
# Operations

The start and the end of an operation are logged with the fields that describe it.
-/
set_option autoImplicit false

namespace SpecDraft.Operation

/-- The logger of operations. -/
def logger : String := Log.rootLogger ++ ".operations"

/-- Logs that an operation starts. -/
def started (name : String) (fields : Members) : Effect Unit :=
  let own : Members := [("operation", .str name), ("status", .str "started")]
  Log.write Log.info logger ("Starting operation: " ++ name) (own.merge fields)

/-- Logs that an operation ended well. -/
def completed (name : String) (fields : Members) : Effect Unit := do
  let seconds := (← get).elapsed
  let own : Members :=
    [("operation", .str name), ("status", .str "completed"), ("duration", .real seconds)]
  Log.write Log.info logger
    ("Completed operation: " ++ name ++ " in " ++ Metric.secondsText seconds)
    (own.merge fields)

/-- Logs that an operation failed. -/
def failed (name : String) (fields : Members) (failure : Failure) : Effect Unit := do
  let seconds := (← get).elapsed
  let own : Members :=
    [("operation", .str name), ("status", .str "failed"), ("duration", .real seconds),
      ("error_type", .str failure.kind), ("error_message", .str failure.message)]
  Log.write Log.error logger
    ("Failed operation: " ++ name ++ " after " ++ Metric.secondsText seconds ++ " - " ++
      failure.message)
    (own.merge fields)

/-- Runs a body as an operation. -/
def run {m : Type → Type} [Monad m] [MonadExceptOf Failure m] [MonadLiftT (StateM Session) m]
    {α : Type} (name : String) (fields : Members) (body : m α) : m α := do
  liftM (started name fields)
  let result ← tryCatch body fun failure => do
    liftM (failed name fields failure)
    throw failure
  liftM (completed name fields)
  return result

end SpecDraft.Operation
