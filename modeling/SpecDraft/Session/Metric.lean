import SpecDraft.Session.Basic

/-!
# Metrics

Values measured under names, kept in the order in which they were recorded, and the times that
operations take.
-/
set_option autoImplicit false

namespace SpecDraft.Metric

/-- The logger of metrics. -/
def logger : String := Log.rootLogger ++ ".performance"

/-- A value added under a name: to the name's values, or as the first of a new name. -/
def add : List (String × List Json) → String → Json → List (String × List Json)
  | [], name, value => [(name, [value])]
  | (other, values) :: rest, name, value =>
    if other = name then (other, values ++ [value]) :: rest
    else (other, values) :: add rest name value

/-- Records a value under a name. -/
def record (name : String) (value tags : Json) : Effect Unit := do
  let session ← get
  let fields : Members :=
    [("timestamp", .str session.now.isoText), ("name", .str name), ("value", value),
      ("tags", tags)]
  set { session with metrics := add session.metrics name (.obj fields) }
  Log.write Log.debug logger ("Metric recorded: " ++ name ++ "=" ++ value.display) fields

/-- The values of a name, or of every name when none is asked for. -/
def report (metrics : List (String × List Json)) (name : String) : Members :=
  if name.isEmpty then metrics.map fun (key, values) => (key, .arr values)
  else [(name, .arr ((metrics.lookup name).getD []))]

/-- Forgets every value. -/
def clear : Effect Unit := modify fun session => { session with metrics := [] }

/-- Seconds in a message. -/
def secondsText (seconds : Binary64) : String := seconds.fixed 3 .plain ++ "s"

/-- Records that an operation ended well. -/
def completed (name : String) : Effect Unit := do
  let seconds := (← get).elapsed
  record (name ++ "_duration") (.real seconds) (.obj [("status", .str "success")])
  Log.write Log.debug logger ("Completed operation: " ++ name ++ " in " ++ secondsText seconds)
    [("operation", .str name), ("duration", .real seconds), ("status", .str "success")]

/-- Records that an operation failed. -/
def failed (name : String) (failure : Failure) : Effect Unit := do
  let seconds := (← get).elapsed
  record (name ++ "_duration") (.real seconds)
    (.obj [("status", .str "error"), ("error_type", .str failure.kind)])
  Log.write Log.warning logger
    ("Failed operation: " ++ name ++ " after " ++ secondsText seconds ++ " - " ++
      failure.message)
    [("operation", .str name), ("duration", .real seconds), ("status", .str "error"),
      ("error_type", .str failure.kind)]

/-- Runs an action and records how long it took and how it ended. -/
def timed {α : Type} (name : String) (action : Action α) : Action α := do
  let result ← tryCatch action fun failure => do
    failed name failure
    throw failure
  completed name
  return result

/-- Runs an effect, which cannot fail, and records how long it took. -/
def measured {α : Type} (name : String) (effect : Effect α) : Effect α := do
  let result ← effect
  completed name
  return result

end SpecDraft.Metric
