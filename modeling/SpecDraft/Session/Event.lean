import SpecDraft.Failure.Report
import SpecDraft.Session.Hook

/-!
# Events

What happens in a workflow is logged and handed to the hooks; failures are logged with what was
being done.
-/
set_option autoImplicit false

namespace SpecDraft.Event

/-- Logs an event and calls its hooks. The feature that the event is about is always named, null
when there is none. -/
def report (event : String) (data : Members) : Effect Unit := do
  let fields : Members :=
    [("timestamp", .str (← get).now.isoText), ("event_type", .str event),
      ("feature_id", (data.get? "feature_id").getD .null)]
  let fields := fields.merge (data.without ["feature_id"])
  Log.write Log.info Hook.logger ("Workflow event: " ++ event) fields
  Hook.trigger event (fields.without ["event_type"])

/-- Something happened to an artifact. -/
def artifact (event : String) (kind : Json) (data : Members) : Effect Unit :=
  report ("artifact_" ++ Text.lower event) (("artifact_type", kind) :: data)

/-- A document was parsed. -/
def documentParsed (path nodes : Json) (data : Members) : Effect Unit :=
  artifact "parsed" (.str "document") ([("path", path), ("node_count", nodes)] ++ data)

/-- A constitution was extracted. -/
def constitutionExtracted (route : Json) (data : Members) : Effect Unit :=
  artifact "extracted" (.str "constitution") (("route", route) :: data)

/-- Features were extracted. -/
def featuresExtracted (count : Json) (data : Members) : Effect Unit :=
  artifact "extracted" (.str "features") (("feature_count", count) :: data)

/-- Plans were made. -/
def plansGenerated (count : Json) (data : Members) : Effect Unit :=
  artifact "generated" (.str "plans") (("plan_count", count) :: data)

/-- An artifact was written. -/
def artifactWritten (path size : Json) (data : Members) : Effect Unit :=
  artifact "written" (.str "markdown") ([("path", path), ("bytes_written", size)] ++ data)

/-- A step of the workflow was completed. -/
def stepCompleted (step : String) (next : Json) (data : Members) : Effect Unit :=
  report ("workflow_step_" ++ String.ofList (step.toList.map fun c => if c = '-' then '_' else c))
    ([("step_name", .str step), ("next_step", next)] ++ data)

/-- The logger of failures. -/
def errorLogger : String := Log.rootLogger ++ ".errors"

/-- Logs the report of a failure with what was being done. -/
def failedAs (failure : FailureReport) (context extra : Members) : Effect Unit := do
  let fields : Members :=
    [("timestamp", .str (← get).now.isoText), ("error_type", .str failure.kind),
      ("error_message", .str failure.message), ("context", .obj context)]
  let fields := fields.merge extra
  let fields :=
    match failure.record with
    | some details => fields.put "error_details" (.obj details)
    | none => fields
  let operation := (context.get? "operation").getD (.str "unknown operation")
  Log.write Log.error errorLogger ("Error in " ++ operation.display ++ ": " ++ failure.message)
    fields

/-- Logs a failure with what was being done. -/
def failed (failure : Failure) (context extra : Members) : Effect Unit :=
  failedAs failure.report context extra

end SpecDraft.Event
