import SpecDraft.Artifact
import SpecDraft.Feature.Extract
import SpecDraft.Session.Operation
import SpecDraft.Workflow.Project

/-!
# Generating specifications

Every feature of the functional specification gets a specification of its own. A feature whose
specification cannot be made is noted, and the others are made all the same.
-/
set_option autoImplicit false

namespace SpecDraft.Workflow

/-- A specification that was written. -/
structure SpecificationEntry where
  feature : Feature
  path : String

namespace SpecificationEntry

/-- The entry as a record. -/
def toJson (entry : SpecificationEntry) : Json :=
  .obj [("feature", .str entry.feature.name), ("feature_id", .str entry.feature.id),
    ("path", .str entry.path), ("status", .str entry.feature.status.text)]

end SpecificationEntry

/-- The features of a project and the specifications that were written for them. -/
structure SpecificationReport where
  route : Route
  directory : FilePath
  features : List Feature
  entries : List SpecificationEntry

namespace SpecificationReport

/-- How many features have a status. -/
def count (report : SpecificationReport) (status : Status) : Json :=
  .nat (report.features.filter (·.status == status)).length

/-- How many features have each status. -/
def stats (report : SpecificationReport) : Members :=
  [("complete", report.count .complete), ("partial", report.count .incomplete),
    ("missing", report.count .missing)]

/-- The report as members. -/
def members (report : SpecificationReport) (notes : Json) : Members :=
  [("success", .bool true), ("route", .str report.route.name),
    ("features_count", .nat report.features.length),
    ("specs_generated", .nat report.entries.length),
    ("output_dir", .str report.directory.text),
    ("specs", .arr (report.entries.map (·.toJson))), ("stats", .obj report.stats),
    ("progress", notes), ("next_suggested_step", .str "stackshift_create_impl_plans"),
    ("message", .str ("✅ Generated " ++ toString report.entries.length ++
      " feature specifications in " ++ report.directory.text))]

end SpecificationReport

/-- Extracts features and announces them. -/
def extractFeatures (document : Document) (debt : Option Document) : Action (List Feature) :=
  Metric.timed "extract_features" do
    let features ← (Feature.extract document debt : Action (List Feature))
    Event.featuresExtracted (.nat features.length) [("with_debt_document", .bool debt.isSome)]
    return features

/-- Notes how many features there are. -/
def noteFeatures (features : List Feature) : Job Unit :=
  Job.completed "extraction" ("Extracted " ++ toString features.length ++ " features") []

/-- Logs and notes why an artifact of a feature could not be made. A failure that is not one of
this library's own is passed on. -/
def skip (stage : Stage) (id phase prelude : String) (failure : Failure) : Job Unit := do
  unless failure.isOwn do throw failure
  liftM (Event.failed failure
    [("operation", .str stage.operation), ("feature_id", .str id)] [])
  Job.note phase "error" (prelude ++ ": " ++ failure.message) []

/-- Announces an artifact of a feature. -/
def announce (kind id : String) (written : Output.Written) : Job Unit :=
  liftM (Event.artifactWritten (.str written.path) (.nat written.size)
    [("artifact", .str kind), ("feature_id", .str id)])

namespace Project

/-- Writes the specification of a feature. -/
def writeSpecification (project : Project) (route : Route) (feature : Feature) :
    Action Output.Written := do
  let content ← project.render .featureSpec (feature.templateData route.name)
  onDisk (project.writer.writeSpecification feature.id feature.slug content (← get).now)

/-- Makes the specification of a feature, if that is possible. -/
def specify (project : Project) (route : Route) (feature : Feature) :
    Job (Option SpecificationEntry) := do
  match ← liftM (attempt (project.writeSpecification route feature)) with
  | .ok written =>
    announce "feature_spec" feature.id written
    return some ⟨feature, written.path⟩
  | .error failure =>
    skip .specifications feature.id "generation"
      ("Failed to generate spec for " ++ feature.name) failure
    return none

/-- Makes the specifications of features, as far as that is possible. -/
def specifyAll (project : Project) (route : Route) :
    List Feature → Job (List SpecificationEntry)
  | [] => return []
  | feature :: rest => do
    let entry ← project.specify route feature
    return entry.toList ++ (← project.specifyAll route rest)

/-- Makes the specifications for a route. -/
def makeSpecifications (project : Project) (route : Route) : Job SpecificationReport := do
  let document ← (project.loadSpecification : Job Document)
  let debt ← (project.loadDebt : Job (Option Document))
  Job.completed "loading" "Documents loaded" [("has_tech_debt", .bool debt.isSome)]
  let features ← (extractFeatures document debt : Job (List Feature))
  noteFeatures features
  let entries ← project.specifyAll route features
  let directory := project.writer.specifications
  Job.completed "generation"
    ("Generated " ++ toString entries.length ++ " feature specifications")
    [("output_dir", .str directory.text), ("count", .nat entries.length)]
  return ⟨route, directory, features, entries⟩

/-- Makes the specifications of the features. -/
def createSpecifications (project : Project) (route : Json) :
    Effect (Ended SpecificationReport) :=
  Metric.measured Stage.specifications.operation <|
    project.perform Stage.specifications.operation route do
      let route ← project.chooseRoute route
      Operation.run Stage.specifications.operation [("route", .str route.name)]
        (project.makeSpecifications route)

end Project

/-- The report of how making the specifications ended. -/
def Ended.specificationMembers (ended : Ended SpecificationReport) : Members :=
  match ended.outcome with
  | .ok report => report.members ended.notes
  | .error failure => failureMembers .specifications failure ended.notes

end SpecDraft.Workflow
