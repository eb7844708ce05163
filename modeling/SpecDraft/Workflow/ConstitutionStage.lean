import SpecDraft.Artifact
import SpecDraft.Constitution.Extract
import SpecDraft.Session.Operation
import SpecDraft.Workflow.Project

/-!
# Generating the constitution

The constitution is extracted from the functional specification and written below the directory
of the artifacts, or to a path of the caller's choice.
-/
set_option autoImplicit false

namespace SpecDraft.Workflow

/-- A constitution that was written. -/
structure ConstitutionReport where
  route : Route
  constitution : Constitution
  written : Output.Written

namespace ConstitutionReport

/-- How many values, standards and metrics there are. -/
def counts (constitution : Constitution) : Members :=
  [("values_count", .nat constitution.values.length),
    ("standards_count", .nat constitution.standards.length),
    ("metrics_count", .nat constitution.metrics.length)]

/-- The report as members. -/
def members (report : ConstitutionReport) (notes : Json) : Members :=
  [("success", .bool true), ("route", .str report.route.name),
    ("constitution_path", .str report.written.path),
    ("stats", .obj ([("purpose", .str (Text.take 150 report.constitution.purpose))] ++
      counts report.constitution ++ [("bytes_written", .nat report.written.size)])),
    ("progress", notes), ("next_suggested_step", .str "stackshift_create_feature_specs"),
    ("message", .str ("✅ Constitution generated successfully at " ++ report.written.path))]

end ConstitutionReport

/-- Extracts a constitution and announces it. -/
def extractConstitution (document : Document) (route : Route) : Action Constitution :=
  Metric.timed "extract_constitution" do
    let constitution ← (Constitution.extract document route : Action Constitution)
    Event.constitutionExtracted (.str route.name)
      [("values", .nat constitution.values.length),
        ("standards", .nat constitution.standards.length),
        ("metrics", .nat constitution.metrics.length)]
    return constitution

namespace Project

/-- The path that a caller chose for an output; a relative one is taken from the root. -/
def outputPath (project : Project) : Json → Outcome FilePath
  | .str text => return project.root.append (← (FilePath.parse text).expandHome project.homes)
  | value => .error (.noPath value)

/-- Writes a constitution to the path that a caller chose, else to the usual one. -/
def writeConstitution (project : Project) (output : Json) (content : String) :
    Action Output.Written := do
  let now := (← get).now
  if output.isFilled then
    let path ← (project.outputPath output : Action FilePath)
    onDisk (project.writer.write path.text content now)
  else onDisk (project.writer.writeConstitution content "constitution.md" now)

/-- Loads the functional specification and notes what it is like. -/
def readForConstitution (project : Project) : Job Document := do
  Job.starting "loading" "Loading functional specification"
  let document ← (project.loadSpecification : Job Document)
  Job.completed "loading" "Functional specification loaded"
    [("file_path", .str document.path.text), ("size", .nat document.metadata.fileSize),
      ("nodes", .nat document.nodes.length)]
  return document

/-- Makes a constitution for a route. -/
def makeConstitution (project : Project) (output : Json) (route : Route) :
    Job ConstitutionReport := do
  let document ← project.readForConstitution
  Job.starting "extraction" "Extracting constitution data from specification"
  let constitution ← (extractConstitution document route : Job Constitution)
  Job.completed "extraction" "Constitution data extracted successfully"
    (ConstitutionReport.counts constitution ++
      [("has_technical_stack", .bool constitution.stack.isSome)])
  let template := route.constitutionTemplate
  let content ← (project.render template constitution.templateData : Job String)
  Job.completed "templating" "Template populated successfully"
    [("template_name", .str template.name), ("content_length", .nat content.length)]
  let written ← (project.writeConstitution output content : Job Output.Written)
  liftM (Event.artifactWritten (.str written.path) (.nat written.size)
    [("artifact", .str "constitution")])
  Job.completed "writing" "Constitution file written successfully" written.members
  return ⟨route, constitution, written⟩

/-- Makes a constitution. -/
def createConstitution (project : Project) (route output : Json) :
    Effect (Ended ConstitutionReport) :=
  Metric.measured Stage.constitution.operation <|
    project.perform Stage.constitution.operation route do
      Job.starting "initialization" "Starting constitution generation"
      let route ← project.chooseRoute route
      Job.completed "initialization" ("Using " ++ route.name ++ " route")
        [("route", .str route.name)]
      Operation.run Stage.constitution.operation [("route", .str route.name)]
        (project.makeConstitution output route)

end Project

/-- The report of how making a constitution ended. -/
def Ended.constitutionMembers (ended : Ended ConstitutionReport) : Members :=
  match ended.outcome with
  | .ok report => report.members ended.notes
  | .error failure => failureMembers .constitution failure ended.notes

end SpecDraft.Workflow
