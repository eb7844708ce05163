import SpecDraft.Proofs.Session.Question
import SpecDraft.Workflow.Generation

/-!
# What the stages ask

The stages load documents and the state, extract what they hold, and render templates. All that
depends on the disk alone: each of these actions asks a question (`loadSpecification_asks`,
`loadDebt_asks`, `render_asks`, `wantedRoute_asks`).
-/
set_option autoImplicit false

namespace SpecDraft

/-- The document in a file of at most `limit` bytes, as it is read from a disk. -/
def Document.readFrom (disk : Disk) (path : FilePath) (limit : Int) : Outcome Document := do
  let content ← disk.readText path limit
  let modified ← disk.modifiedAt path
  parse content path modified.filed.isoText

/-- The document in a file, if there is such a file, as it is read from a disk. -/
def Document.readOptionalFrom (disk : Disk) (path : FilePath) (limit : Int) :
    Outcome (Option Document) := do
  if ← disk.isReadable path then return some (← readFrom disk path limit) else return none

/-- The text of a template, as it is read from a disk. -/
def Template.Source.textIn (source : Template.Source) (disk : Disk) (name : String) :
    Outcome String :=
  match source with
  | bundled => Template.load name
  | directory path => inDirectory disk path name

/-- The state in the file of a store, as it is read from a disk. -/
def Store.stateIn (store : Store) (disk : Disk) : Outcome State := do
  if ← disk.isFile store.file then
    let value ← (disk.readJson store.file store.limit store.limits).mapError loadFailure
    match State.violations value with
    | [] => State.ofMembers (value.members?.getD [])
    | violations => throw (malformed violations)
  else throw store.missing

theorem Document.load_asks (path : FilePath) (limit : Int) :
    (load path limit).Asks (readFrom · path limit) := by
  refine .congr (.bind (.disk _) fun content => .bind (.disk _) fun modified => .bind (.outcome _)
    fun document => .after_quiet (Event.report_quiet _ _) (.pure document)) fun disk => ?_
  exact congrArg (disk.readText path limit >>= ·) <| funext fun content =>
    congrArg (disk.modifiedAt path >>= ·) <| funext fun modified => bind_pure _

theorem Document.loadOptional_asks (path : FilePath) (limit : Int) :
    (loadOptional path limit).Asks (readOptionalFrom · path limit) := by
  refine .congr (.bind (.disk _) fun readable => ?_) fun disk => rfl
  cases readable with
  | true => exact (load_asks path limit).bind fun document => .pure (some document)
  | false => exact .pure none

theorem Store.load_asks (store : Store) : store.load.Asks store.stateIn := by
  refine .congr (.bind (.disk _) fun present => .guarded (.bind (.disk _) fun value => ?_))
    fun disk => rfl
  cases State.violations value with
  | nil => exact .outcome _
  | cons first rest => exact .after_quiet (Log.write_quiet _ _ _ _) (.throw _)

theorem Template.Source.load_asks (source : Template.Source) (name : String) :
    (source.load name).Asks (source.textIn · name) := by
  cases source with
  | bundled => exact Action.Asks.outcome (Template.load name)
  | directory path => exact Action.Asks.disk fun disk => inDirectory disk path name

namespace Workflow

theorem extractConstitution_asks (document : Document) (route : Route) :
    (extractConstitution document route).Asks fun _ => Constitution.extract document route := by
  refine .timed (.congr (.bind (.outcome _) fun constitution =>
    .after_quiet (Event.report_quiet _ _) (.pure constitution)) fun _ => bind_pure _) _

theorem extractFeatures_asks (document : Document) (debt : Option Document) :
    (extractFeatures document debt).Asks fun _ => Feature.extract document debt := by
  refine .timed (.congr (.bind (.outcome _) fun features =>
    .after_quiet (Event.report_quiet _ _) (.pure features)) fun _ => bind_pure _) _

theorem generatePlans_asks (features : List Feature) (debt : Option Document) :
    (generatePlans features debt).Asks fun _ => .ok (Plan.ofFeatures features debt) :=
  .timed (.after_quiet (Event.report_quiet _ _) (.pure _)) _

namespace Project

/-- The functional specification, as it is read from a disk. -/
def specificationIn (project : Project) (disk : Disk) : Outcome Document := do
  if ← disk.pathExists project.functionalSpecification then
    Document.readFrom disk project.functionalSpecification project.settings.maxReadBytes
  else throw (specificationMissing project.functionalSpecification)

/-- The analysis of the technical debt, if there is one, as it is read from a disk. -/
def debtIn (project : Project) (disk : Disk) : Outcome (Option Document) :=
  Document.readOptionalFrom disk project.debtAnalysis project.settings.maxReadBytes

/-- A template rendered against data, as it is read from a disk. -/
def renderedIn (project : Project) (template : Template.Bundled) (data : Members) (disk : Disk) :
    Outcome String := do
  let text ← project.templates.textIn disk template.name
  Template.renderNamed project.templateOptions template.name text data

/-- The route for a job: the given one, else that of the state on a disk, if there is one. -/
def routeIn (project : Project) (given : Json) (disk : Disk) : Outcome Json := do
  if given.isNull then
    if ← disk.isFile project.store.file then return (← project.store.stateIn disk).route
  return given

theorem loadSpecification_asks (project : Project) :
    project.loadSpecification.Asks project.specificationIn :=
  .congr (.bind (.disk _) fun _ => .guarded (Document.load_asks _ _)) fun _ => rfl

theorem loadDebt_asks (project : Project) : project.loadDebt.Asks project.debtIn :=
  Document.loadOptional_asks _ _

theorem render_asks (project : Project) (template : Template.Bundled) (data : Members) :
    (project.render template data).Asks (project.renderedIn template data) := by
  unfold render Template.Source.render
  exact (Template.Source.load_asks _ _).bind fun text => .outcome _

theorem wantedRoute_asks (project : Project) (given : Json) :
    (project.wantedRoute given).Asks (project.routeIn given) := by
  unfold wantedRoute routeIn
  dsimp only
  by_cases hnull : given.isNull = true
  · simp only [if_pos hnull]
    refine .bind (.disk _) fun present => ?_
    cases present with
    | true => exact project.store.load_asks.bind fun state => .pure _
    | false => exact .pure given
  · simp only [if_neg hnull]
    exact .pure given

end Project
end Workflow
end SpecDraft
