import SpecDraft.Proofs.Session.Law
import SpecDraft.Workflow.Generation

/-!
# Laws of the stages

A stage changes the disk through the writer of its project and in no other way. So every law that
holds of the writer holds of the stages (`createConstitution_law`, `createSpecifications_law`,
`createPlans_law`), however they end. What only reads obeys every law.
-/
set_option autoImplicit false

namespace SpecDraft

/-! ## Reading -/

section Reading
variable {law : Effect.Law}

theorem Document.load_law (path : FilePath) (limit : Int) : law.OfAction (load path limit) := by
  refine .bind (.askDisk _) fun content => .bind (.askDisk _) fun modified => ?_
  refine .bind (.outcome _) fun document => .bind (.quiet ?_) fun _ => .pure document
  exact Event.report_quiet _ _

theorem Document.loadOptional_law (path : FilePath) (limit : Int) :
    law.OfAction (loadOptional path limit) := by
  refine .bind (.askDisk _) fun readable => ?_
  split
  · exact .bind (load_law path limit) fun _ => .pure _
  · exact .pure none

theorem Store.load_law (store : Store) : law.OfAction store.load := by
  refine .bind (.askDisk _) fun present => .guarded fun _ => .bind (.askDisk _) fun value => ?_
  split
  · exact .outcome _
  · exact .bind (.quiet (Log.write_quiet _ _ _ _)) fun _ => .throw _

theorem Template.Source.render_law (source : Template.Source) (options : Template.Options)
    (name : String) (data : Members) : law.OfAction (source.render options name data) := by
  unfold render load
  refine .bind ?_ fun text => .outcome (renderNamed options name text data)
  split
  · exact .outcome _
  · exact .askDisk _

namespace Workflow

theorem extractConstitution_law (document : Document) (route : Route) :
    law.OfAction (extractConstitution document route) := by
  refine .timed (.bind (.outcome _) fun constitution => ?_) _
  exact .bind (.quiet (Event.report_quiet _ _)) fun _ => .pure constitution

theorem extractFeatures_law (document : Document) (debt : Option Document) :
    law.OfAction (extractFeatures document debt) := by
  refine .timed (.bind (.outcome _) fun features => ?_) _
  exact .bind (.quiet (Event.report_quiet _ _)) fun _ => .pure features

theorem generatePlans_law (features : List Feature) (debt : Option Document) :
    law.OfAction (generatePlans features debt) :=
  .timed (.bind (.quiet (Event.report_quiet _ _)) fun _ => .pure _) _

theorem skip_law (stage : Stage) (id phase prelude : String) (failure : Failure) :
    law.OfJob (skip stage id phase prelude failure) :=
  .guarded fun _ => .bind (.quiet (Event.failed_quiet _ _ _)) fun _ => .note _ _ _ _

theorem announce_law (kind id : String) (written : Output.Written) :
    law.OfJob (announce kind id written) :=
  .quiet (Event.report_quiet _ _)

namespace Project

variable {project : Project}

theorem loadSpecification_law : law.OfAction project.loadSpecification :=
  .bind (.askDisk _) fun _ => .guarded fun _ => Document.load_law _ _

theorem loadDebt_law : law.OfAction project.loadDebt := Document.loadOptional_law _ _

theorem wantedRoute_law (given : Json) : law.OfAction (project.wantedRoute given) := by
  unfold wantedRoute
  split
  · refine .bind (.askDisk _) fun present => ?_
    split
    · exact .bind (Store.load_law _) fun _ => .pure _
    · exact .pure _
  · exact .pure _

theorem chooseRoute_law (given : Json) : law.OfJob (project.chooseRoute given) := by
  refine .bind (.action (wantedRoute_law given)) fun wanted => ?_
  split
  · exact .bind (.settle _) fun _ => .pure _
  · exact .throw _

theorem render_law (template : Template.Bundled) (data : Members) :
    law.OfAction (project.render template data) :=
  Template.Source.render_law _ _ _ _

/-- A failure that ends a job is logged, and no more. -/
theorem perform_law {α : Type} {job : Job α} (h : law.OfJob job) (operation : String)
    (route : Json) : law.Holds (project.perform operation route job) := by
  refine law.bind (h ⟨[], route⟩) fun (outcome, trace) => ?_
  cases outcome with
  | ok result => exact law.pure _
  | error failure => exact law.bind (law.quiet (Event.failed_quiet _ _ _)) fun _ => law.pure _

end Project
end Workflow

end Reading

/-! ## Writing -/

namespace Workflow.Project

section Writing
variable {law : Effect.Law} {project : Project}
  (hwrite : ∀ path content now, law.OfAction (onDisk (project.writer.write path content now)))
include hwrite

theorem writeConstitution_law (output : Json) (content : String) :
    law.OfAction (project.writeConstitution output content) := by
  refine .ask (fun session => ?_) fun a b h => by rw [h.now]
  dsimp only
  split
  · exact .bind (.outcome _) fun path => hwrite _ _ _
  · exact hwrite _ _ _

theorem makeConstitution_law (output : Json) (route : Route) :
    law.OfJob (project.makeConstitution output route) := by
  refine .bind ?_ fun document => .bind (.note _ _ _ _) fun _ => ?_
  · refine .bind (.note _ _ _ _) fun _ => .bind (.action loadSpecification_law) fun _ => ?_
    exact .bind (.note _ _ _ _) fun _ => .pure _
  refine .bind (.action (extractConstitution_law document route)) fun constitution => ?_
  refine .bind (.note _ _ _ _) fun _ => .bind (.action (render_law _ _)) fun content => ?_
  refine .bind (.note _ _ _ _) fun _ => ?_
  refine .bind (.action (writeConstitution_law hwrite output content)) fun written => ?_
  exact .bind (.quiet (Event.report_quiet _ _)) fun _ => .bind (.note _ _ _ _) fun _ => .pure _

/-- **Making a constitution** changes the disk through the writer alone. -/
theorem createConstitution_law (route output : Json) :
    law.Holds (project.createConstitution route output) := by
  refine law.measured (perform_law (.bind (.note _ _ _ _) fun _ => ?_) _ _) _
  refine .bind (chooseRoute_law route) fun route => .bind (.note _ _ _ _) fun _ => ?_
  exact .operation (makeConstitution_law hwrite output route) _ _

theorem writeSpecification_law (route : Route) (feature : Feature) :
    law.OfAction (project.writeSpecification route feature) :=
  .bind (render_law _ _) fun _ => .ask (fun _ => hwrite _ _ _) fun _ _ h => by rw [h.now]

theorem specify_law (route : Route) (feature : Feature) :
    law.OfJob (project.specify route feature) := by
  refine .bind (.effect (writeSpecification_law hwrite route feature)) fun result => ?_
  cases result with
  | ok written => exact .bind (announce_law _ _ _) fun _ => .pure _
  | error failure => exact .bind (skip_law _ _ _ _ _) fun _ => .pure _

theorem specifyAll_law (route : Route) (features : List Feature) :
    law.OfJob (project.specifyAll route features) := by
  induction features with
  | nil => exact .pure []
  | cons feature rest ih =>
    exact .bind (specify_law hwrite route feature) fun _ => .bind ih fun _ => .pure _

theorem makeSpecifications_law (route : Route) :
    law.OfJob (project.makeSpecifications route) := by
  refine .bind (.action loadSpecification_law) fun document => ?_
  refine .bind (.action loadDebt_law) fun debt => .bind (.note _ _ _ _) fun _ => ?_
  refine .bind (.action (extractFeatures_law document debt)) fun features => ?_
  refine .bind (.note _ _ _ _) fun _ => ?_
  refine .bind (specifyAll_law hwrite route features) fun entries => ?_
  exact .bind (.note _ _ _ _) fun _ => .pure _

/-- **Making the specifications** changes the disk through the writer alone. -/
theorem createSpecifications_law (route : Json) :
    law.Holds (project.createSpecifications route) := by
  refine law.measured (perform_law ?_ _ _) _
  refine .bind (chooseRoute_law route) fun route => ?_
  exact .operation (makeSpecifications_law hwrite route) _ _

theorem writePlan_law (slug : String) (plan : Plan) :
    law.OfAction (project.writePlan slug plan) := by
  refine .bind (.outcome _) fun _ => .bind (render_law _ _) fun _ => ?_
  exact .ask (fun _ => hwrite _ _ _) fun _ _ h => by rw [h.now]

theorem plan_law (features : List Feature) (plan : Plan) :
    law.OfJob (project.plan features plan) := by
  refine .bind (.effect (writePlan_law hwrite _ plan)) fun result => ?_
  cases result with
  | ok written => exact .bind (announce_law _ _ _) fun _ => .pure _
  | error failure => exact .bind (skip_law _ _ _ _ _) fun _ => .pure _

theorem planAll_law (features : List Feature) (plans : List (String × Plan)) :
    law.OfJob (project.planAll features plans) := by
  induction plans with
  | nil => exact .pure []
  | cons pair rest ih =>
    exact .bind (plan_law hwrite features pair.2) fun _ => .bind ih fun _ => .pure _

theorem makePlans_law (route : Route) : law.OfJob (project.makePlans route) := by
  refine .bind (.action loadSpecification_law) fun document => ?_
  refine .bind (.action loadDebt_law) fun debt => ?_
  refine .bind (.action (extractFeatures_law document debt)) fun features => ?_
  refine .bind (.note _ _ _ _) fun _ => ?_
  refine .bind (.action (generatePlans_law features debt)) fun plans => ?_
  refine .bind (.note _ _ _ _) fun _ => ?_
  refine .bind (planAll_law hwrite features plans) fun entries => ?_
  exact .bind (.note _ _ _ _) fun _ => .pure _

/-- **Making the plans** changes the disk through the writer alone. -/
theorem createPlans_law (route : Json) : law.Holds (project.createPlans route) := by
  refine law.measured (perform_law ?_ _ _) _
  refine .bind (chooseRoute_law route) fun route => ?_
  exact .operation (makePlans_law hwrite route) _ _

end Writing

end Workflow.Project
end SpecDraft
