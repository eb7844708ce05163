import SpecDraft.Workflow.Generation
import SpecDraft.Workflow.Guide
import SpecDraft.Workflow.Position

/-!
# Commands

Everything that can be asked of a project. Each command is answered by a report.
-/
set_option autoImplicit false

namespace SpecDraft.Workflow

/-- Something that can be asked of a project. -/
inductive Command where
  /-- Start the project. -/
  | start (route : Json)
  /-- Say how far it has come. -/
  | reportState
  /-- Choose its route. -/
  | setRoute (route : Json)
  /-- Note that a step is done. -/
  | completeStep (step details : Json)
  /-- Make the constitution. -/
  | createConstitution (route output : Json)
  /-- Make the specifications of the features. -/
  | createSpecifications (route : Json)
  /-- Make the plans. -/
  | createPlans (route : Json)
  /-- Make everything. -/
  | generateAll (route : Json)
  /-- Explain the workflow. -/
  | guide

/-- The report that answers a command. -/
def Project.answer (project : Project) : Command → Action Json
  | .start route => liftM (project.startAndReport route)
  | .reportState => project.reportState
  | .setRoute route => liftM (project.setRoute route)
  | .completeStep step details => liftM (project.completeStep step details)
  | .createConstitution route output =>
    return .obj (← liftM (project.createConstitution route output)).constitutionMembers
  | .createSpecifications route =>
    return .obj (← liftM (project.createSpecifications route)).specificationMembers
  | .createPlans route => return .obj (← liftM (project.createPlans route)).planMembers
  | .generateAll route => project.generateAll route
  | .guide => project.guide

end SpecDraft.Workflow
