import SpecDraft.Failure

/-!
# Steps

The six steps that take a project from its first analysis to its implementation, in order.
-/
set_option autoImplicit false

namespace SpecDraft

/-- A step of the workflow. -/
inductive Step where
  | analyze
  | reverseEngineer
  | createSpecs
  | gapAnalysis
  | completeSpec
  | implement
  deriving DecidableEq, Repr

namespace Step

/-- Every step, in order. -/
def all : List Step :=
  [analyze, reverseEngineer, createSpecs, gapAnalysis, completeSpec, implement]

/-- The name by which a step is known in states and commands. -/
def id : Step → String
  | analyze => "analyze"
  | reverseEngineer => "reverse-engineer"
  | createSpecs => "create-specs"
  | gapAnalysis => "gap-analysis"
  | completeSpec => "complete-spec"
  | implement => "implement"

/-- The names of the steps, in order. -/
def ids : List String := all.map id

/-- The step of a name. -/
def ofId? (name : String) : Option Step := all.find? (·.id == name)

/-- The place of a step, counted from one. -/
def number : Step → Nat
  | analyze => 1
  | reverseEngineer => 2
  | createSpecs => 3
  | gapAnalysis => 4
  | completeSpec => 5
  | implement => 6

/-- The step after a step; the last one has none. -/
def next? : Step → Option Step
  | analyze => some reverseEngineer
  | reverseEngineer => some createSpecs
  | createSpecs => some gapAnalysis
  | gapAnalysis => some completeSpec
  | completeSpec => some implement
  | implement => none

/-- The title of a step. -/
def title : Step → String
  | analyze => "Initial Analysis"
  | reverseEngineer => "Reverse Engineering"
  | createSpecs => "Create Specifications"
  | gapAnalysis => "Gap Analysis"
  | completeSpec => "Complete Specification"
  | implement => "Implementation"

/-- What is done in a step. -/
def description : Step → String
  | analyze => "Detect the tech stack and choose the greenfield or brownfield route"
  | reverseEngineer => "Produce functional documentation of the existing application"
  | createSpecs => "Generate the constitution, feature specs and implementation plans"
  | gapAnalysis => "Compare specifications against the current implementation"
  | completeSpec => "Resolve open clarifications in the specifications"
  | implement => "Build the missing and partial features from the plans"

/-- What a step is good for. -/
def purpose : Step → String
  | analyze => "Establish project context and create the workflow state file"
  | reverseEngineer => "Capture business logic and current implementation details"
  | createSpecs => "Turn reverse-engineering documents into structured specifications"
  | gapAnalysis => "Identify partial and missing features"
  | completeSpec => "Remove ambiguity before implementation"
  | implement => "Bring the application to parity with its specification"

/-- The tool that performs a step, where there is one. -/
def tool? : Step → Option String
  | analyze => some "stackshift_initialize"
  | createSpecs => some "stackshift_generate_all_specs"
  | _ => none

/-- What a step leaves behind, where it leaves something. -/
def expectedOutput? : Step → Option String
  | analyze => some "State saved to .stackshift-state.json"
  | reverseEngineer => some "Documents in docs/reverse-engineering/"
  | createSpecs => some "Artifacts in .specify/memory/"
  | _ => none

/-- The step as a record. -/
def toJson (step : Step) : Json :=
  .obj [("step_number", .nat step.number), ("step_id", .str step.id), ("name", .str step.title),
    ("description", .str step.description), ("purpose", .str step.purpose),
    ("tool_name", .ofText? step.tool?), ("expected_output", .ofText? step.expectedOutput?)]

end Step
end SpecDraft
