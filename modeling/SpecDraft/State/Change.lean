import SpecDraft.State.Basic

/-!
# Changing states

A field of a state, known by name, can be given another value. Lists and records are made of the
value at once, so that a value of which none can be made is refused.
-/
set_option autoImplicit false

namespace SpecDraft.State

/-- The state with what it says about its project changed. -/
def withMetadata (state : State) (change : StateMetadata → StateMetadata) : State :=
  { state with metadata := change state.metadata }

/-- A field that no state has. -/
def unknownField (name : String) : Failure := .lacking ("no " ++ name ++ " in a state")

/-- The foreign members of a state, which must be given as an object. -/
def foreign (value : Json) : Outcome Members :=
  match value with
  | .obj members => .ok members
  | value => .error (.noFields value)

/-- The state with a field given another value. -/
def assign (state : State) (field : String) (value : Json) : Outcome State :=
  match field with
  | "version" => return { state with version := value }
  | "created" => return { state with created := value }
  | "updated" => return { state with updated := value }
  | "route" => return { state with route := value }
  | "current_step" => return { state with currentStep := value }
  | "completed_steps" => return { state with completed := ← value.elements }
  | "step_details" => return { state with details := ← detailsOfJson value }
  | "extra" => return { state with extra := ← foreign value }
  | "project_name" => return state.withMetadata ({ · with projectName := value })
  | "project_path" => return state.withMetadata ({ · with projectPath := value })
  | "route_description" => return state.withMetadata ({ · with routeDescription := value })
  | field => throw (unknownField field)

/-- The state with some fields given other values, one after the other. -/
def assignAll (state : State) (values : Members) : Outcome State :=
  values.foldlM (fun state (field, value) => state.assign field value) state

end SpecDraft.State
