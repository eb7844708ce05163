import SpecDraft.Json.Collection

/-!
# Routes

A project is rebuilt from its business logic alone, or documented as it stands.
-/
set_option autoImplicit false

namespace SpecDraft

/-- How a project is taken further. -/
inductive Route where
  | greenfield
  | brownfield
  deriving DecidableEq, Repr

namespace Route

/-- The name of a route. -/
def name : Route → String
  | greenfield => "greenfield"
  | brownfield => "brownfield"

/-- What a route means. -/
def description : Route → String
  | greenfield => "Build new app from business logic (tech-agnostic)"
  | brownfield => "Manage existing app with Spec Kit (tech-prescriptive)"

/-- Every route. -/
def all : List Route := [greenfield, brownfield]

/-- The names of the routes. -/
def names : List String := all.map name

/-- The route of a name. -/
def ofName? (name : String) : Option Route := all.find? (·.name == name)

/-- The description of the route of a name, if there is such a route. -/
def descriptionOf? (name : String) : Option String := (ofName? name).map description

/-- Whether a value is null or names a route. -/
def isKnown (value : Json) : Bool := value.isNull || value.isOneOf names

/-- What the route that a value names means; null where it names none. -/
def describe (value : Json) : Json := .ofText? (value.text?.bind descriptionOf?)

/-- Refuses a value whose description cannot be looked up; of nothing none is looked up. -/
def checkNamed (value : Json) : Outcome Unit :=
  if value.isFilled then value.checkKey else .ok ()

/-- The route that a value names. -/
def ofJson (value : Json) : Outcome Route :=
  match value.text?.bind ofName? with
  | some route => .ok route
  | none => .error (.argument (Json.Display.inner value ++ " is not a valid Route"))

end Route
end SpecDraft
