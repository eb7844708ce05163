import SpecDraft.Session.Basic

/-!
# Hooks

Hooks are called when an event happens, in the order in which they were registered for it. A hook
that fails is noted in the log and disturbs nothing else.
-/
set_option autoImplicit false

namespace SpecDraft.Hook

/-- The logger of hooks and events. -/
def logger : String := Log.rootLogger ++ ".observability"

/-- The hooks of an event, in order. -/
def forEvent (hooks : List (String × List String)) (event : String) : List String :=
  (hooks.lookup event).getD []

/-- A hook added to an event. -/
def add : List (String × List String) → String → String → List (String × List String)
  | [], event, hook => [(event, [hook])]
  | (other, own) :: rest, event, hook =>
    if other = event then (other, own ++ [hook]) :: rest
    else (other, own) :: add rest event hook

/-- The first registration of a hook for an event taken back, if there is one. -/
def drop (hooks : List (String × List String)) (event hook : String) :
    List (String × List String) :=
  hooks.map fun (other, own) => if other = event then (other, own.erase hook) else (other, own)

/-- Registers a hook for an event. -/
def register (event hook : String) : Effect Unit := do
  modify fun session => { session with hooks := add session.hooks event hook }
  Log.write Log.debug logger ("Registered hook for event: " ++ event) []

/-- Takes back a registration of a hook for an event. -/
def unregister (event hook : String) : Effect Unit :=
  modify fun session => { session with hooks := drop session.hooks event hook }

/-- Makes a change to the hooks. -/
def change : HookChange → Effect Unit
  | .register event hook => register event hook
  | .unregister event hook => unregister event hook

/-- What a hook does after the calls so far; a hook without a behaviour does nothing. -/
def reactionOf (session : Session) (hook : String) : Reaction :=
  ((session.reactions.lookup hook).map (· session.calls)).getD ⟨[], none⟩

/-- Calls a hook. -/
def call (event : String) (data : Members) (hook : String) : Effect Unit := do
  modify fun session => { session with calls := session.calls ++ [⟨hook, event, data⟩] }
  let reaction := reactionOf (← get) hook
  reaction.changes.forM change
  match reaction.failure with
  | some text =>
    Log.write Log.error logger ("Hook failed for event " ++ event ++ ": " ++ text) []
  | none => pure ()

/-- Calls the hooks that are registered for an event now. -/
def trigger (event : String) (data : Members) : Effect Unit := do
  (forEvent (← get).hooks event).forM (call event data)

end SpecDraft.Hook
