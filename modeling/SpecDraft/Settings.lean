import SpecDraft.File.Home
import SpecDraft.Number.Whole
import SpecDraft.Text.Case

/-!
# Settings

Limits and places that can be set by environment variables. A limit is a positive whole number;
a variable that is blank or missing leaves the default.
-/
set_option autoImplicit false

namespace SpecDraft

/-- What an operation can learn from the environment: variables, and home directories. -/
structure Environment where
  bindings : List (String × String)
  homes : Homes

namespace Environment

/-- The value of a variable. -/
def get? (environment : Environment) (name : String) : Option String :=
  environment.bindings.lookup name

/-- The path that a variable holds; an empty one counts as missing. -/
def path? (environment : Environment) (name : String) : Outcome (Option FilePath) :=
  match environment.get? name with
  | none | some "" => .ok none
  | some text => return some (← (FilePath.parse text).expandHome environment.homes)

/-- The limit that a variable holds. -/
def limit (environment : Environment) (name : String) (default : Int) : Outcome Int :=
  match environment.get? name with
  | none => .ok default
  | some raw =>
    if Text.allBlank raw.toList then .ok default
    else
      match Whole.read? raw with
      | none =>
        .error (.argument
          ("Environment variable " ++ name ++ " must be an integer, got '" ++ raw ++ "'"))
      | some value =>
        if value ≤ 0 then
          .error (.argument
            ("Environment variable " ++ name ++ " must be positive, got " ++ toString value))
        else .ok value

end Environment

/-- Limits and places. Without a project root the project is looked for; without a template
directory the bundled templates are used; without a log file nothing is kept in one. -/
structure Settings where
  projectRoot : Option FilePath
  maxStateBytes : Int
  maxReadBytes : Int
  templateDirectory : Option FilePath
  templateMaxDepth : Int
  templateMaxOutput : Int
  logLevel : String
  logFile : Option FilePath
  deriving DecidableEq, Repr

namespace Settings

/-- Ten mebibytes. -/
def standardBytes : Int := 10 * 1024 * 1024

/-- The settings of an environment without variables. -/
def standard : Settings where
  projectRoot := none
  maxStateBytes := standardBytes
  maxReadBytes := standardBytes
  templateDirectory := none
  templateMaxDepth := 32
  templateMaxOutput := standardBytes
  logLevel := "INFO"
  logFile := none

/-- The variable of the project root. -/
def projectRootVariable : String := "STACKSHIFT_PROJECT_ROOT"

/-- The settings of an environment. Of several faults the first is reported. -/
def ofEnvironment (environment : Environment) : Outcome Settings := do
  let projectRoot ← environment.path? projectRootVariable
  let maxStateBytes ← environment.limit "STACKSHIFT_MAX_STATE_BYTES" standard.maxStateBytes
  let maxReadBytes ← environment.limit "STACKSHIFT_MAX_READ_BYTES" standard.maxReadBytes
  let templateDirectory ← environment.path? "STACKSHIFT_TEMPLATE_DIR"
  let templateMaxDepth ←
    environment.limit "STACKSHIFT_TEMPLATE_MAX_DEPTH" standard.templateMaxDepth
  let templateMaxOutput ←
    environment.limit "STACKSHIFT_TEMPLATE_MAX_OUTPUT" standard.templateMaxOutput
  let logLevel :=
    Text.upper ((environment.get? "STACKSHIFT_LOG_LEVEL").getD standard.logLevel)
  let logFile ← environment.path? "STACKSHIFT_LOG_FILE"
  return { projectRoot, maxStateBytes, maxReadBytes, templateDirectory, templateMaxDepth
           templateMaxOutput, logLevel, logFile }

end Settings
end SpecDraft
