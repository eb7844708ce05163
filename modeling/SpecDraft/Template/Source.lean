import SpecDraft.File.Access
import SpecDraft.Session.Basic
import SpecDraft.Template.Bundled

/-!
# Sources of templates

Templates are the bundled ones, or the files of a directory.
-/
set_option autoImplicit false

namespace SpecDraft.Template

/-- Where templates come from. -/
inductive Source where
  | bundled
  | directory (path : FilePath)
  deriving DecidableEq, Repr

namespace Source

/-- The text of a template in a directory. Whatever keeps the operating system from reading it,
the template counts as missing. -/
def inDirectory (disk : Disk) (path : FilePath) (name : String) : Outcome String :=
  match disk.status (path.child (name ++ ".md")) with
  | .ok (.file content _) =>
    match Disk.decodeText? content, Utf8.fault? content with
    | some text, _ => .ok text
    | none, some fault => .error (.undecodable fault)
    | none, none => .error (.templateNotFound name)
  | .ok (.directory _) | .error (.system _) => .error (.templateNotFound name)
  | .error failure => .error failure

/-- The text of a template. -/
def load (source : Source) (name : String) : Action String :=
  match source with
  | bundled => (Template.load name : Action String)
  | directory path => askDisk fun disk => inDirectory disk path name

/-- A template rendered against data. -/
def render (source : Source) (options : Options) (name : String) (data : Members) :
    Action String := do
  let text ← source.load name
  (renderNamed options name text data : Action String)

end Source
end SpecDraft.Template
