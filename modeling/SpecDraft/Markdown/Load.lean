import SpecDraft.File.Access
import SpecDraft.Markdown.Document
import SpecDraft.Session.Event

/-!
# Loading documents

A document on the disk is read, parsed and announced.
-/
set_option autoImplicit false

namespace SpecDraft.Document

/-- The document in a file of at most `limit` bytes. -/
def load (path : FilePath) (limit : Int) : Action Document := do
  let content ← askDisk (·.readText path limit)
  let modified ← askDisk (·.modifiedAt path)
  let document ← (parse content path modified.filed.isoText : Action Document)
  Event.documentParsed (.str path.text) (.nat document.nodes.length) []
  return document

/-- The document in a file, if there is such a file. -/
def loadOptional (path : FilePath) (limit : Int) : Action (Option Document) := do
  if ← askDisk (·.isReadable path) then return some (← load path limit) else return none

end SpecDraft.Document
