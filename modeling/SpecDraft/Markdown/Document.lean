import SpecDraft.Markdown.Parser
import SpecDraft.Time
import SpecDraft.File.Digest
import SpecDraft.File.Path

/-!
# Documents

A document is a parsed content with the path it goes by and a description of its bytes.
-/
set_option autoImplicit false

namespace SpecDraft

/-- What is known of the file behind a document. -/
structure DocumentMetadata where
  fileName : String
  fileSize : Nat
  lastModified : String
  checksum : String
  deriving DecidableEq, Repr

/-- A parsed document. -/
structure Document where
  path : FilePath
  content : String
  nodes : List Markdown.Node
  metadata : DocumentMetadata

namespace Document

/-- Reads a content as the document at a path. Size and checksum are those of the content in
UTF-8. -/
def parse (content : String) (path : FilePath) (lastModified : String) : Outcome Document := do
  let nodes ← Markdown.parse content
  let bytes := content.toUTF8
  return { path, content, nodes
           metadata := ⟨path.name, bytes.size, lastModified, Digest.hexText bytes⟩ }

/-- The document as a record. -/
def toJson (document : Document) : Json :=
  .obj [("path", .str document.path.text), ("node_count", .nat document.nodes.length),
    ("metadata", .obj [
      ("file_name", .str document.metadata.fileName),
      ("file_size", .nat document.metadata.fileSize),
      ("last_modified", .str document.metadata.lastModified),
      ("checksum", .str document.metadata.checksum)])]

end Document
end SpecDraft
