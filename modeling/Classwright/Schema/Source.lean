import Classwright.FileTree.Action

/-!
# Where documents come from

A document is fetched from an address, or read from a file. `Source.ofText` tells which
of the two a setting means.
-/

namespace Classwright.Schema

/-- The place of a document. -/
inductive Source where
  | remote (url : String)
  | file (path : Path)
deriving DecidableEq, Repr, Inhabited

/-- The published place of the document. -/
def defaultUrl : String :=
  "https://www.newgrounds.io/help/objects_and_components.json"

namespace Source

/-- A text that starts like a web address is one, and any other is a path from `base`
on. -/
def ofText (text : String) (base : Path) : Source :=
  let trimmed := Text.trim text
  if Text.startsWith "http://" trimmed || Text.startsWith "https://" trimmed then .remote trimmed
  else .file (base.child trimmed)

/-- The source as it is shown. -/
def shown : Source → String
  | .remote url => url
  | .file path => path.text

end Source

/-- Reads the document in a file. -/
def Document.load (path : Path) : FileAction Document := do
  let text ← FileAction.readText path
  FileAction.look fun _ => Document.ofSource text path.text

end Classwright.Schema
