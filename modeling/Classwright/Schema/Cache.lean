import Classwright.Schema.Source

/-!
# The cache of the document

The last document that was fetched is kept in a directory, next to the stamp that it was
served with. Both files are replaced by renaming a finished file over them. A cached
text that is no document counts as none (`Cache.read`).
-/

namespace Classwright.Schema

/-- The directory of a cache. -/
structure Cache where
  /-- The directory. -/
  directory : Path
deriving DecidableEq, Repr, Inhabited

/-- A cached document with its stamp. -/
structure Cached where
  /-- The document. -/
  document : Document
  /-- The stamp that it was served with. -/
  stamp? : Option String
deriving Repr, Inhabited

namespace Cache

/-- The file of the document. -/
def documentPath (c : Cache) : Path :=
  c.directory.child "objects_and_components.json"

/-- The file of the stamp. -/
def stampPath (c : Cache) : Path :=
  c.directory.child "last_updated"

/-- A stamp as it is read back: blanks around it do not count, and a blank one is none. -/
def stampOf (text : String) : Option String :=
  let trimmed := Text.trim text
  if trimmed.isEmpty then none else some trimmed

/-- The stamp in the cache. -/
def stamp? (c : Cache) (t : FileTree) : Outcome (Option String) := do
  if t.has c.stampPath then return stampOf (← atPath c.stampPath (t.readText c.stampPath))
  return none

/-- The document in the cache, if there is one. -/
def read (c : Cache) (t : FileTree) : Outcome (Option Cached) := do
  if t.has c.documentPath then
    let text ← atPath c.documentPath (t.readText c.documentPath)
    match Document.ofText text with
    | .ok document => return some ⟨document, ← c.stamp? t⟩
    | .error _ => return none
  return none

/-- The file that is written first and then renamed. -/
def draftPath (path : Path) : Path :=
  path.withFileName (path.fileName?.getD "" ++ ".tmp")

/-- Replaces a file in one step. -/
def replace (path : Path) (contents : String) : FileAction Unit := do
  FileAction.write (draftPath path) contents
  FileAction.change path fun t => t.rename (draftPath path) path

/-- Removes the stamp, if there is one. -/
def removeStamp (c : Cache) : FileAction Unit := do
  if (← get).has c.stampPath then FileAction.change c.stampPath fun t => t.removeFile c.stampPath

/-- Replaces the document, and then its stamp. -/
def store (c : Cache) (body : String) (stamp? : Option String) : FileAction Unit := do
  FileAction.ensureDirectory c.directory
  replace c.documentPath body
  match stamp? with
  | some stamp => replace c.stampPath stamp
  | none => c.removeStamp

end Cache

end Classwright.Schema
