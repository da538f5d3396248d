import Classwright.Failure

/-!
# Actions on files

An action reads and changes a file tree and can fail. What it has done before it fails
stays done, so a run gives the tree back together with its result (`FileAction.run`).
`FileAction.place` puts a file where it belongs, and `FileAction.placeAll` puts one file
after the other and stops at the first that cannot be written.
-/

namespace Classwright

/-- An action on files that gives a value or fails. -/
abbrev FileAction (α : Type) := ExceptT Failure (StateM FileTree) α

namespace FileAction

variable {α : Type}

/-- The result of an action, and the files after it. -/
def run (a : FileAction α) (t : FileTree) : Outcome α × FileTree :=
  a t

/-- The action that looks at the files and does not change them. -/
def look (op : FileTree → Outcome α) : FileAction α :=
  fun t => (op t, t)

/-- The action that changes the files at a path, if it can. -/
def change (path : Path) (op : FileTree → Except IoFault FileTree) : FileAction Unit :=
  fun t =>
    match op t with
    | .ok changed => (.ok (), changed)
    | .error fault => (.error (.io path fault), t)

/-- The text of the file at a path. -/
def readText (path : Path) : FileAction String :=
  look fun t => atPath path (t.readText path)

/-- Writes a file into a directory that exists. -/
def write (path : Path) (contents : String) : FileAction Unit :=
  change path fun t => t.write path (.text contents)

/-- Makes a directory, and those above it that are missing. -/
def ensureDirectory (path : Path) : FileAction Unit :=
  fun t =>
    let (made, result) := t.makeDirectories path
    (atPath path result, made)

/-- Writes a file, and makes its directory first. -/
def place (path : Path) (contents : String) : FileAction Unit := do
  match path.parent? with
  | some parent => if !parent.isEmpty then ensureDirectory parent
  | none => pure ()
  write path contents

/-- Writes one file after the other and gives their number. -/
def placeAll : List SourceFile → FileAction Nat
  | [] => pure 0
  | file :: rest => do
    place file.path file.contents
    return (← placeAll rest) + 1

end FileAction

end Classwright
