import Classwright.FileTree.Action
import Classwright.Render.Generate

/-!
# Files with hand-written fragments

A fragment is a file whose name says what it is for: the entity, a dot, the place in the
generated file, and the suffix of the target's source files. Directories count as parts
of the entity's name. `Catalog.scan` reads the fragments in a directory in the order of
a walk through it; of two files for the same place the later one counts.
-/

namespace Classwright

/-- What the name of a fragment says. -/
structure FragmentName where
  /-- The entity. -/
  entity : String
  /-- The name of the place. -/
  hook : String
deriving DecidableEq, Repr, Inhabited

/-- What the file says that is reached by the given names from the directory of
fragments, if it is a fragment. -/
def FragmentName.ofKey? (names : Key) (extension : String) : Option FragmentName :=
  let joined := (Text.joinWith "." names).toList
  if joined.head? == some '.' then none
  else do
    let stem ← Text.dropEnd? extension.toList joined
    let (entity, hook) ← Text.cutAtLast? '.' stem
    if entity.isEmpty || hook.isEmpty then none
    else some ⟨String.ofList entity, String.ofList hook⟩

/-- The path of a file that is reached by the given names from a directory. -/
def pathBelow (directory : Path) (names : Key) : Path :=
  names.foldl Path.child directory

namespace Catalog

/-- Adds the file that is reached by the given names, if it is a fragment. It is read
even if there is no such place. -/
def addFile (directory : Path) (extension : String) (c : Catalog) (names : Key)
    (contents : Contents) :
    Outcome Catalog :=
  match FragmentName.ofKey? names extension with
  | none => .ok c
  | some name =>
    match FileTree.asText contents with
    | .error fault => .error (.fragmentUnreadable name.entity (pathBelow directory names) fault)
    | .ok text =>
      match Hook.ofName? name.hook with
      | none => .ok c
      | some hook => .ok (c.insert name.entity hook text)

/-- Adds the files of a walk. -/
def addFiles (directory : Path) (extension : String) :
    List (Key × FileEntry) → Catalog → Outcome Catalog
  | [], c => .ok c
  | (_, .directory) :: rest, c => addFiles directory extension rest c
  | (names, .file contents) :: rest, c => do
    addFiles directory extension rest (← addFile directory extension c names contents)

/-- The fragments in a directory; none if there is no such directory. -/
def scan (t : FileTree) (directory : Path) (extension : String) : Outcome Catalog :=
  match t.find directory with
  | .ok (key, .directory) => addFiles directory extension (t.below key) .empty
  | _ => .ok .empty

end Catalog

/-- The directories of the fragments for the three kinds of entities. -/
structure FragmentDirs where
  /-- The directory for objects. -/
  objects? : Option Path := none
  /-- The directory for components. -/
  components? : Option Path := none
  /-- The directory for results. -/
  results? : Option Path := none
deriving DecidableEq, Repr, Inhabited

/-- The directories that are set. -/
def FragmentDirs.all (d : FragmentDirs) : List Path :=
  [d.objects?, d.components?, d.results?].filterMap id

/-- The fragments in a directory, if one is set. -/
def scanIfSet (t : FileTree) (directory? : Option Path) (extension : String) : Outcome Catalog :=
  match directory? with
  | some directory => Catalog.scan t directory extension
  | none => .ok .empty

/-- The fragments of a target. -/
def Fragments.scan (t : FileTree) (d : FragmentDirs) (extension : String) : Outcome Fragments := do
  return {
    objects := ← scanIfSet t d.objects? extension
    components := ← scanIfSet t d.components? extension
    results := ← scanIfSet t d.results? extension }

end Classwright
