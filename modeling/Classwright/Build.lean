import Classwright.Config

/-!
# Building a project

The targets of a project are built one after the other: the fragments of a target are
read, its files are made from the document, and only then are they written. A target
that fails stops the build and leaves what earlier ones have written. Base classes are
written separately (`Config.scaffold`), and never over files that exist, unless forced.
-/

namespace Classwright

/-- What was built for a target. -/
structure TargetReport where
  /-- The name of the target. -/
  target : String
  /-- Its language. -/
  language : String
  /-- The number of objects. -/
  objects : Nat
  /-- The number of components. -/
  components : Nat
  /-- The number of results. -/
  results : Nat
  /-- The number of files written. -/
  filesWritten : Nat
deriving DecidableEq, Repr, Inhabited

/-- The base classes written for a target. -/
structure Scaffold where
  /-- The name of the target. -/
  target : String
  /-- Its language. -/
  language : String
  /-- The files. -/
  files : List Path
deriving DecidableEq, Repr, Inhabited

/-- The number of files written for several targets. -/
def filesWritten (reports : List TargetReport) : Nat :=
  reports.foldl (fun n report => n + report.filesWritten) 0

namespace Target

/-- The files of a target, with the fragments that are in its directories. -/
def render (target : Target) (m : Model) (t : FileTree) : Outcome (List SourceFile) := do
  let fragments ← Fragments.scan t target.fragmentDirs target.layout.fileExtension
  target.backend.generate target.layout target.options fragments m

/-- Makes the files of a target and writes them. -/
def build (target : Target) (m : Model) : FileAction TargetReport := do
  let files ← FileAction.look (target.render m)
  let written ← FileAction.placeAll files
  return {
    target := target.name
    language := target.backend.language
    objects := m.objects.length
    components := m.components.length
    results := m.results.length
    filesWritten := written }

/-- The base classes of a target. -/
def baseClasses (target : Target) : List SourceFile :=
  Skeleton.files target.backend target.layout target.options

/-- Writes the base classes of a target. -/
def writeBaseClasses (target : Target) : FileAction Scaffold := do
  let _ ← FileAction.placeAll target.baseClasses
  return ⟨target.name, target.backend.language, target.baseClasses.map SourceFile.path⟩

/-- Builds targets one after the other. -/
def buildAll (m : Model) : List Target → FileAction (List TargetReport)
  | [] => pure []
  | target :: rest => do
    let report ← target.build m
    return report :: (← buildAll m rest)

/-- Writes the base classes of targets one after the other. -/
def writeAllBaseClasses : List Target → FileAction (List Scaffold)
  | [] => pure []
  | target :: rest => do
    let scaffold ← target.writeBaseClasses
    return scaffold :: (← writeAllBaseClasses rest)

end Target

namespace Config

/-- The entities of a document, as the project asks for. -/
def model (c : Config) (d : Schema.Document) : Model :=
  .collect d c.settings.schema.permissive

/-- Builds targets from a document. -/
def buildWith (c : Config) (d : Schema.Document) (names : List String) :
    FileAction (List TargetReport) := do
  let targets ← FileAction.look fun _ => c.select names
  Target.buildAll (c.model d) targets

/-- Builds targets without any request. -/
def buildCached (c : Config) (names : List String) : FileAction (List TargetReport) := do
  let targets ← FileAction.look fun _ => c.select names
  let document ← c.loader.loadCached
  Target.buildAll (c.model document) targets

/-- Builds targets from the document, which is downloaded if need be. -/
def build (c : Config) (n : Schema.Network) (names : List String) :
    Schema.SessionAction (List TargetReport) := do
  let targets ← Schema.SessionAction.onFiles (FileAction.look fun _ => c.select names)
  let loaded ← c.loader.load n false
  Schema.SessionAction.onFiles (Target.buildAll (c.model loaded.document) targets)

/-- The files of a target, without writing them. -/
def render (c : Config) (d : Schema.Document) (name : String) (t : FileTree) :
    Outcome (List SourceFile) := do
  (← c.target name).render (c.model d) t

/-- The first base class of targets that exists. -/
def existingBaseClass? (targets : List Target) (t : FileTree) : Option SourceFile :=
  (targets.flatMap Target.baseClasses).find? fun file => t.has file.path

/-- Writes the base classes of targets. Without `force`, nothing is written if one of
them exists. -/
def scaffold (c : Config) (names : List String) (force : Bool) : FileAction (List Scaffold) := do
  let targets ← FileAction.look fun _ => c.select names
  if !force then
    match existingBaseClass? targets (← get) with
    | some file => throw (.scaffoldExists file.path)
    | none => pure ()
  Target.writeAllBaseClasses targets

end Config

end Classwright
