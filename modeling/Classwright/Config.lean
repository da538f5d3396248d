import Classwright.Config.Sample
import Classwright.Config.Settings
import Classwright.Schema.Loader

/-!
# Projects and their targets

A project is a file of settings. Its relative paths start at the directory of that file.
`Config.target` finds a target by its name or another name for it, in any case, and
gives it with all paths and defaults filled in; `Config.select` finds several.
-/

namespace Classwright

/-- A project. -/
structure Config where
  /-- The file of the settings. -/
  path : Path
  /-- The directory at which relative paths start. -/
  root : Path
  /-- The settings. -/
  settings : Settings
deriving DecidableEq, Repr, Inhabited

/-- A target with all paths and defaults filled in. -/
structure Target where
  /-- The name of the target. -/
  name : String
  /-- The language. -/
  backend : Backend
  /-- Where generated files go. -/
  layout : Layout
  /-- The names that the target chooses. -/
  options : Options
  /-- Where hand-written fragments are. -/
  fragmentDirs : FragmentDirs
deriving DecidableEq, Repr, Inhabited

namespace Config

/-- The file of the settings in the directory of a project. -/
def fileName : String :=
  "modgen.toml"

/-- The project with the given settings in the file at a path. -/
def ofSettings (path : Path) (settings : Settings) : Config where
  path := path
  root := (path.parent?.filter fun parent => !parent.isEmpty).getD ⟨"."⟩
  settings := settings

/-- Reads the settings of a project as if from the file at a path. -/
def ofText (text : String) (path : Path) : Outcome Config :=
  match Settings.ofText text with
  | .ok settings => .ok (ofSettings path settings)
  | .error fault => .error (.configInvalid path fault)

/-- The file of the settings that a path means: a directory means the file in it. -/
def fileOf (t : FileTree) (path : Path) : Path :=
  if t.isDirectory path then path.child fileName else path

/-- Reads the project in a directory or with a file of settings. -/
def load (t : FileTree) (path : Path) : Outcome Config := do
  let file := fileOf t path
  if !t.isFile file then throw (.configNotFound file)
  ofText (← atPath file (t.readText file)) file

/-- A path from the directory of the project on. -/
def resolve (c : Config) (path : Path) : Path :=
  c.root.join path

/-- Where the document comes from. -/
def source (c : Config) : Schema.Source :=
  .ofText c.settings.schema.source c.root

/-- The directory in which the document is kept. -/
def cacheDir (c : Config) : Path :=
  c.resolve c.settings.schema.cacheDir

/-- The loader of the document. -/
def loader (c : Config) : Schema.Loader :=
  ⟨c.source, ⟨c.cacheDir⟩⟩

/-- The names of the targets, in order. -/
def targetNames (c : Config) : List String :=
  c.settings.targets.keys

/-! ## Targets -/

/-- The directories of fragments from the directory of the project on. -/
def resolveFragmentDirs (c : Config) (d : FragmentDirs) : FragmentDirs :=
  ⟨d.objects?.map c.resolve, d.components?.map c.resolve, d.results?.map c.resolve⟩

/-- Fills in the paths and defaults of a target. -/
def resolveTarget (c : Config) (name : String) (s : TargetSettings) : Outcome Target :=
  let backendName := s.backend?.getD name
  match Backend.ofName? backendName with
  | none => .error (.unsupportedBackend backendName)
  | some backend => .ok {
      name := name
      backend := backend
      layout := {
        objectsDir := c.resolve s.outputDirs.objects
        componentsDir := c.resolve s.outputDirs.components
        resultsDir := c.resolve s.outputDirs.results
        indexFile? := s.indexFile?.map c.resolve
        fileExtension := s.fileExtension?.getD backend.defaultExtension
        runtimeModule? := s.runtimeModule?.map c.resolve }
      options := {
        rootNamespace := s.rootNamespace?.getD backend.defaultNamespace
        classNames := s.classNames }
      fragmentDirs := c.resolveFragmentDirs s.fragmentDirs }

/-- The first target with a name, in any case. -/
def findTarget? (c : Config) (name : String) : Option (String × TargetSettings) :=
  c.settings.targets.entries.find? fun t => Text.sameIgnoringAsciiCase t.1 name

/-- The target that another name stands for, in any case. -/
def findAlias? (c : Config) (name : String) : Option (String × TargetSettings) := do
  let found ← c.settings.aliases.entries.find? fun a => Text.sameIgnoringAsciiCase a.1 name
  c.findTarget? found.2

/-- The target with a name or another name. -/
def target (c : Config) (name : String) : Outcome Target :=
  match (c.findTarget? name).or (c.findAlias? name) with
  | some found => c.resolveTarget found.1 found.2
  | none => .error (.unknownTarget name c.targetNames)

/-- The targets with the given names, or all of them if no name is given. -/
def select (c : Config) (names : List String) : Outcome (List Target) :=
  if names.isEmpty then c.settings.targets.entries.mapM fun t => c.resolveTarget t.1 t.2
  else names.mapM c.target

/-! ## Files that matter -/

/-- Adds a directory to a list of paths, unless it is there already. -/
def addDirectory (t : FileTree) (paths : List Path) (directory : Path) : List Path :=
  if t.isDirectory directory && !(paths.any fun p => p.same directory)
    then paths ++ [directory] else paths

/-- The files and directories whose changes call for another run: the settings, a
document in a file, and the directories of fragments. -/
def watchPaths (c : Config) (t : FileTree) : List Path :=
  let start := match c.source with
    | .file path => [c.path, path]
    | .remote _ => [c.path]
  (c.settings.targets.entries.flatMap fun target =>
    (c.resolveFragmentDirs target.2.fragmentDirs).all).foldl (addDirectory t) start

/-! ## New projects -/

/-- Makes directories one after the other. -/
def ensureDirectories : List Path → FileAction Unit
  | [] => pure ()
  | path :: rest => do
    FileAction.ensureDirectory path
    ensureDirectories rest

/-- Makes the directories of fragments of the targets with the given names. -/
def ensureFragmentDirs (c : Config) : List String → FileAction Unit
  | [] => pure ()
  | name :: rest => do
    let target ← FileAction.look fun _ => c.target name
    ensureDirectories target.fragmentDirs.all
    c.ensureFragmentDirs rest

/-- Starts a project in a directory. Settings that are there already are only replaced
with `force`. -/
def init (directory : Path) (force : Bool) : FileAction Config := do
  let path := directory.child fileName
  if (← get).has path && !force then throw (.configExists path)
  FileAction.place path sampleText
  let config ← FileAction.look fun t => load t path
  config.ensureFragmentDirs config.targetNames
  return config

end Config

end Classwright
