import Classwright.Render.FragmentFiles
import Classwright.Schema.Source
import Classwright.Toml.Decode

/-!
# Settings

The settings of a project as they are written: where the document comes from, other
names for targets, and the targets. `Settings.ofText` reads them; what is not written
has a default value, except the directories of a target's output.
-/

namespace Classwright

open Toml (Decoded Entry Item)
open Toml.Decode

/-- Where the document comes from and how it is read. -/
structure SchemaSettings where
  /-- The address or the file of the document. -/
  source : String := Schema.defaultUrl
  /-- The directory in which it is kept. -/
  cacheDir : Path := ⟨".modgen"⟩
  /-- Whether every method has a result. -/
  permissive : Bool := true
deriving DecidableEq, Repr, Inhabited

/-- The directories of generated files. -/
structure OutputDirs where
  /-- The directory of the objects. -/
  objects : Path
  /-- The directory of the components. -/
  components : Path
  /-- The directory of the results. -/
  results : Path
deriving DecidableEq, Repr, Inhabited

/-- The settings of a target. -/
structure TargetSettings where
  /-- The language; without it, the name of the target says it. -/
  backend? : Option String
  /-- The suffix of the files. -/
  fileExtension? : Option String
  /-- The namespace of the classes. -/
  rootNamespace? : Option String
  /-- The file of the index. -/
  indexFile? : Option Path
  /-- The module with the base classes. -/
  runtimeModule? : Option Path
  /-- Where generated files go. -/
  outputDirs : OutputDirs
  /-- Where hand-written fragments are. -/
  fragmentDirs : FragmentDirs := {}
  /-- Other class names for objects. -/
  classNames : SortedMap String := .empty
deriving DecidableEq, Repr, Inhabited

/-- The settings of a project. -/
structure Settings where
  /-- Where the document comes from. -/
  schema : SchemaSettings := {}
  /-- Other names for targets. -/
  aliases : SortedMap String := .empty
  /-- The targets. -/
  targets : SortedMap TargetSettings := .empty
deriving DecidableEq, Repr, Inhabited

namespace SchemaSettings

/-- Takes in an entry. -/
def set (s : SchemaSettings) (e : Entry) : Decoded SchemaSettings := do
  match e.1.name with
  | "source" => return { s with source := ← entry text e }
  | "cache_dir" => return { s with cacheDir := ← entry path e }
  | "permissive_results" => return { s with permissive := ← entry boolean e }
  | _ => return s

/-- Reads the section. -/
def ofItem : Item → Decoded SchemaSettings :=
  record "SchemaSection" (fun entries => fold set entries {}) fun items => do
    let default : SchemaSettings := {}
    return {
      source := ← itemOr items 0 text default.source
      cacheDir := ← itemOr items 1 path default.cacheDir
      permissive := ← itemOr items 2 boolean default.permissive }

end SchemaSettings

namespace OutputDirs

/-- The directories while they are read. -/
structure Draft where
  /-- The directory of the objects. -/
  objects? : Option Path := none
  /-- The directory of the components. -/
  components? : Option Path := none
  /-- The directory of the results. -/
  results? : Option Path := none

/-- Takes in an entry. -/
def Draft.set (d : Draft) (e : Entry) : Decoded Draft := do
  match e.1.name with
  | "objects" => return { d with objects? := ← entry path e }
  | "components" => return { d with components? := ← entry path e }
  | "results" => return { d with results? := ← entry path e }
  | _ => return d

/-- The directories, all of which have to be there. -/
def Draft.finish (d : Draft) : Decoded OutputDirs := do
  return {
    objects := ← require "objects" d.objects?
    components := ← require "components" d.components?
    results := ← require "results" d.results? }

/-- Reads the section. -/
def ofItem : Item → Decoded OutputDirs :=
  record "OutputDirs" (fun entries => do (← fold Draft.set entries {}).finish) fun items => do
    let field := fun position => itemAt "OutputDirs" 3 items position path
    return { objects := ← field 0, components := ← field 1, results := ← field 2 }

end OutputDirs

namespace FragmentDirs

/-- Takes in an entry. -/
def set (d : FragmentDirs) (e : Entry) : Decoded FragmentDirs := do
  match e.1.name with
  | "objects" => return { d with objects? := ← entry path e }
  | "components" => return { d with components? := ← entry path e }
  | "results" => return { d with results? := ← entry path e }
  | _ => return d

/-- Reads the section. -/
def ofItem : Item → Decoded FragmentDirs :=
  record "PartialDirsSection" (fun entries => fold set entries {}) fun items => do
    let field := fun position => itemAt "PartialDirsSection" 3 items position path
    return { objects? := ← field 0, components? := ← field 1, results? := ← field 2 }

end FragmentDirs

namespace TargetSettings

/-- A target while its settings are read. -/
structure Draft where
  /-- The language. -/
  backend? : Option String := none
  /-- The suffix of the files. -/
  fileExtension? : Option String := none
  /-- The namespace of the classes. -/
  rootNamespace? : Option String := none
  /-- The file of the index. -/
  indexFile? : Option Path := none
  /-- The module with the base classes. -/
  runtimeModule? : Option Path := none
  /-- Where generated files go. -/
  outputDirs? : Option OutputDirs := none
  /-- Where hand-written fragments are. -/
  fragmentDirs : FragmentDirs := {}
  /-- Other class names for objects. -/
  classNames : SortedMap String := .empty

/-- Takes in an entry. -/
def Draft.set (d : Draft) (e : Entry) : Decoded Draft := do
  match e.1.name with
  | "backend" => return { d with backend? := ← entry text e }
  | "file_extension" => return { d with fileExtension? := ← entry text e }
  | "namespace" => return { d with rootNamespace? := ← entry text e }
  | "index_file" => return { d with indexFile? := ← entry path e }
  | "runtime_module" => return { d with runtimeModule? := ← entry path e }
  | "output_dirs" => return { d with outputDirs? := ← entry OutputDirs.ofItem e }
  | "partial_dirs" => return { d with fragmentDirs := ← entry FragmentDirs.ofItem e }
  | "class_names" => return { d with classNames := ← entry (map text) e }
  | _ => return d

/-- The target, whose output directories have to be there. -/
def Draft.finish (d : Draft) : Decoded TargetSettings := do
  return {
    backend? := d.backend?
    fileExtension? := d.fileExtension?
    rootNamespace? := d.rootNamespace?
    indexFile? := d.indexFile?
    runtimeModule? := d.runtimeModule?
    outputDirs := ← require "output_dirs" d.outputDirs?
    fragmentDirs := d.fragmentDirs
    classNames := d.classNames }

/-- Reads a target from the list of its settings; the last two can be left out. -/
def ofItems (items : List Item) : Decoded TargetSettings := do
  let texts := fun position => itemAt "TargetSection" 8 items position text
  let paths := fun position => itemAt "TargetSection" 8 items position path
  return {
    backend? := ← texts 0
    fileExtension? := ← texts 1
    rootNamespace? := ← texts 2
    indexFile? := ← paths 3
    runtimeModule? := ← paths 4
    outputDirs := ← itemAt "TargetSection" 8 items 5 OutputDirs.ofItem
    fragmentDirs := ← itemOr items 6 FragmentDirs.ofItem {}
    classNames := ← itemOr items 7 (map text) .empty }

/-- Reads a target. -/
def ofItem : Item → Decoded TargetSettings :=
  record "TargetSection" (fun entries => do (← fold Draft.set entries {}).finish) ofItems

end TargetSettings

namespace Settings

/-- Takes in an entry. -/
def set (s : Settings) (e : Entry) : Decoded Settings := do
  match e.1.name with
  | "schema" => return { s with schema := ← entry SchemaSettings.ofItem e }
  | "aliases" => return { s with aliases := ← entry (map text) e }
  | "targets" => return { s with targets := ← entry (map TargetSettings.ofItem) e }
  | _ => return s

/-- Reads the settings of a project. -/
def ofText (text : String) : Except Toml.Fault Settings :=
  Toml.decodeText (fun entries => fold set entries {}) text

end Settings

end Classwright
