import Classwright.FileTree
import Classwright.Model.Index
import Classwright.SortedMap

/-!
# Target languages, directories and names

A target is generated in one language (`Backend`), into the directories of a `Layout`,
with the names that its `Options` choose.
-/

namespace Classwright

/-- The target languages. -/
inductive Backend where
  | javaScript
  | cSharp
  | actionScript
deriving DecidableEq, Repr, Inhabited

namespace Backend

/-- The name of a language in configurations. -/
def name : Backend → String
  | .javaScript => "javascript"
  | .cSharp => "csharp"
  | .actionScript => "actionscript2"

/-- The name of a language as its users write it. -/
def language : Backend → String
  | .javaScript => "JavaScript"
  | .cSharp => "C#"
  | .actionScript => "ActionScript 2"

/-- The suffix of source files, if a target does not set one. -/
def defaultExtension : Backend → String
  | .javaScript => ".js"
  | .cSharp => ".cs"
  | .actionScript => ".as"

/-- The namespace of the classes, if a target does not set one. -/
def defaultNamespace : Backend → String
  | .javaScript => "NewgroundsIO"
  | .cSharp => "NewgroundsIO"
  | .actionScript => "io.newgrounds.models"

/-- The language of a name or an abbreviation; blanks around it and the case of its
letters do not matter. -/
def ofName? (name : String) : Option Backend :=
  match Text.asciiLower (Text.trim name) with
  | "javascript" | "js" => some .javaScript
  | "csharp" | "cs" | "c#" => some .cSharp
  | "actionscript2" | "actionscript" | "as2" => some .actionScript
  | _ => none

end Backend

/-- Where the files of a target go. -/
structure Layout where
  /-- The directory of the objects. -/
  objectsDir : Path
  /-- The directory of the components. -/
  componentsDir : Path
  /-- The directory of the results. -/
  resultsDir : Path
  /-- The file of the index; without one there is no index. -/
  indexFile? : Option Path
  /-- The suffix of generated files and of hand-written fragments, with its dot. -/
  fileExtension : String
  /-- The module with the hand-written base classes. -/
  runtimeModule? : Option Path
deriving DecidableEq, Repr, Inhabited

/-- The names that a target chooses. -/
structure Options where
  /-- The namespace or package of the generated classes. -/
  rootNamespace : String
  /-- Other class names for objects whose own name will not do. -/
  classNames : SortedMap String
deriving DecidableEq, Repr, Inhabited

/-- The class name of an object. -/
def Options.className (o : Options) (object : String) : String :=
  (o.classNames.get? object).getD object

namespace Layout

/-- The file of a class in a directory. -/
def sourceIn (l : Layout) (directory : Path) (name : String) : Path :=
  directory.child (name ++ l.fileExtension)

/-- The file of an object's class. -/
def objectFile (l : Layout) (className : String) : Path :=
  l.sourceIn l.objectsDir className

/-- The file of an entity: methods have a directory for each namespace. -/
def fileFor (l : Layout) (e : Entity) (className : String) : Path :=
  match e.kind, e.inNamespace?, e.method? with
  | .component, some ns, some method => l.sourceIn (l.componentsDir.child ns) method
  | .result, some ns, some method => l.sourceIn (l.resultsDir.child ns) method
  | _, _, _ => l.objectFile className

/-- The directory of the base classes, above that of the objects. -/
def baseDir (l : Layout) : Path :=
  l.objectsDir.parent?.getD ⟨""⟩

/-- The module with the base classes. -/
def runtimeModule (l : Layout) : Path :=
  l.runtimeModule?.getD (l.baseDir.child ("runtime" ++ l.fileExtension))

end Layout

end Classwright
