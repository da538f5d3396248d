import Classwright.Failure
import Classwright.Target.Layout
import Classwright.Text.Described
import Classwright.Text.Quoted

/-!
# What all generated files share

The first line, comments, and the texts of names and defaults.
-/

namespace Classwright

/-- The first line of every generated file. -/
def banner : String :=
  "// Auto-generated by modgen from the schema document. Do not edit by hand."

/-- The comment lines of a description, with references written as the types of a target
language. -/
def docLines (types : TypeSystem) (description? : Option String) : List String :=
  (description?.map (Text.descriptionLines types.object)).getD []

/-- A comment between `/**` and `*/`, at some depth. -/
def blockComment (depth : Nat) (lines : List String) : List String :=
  let tabs := Text.copies depth "\t"
  [tabs ++ "/**"] ++ lines.map (tabs ++ " * " ++ ·) ++ [tabs ++ " */"]

/-- A comment, or nothing if there is nothing to say. -/
def blockCommentIfAny (depth : Nat) (lines : List String) : List String :=
  if lines.isEmpty then [] else blockComment depth lines

/-- The comment line of a required property. -/
def requiredNote (e : Entity) (p : Property) : List String :=
  if e.isRequired p.name then ["Required."] else []

/-- A default value as an ECMAScript literal. -/
def scriptLiteral : Option Json → String
  | none => "null"
  | some .null => "null"
  | some (.text s) => Text.quote s
  | some v => v.write

/-- The name of a base class. -/
def baseName : EntityKind → String
  | .object => "BaseObject"
  | .component => "BaseComponent"
  | .result => "BaseResult"

/-- The text of a flag. -/
def flagText (b : Bool) : String :=
  if b then "true" else "false"

/-- The names of an entity's properties, as a list of literals. -/
def propertyNames (e : Entity) : String :=
  Text.quoteList (e.properties.map Property.name)

/-- The names of an entity's required properties, as a list of literals. -/
def requiredNames (e : Entity) : String :=
  Text.quoteList e.required

/-- Whether an object name stands for the entity itself. -/
def refersToSelf (e : Entity) (object : String) : Bool :=
  e.kind == .object && object == e.name

/-- The objects whose classes an entity needs besides its own. -/
def importedObjects (e : Entity) : List String :=
  e.referencedObjects.filter fun name => !refersToSelf e name

/-- Refuses an entity that looks results up where there is no index. -/
def requireIndex (l : Layout) (e : Entity) : Except RenderFault Unit :=
  if e.usesResultLookup && l.indexFile?.isNone then .error .resultWithoutIndex else .ok ()

end Classwright
