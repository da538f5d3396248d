import Classwright.Render.Comment
import Classwright.Render.Fragment
import Classwright.Render.Member

/-!
# JavaScript files

Every entity is an exported class in a module of its own, which extends a base class
from the runtime module. Imports are explicit and relative. The index module fills its
tables at the first look-up, because the modules that it imports need it in turn.
-/

namespace Classwright.JavaScript

open Script (Caster Member MemberDocs codeLines membersOf)

/-- Types in comments. -/
def types (o : Options) : TypeSystem where
  primitive
    | .int => "number"
    | .float => "number"
    | .string => "string"
    | .boolean => "boolean"
    | .object => "object"
    | .array => "Array"
    | .mixed => "*"
  object name := o.rootNamespace ++ "_objects_" ++ o.className name
  resultBase := "BaseResult"
  unknown := "*"
  list element := "Array.<" ++ element ++ ">"
  either single list := "(" ++ single ++ "|" ++ list ++ ")"

/-- The class of an entity. -/
def className (o : Options) (e : Entity) : String :=
  match e.kind, e.inNamespace?, e.method? with
  | .component, some ns, some method => o.rootNamespace ++ "_components_" ++ ns ++ "_" ++ method
  | .result, some ns, some method => o.rootNamespace ++ "_results_" ++ ns ++ "_" ++ method
  | _, _, _ => (types o).object e.name

/-- An import: names, and the module that they come from. -/
structure Import where
  /-- The imported names. -/
  names : List String
  /-- The specifier of the module. -/
  source : String
deriving DecidableEq, Repr

/-- The line of an import. -/
def Import.line (i : Import) : String :=
  "import \x7b " ++ Text.joinWith ", " i.names ++ " \x7d from '" ++ i.source ++ "';"

/-- The file of an entity. -/
def fileOf (l : Layout) (o : Options) (e : Entity) : Path :=
  l.fileFor e (o.className e.name)

/-- The import of the base classes. -/
def runtimeImport (l : Layout) (o : Options) (e : Entity) : Import where
  names := [baseName e.kind] ++ if e.usesResultLookup && e.kind != .result
    then ["BaseResult"] else []
  source := (fileOf l o e).specifier l.runtimeModule

/-- The import of the index, if results are looked up; there has to be an index then. -/
def indexImport (l : Layout) (o : Options) (e : Entity) : Except RenderFault (List Import) :=
  if e.usesResultLookup then
    match l.indexFile? with
    | none => .error .resultWithoutIndex
    | some index => .ok [⟨["ObjectIndex"], (fileOf l o e).specifier index⟩]
  else .ok []

/-- The imports of the objects that are referred to. -/
def objectImports (l : Layout) (o : Options) (e : Entity) : List Import :=
  (importedObjects e).map fun name =>
    ⟨[(types o).object name], (fileOf l o e).specifier (l.objectFile (o.className name))⟩

/-- All imports of an entity's file. -/
def imports (l : Layout) (o : Options) (e : Entity) : Except RenderFault (List Import) := do
  let ofIndex ← indexImport l o e
  return [runtimeImport l o e] ++ ofIndex ++ objectImports l o e

/-- What the comment of a class begins with. -/
def summary (e : Entity) : List String :=
  match e.kind with
  | .object => []
  | .component => ["Used to call the " ++ e.name ++ " component."]
  | .result => ["Returned when the " ++ e.name ++ " component is called."]

/-- The comment of a class. -/
def classDoc (o : Options) (e : Entity) : List String :=
  blockCommentIfAny 0 (summary e ++ docLines (types o) e.description?)

/-- The slots of a property with their first values. -/
def slotLines (p : Property) : List String :=
  ["\t\tthis._" ++ p.name ++ " = " ++ scriptLiteral p.default? ++ ";"] ++
  if p.isPolymorphic then [
    "\t\tthis._" ++ p.name ++ "List = null;",
    "\t\tthis._" ++ p.name ++ "IsList = false;"]
  else []

/-- What a call of a component needs. -/
def flagLines (e : Entity) : List String :=
  if e.kind == .component then [
    "\t\tthis.__isSecure = " ++ flagText e.flags.secure ++ ";",
    "\t\tthis.__requireSession = " ++ flagText e.flags.requireSession ++ ";",
    "\t\tthis.__isRedirect = " ++ flagText e.flags.redirect ++ ";"]
  else []

/-- The constructor up to the place for hand-written statements. -/
def constructorLines (e : Entity) : List String :=
  ["", "\t/**", "\t * @param \x7bobject\x7d [props] Initial property values.", "\t */",
    "\tconstructor(props) \x7b", "\t\tsuper();", "\t\tthis.__object = " ++
    Text.quote e.name ++ ";"] ++
  e.properties.flatMap slotLines ++
  ["\t\tthis.__properties = this.__properties.concat([" ++ propertyNames e ++ "]);",
    "\t\tthis.__required = [" ++ requiredNames e ++ "];"] ++
  flagLines e ++
  ["\t\tif (props !== null && typeof(props) === 'object') \x7b",
    "\t\t\tfor (var i = 0; i < this.__properties.length; i++) \x7b",
    "\t\t\t\tvar name = this.__properties[i];",
    "\t\t\t\tif (typeof(props[name]) !== 'undefined') this[name] = props[name];",
    "\t\t\t\x7d",
    "\t\t\x7d"]

/-- A comment line that gives a type. -/
def typeNote (type : String) : String :=
  "@type \x7b" ++ type ++ "\x7d"

/-- The comments of a property's accessors. -/
def memberDocs (o : Options) (e : Entity) (p : Property) : MemberDocs where
  own := blockComment 1
    (docLines (types o) p.description? ++ requiredNote e p ++ [typeNote ((types o).shape p.shape)])
  list := blockComment 1
    ["The list form of `" ++ p.name ++ "`.",
      typeNote ((types o).list ((p.shape.element?.map (types o).shape).getD ""))]
  flag := blockComment 1 ["True when `" ++ p.name ++ "` currently holds a list.",
    typeNote "boolean"]
  type := ""
  listType := ""
  flagType := ""

/-- The checks in setters. -/
def caster (o : Options) : Caster :=
  ⟨types o, "ObjectIndex"⟩

/-- The accessors of a property. -/
def members (o : Options) (e : Entity) (p : Property) : List Member :=
  membersOf .javaScript (caster o) (memberDocs o e p) e.name p

/-- The parts of the file of an entity with the given imports. -/
def parts (imported : List Import) (o : Options) (e : Entity) : Template where
  opening := [banner, ""] ++ imported.map Import.line
  importsMargin := {}
  fields := [""] ++ classDoc o e ++
    ["export class " ++ className o e ++ " extends " ++ baseName e.kind ++ " \x7b"]
  propertiesMargin := ⟨true, false⟩
  constructor := constructorLines e
  statementsMargin := {}
  members := ["\t\x7d"] ++ (e.properties.flatMap (members o e)).flatMap (Member.lines .javaScript)
  membersMargin := ⟨true, false⟩
  closing := ["\x7d"]

/-- The parts of the file of an entity; it fails where the imports do. -/
def template (l : Layout) (o : Options) (e : Entity) : Except RenderFault Template := do
  let imported ← imports l o e
  return parts imported o e

/-! ## The index -/

/-- The import of an entity in the index. -/
def entryImport (l : Layout) (o : Options) (index : Path) (entry : IndexEntry) : Import :=
  ⟨[className o entry.entity], index.specifier (fileOf l o entry.entity)⟩

/-- The row of an entity in a table. -/
def entryRow (o : Options) (entry : IndexEntry) : String :=
  "\t\t\t\t" ++ Text.quote entry.key ++ ": " ++ className o entry.entity ++ ","

/-- A table of the index. -/
def tableLines (o : Options) (name : String) (entries : List IndexEntry) : List String :=
  ["\t\t\t" ++ name ++ ": \x7b"] ++ entries.map (entryRow o) ++ ["\t\t\t\x7d,"]

/-- The function that fills the tables. -/
def registryLines (o : Options) (i : Index) : List String :=
  ["function registry() \x7b", "\tif (tables === null) \x7b", "\t\ttables = \x7b"] ++
  tableLines o "objects" i.objects ++ tableLines o "components" i.components ++
    tableLines o "results" i.results ++
  ["\t\t\x7d;", "\t\x7d", "\treturn tables;", "\x7d"]

/-- The functions that look a name up. -/
def lookupLines : List String := [
  "function create(table, name, props) \x7b",
  "\tvar ctor = registry()[table][String(name).toLowerCase()];",
  "\treturn ctor ? new ctor(props) : null;",
  "\x7d",
  "",
  "/**",
  " * Creates generated instances from the names carried in payloads.",
  " */",
  "export const ObjectIndex = \x7b",
  "\tcreateObject(name, props) \x7b",
  "\t\treturn create('objects', name, props);",
  "\t\x7d,",
  "\tcreateComponent(name, props) \x7b",
  "\t\treturn create('components', name, props);",
  "\t\x7d,",
  "\tcreateResult(name, props) \x7b",
  "\t\treturn create('results', name, props);",
  "\t\x7d,",
  "\x7d;",
  "",
  "export default ObjectIndex;"]

/-- The lines of the index file. -/
def indexLines (l : Layout) (o : Options) (index : Path) (i : Index) : List String :=
  [banner, ""] ++ i.entries.map (fun entry => (entryImport l o index entry).line) ++
  ["", "let tables = null;", ""] ++ registryLines o i ++ [""] ++ lookupLines

end Classwright.JavaScript
