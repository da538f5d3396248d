import Classwright.Render.Comment
import Classwright.Render.Fragment
import Classwright.Render.Member

/-!
# ActionScript 2 files

Every class is addressed by its package, and the directories are expected to follow the
packages. Setters throw when a value is of the wrong kind. The language has no type for
a single value or a list, so such a slot has no type.
-/

namespace Classwright.ActionScript

open Script (Caster Member MemberDocs membersOf)

/-- Types in declarations. -/
def types (o : Options) : TypeSystem where
  primitive
    | .int => "Number"
    | .float => "Number"
    | .string => "String"
    | .boolean => "Boolean"
    | .object => "Object"
    | .array => "Array"
    | .mixed => "Object"
  object name := o.rootNamespace ++ ".objects." ++ o.className name
  resultBase := o.rootNamespace ++ ".BaseResult"
  unknown := "Object"
  list _ := "Array"
  either _ _ := ""

/-- A type as it follows a name in a declaration. -/
def annotation (type : String) : String :=
  if type.isEmpty then "" else ":" ++ type

/-- The class of the index. -/
def indexClass (o : Options) : String :=
  o.rootNamespace ++ ".objects.ObjectIndex"

/-- The class of an entity with its package. -/
def className (o : Options) (e : Entity) : String :=
  match e.kind, e.inNamespace?, e.method? with
  | .component, some ns, some method => o.rootNamespace ++ ".components." ++ ns ++ "." ++ method
  | .result, some ns, some method => o.rootNamespace ++ ".results." ++ ns ++ "." ++ method
  | _, _, _ => (types o).object e.name

/-- The class of an entity without its package. -/
def shortName (o : Options) (e : Entity) : String :=
  match e.kind, e.inNamespace?, e.method? with
  | .component, some _, some method => method
  | .result, some _, some method => method
  | _, _, _ => o.className e.name

/-- A base class. -/
def baseClass (o : Options) (kind : EntityKind) : String :=
  o.rootNamespace ++ "." ++ baseName kind

/-- The imported classes. -/
def imports (o : Options) (e : Entity) : List String :=
  (importedObjects e).map (types o).object ++ if e.usesResultLookup then [indexClass o] else []

/-- The comment of a class. -/
def classDoc (o : Options) (e : Entity) : List String :=
  match e.description? with
  | none => []
  | some _ => blockComment 0 (docLines (types o) e.description?)

/-- The first value of a slot. -/
def defaultText : Option Json → String
  | none => ""
  | some v => " = " ++ scriptLiteral (some v)

/-- The declarations of a property's slots. -/
def fieldLines (o : Options) (p : Property) : List String :=
  ["\tprivate var ___" ++ p.name ++ annotation ((types o).shape p.shape) ++
    defaultText p.default? ++ ";"] ++
  if p.isPolymorphic then [
    "\tprivate var ___" ++ p.name ++ "List:Array;",
    "\tprivate var ___" ++ p.name ++ "IsList:Boolean = false;"]
  else []

/-- A table of properties and the classes that they refer to. -/
def typeTable (o : Options) (pairs : List (String × String)) : String :=
  "\x7b" ++ Text.joinWith ", " (pairs.map fun p => p.1 ++ ": " ++ (types o).object p.2) ++ "\x7d"

/-- What a call of a component needs. -/
def flagLines (e : Entity) : List String :=
  if e.kind == .component then [
    "\t\tthis.__isSecure = " ++ flagText e.flags.secure ++ ";",
    "\t\tthis.__requireSession = " ++ flagText e.flags.requireSession ++ ";",
    "\t\tthis.__isRedirect = " ++ flagText e.flags.redirect ++ ";"]
  else []

/-- The constructor up to the place for hand-written statements. -/
def constructorLines (o : Options) (e : Entity) : List String :=
  ["", "\t/**", "\t * @param props Initial property values.", "\t */",
    "\tpublic function " ++ shortName o e ++ "(props:Object) \x7b", "\t\tsuper();",
    "\t\tthis.__object = " ++ Text.quote e.name ++ ";",
    "\t\tthis.__properties = this.__properties.concat([" ++ propertyNames e ++ "]);",
    "\t\tthis.__required = [" ++ requiredNames e ++ "];",
    "\t\tthis.__castTypes = " ++ typeTable o e.objectMap ++ ";",
    "\t\tthis.__arrayTypes = " ++ typeTable o e.objectLists ++ ";"] ++
  flagLines e

/-- The comments and types of a property's accessors. -/
def memberDocs (o : Options) (e : Entity) (p : Property) : MemberDocs where
  own := blockCommentIfAny 1 (docLines (types o) p.description? ++ requiredNote e p)
  list := []
  flag := []
  type := annotation ((types o).shape p.shape)
  listType := ":Array"
  flagType := ":Boolean"

/-- The checks in setters. -/
def caster (o : Options) : Caster :=
  ⟨types o, indexClass o⟩

/-- The accessors of a property. -/
def members (o : Options) (e : Entity) (p : Property) : List Member :=
  membersOf .actionScript (caster o) (memberDocs o e p) e.name p

/-- The parts of the file of an entity. -/
def parts (o : Options) (e : Entity) : Template where
  opening := [banner, ""] ++ (imports o e).map fun name => "import " ++ name ++ ";"
  importsMargin := ⟨false, (imports o e).isEmpty⟩
  fields := (if (imports o e).isEmpty then [] else [""]) ++ classDoc o e ++
    ["class " ++ className o e ++ " extends " ++ baseClass o e.kind ++ " \x7b", ""] ++
    e.properties.flatMap (fieldLines o)
  propertiesMargin := {}
  constructor := constructorLines o e
  statementsMargin := {}
  members := ["\t\tthis.fillProperties(props);", "\t\x7d"] ++
    (e.properties.flatMap (members o e)).flatMap (Member.lines .actionScript)
  membersMargin := ⟨true, false⟩
  closing := ["\x7d"]

/-- The parts of the file of an entity that has the index it needs. -/
def template (l : Layout) (o : Options) (e : Entity) : Except RenderFault Template := do
  requireIndex l e
  return parts o e

/-! ## The index -/

/-- The row of an entity in a table. -/
def entryRow (o : Options) (table : String) (entry : IndexEntry) : String :=
  "\t\t" ++ table ++ "[" ++ Text.quote entry.key ++ "] = " ++ className o entry.entity ++ ";"

/-- A table of the index. -/
def tableLines (o : Options) (table : String) (entries : List IndexEntry) : List String :=
  ["\t\t" ++ table ++ " = \x7b\x7d;"] ++ entries.map (entryRow o table)

/-- The function that looks a name up in a table. -/
def lookupLines (method table : String) : List String := [
  "",
  "\tpublic static function " ++ method ++ "(name:String, json:Object):Object \x7b",
  "\t\tinit();",
  "\t\treturn create(" ++ table ++ ", name, json);",
  "\t\x7d"]

/-- The lines of the index file. -/
def indexLines (o : Options) (i : Index) : List String :=
  [banner, "", "/**", " * Creates generated instances from the names carried in payloads.", " */",
    "class " ++ indexClass o ++ " \x7b", "",
    "\tprivate static var objects:Object = null;",
    "\tprivate static var components:Object = null;",
    "\tprivate static var results:Object = null;", "",
    "\tprivate static function init():Void \x7b",
    "\t\tif (objects !== null) return;"] ++
  tableLines o "objects" i.objects ++ tableLines o "components" i.components ++
    tableLines o "results" i.results ++
  ["\t\x7d", "",
    "\tprivate static function create(registry:Object, name:String, json:Object):Object \x7b",
    "\t\tvar ctor:Function = registry[name.toLowerCase()];",
    "\t\tif (ctor === undefined) return null;",
    "\t\treturn new ctor(json);",
    "\t\x7d"] ++
  lookupLines "CreateObject" "objects" ++ lookupLines "CreateComponent" "components" ++
  lookupLines "CreateResult" "results" ++
  ["\x7d"]

end Classwright.ActionScript
