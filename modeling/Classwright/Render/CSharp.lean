import Classwright.Render.Comment
import Classwright.Render.Conversion
import Classwright.Render.Fragment

/-!
# C# files

Properties are typed. A decoded object is read through `SetProperty`, which has a case
for every property: it converts the value, and reports one of the wrong kind through the
base class.
-/

namespace Classwright.CSharp

open Conversion (Converter Line numbered)

/-- Types of fields and properties. -/
def types (o : Options) : TypeSystem where
  primitive
    | .int => "int?"
    | .float => "double?"
    | .string => "string"
    | .boolean => "bool?"
    | .object => Conversion.dictionaryType
    | .array => "List<object>"
    | .mixed => "object"
  object name := o.rootNamespace ++ ".objects." ++ o.className name
  resultBase := o.rootNamespace ++ ".BaseResult"
  unknown := "object"
  list element := "List<" ++ element ++ ">"
  either _ _ := "object"

/-- The class of the index. -/
def indexClass (o : Options) : String :=
  o.rootNamespace ++ ".ObjectIndex"

/-- The namespace of an entity's class. -/
def namespaceOf (o : Options) (e : Entity) : String :=
  match e.kind, e.inNamespace?, e.method? with
  | .component, some ns, some _ => o.rootNamespace ++ ".components." ++ ns
  | .result, some ns, some _ => o.rootNamespace ++ ".results." ++ ns
  | _, _, _ => o.rootNamespace ++ ".objects"

/-- The class of an entity. -/
def className (o : Options) (e : Entity) : String :=
  match e.kind, e.inNamespace?, e.method? with
  | .component, some _, some method => method
  | .result, some _, some method => method
  | _, _, _ => o.className e.name

/-- The class of an entity with its namespace. -/
def qualified (o : Options) (e : Entity) : String :=
  namespaceOf o e ++ "." ++ className o e

/-- A base class. -/
def baseClass (o : Options) (kind : EntityKind) : String :=
  o.rootNamespace ++ "." ++ baseName kind

/-- How a character is written in a comment. -/
def escapeChar : Char → List Char
  | '&' => ['&', 'a', 'm', 'p', ';']
  | '<' => ['&', 'l', 't', ';']
  | '>' => ['&', 'g', 't', ';']
  | c => [c]

/-- A text in a comment. -/
def escape (s : String) : String :=
  String.ofList (s.toList.flatMap escapeChar)

/-- A comment between summary tags, at some depth, or nothing if there is nothing to
say. -/
def summary (depth : Nat) (lines : List String) : List String :=
  let tabs := Text.copies depth "\t"
  if lines.isEmpty then []
  else [tabs ++ "/// <summary>"] ++ lines.map (fun line => tabs ++ "/// " ++ escape line) ++
    [tabs ++ "/// </summary>"]

/-- The field behind a property. -/
def slotName (name : String) : String :=
  "_" ++ name

/-- The name of the list form of a property. -/
def listName (name : String) : String :=
  name ++ "List"

/-- The name of the flag of a property. -/
def flagName (name : String) : String :=
  name ++ "IsList"

/-- The type of the list form of a property. -/
def listType (o : Options) (p : Property) : String :=
  (types o).list ((p.shape.element?.map (types o).shape).getD "object")

/-- The type of the single form of a property. -/
def singleType (o : Options) (p : Property) : String :=
  (p.shape.single?.map (types o).atom).getD (types o).unknown

/-- The declarations of the fields behind a property. -/
def fieldLines (o : Options) (p : Property) : List String :=
  if p.isPolymorphic then [
    "\t\tprivate " ++ singleType o p ++ " " ++ slotName p.name ++ ";",
    "\t\tprivate " ++ listType o p ++ " " ++ slotName (listName p.name) ++ ";",
    "\t\tprivate bool " ++ slotName (flagName p.name) ++ ";"]
  else ["\t\tprivate " ++ (types o).shape p.shape ++ " " ++ slotName p.name ++ ";"]

/-- A default value as a literal; lists and objects are left unset. -/
def literal : Json → String
  | .null => "null"
  | .bool b => flagText b
  | .number (.integer n) => (Number.integer n).text
  | .number (.double bits) => (Number.double bits).text ++ "d"
  | .text s => Text.quote s
  | .list _ => "null"
  | .object _ => "null"

/-- The statement that sets the default of a property. -/
def defaultLines (p : Property) : List String :=
  p.default?.toList.map fun v => "\t\t\tSetProperty(" ++ Text.quote p.name ++ ", " ++
    literal v ++ ");"

/-- What a call of a component needs. -/
def flagLines (e : Entity) : List String :=
  if e.kind == .component then [
    "\t\t\t__isSecure = " ++ flagText e.flags.secure ++ ";",
    "\t\t\t__requireSession = " ++ flagText e.flags.requireSession ++ ";",
    "\t\t\t__isRedirect = " ++ flagText e.flags.redirect ++ ";"]
  else []

/-- A pair of literals between braces. -/
def literalPair (p : String × String) : String :=
  "\x7b " ++ Text.quote p.1 ++ ", " ++ Text.quote p.2 ++ " \x7d"

/-- The constructor up to the place for hand-written statements. -/
def constructorLines (o : Options) (e : Entity) : List String :=
  ["\t\tpublic " ++ className o e ++ "()", "\t\t\x7b",
    "\t\t\t__object = " ++ Text.quote e.name ++ ";",
    "\t\t\t__properties = new List<string> \x7b " ++ propertyNames e ++ " \x7d;",
    "\t\t\t__required = new List<string> \x7b " ++ requiredNames e ++ " \x7d;",
    "\t\t\t__objectMap = new Dictionary<string, string> \x7b " ++
      Text.joinWith ", " (e.objectMap.map literalPair) ++ " \x7d;"] ++
  flagLines e ++
  e.properties.flatMap defaultLines

/-! ## Accessors -/

/-- A property with a getter and a setter of one line each. -/
def shortProperty (type name getter setter : String) : List String :=
  ["\t\tpublic " ++ type ++ " " ++ name, "\t\t\x7b",
    "\t\t\tget \x7b return " ++ getter ++ "; \x7d",
    "\t\t\tset \x7b " ++ setter ++ "; \x7d",
    "\t\t\x7d"]

/-- The list form of a property; setting it empties the single form. -/
def listProperty (o : Options) (p : Property) : List String :=
  summaryOf ("The list form of <c>" ++ p.name ++ "</c>.") ++
  ["\t\tpublic " ++ listType o p ++ " " ++ listName p.name, "\t\t\x7b",
    "\t\t\tget \x7b return " ++ slotName (listName p.name) ++ "; \x7d",
    "\t\t\tset",
    "\t\t\t\x7b",
    "\t\t\t\t" ++ slotName (listName p.name) ++ " = value;",
    "\t\t\t\t" ++ slotName p.name ++ " = null;",
    "\t\t\t\t" ++ slotName (flagName p.name) ++ " = value != null;",
    "\t\t\t\x7d",
    "\t\t\x7d"]
where
  /-- A comment of one line. -/
  summaryOf (line : String) : List String :=
    ["\t\t/// <summary>", "\t\t/// " ++ line, "\t\t/// </summary>"]

/-- The flag of a property. -/
def flagProperty (p : Property) : List String :=
  listProperty.summaryOf ("True when <c>" ++ p.name ++ "</c> currently holds a list.") ++
  ["\t\tpublic bool " ++ flagName p.name, "\t\t\x7b",
    "\t\t\tget \x7b return " ++ slotName (flagName p.name) ++ "; \x7d",
    "\t\t\x7d"]

/-- The accessors of a property, after an empty line. -/
def accessorLines (o : Options) (e : Entity) (p : Property) : List String :=
  let slot := slotName p.name
  [""] ++ summary 2 (docLines (types o) p.description? ++ requiredNote e p) ++
  if p.isPolymorphic then
    shortProperty "object" p.name
      (slotName (flagName p.name) ++ " ? (object)" ++ slotName (listName p.name) ++ " : " ++ slot)
      ("SetProperty(" ++ Text.quote p.name ++ ", value)") ++
    [""] ++ listProperty o p ++ [""] ++ flagProperty p
  else shortProperty ((types o).shape p.shape) p.name slot (slot ++ " = value")

/-- The names of the accessors of a property. -/
def accessorNames (p : Property) : List String :=
  if p.isPolymorphic then [p.name, listName p.name, flagName p.name] else [p.name]

/-- The names of the fields behind a property. -/
def slotNames (p : Property) : List String :=
  (accessorNames p).map slotName

/-! ## Decoding -/

/-- What the conversion of values refers to. -/
def converter (o : Options) : Converter :=
  ⟨types o, indexClass o⟩

/-- The statements for a missing value. -/
def nullCase (statements : List Conversion.Statement) : List Line :=
  [⟨5, .branch (.isNull "value")⟩] ++ Conversion.braced 5 (statements.map (⟨6, ·⟩) ++ [⟨6, .leave⟩])

/-- The statements that store the value of a property. -/
def caseBody (o : Options) (entity : String) (p : Property) : List Line :=
  let label := entity ++ "." ++ p.name
  let slot := slotName p.name
  let list := slotName (listName p.name)
  let flag := slotName (flagName p.name)
  (match p.shape with
  | .either _ element =>
    nullCase [.assign slot (.plain "null"), .assign list (.plain "null"),
      .assign flag (.plain "false")] ++
    [⟨5, .branch (.isType "value" Conversion.anyListType)⟩] ++
    Conversion.braced 5 (
      (converter o).convertList element "value" list label 6 0 ++
      [⟨6, .assign slot (.plain "null")⟩, ⟨6, .assign flag (.plain "true")⟩, ⟨6, .leave⟩]) ++
    (converter o).convert p.shape "value" slot label 5 0 ++
    [⟨5, .assign list (.plain "null")⟩, ⟨5, .assign flag (.plain "false")⟩]
  | _ =>
    nullCase [.assign slot (.plain "null")] ++
    if p.isChecked then (converter o).convert p.shape "value" slot label 5 0
    else [⟨5, .assign slot (.plain "value")⟩]) ++
  [⟨5, .leave⟩]

/-- The case of a property. -/
def caseLines (o : Options) (entity : String) (p : Property) : List String :=
  ["\t\t\t\tcase " ++ Text.quote p.name ++ ":", "\t\t\t\t\x7b"] ++
    (caseBody o entity p).map Line.code ++
  ["\t\t\t\t\x7d"]

/-- The method that stores a value by the name of its property, after an empty line. -/
def setPropertyLines (o : Options) (e : Entity) : List String :=
  ["", "\t\tpublic override void SetProperty(string name, object value)", "\t\t\x7b",
    "\t\t\tswitch (name)", "\t\t\t\x7b"] ++
  e.properties.flatMap (caseLines o e.name) ++
  ["\t\t\t\tdefault:", "\t\t\t\t\tbase.SetProperty(name, value);", "\t\t\t\t\tbreak;",
    "\t\t\t\x7d", "\t\t\x7d"]

/-- The parts of the file of an entity. -/
def parts (o : Options) (e : Entity) : Template where
  opening := [banner, "", "using System;", "using System.Collections.Generic;"]
  importsMargin := {}
  fields := ["", "namespace " ++ namespaceOf o e, "\x7b"] ++
    summary 1 (docLines (types o) e.description?) ++
    ["\tpublic class " ++ className o e ++ " : " ++ baseClass o e.kind, "\t\x7b"] ++
    e.properties.flatMap (fieldLines o)
  propertiesMargin := ⟨false, e.properties.isEmpty⟩
  constructor := (if e.properties.isEmpty then [] else [""]) ++ constructorLines o e
  statementsMargin := {}
  members := ["\t\t\x7d"] ++ e.properties.flatMap (accessorLines o e) ++ setPropertyLines o e
  membersMargin := ⟨true, false⟩
  closing := ["\t\x7d", "\x7d"]

/-- The parts of the file of an entity that has the index it needs. -/
def template (l : Layout) (o : Options) (e : Entity) : Except RenderFault Template := do
  requireIndex l e
  return parts o e

/-! ## The index -/

/-- The row of an entity in a table. -/
def entryRow (o : Options) (entry : IndexEntry) : String :=
  "\t\t\t\x7b " ++ Text.quote entry.key ++ ", () => new " ++ qualified o entry.entity ++ "() \x7d,"

/-- The type of a table. -/
def tableType (o : Options) (kind : EntityKind) : String :=
  "Dictionary<string, Func<" ++ baseClass o kind ++ ">>"

/-- A table of the index. -/
def tableLines (o : Options) (kind : EntityKind) (field : String) (entries : List IndexEntry) :
    List String :=
  ["\t\tprivate static readonly " ++ tableType o kind ++ " " ++ field ++ " = new " ++
    tableType o kind, "\t\t\x7b"] ++
  entries.map (entryRow o) ++ ["\t\t\x7d;", ""]

/-- The method that looks a name up in a table. -/
def lookupLines (o : Options) (kind : EntityKind) (method field : String) : List String :=
  let base := baseClass o kind
  ["\t\tpublic static " ++ base ++ " " ++ method ++ "(string name, object json)", "\t\t\x7b",
    "\t\t\tFunc<" ++ base ++ "> ctor;",
    "\t\t\tif (name == null || !" ++ field ++
    ".TryGetValue(name.ToLower(), out ctor)) return null;", "\t\t\tvar instance = ctor();",
    "\t\t\tif (json != null) instance.FromJSON(json);",
    "\t\t\treturn instance;",
    "\t\t\x7d"]

/-- The lines of the index file. -/
def indexLines (o : Options) (i : Index) : List String :=
  [banner, "", "using System;", "using System.Collections.Generic;", "",
    "namespace " ++ o.rootNamespace, "\x7b", "\t/// <summary>",
    "\t/// Creates generated instances from the names carried in payloads.",
    "\t/// </summary>",
    "\tpublic static class ObjectIndex", "\t\x7b"] ++
  tableLines o .object "Objects" i.objects ++ tableLines o .component "Components" i.components ++
  tableLines o .result "Results" i.results ++
  lookupLines o .object "CreateObject" "Objects" ++ [""] ++
  lookupLines o .component "CreateComponent" "Components" ++ [""] ++
  lookupLines o .result "CreateResult" "Results" ++
  ["\t\x7d", "\x7d"]

end Classwright.CSharp
