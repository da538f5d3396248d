import Classwright.Target.Layout

/-!
# Base classes

The generated classes extend three base classes, which are written once and belong to
the user from then on. Where the language has a namespace or package, `__NAMESPACE__`
stands for it (`fillNamespace`).
-/

namespace Classwright.Skeleton

/-- What stands for the namespace of a target. -/
def namespaceMark : List Char :=
  "__NAMESPACE__".toList

/-- Replaces every occurrence of `mark`, from left to right; `skip` counts the
characters of one that are still to be passed over. -/
def replaceFrom (mark text : List Char) : Nat → List Char → List Char
  | _, [] => []
  | skip + 1, _ :: rest => replaceFrom mark text skip rest
  | 0, c :: rest =>
    if mark.isPrefixOf (c :: rest) then text ++ replaceFrom mark text (mark.length - 1) rest
    else c :: replaceFrom mark text 0 rest

/-- A source with the namespace filled in. -/
def fillNamespace (rootNamespace source : String) : String :=
  String.ofList (replaceFrom namespaceMark rootNamespace.toList 0 source.toList)

/-- A file for each class, with the namespace filled in. -/
def perClass (sources : List (String × String)) (directory : Path)
    (extension rootNamespace : String) :
    List SourceFile :=
  sources.map fun s => ⟨directory.child (s.1 ++ extension), fillNamespace rootNamespace s.2⟩

/-- The module with the three JavaScript base classes. -/
def javaScript : List String := [
  "// Base classes for the generated models. Written by `modgen scaffold` and",
  "// safe to edit: `modgen build` never touches this file.",
  "",
  "export class BaseObject \x7b",
  "",
  "\tconstructor() \x7b",
  "\t\tthis.__object = 'BaseObject';",
  "\t\tthis.__properties = [];",
  "\t\tthis.__required = [];",
  "\t\x7d",
  "",
  "\t/**",
  "\t * The schema name of this object.",
  "\t * @type \x7bstring\x7d",
  "\t */",
  "\tget objectName() \x7b",
  "\t\treturn this.__object;",
  "\t\x7d",
  "",
  "\t/**",
  "\t * Names of required properties that are still unset.",
  "\t * @returns \x7bArray.<string>\x7d",
  "\t */",
  "\tmissingRequired() \x7b",
  "\t\tvar missing = [];",
  "\t\tfor (var i = 0; i < this.__required.length; i++) \x7b",
  "\t\t\tvar value = this[this.__required[i]];",
  "\t\t\tif (value === null || typeof(value) === 'undefined') missing.push(this.__required[i]);",
  "\t\t\x7d",
  "\t\treturn missing;",
  "\t\x7d",
  "",
  "\t/**",
  "\t * @returns \x7bboolean\x7d True when every required property is set.",
  "\t */",
  "\tisValid() \x7b",
  "\t\tvar missing = this.missingRequired();",
  "\t\tif (missing.length > 0) \x7b",
  "\t\t\tconsole.warn(this.__object + ' is missing required properties: ' + missing.join(', '));",
  "\t\t\treturn false;",
  "\t\t\x7d",
  "\t\treturn true;",
  "\t\x7d",
  "",
  "\t/**",
  "\t * Copies the known properties of a parsed JSON object through the typed setters.",
  "\t * @param \x7bobject\x7d json",
  "\t */",
  "\tfromJSON(json) \x7b",
  "\t\tif (json === null || typeof(json) !== 'object') return;",
  "\t\tfor (var i = 0; i < this.__properties.length; i++) \x7b",
  "\t\t\tvar name = this.__properties[i];",
  "\t\t\tif (typeof(json[name]) !== 'undefined') this[name] = json[name];",
  "\t\t\x7d",
  "\t\x7d",
  "",
  "\t/**",
  "\t * @returns \x7bobject\x7d The set properties, ready for JSON.stringify.",
  "\t */",
  "\ttoJSON() \x7b",
  "\t\tvar json = \x7b\x7d;",
  "\t\tfor (var i = 0; i < this.__properties.length; i++) \x7b",
  "\t\t\tvar name = this.__properties[i];",
  "\t\t\tvar value = this[name];",
  "\t\t\tif (value !== null && typeof(value) !== 'undefined') json[name] = value;",
  "\t\t\x7d",
  "\t\treturn json;",
  "\t\x7d",
  "\x7d",
  "",
  "export class BaseComponent extends BaseObject \x7b",
  "",
  "\tconstructor() \x7b",
  "\t\tsuper();",
  "\t\tthis.__object = 'BaseComponent';",
  "\t\tthis.__isSecure = false;",
  "\t\tthis.__requireSession = false;",
  "\t\tthis.__isRedirect = false;",
  "\t\x7d",
  "",
  "\t/**",
  "\t * @returns \x7bboolean\x7d True when calls must be encrypted.",
  "\t */",
  "\tisSecure() \x7b",
  "\t\treturn this.__isSecure;",
  "\t\x7d",
  "",
  "\t/**",
  "\t * @returns \x7bboolean\x7d True when calls need a user session.",
  "\t */",
  "\trequiresSession() \x7b",
  "\t\treturn this.__requireSession;",
  "\t\x7d",
  "",
  "\t/**",
  "\t * @returns \x7bboolean\x7d True when the server answers with a redirect.",
  "\t */",
  "\tisRedirect() \x7b",
  "\t\treturn this.__isRedirect;",
  "\t\x7d",
  "\x7d",
  "",
  "export class BaseResult extends BaseObject \x7b",
  "",
  "\tconstructor() \x7b",
  "\t\tsuper();",
  "\t\tthis.__object = 'BaseResult';",
  "\t\x7d",
  "\x7d"]

/-- The C# base class of all classes. -/
def cSharpObject : List String := [
  "// Base class for the generated models. Written by `modgen scaffold` and",
  "// safe to edit: `modgen build` never touches this file.",
  "",
  "using System;",
  "using System.Collections.Generic;",
  "",
  "namespace __NAMESPACE__",
  "\x7b",
  "\t/// <summary>",
  "\t/// Base of every generated object, component and result.",
  "\t/// </summary>",
  "\tpublic class BaseObject",
  "\t\x7b",
  "\t\tprotected string __object = \"BaseObject\";",
  "\t\tprotected List<string> __properties = new List<string>();",
  "\t\tprotected List<string> __required = new List<string>();",
  "\t\tprotected Dictionary<string, string> __objectMap = new Dictionary<string, string>();",
  "",
  "\t\t/// <summary>",
  "\t\t/// The schema name of this object.",
  "\t\t/// </summary>",
  "\t\tpublic string ObjectName",
  "\t\t\x7b",
  "\t\t\tget \x7b return __object; \x7d",
  "\t\t\x7d",
  "",
  "\t\t/// <summary>",
  "\t\t/// Stores one decoded JSON value. Generated classes override this for",
  "\t\t/// their own properties. Unknown names are ignored.",
  "\t\t/// </summary>",
  "\t\tpublic virtual void SetProperty(string name, object value)",
  "\t\t\x7b",
  "\t\t\x7d",
  "",
  "\t\t/// <summary>",
  "\t\t/// Copies every entry of a parsed JSON object through <c>SetProperty</c>.",
  "\t\t/// </summary>",
  "\t\tpublic void FromJSON(object json)",
  "\t\t\x7b",
  "\t\t\tvar fields = json as IDictionary<string, object>;",
  "\t\t\tif (fields == null)",
  "\t\t\t\x7b",
  "\t\t\t\tTypeMismatch(__object, \"an object\", json);",
  "\t\t\t\treturn;",
  "\t\t\t\x7d",
  "\t\t\tforeach (var pair in fields)",
  "\t\t\t\x7b",
  "\t\t\t\tSetProperty(pair.Key, pair.Value);",
  "\t\t\t\x7d",
  "\t\t\x7d",
  "",
  "\t\t/// <summary>",
  "\t\t/// Reports a value that does not fit a property. The property is left unset.",
  "\t\t/// </summary>",
  "\t\tprotected virtual void TypeMismatch(string label, string expected, object value)",
  "\t\t\x7b",
  "\t\t\tstring got = value == null ? \"null\" : value.GetType().Name;",
  "\t\t\tConsole.Error.WriteLine(\"Type Mismatch: \" + label + \" expects \" + expected + \", got \" + got);",
  "\t\t\x7d",
  "",
  "\t\tprotected static bool IsNumber(object value)",
  "\t\t\x7b",
  "\t\t\treturn value is int || value is long || value is short || value is byte",
  "\t\t\t\t|| value is uint || value is ulong || value is ushort || value is sbyte",
  "\t\t\t\t|| value is float || value is double || value is decimal;",
  "\t\t\x7d",
  "",
  "\t\tprotected static bool IsTruthy(object value)",
  "\t\t\x7b",
  "\t\t\tif (value == null) return false;",
  "\t\t\tif (value is bool) return (bool)value;",
  "\t\t\tif (IsNumber(value)) return Convert.ToDouble(value) != 0;",
  "\t\t\tvar text = value as string;",
  "\t\t\tif (text != null) return text.Length > 0;",
  "\t\t\treturn true;",
  "\t\t\x7d",
  "\t\x7d",
  "\x7d"]

/-- The C# base class of components. -/
def cSharpComponent : List String := [
  "// Base class for the generated components. Written by `modgen scaffold` and",
  "// safe to edit: `modgen build` never touches this file.",
  "",
  "namespace __NAMESPACE__",
  "\x7b",
  "\t/// <summary>",
  "\t/// Base of every generated component call.",
  "\t/// </summary>",
  "\tpublic class BaseComponent : BaseObject",
  "\t\x7b",
  "\t\tprotected bool __isSecure;",
  "\t\tprotected bool __requireSession;",
  "\t\tprotected bool __isRedirect;",
  "",
  "\t\t/// <summary>",
  "\t\t/// True when calls must be encrypted.",
  "\t\t/// </summary>",
  "\t\tpublic bool IsSecure",
  "\t\t\x7b",
  "\t\t\tget \x7b return __isSecure; \x7d",
  "\t\t\x7d",
  "",
  "\t\t/// <summary>",
  "\t\t/// True when calls need a user session.",
  "\t\t/// </summary>",
  "\t\tpublic bool RequireSession",
  "\t\t\x7b",
  "\t\t\tget \x7b return __requireSession; \x7d",
  "\t\t\x7d",
  "",
  "\t\t/// <summary>",
  "\t\t/// True when the server answers with a redirect.",
  "\t\t/// </summary>",
  "\t\tpublic bool IsRedirect",
  "\t\t\x7b",
  "\t\t\tget \x7b return __isRedirect; \x7d",
  "\t\t\x7d",
  "\t\x7d",
  "\x7d"]

/-- The C# base class of results. -/
def cSharpResult : List String := [
  "// Base class for the generated results. Written by `modgen scaffold` and",
  "// safe to edit: `modgen build` never touches this file.",
  "",
  "namespace __NAMESPACE__",
  "\x7b",
  "\t/// <summary>",
  "\t/// Base of every generated component result.",
  "\t/// </summary>",
  "\tpublic class BaseResult : BaseObject",
  "\t\x7b",
  "\t\x7d",
  "\x7d"]

/-- The ActionScript base class of all classes. -/
def actionScriptObject : List String := [
  "// Base class for the generated models. Written by `modgen scaffold` and",
  "// safe to edit: `modgen build` never touches this file.",
  "",
  "class __NAMESPACE__.BaseObject \x7b",
  "",
  "\tprivate var __object:String = \"BaseObject\";",
  "\tprivate var __properties:Array;",
  "\tprivate var __required:Array;",
  "\tprivate var __castTypes:Object;",
  "\tprivate var __arrayTypes:Object;",
  "",
  "\tpublic function BaseObject() \x7b",
  "\t\tthis.__properties = [];",
  "\t\tthis.__required = [];",
  "\t\tthis.__castTypes = \x7b\x7d;",
  "\t\tthis.__arrayTypes = \x7b\x7d;",
  "\t\x7d",
  "",
  "\t/**",
  "\t * The schema name of this object.",
  "\t */",
  "\tpublic function get objectName():String \x7b",
  "\t\treturn this.__object;",
  "\t\x7d",
  "",
  "\t/**",
  "\t * Copies the known properties of props through the typed setters.",
  "\t */",
  "\tpublic function fillProperties(props:Object):Void \x7b",
  "\t\tif (props === null || props === undefined) return;",
  "\t\tfor (var i:Number = 0; i < this.__properties.length; i++) \x7b",
  "\t\t\tvar name:String = this.__properties[i];",
  "\t\t\tif (props[name] !== undefined) this[name] = props[name];",
  "\t\t\x7d",
  "\t\x7d",
  "",
  "\t/**",
  "\t * Names of required properties that are still unset.",
  "\t */",
  "\tpublic function missingRequired():Array \x7b",
  "\t\tvar missing:Array = [];",
  "\t\tfor (var i:Number = 0; i < this.__required.length; i++) \x7b",
  "\t\t\tvar value = this[this.__required[i]];",
  "\t\t\tif (value === null || value === undefined) missing.push(this.__required[i]);",
  "\t\t\x7d",
  "\t\treturn missing;",
  "\t\x7d",
  "",
  "\tpublic function isValid():Boolean \x7b",
  "\t\treturn this.missingRequired().length == 0;",
  "\t\x7d",
  "",
  "\t/**",
  "\t * The set properties as a plain object.",
  "\t */",
  "\tpublic function toObject():Object \x7b",
  "\t\tvar out:Object = \x7b\x7d;",
  "\t\tfor (var i:Number = 0; i < this.__properties.length; i++) \x7b",
  "\t\t\tvar name:String = this.__properties[i];",
  "\t\t\tvar value = this[name];",
  "\t\t\tif (value instanceof __NAMESPACE__.BaseObject) value = value.toObject();",
  "\t\t\tif (value !== null && value !== undefined) out[name] = value;",
  "\t\t\x7d",
  "\t\treturn out;",
  "\t\x7d",
  "\x7d"]

/-- The ActionScript base class of components. -/
def actionScriptComponent : List String := [
  "// Base class for the generated components. Written by `modgen scaffold` and",
  "// safe to edit: `modgen build` never touches this file.",
  "",
  "class __NAMESPACE__.BaseComponent extends __NAMESPACE__.BaseObject \x7b",
  "",
  "\tprivate var __isSecure:Boolean = false;",
  "\tprivate var __requireSession:Boolean = false;",
  "\tprivate var __isRedirect:Boolean = false;",
  "",
  "\tpublic function BaseComponent() \x7b",
  "\t\tsuper();",
  "\t\x7d",
  "",
  "\tpublic function isSecure():Boolean \x7b",
  "\t\treturn this.__isSecure;",
  "\t\x7d",
  "",
  "\tpublic function requiresSession():Boolean \x7b",
  "\t\treturn this.__requireSession;",
  "\t\x7d",
  "",
  "\tpublic function isRedirect():Boolean \x7b",
  "\t\treturn this.__isRedirect;",
  "\t\x7d",
  "\x7d"]

/-- The ActionScript base class of results. -/
def actionScriptResult : List String := [
  "// Base class for the generated results. Written by `modgen scaffold` and",
  "// safe to edit: `modgen build` never touches this file.",
  "",
  "class __NAMESPACE__.BaseResult extends __NAMESPACE__.BaseObject \x7b",
  "",
  "\tpublic function BaseResult() \x7b",
  "\t\tsuper();",
  "\t\x7d",
  "\x7d"]

/-- The base classes of C# and their sources. -/
def cSharp : List (String × String) := [
  ("BaseObject", Text.unlines cSharpObject),
  ("BaseComponent", Text.unlines cSharpComponent),
  ("BaseResult", Text.unlines cSharpResult)]

/-- The base classes of ActionScript and their sources. -/
def actionScript : List (String × String) := [
  ("BaseObject", Text.unlines actionScriptObject),
  ("BaseComponent", Text.unlines actionScriptComponent),
  ("BaseResult", Text.unlines actionScriptResult)]

/-- The files with the base classes of a target. -/
def files (b : Backend) (l : Layout) (o : Options) : List SourceFile :=
  match b with
  | .javaScript => [⟨l.runtimeModule, Text.unlines javaScript⟩]
  | .cSharp => perClass cSharp l.baseDir l.fileExtension o.rootNamespace
  | .actionScript => perClass actionScript l.baseDir l.fileExtension o.rootNamespace

end Classwright.Skeleton
