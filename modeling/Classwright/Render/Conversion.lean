import Classwright.Model.Shape
import Classwright.Text.Quoted

/-!
# Typed values from untyped ones

The C# classes store typed values and are given untyped ones. `Converter.convert` lists
the lines that turn a value into one of a shape and store it: a value of the wrong kind
is reported, and the slot is left empty. Every way through the lines stores something.
-/

namespace Classwright.Conversion

/-- The type of a decoded object. -/
def dictionaryType : String :=
  "Dictionary<string, object>"

/-- The type of any list. -/
def anyListType : String :=
  "System.Collections.IList"

/-- A test of a value. -/
inductive Guard where
  | isNull (value : String)
  | isType (value type : String)
  | isNumber (value : String)
  | isWhole (value : String)
  | isEnvelope (value : String)
deriving DecidableEq, Repr, Inhabited

/-- An expression. -/
inductive Expr where
  | plain (text : String)
  | call (function value : String)
  | cast (type value : String)
  | create (type : String)
  | lookup (index json : String)
deriving DecidableEq, Repr, Inhabited

/-- A report of a value of the wrong kind. -/
structure Report where
  /-- The property, with marks for the levels of lists. -/
  label : String
  /-- What was expected. -/
  expected : String
  /-- The value. -/
  value : String
deriving DecidableEq, Repr, Inhabited

/-- A statement, or a part of one, on a line of its own. -/
inductive Statement where
  | branch (guard : Guard)
  | elseBranch (guard : Guard)
  | otherwise
  | openBlock
  | closeBlock
  | report (r : Report)
  | reportUnless (guard : Guard) (r : Report)
  | assign (target : String) (value : Expr)
  | assignIf (guard : Guard) (target : String) (value : Expr)
  | declare (type name : String)
  | define (name : String) (value : Expr)
  | loop (element list : String)
  | add (list item : String)
  | decode (object value : String)
  | leave
deriving DecidableEq, Repr, Inhabited

/-- A statement and how deep it is indented. -/
structure Line where
  /-- The number of tabs before the statement. -/
  depth : Nat
  /-- The statement. -/
  statement : Statement
deriving DecidableEq, Repr, Inhabited

/-! ## Texts -/

/-- The text of a test. -/
def Guard.code : Guard → String
  | .isNull v => v ++ " == null"
  | .isType v type => v ++ " is " ++ type
  | .isNumber v => "IsNumber(" ++ v ++ ")"
  | .isWhole v => "IsNumber(" ++ v ++ ") && Convert.ToDouble(" ++ v ++ ") % 1 == 0"
  | .isEnvelope v =>
    v ++ " is " ++ dictionaryType ++ " && ((" ++ dictionaryType ++ ")" ++ v ++
      ").ContainsKey(\"component\")"

/-- The text of an expression. -/
def Expr.code : Expr → String
  | .plain s => s
  | .call function v => function ++ "(" ++ v ++ ")"
  | .cast type v => "(" ++ type ++ ")" ++ v
  | .create type => "new " ++ type ++ "()"
  | .lookup index json =>
    index ++ ".CreateResult(Convert.ToString(" ++ json ++ "[\"component\"]), " ++ json ++
      ".ContainsKey(\"data\") ? " ++ json ++ "[\"data\"] : null)"

/-- The text of a report. -/
def Report.code (r : Report) : String :=
  "TypeMismatch(" ++ Text.quote r.label ++ ", " ++ Text.quote r.expected ++ ", " ++ r.value ++ ");"

/-- The text of a statement. -/
def Statement.code : Statement → String
  | .branch g => "if (" ++ g.code ++ ")"
  | .elseBranch g => "else if (" ++ g.code ++ ")"
  | .otherwise => "else"
  | .openBlock => "\x7b"
  | .closeBlock => "\x7d"
  | .report r => r.code
  | .reportUnless g r => "if (!(" ++ g.code ++ ")) " ++ r.code
  | .assign target e => target ++ " = " ++ e.code ++ ";"
  | .assignIf g target e => "if (" ++ g.code ++ ") " ++ target ++ " = " ++ e.code ++ ";"
  | .declare type name => type ++ " " ++ name ++ ";"
  | .define name e => "var " ++ name ++ " = " ++ e.code ++ ";"
  | .loop element list =>
    "foreach (object " ++ element ++ " in (" ++ anyListType ++ ")" ++ list ++ ")"
  | .add list item => list ++ ".Add(" ++ item ++ ");"
  | .decode object v => object ++ ".FromJSON(" ++ v ++ ");"
  | .leave => "break;"

/-- The text of a line. -/
def Line.code (l : Line) : String :=
  Text.copies l.depth "\t" ++ l.statement.code

/-! ## Conversion -/

/-- What the conversion refers to. -/
structure Converter where
  /-- How types are written. -/
  types : TypeSystem
  /-- The index that makes results. -/
  index : String

/-- A variable, numbered by the loops around it. -/
def numbered (name : String) (depth : Nat) : String :=
  name ++ toString depth

/-- Statements between braces. -/
def braced (indent : Nat) (inner : List Line) : List Line :=
  [⟨indent, .openBlock⟩] ++ inner ++ [⟨indent, .closeBlock⟩]

/-- What is done with a value of the wrong kind. -/
def refuse (value target label expected : String) (indent : Nat) : List Line :=
  [⟨indent, .otherwise⟩] ++ braced indent [
    ⟨indent + 1, .report ⟨label, expected, value⟩⟩,
    ⟨indent + 1, .assign target (.plain "null")⟩]

/-- Stores a value if it is of a type. -/
def convertCast (type expected value target label : String) (indent : Nat) : List Line :=
  [⟨indent, .assignIf (.isType value type) target (.cast type value)⟩] ++
    refuse value target label expected indent

namespace Converter

/-- Converts a value to an atom. -/
def convertAtom (c : Converter) (atom : Atom) (value target label : String) (indent depth : Nat) :
    List Line :=
  match atom with
  | .primitive .int =>
    [⟨indent, .assignIf (.isWhole value) target (.call "Convert.ToInt32" value)⟩] ++
    refuse value target label "an integer" indent
  | .primitive .float =>
    [⟨indent, .assignIf (.isNumber value) target (.call "Convert.ToDouble" value)⟩] ++
    refuse value target label "a number" indent
  | .primitive .string => [
      ⟨indent, .reportUnless (.isType value "string") ⟨label, "a string", value⟩⟩,
      ⟨indent, .assign target (.call "Convert.ToString" value)⟩]
  | .primitive .boolean => [
      ⟨indent, .reportUnless (.isType value "bool") ⟨label, "a boolean", value⟩⟩,
      ⟨indent, .assign target (.call "IsTruthy" value)⟩]
  | .primitive .object => convertCast dictionaryType "an object" value target label indent
  | .primitive .array => convertCast "List<object>" "a list" value target label indent
  | .primitive .mixed => [⟨indent, .assign target (.plain value)⟩]
  | .unknown => [⟨indent, .assign target (.plain value)⟩]
  | .object name =>
    let class_ := c.types.object name
    let object := numbered "obj" depth
    [⟨indent, .assignIf (.isType value class_) target (.cast class_ value)⟩,
      ⟨indent, .elseBranch (.isType value dictionaryType)⟩] ++
    braced indent [
      ⟨indent + 1, .define object (.create class_)⟩,
      ⟨indent + 1, .decode object value⟩,
      ⟨indent + 1, .assign target (.plain object)⟩] ++
    refuse value target label class_ indent
  | .result =>
    let base := c.types.resultBase
    let json := numbered "json" depth
    [⟨indent, .assignIf (.isType value base) target (.cast base value)⟩,
      ⟨indent, .elseBranch (.isEnvelope value)⟩] ++
    braced indent [
      ⟨indent + 1, .define json (.cast dictionaryType value)⟩,
      ⟨indent + 1, .assign target (.lookup c.index json)⟩] ++
    refuse value target label base indent

/-- Converts a list; `inner` converts an element. -/
def convertListWith (c : Converter) (element : Shape) (value target label : String)
    (indent depth : Nat) (inner : List Line) : List Line :=
  let elementType := c.types.shape element
  let list := numbered "list" depth
  let val := numbered "val" depth
  let item := numbered "item" depth
  [⟨indent, .branch (.isType value anyListType)⟩] ++
  braced indent (
    [⟨indent + 1, .define list (.create ("List<" ++ elementType ++ ">"))⟩,
      ⟨indent + 1, .loop val value⟩] ++
    braced (indent + 1) (
      [⟨indent + 2, .declare elementType item⟩,
        ⟨indent + 2, .assignIf (.isNull val) item (.plain "null")⟩,
        ⟨indent + 2, .otherwise⟩] ++
      braced (indent + 2) inner ++
      [⟨indent + 2, .add list item⟩]) ++
    [⟨indent + 1, .assign target (.plain list)⟩]) ++
  refuse value target label "a list" indent

/-- Converts a value to a shape. Where a single value or a list may stand, the list has
been dealt with before. -/
def convert (c : Converter) (shape : Shape) (value target label : String) (indent depth : Nat) :
    List Line :=
  match shape with
  | .single atom => c.convertAtom atom value target label indent depth
  | .list element =>
    c.convertListWith element value target label indent depth
      (c.convert element (numbered "val" depth) (numbered "item" depth)
        (label ++ "[]") (indent + 3) (depth + 1))
  | .either atom _ => c.convertAtom atom value target label indent depth

/-- Converts a list of elements of a shape. -/
def convertList (c : Converter) (element : Shape) (value target label : String)
    (indent depth : Nat) : List Line :=
  c.convert (.list element) value target label indent depth

end Converter

end Classwright.Conversion
