import Classwright.Schema.Document

/-!
# Shapes of properties

Every target declares, checks and reads a property by its shape. A property that names
an object or a type holds a single value; one with an element description holds a list
of values; one with both holds either. `Shape.classify` reads the shape off the
descriptors of a property, level by level.
-/

namespace Classwright

/-- The scalar types. -/
inductive Primitive where
  | int
  | float
  | string
  | boolean
  | object
  | array
  | mixed
deriving DecidableEq, Repr, Inhabited

namespace Primitive

/-- The scalar type of a name; blanks around it and the case of its letters do not
matter. -/
def ofName? (name : String) : Option Primitive :=
  match Text.asciiLower (Text.trim name) with
  | "int" | "integer" => some .int
  | "float" | "number" | "double" => some .float
  | "string" => some .string
  | "boolean" | "bool" => some .boolean
  | "object" => some .object
  | "array" => some .array
  | "mixed" => some .mixed
  | _ => none

/-- The proper name of a scalar type. -/
def name : Primitive → String
  | .int => "int"
  | .float => "float"
  | .string => "string"
  | .boolean => "boolean"
  | .object => "object"
  | .array => "array"
  | .mixed => "mixed"

end Primitive

/-- What a property holds at its own level. -/
inductive Atom where
  | primitive (p : Primitive)
  | object (name : String)
  | result
  | unknown
deriving DecidableEq, Repr, Inhabited

/-- The object name that stands for the result of any method. -/
def resultName : String := "Result"

/-- What a descriptor declares, if it declares anything: its object before its type. -/
def Atom.ofDescriptor? (d : Schema.Descriptor) : Option Atom :=
  let declared := fun (s : Option String) => (s.map Text.trim).filter fun name => !name.isEmpty
  match declared d.object? with
  | some name => some (if name == resultName then .result else .object name)
  | none => (declared d.type?).map fun name =>
      match Primitive.ofName? name with
      | some p => .primitive p
      | none => .unknown

/-- The object that an atom refers to. -/
def Atom.object? : Atom → Option String
  | .object name => some name
  | _ => none

/-- Whether an atom refers to a class. -/
def Atom.isReference : Atom → Bool
  | .object _ => true
  | .result => true
  | _ => false

/-- What a property holds. -/
inductive Shape where
  | single (atom : Atom)
  | list (element : Shape)
  | either (atom : Atom) (element : Shape)
deriving DecidableEq, Repr, Inhabited

/-- A coarse view of a shape. -/
inductive ShapeKind where
  | scalar
  | objectRef
  | resultRef
  | arrayOfScalar
  | arrayOfObject
  | polymorphic
  | unknown
deriving DecidableEq, Repr, Inhabited

namespace Shape

/-- What a level of a property with an element description holds besides the list; the
type `array` only repeats that there is one. -/
def besideList (d : Schema.Descriptor) : Option Atom :=
  (Atom.ofDescriptor? d).filter fun atom => atom != .primitive .array

/-- The shape of a property. -/
def classify : Schema.PropertyDef → Shape
  | .plain own => .single ((Atom.ofDescriptor? own).getD .unknown)
  | .listed own element =>
    match besideList own with
    | none => .list (classify element)
    | some atom => .either atom (classify element)

/-- The kind of a shape. -/
def kind : Shape → ShapeKind
  | .single (.primitive _) => .scalar
  | .single (.object _) => .objectRef
  | .single .result => .resultRef
  | .single .unknown => .unknown
  | .list (.single atom) => if atom.isReference then .arrayOfObject else .arrayOfScalar
  | .list _ => .arrayOfScalar
  | .either _ _ => .polymorphic

/-- The atom held when the value is not a list. -/
def single? : Shape → Option Atom
  | .single atom => some atom
  | .list _ => none
  | .either atom _ => some atom

/-- The shape of the elements when the value may be a list. -/
def element? : Shape → Option Shape
  | .single _ => none
  | .list element => some element
  | .either _ element => some element

/-- The atom of the elements, when these are not lists themselves. -/
def elementAtom? (s : Shape) : Option Atom :=
  match s.element? with
  | some (.single atom) => some atom
  | _ => none

/-- Whether some level refers to the result of a method. -/
def mentionsResult : Shape → Bool
  | .single atom => atom == .result
  | .list element => element.mentionsResult
  | .either atom element => atom == .result || element.mentionsResult

/-- The objects that the levels refer to, from the outside inwards. -/
def objectNames : Shape → List String
  | .single atom => atom.object?.toList
  | .list element => element.objectNames
  | .either atom element => atom.object?.toList ++ element.objectNames

/-- The number of levels that may hold a list. -/
def listLevels : Shape → Nat
  | .single _ => 0
  | .list element => element.listLevels + 1
  | .either _ element => element.listLevels + 1

end Shape

/-- How the types of a target language are written. -/
structure TypeSystem where
  /-- A scalar type. -/
  primitive : Primitive → String
  /-- The class of an object. -/
  object : String → String
  /-- The class of any result. -/
  resultBase : String
  /-- The type of a value about which nothing is known. -/
  unknown : String
  /-- The type of lists, from the type of the elements. -/
  list : String → String
  /-- The type of a single value or a list, from the types of both. -/
  either : String → String → String

namespace TypeSystem

/-- The type of an atom. -/
def atom (types : TypeSystem) : Atom → String
  | .primitive p => types.primitive p
  | .object name => types.object name
  | .result => types.resultBase
  | .unknown => types.unknown

/-- The type of a shape. -/
def shape (types : TypeSystem) : Shape → String
  | .single a => types.atom a
  | .list element => types.list (types.shape element)
  | .either a element => types.either (types.atom a) (types.list (types.shape element))

end TypeSystem

end Classwright
