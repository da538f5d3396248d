import Classwright.Json.Value
import Classwright.OrderedMap

/-!
# Schema documents

What a document declares: objects with properties, and namespaces of methods with
parameters and a result. A property describes a value, and with an element description
next to it also, or only, a list of values; the element can be a list again, so a
property is a chain of descriptors.
-/

namespace Classwright.Schema

/-- What a property says at its own level. -/
structure Descriptor where
  /-- The name of a scalar type. -/
  type? : Option String := none
  /-- The name of an object. -/
  object? : Option String := none
  /-- Whether a value has to be given. -/
  required : Bool := false
  /-- The default value. -/
  default? : Option Json := none
  /-- What the property is for. -/
  description? : Option String := none
deriving Repr, Inhabited

/-- A property: a descriptor, and the description of the elements if it may hold a list. -/
inductive PropertyDef where
  | plain (own : Descriptor)
  | listed (own : Descriptor) (element : PropertyDef)
deriving Repr, Inhabited

/-- The descriptor of a property's own level. -/
def PropertyDef.own : PropertyDef → Descriptor
  | .plain own => own
  | .listed own _ => own

/-- The description of the elements. -/
def PropertyDef.element? : PropertyDef → Option PropertyDef
  | .plain _ => none
  | .listed _ element => some element

/-- The property with the given descriptor and element description. -/
def PropertyDef.ofParts (own : Descriptor) : Option PropertyDef → PropertyDef
  | none => .plain own
  | some element => .listed own element

/-- The descriptors of a property, from its own level inwards. -/
def PropertyDef.chain : PropertyDef → List Descriptor
  | .plain own => [own]
  | .listed own element => own :: element.chain

/-- A plain data record. -/
structure ObjectDef where
  /-- What the object is for. -/
  description? : Option String
  /-- Its properties. -/
  properties : OrderedMap PropertyDef
deriving Repr, Inhabited

/-- A method that can be called remotely. -/
structure MethodDef where
  /-- What the method is for. -/
  description? : Option String
  /-- Whether calls are encrypted. -/
  secure : Bool
  /-- Whether calls need a session. -/
  requireSession : Bool
  /-- Whether the answer is a redirect. -/
  redirect : Bool
  /-- The parameters, if declared. -/
  params? : Option (OrderedMap PropertyDef)
  /-- The properties of the result, if declared. -/
  returns? : Option (OrderedMap PropertyDef)
deriving Repr, Inhabited

/-- The methods of one namespace. -/
structure Namespace where
  /-- The methods by name. -/
  methods : OrderedMap MethodDef
deriving Repr, Inhabited

/-- A whole document. -/
structure Document where
  /-- The objects by name. -/
  objects : OrderedMap ObjectDef
  /-- The namespaces by name. -/
  components : OrderedMap Namespace
deriving Repr, Inhabited

/-- The number of methods in all namespaces. -/
def Document.methodCount (d : Document) : Nat :=
  d.components.entries.foldl (fun n entry => n + entry.2.methods.size) 0

end Classwright.Schema
