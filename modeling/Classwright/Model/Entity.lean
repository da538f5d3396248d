import Classwright.Model.Shape
import Classwright.Text.Lowercase

/-!
# Entities

An entity is one class to generate: an object, a component (a method that can be called)
or a result (what a call returns). `Model.collect` lists the entities of a document in
the order of their declaration. The names `Result` and `Execute` stand for classes that
are written by hand and are left out.
-/

namespace Classwright

/-- A property with its shape. -/
structure Property where
  /-- The name of the property. -/
  name : String
  /-- What it holds. -/
  shape : Shape
  /-- Whether a value has to be given. -/
  required : Bool
  /-- The default value. -/
  default? : Option Json
  /-- What the property is for. -/
  description? : Option String
deriving Repr, Inhabited

/-- A description that says something. -/
def nonBlank (description? : Option String) : Option String :=
  description?.filter fun d => !Text.isBlankText d

namespace Property

/-- The property that a definition declares under a name. -/
def ofDef (name : String) (d : Schema.PropertyDef) : Property where
  name := name
  shape := Shape.classify d
  required := d.own.required
  default? := d.own.default?.filter fun v => !v.isNull
  description? := nonBlank d.own.description?

/-- The kind of the property's shape. -/
def kind (p : Property) : ShapeKind :=
  p.shape.kind

/-- Whether the property holds a single value or a list. -/
def isPolymorphic (p : Property) : Bool :=
  p.kind == .polymorphic

/-- Whether values are checked: all but those of which any value is right. -/
def isChecked (p : Property) : Bool :=
  p.shape != .single (.primitive .mixed) && p.shape != .single .unknown

theorem shape_of_not_isChecked {p : Property} (h : ¬p.isChecked) :
    p.shape = .single (.primitive .mixed) ∨ p.shape = .single .unknown := by
  simpa [isChecked, Decidable.imp_iff_not_or] using h

/-- The object that the elements refer to. -/
def elementObject? (p : Property) : Option String :=
  p.shape.elementAtom?.bind Atom.object?

/-- The object that the value refers to, or its elements. -/
def referencedObject? (p : Property) : Option String :=
  (p.shape.single?.bind Atom.object?).or p.elementObject?

end Property

/-- The three kinds of entities. -/
inductive EntityKind where
  | object
  | component
  | result
deriving DecidableEq, Repr, Inhabited

/-- What a call of a method needs. -/
structure MethodFlags where
  /-- Whether calls are encrypted. -/
  secure : Bool := false
  /-- Whether calls need a session. -/
  requireSession : Bool := false
  /-- Whether the answer is a redirect. -/
  redirect : Bool := false
deriving DecidableEq, Repr, Inhabited

/-- A class to generate. -/
structure Entity where
  /-- What the class stands for. -/
  kind : EntityKind
  /-- The name of an object, or namespace and method with a dot between them. -/
  name : String
  /-- The namespace of a method. -/
  inNamespace? : Option String
  /-- The name of a method. -/
  method? : Option String
  /-- What the class is for. -/
  description? : Option String
  /-- The properties, in order. -/
  properties : List Property
  /-- The names of the required properties. -/
  required : List String
  /-- Property and object, for properties that refer to an object by themselves or by
  their elements. -/
  objectMap : List (String × String)
  /-- Property and object, for properties whose elements refer to an object. -/
  objectLists : List (String × String)
  /-- What a call needs. -/
  flags : MethodFlags
deriving Repr, Inhabited

/-- The names of classes that are written by hand. -/
def sentinels : List String := [resultName, "Execute"]

/-- Whether a name stands for a class that is written by hand. -/
def isSentinel (name : String) : Bool :=
  sentinels.contains name

theorem isSentinel_eq_false_iff {name : String} :
    isSentinel name = false ↔ name ≠ "Result" ∧ name ≠ "Execute" := by
  simp [isSentinel, sentinels, resultName]

namespace Entity

/-- The entity with the given properties. -/
def ofProperties (kind : EntityKind) (name : String) (description? : Option String)
    (properties : List Property) : Entity where
  kind := kind
  name := name
  inNamespace? := none
  method? := none
  description? := nonBlank description?
  properties := properties
  required := (properties.filter Property.required).map Property.name
  objectMap := properties.filterMap fun p => p.referencedObject?.map fun o => (p.name, o)
  objectLists := properties.filterMap fun p => p.elementObject?.map fun o => (p.name, o)
  flags := {}

/-- The properties that a map of definitions declares. -/
def propertiesOf (defs : OrderedMap Schema.PropertyDef) : List Property :=
  defs.entries.map fun entry => Property.ofDef entry.1 entry.2

/-- The entity of an object. -/
def ofObject (name : String) (d : Schema.ObjectDef) : Entity :=
  ofProperties .object name d.description? (propertiesOf d.properties)

/-- The component or the result of a method, with the properties that `defs?` declares. -/
def ofMethod (kind : EntityKind) (ns method : String) (d : Schema.MethodDef)
    (defs? : Option (OrderedMap Schema.PropertyDef)) : Entity :=
  { ofProperties kind (ns ++ "." ++ method) d.description? ((defs?.map propertiesOf).getD []) with
    inNamespace? := some ns
    method? := some method
    flags := ⟨d.secure, d.requireSession, d.redirect⟩ }

/-- The key of the entity in the index. -/
def indexKey (e : Entity) : String :=
  Text.lowercase e.name

/-- The objects that the properties refer to, each once, in the order of their first
mention. -/
def referencedObjects (e : Entity) : List String :=
  (e.properties.flatMap fun p => p.shape.objectNames).foldl
    (fun names name => if names.contains name then names else names ++ [name]) []

/-- Whether some property is read through the index of results. -/
def usesResultLookup (e : Entity) : Bool :=
  e.properties.any fun p => p.shape.mentionsResult

/-- Whether a property is required. -/
def isRequired (e : Entity) (property : String) : Bool :=
  e.required.contains property

end Entity

/-- All entities of a document. -/
structure Model where
  /-- The objects. -/
  objects : List Entity
  /-- The components. -/
  components : List Entity
  /-- The results. -/
  results : List Entity
deriving Repr, Inhabited

namespace Model

/-- The entities in the order in which their files are generated. -/
def entities (m : Model) : List Entity :=
  m.objects ++ m.components ++ m.results

/-- The number of entities. -/
def size (m : Model) : Nat :=
  m.entities.length

/-- The entries of a map without those for classes that are written by hand. -/
def generated {α : Type} (m : OrderedMap α) : List (String × α) :=
  m.entries.filter fun entry => !isSentinel entry.1

/-- The methods to generate: namespace, name and definition. -/
def methods (d : Schema.Document) : List (String × String × Schema.MethodDef) :=
  (generated d.components).flatMap fun ns => ns.2.methods.entries.map fun m => (ns.1, m.1, m.2)

/-- The entities of a document. If `permissive`, every method has a result, else only
one that declares what it returns. -/
def collect (d : Schema.Document) (permissive : Bool) : Model where
  objects := (generated d.objects).map fun entry => Entity.ofObject entry.1 entry.2
  components := (methods d).map fun m => Entity.ofMethod .component m.1 m.2.1 m.2.2 m.2.2.params?
  results := ((methods d).filter fun m => m.2.2.returns?.isSome || permissive).map fun m =>
    Entity.ofMethod .result m.1 m.2.1 m.2.2 m.2.2.returns?

end Model

end Classwright
