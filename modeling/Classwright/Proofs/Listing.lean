import Classwright.Proofs.Collection
import Mathlib.Data.List.Forall2

/-!
# A collected model lists what its document declares

A model collects a document (`Model.Collects`) if its objects stand for the objects of
the document, its components and results for the methods, one for one and in order,
without those that are written by hand. The tables of every entity are then read off the
descriptors of its properties (`Entity.Declares`), and not off their shapes. These
conditions determine the model: it is the one that `Model.collect` gives
(`Model.eq_collect_iff_collects`).
-/

namespace Classwright

namespace Schema

/-- The object that the elements of a property refer to, if they are not lists
themselves. -/
def PropertyDef.elementReference? : PropertyDef → Option String
  | .listed _ (.plain element) => element.reference?
  | _ => none

/-- The object that a property refers to by itself, or by its elements. -/
def PropertyDef.reference? (d : PropertyDef) : Option String :=
  d.own.reference?.or d.elementReference?

/-- A method and the namespace in which it is declared. -/
structure Call where
  /-- The name of the namespace. -/
  inNamespace : String
  /-- The name of the method. -/
  method : String
  /-- What the method takes and returns. -/
  definition : MethodDef

/-- The methods of namespaces, one namespace after the other. Those of `Result` and
`Execute` do not count. -/
def callsOf : List (String × Namespace) → List Call
  | [] => []
  | (name, ns) :: rest =>
    if name = "Result" ∨ name = "Execute" then callsOf rest
    else (ns.methods.entries.map fun m => ⟨name, m.1, m.2⟩) ++ callsOf rest

/-- The methods of a document. -/
def Document.calls (d : Document) : List Call :=
  callsOf d.components.entries

end Schema

open Schema (Document Descriptor PropertyDef ObjectDef MethodDef Call)

/-! ## References

What a chain of descriptors refers to can be said of its first two descriptors.
-/

/-- The shape of a property without a list refers to the object of its descriptor. -/
theorem Shape.bareObject?_classify (d : PropertyDef) :
    (Shape.classify d).single?.bind Atom.object? = d.own.reference? := by
  cases d with
  | plain own =>
    rw [PropertyDef.own, ← Atom.object?_ofDescriptor?]
    cases h : Atom.ofDescriptor? own <;> simp [Shape.classify, Shape.single?, h, Atom.object?]
  | listed own element =>
    rw [PropertyDef.own, ← Shape.object?_besideList]
    cases h : Shape.besideList own <;> simp [Shape.classify, Shape.single?, h]

/-- The elements of a shape are those of the description. -/
theorem Shape.element?_classify (d : PropertyDef) :
    (Shape.classify d).element? = d.element?.map Shape.classify := by
  cases d with
  | plain own => rfl
  | listed own element =>
    cases h : Shape.besideList own <;>
      simp [Shape.classify, Shape.element?, h, PropertyDef.element?]

/-- The table of lists records what the elements refer to. -/
theorem Property.elementObject?_ofDef (name : String) (d : PropertyDef) :
    (Property.ofDef name d).elementObject? = d.elementReference? := by
  rw [Property.elementObject?, Property.ofDef, Shape.elementAtom?, Shape.element?_classify]
  cases d with
  | plain own => rfl
  | listed own element =>
    cases element with
    | plain own => exact Shape.bareObject?_classify (.plain own)
    | listed own element =>
      cases h : Shape.besideList own <;>
        simp [PropertyDef.element?, Shape.classify, h, PropertyDef.elementReference?]

/-- The table of objects records what the property refers to. -/
theorem Property.referencedObject?_ofDef (name : String) (d : PropertyDef) :
    (Property.ofDef name d).referencedObject? = d.reference? := by
  rw [Property.referencedObject?, elementObject?_ofDef, PropertyDef.reference?,
    ← Shape.bareObject?_classify d]
  rfl

/-! ## Entities

An entity is determined by what it declares: two entities with the same declarations are
equal.
-/

/-- A relation that is the graph of a function relates a list to the list of the
function's values, and to no other. -/
theorem forall₂_iff_eq_map {α β : Type} {R : α → β → Prop} {f : α → β} (h : ∀ a b, R a b ↔ b = f a)
    {as : List α} {bs : List β} : List.Forall₂ R as bs ↔ bs = as.map f := by
  have hR : R = fun a b => f a = b := by
    funext a b
    exact propext ((h a b).trans eq_comm)
  rw [hR, ← List.forall₂_map_left_iff (R := Eq), List.forall₂_eq_eq_eq, eq_comm]

namespace Entity

/-- Whether an entity has the properties that definitions declare, one for one and in
order, and tables that list those that are required and those that refer to an object. -/
structure Declares (e : Entity) (defs : List (String × PropertyDef)) : Prop where
  /-- The properties match the definitions. -/
  properties : List.Forall₂ (fun entry p => p = Property.ofDef entry.1 entry.2) defs e.properties
  /-- The required properties are those that are declared to be. -/
  required : e.required = (defs.filter fun entry => entry.2.own.required).map Prod.fst
  /-- The objects are those that the properties refer to by themselves or by their
  elements. -/
  objectMap : e.objectMap = defs.filterMap fun entry => entry.2.reference?.map fun object =>
    (entry.1, object)
  /-- The objects of lists are those that the elements refer to. -/
  objectLists : e.objectLists =
    defs.filterMap fun entry => entry.2.elementReference?.map fun object => (entry.1, object)

/-- Whether an entity stands for an object of a document. -/
structure StandsForObject (object : String × ObjectDef) (e : Entity) : Prop where
  kind : e.kind = .object
  name : e.name = object.1
  inNamespace? : e.inNamespace? = none
  method? : e.method? = none
  description? : e.description? = nonBlank object.2.description?
  flags : e.flags = {}
  /-- The properties are those of the object. -/
  declares : e.Declares object.2.properties.entries

/-- Whether an entity stands for a method of a document, with the properties of one of
its maps. -/
structure StandsForCall (kind : EntityKind) (defs? : MethodDef → Option (OrderedMap PropertyDef))
    (c : Call) (e : Entity) : Prop where
  kind : e.kind = kind
  name : e.name = c.inNamespace ++ "." ++ c.method
  inNamespace? : e.inNamespace? = some c.inNamespace
  method? : e.method? = some c.method
  description? : e.description? = nonBlank c.definition.description?
  flags : e.flags = ⟨c.definition.secure, c.definition.requireSession, c.definition.redirect⟩
  /-- The properties are those of the map, and there are none where it is absent. -/
  declares : e.Declares ((defs? c.definition).elim [] OrderedMap.entries)

/-- Whether two entities stand for the same method. -/
structure SameCall (e f : Entity) : Prop where
  name : f.name = e.name
  inNamespace? : f.inNamespace? = e.inNamespace?
  method? : f.method? = e.method?
  flags : f.flags = e.flags

/-- The tables made from the properties of definitions are those that the definitions
declare. -/
theorem declares_ofProperties (kind : EntityKind) (name : String) (description? : Option String)
    (defs : OrderedMap PropertyDef) :
    (ofProperties kind name description? (propertiesOf defs)).Declares defs.entries where
  properties := (forall₂_iff_eq_map fun _ _ => Iff.rfl).2 rfl
  required := by
    change
      ((defs.entries.map fun entry => Property.ofDef entry.1 entry.2).filter Property.required).map
      Property.name = _
    rw [List.filter_map, List.map_map]
    rfl
  objectMap := by
    change (defs.entries.map fun entry => Property.ofDef entry.1 entry.2).filterMap _ = _
    rw [List.filterMap_map]
    refine List.filterMap_congr fun entry _ => ?_
    rw [Function.comp_apply, Property.referencedObject?_ofDef]
    rfl
  objectLists := by
    change (defs.entries.map fun entry => Property.ofDef entry.1 entry.2).filterMap _ = _
    rw [List.filterMap_map]
    refine List.filterMap_congr fun entry _ => ?_
    rw [Function.comp_apply, Property.elementObject?_ofDef]
    rfl

variable {e f : Entity}

/-- Definitions declare one list of properties, and one table of each kind. -/
theorem Declares.unique {defs : List (String × PropertyDef)} (he : e.Declares defs)
    (hf : f.Declares defs) :
    e.properties = f.properties ∧ e.required = f.required ∧ e.objectMap = f.objectMap ∧
      e.objectLists = f.objectLists := by
  have hproperties {e : Entity} (h : e.Declares defs) :=
    (forall₂_iff_eq_map fun _ _ => Iff.rfl).1 h.properties
  exact ⟨(hproperties he).trans (hproperties hf).symm, he.required.trans hf.required.symm,
    he.objectMap.trans hf.objectMap.symm, he.objectLists.trans hf.objectLists.symm⟩

/-- One entity stands for an object. -/
theorem standsForObject_iff (object : String × ObjectDef) :
    e.StandsForObject object ↔ e = ofObject object.1 object.2 := by
  have hmade : (ofObject object.1 object.2).StandsForObject object :=
    ⟨rfl, rfl, rfl, rfl, rfl, rfl, declares_ofProperties ..⟩
  refine ⟨fun h => ?_, fun h => h ▸ hmade⟩
  obtain ⟨hproperties, hrequired, hmap, hlists⟩ := h.declares.unique hmade.declares
  cases e
  exact Entity.mk.injEq .. ▸ ⟨h.kind, h.name, h.inNamespace?, h.method?, h.description?,
    hproperties, hrequired, hmap, hlists, h.flags⟩

/-- One entity of a kind stands for a method. -/
theorem standsForCall_iff {kind : EntityKind} {defs? : MethodDef → Option (OrderedMap PropertyDef)}
    {c : Call} : e.StandsForCall kind defs? c ↔
    e = ofMethod kind c.inNamespace c.method c.definition (defs? c.definition) := by
  have hmade : (ofMethod kind c.inNamespace c.method c.definition
      (defs? c.definition)).StandsForCall kind defs? c := by
    refine ⟨rfl, rfl, rfl, rfl, rfl, rfl, ?_⟩
    cases defs? c.definition with
    | none => exact ⟨.nil, rfl, rfl, rfl⟩
    | some defs =>
      have h :=
        declares_ofProperties kind (c.inNamespace ++ "." ++ c.method) c.definition.description? defs
      exact ⟨h.properties, h.required, h.objectMap, h.objectLists⟩
  refine ⟨fun h => ?_, fun h => h ▸ hmade⟩
  obtain ⟨hproperties, hrequired, hmap, hlists⟩ := h.declares.unique hmade.declares
  cases e
  exact Entity.mk.injEq .. ▸ ⟨h.kind, h.name, h.inNamespace?, h.method?, h.description?,
    hproperties, hrequired, hmap, hlists, h.flags⟩

end Entity

/-! ## Models

The three lists of a model are the objects, the components and the results of the
document, each in order.
-/

namespace Model

/-- Whether a model has an entity for everything that a document declares, and no other. -/
structure Collects (m : Model) (d : Document) (permissive : Bool) : Prop where
  /-- The objects stand for those of the document. -/
  objects : List.Forall₂ (fun object e => e.StandsForObject object)
    (d.objects.entries.filter fun object => object.1 ≠ "Result" ∧ object.1 ≠ "Execute") m.objects
  /-- The components stand for the methods, with what they take. -/
  components : List.Forall₂ (fun c e => e.StandsForCall .component MethodDef.params? c) d.calls
    m.components
  /-- The results stand for the methods, with what they return. Only a permissive model
  has results of methods that do not declare what they return. -/
  results : List.Forall₂ (fun c e => e.StandsForCall .result MethodDef.returns? c)
    (d.calls.filter fun c => c.definition.returns?.isSome ∨ permissive) m.results
  /-- In a permissive model every component has its result. -/
  paired : permissive = true → List.Forall₂ Entity.SameCall m.components m.results
  /-- In any other, those have one that are called by a method that declares what it
  returns. -/
  answered : permissive = false → List.Forall₂ Entity.SameCall
    (((d.calls.zip m.components).filter fun c => c.1.definition.returns?.isSome).map Prod.snd)
    m.results

theorem generated_eq {α : Type} (m : OrderedMap α) :
    generated m = m.entries.filter fun entry => entry.1 ≠ "Result" ∧ entry.1 ≠ "Execute" := by
  refine List.filter_congr fun entry _ => ?_
  rw [Bool.eq_iff_iff, Bool.not_eq_true', isSentinel_eq_false_iff, decide_eq_true_iff]

/-- The methods of all namespaces but the reserved ones, in their order. -/
theorem flatMap_callsOf : ∀ entries : List (String × Schema.Namespace),
    ((entries.filter fun entry => !isSentinel entry.1).flatMap fun ns =>
      ns.2.methods.entries.map fun m => (ns.1, m.1, m.2)) =
    (Schema.callsOf entries).map fun c => (c.inNamespace, c.method, c.definition)
  | [] => rfl
  | (name, ns) :: rest => by
    have ih := flatMap_callsOf rest
    have hname : isSentinel name = false ↔ ¬(name = "Result" ∨ name = "Execute") :=
      isSentinel_eq_false_iff.trans not_or.symm
    by_cases h : name = "Result" ∨ name = "Execute"
    · have hs : isSentinel name := by simpa using hname.not_left.2 h
      rw [List.filter_cons_of_neg (by simp [hs]), ih, Schema.callsOf, if_pos h]
    · rw [List.filter_cons_of_pos (by simp [hname.2 h]), List.flatMap_cons, ih, Schema.callsOf,
        if_neg h, List.map_append, List.map_map]
      rfl

/-- The methods that are collected are those of the document. -/
theorem methods_eq (d : Document) :
    methods d = d.calls.map fun c => (c.inNamespace, c.method, c.definition) :=
  flatMap_callsOf d.components.entries

/-- The entity of a method. -/
def entityOf (kind : EntityKind) (defs? : MethodDef → Option (OrderedMap PropertyDef)) (c : Call) :
    Entity :=
  Entity.ofMethod kind c.inNamespace c.method c.definition (defs? c.definition)

/-- The objects are the declared ones but for the two that are written by hand. -/
theorem objects_collect (d : Document) (permissive : Bool) : (collect d permissive).objects =
    (d.objects.entries.filter fun object => object.1 ≠ "Result" ∧
      object.1 ≠ "Execute").map fun object =>
      Entity.ofObject object.1 object.2 :=
  congrArg (List.map _) (generated_eq d.objects)

/-- The components are the calls of the document. -/
theorem components_collect (d : Document) (permissive : Bool) :
    (collect d permissive).components = d.calls.map (entityOf .component MethodDef.params?) := by
  change (methods d).map _ = _
  rw [methods_eq, List.map_map]
  rfl

/-- The results are those of the calls that declare one, or of all calls. -/
theorem results_collect (d : Document) (permissive : Bool) : (collect d permissive).results =
    (d.calls.filter fun c => c.definition.returns?.isSome ∨
      permissive).map (entityOf .result MethodDef.returns?) := by
  change ((methods d).filter _).map _ = _
  rw [methods_eq, List.filter_map, List.map_map]
  refine congrArg (List.map _) (List.filter_congr fun c _ => ?_)
  simp

theorem sameCall_entityOf (c : Call) :
    Entity.SameCall (entityOf .component MethodDef.params? c)
    (entityOf .result MethodDef.returns? c) :=
  ⟨rfl, rfl, rfl, rfl⟩

theorem forall₂_standsForObject_iff {objects : List (String × ObjectDef)} {es : List Entity} :
    List.Forall₂ (fun object e => e.StandsForObject object) objects es ↔
      es = objects.map fun object => Entity.ofObject object.1 object.2 :=
  forall₂_iff_eq_map fun object _ => Entity.standsForObject_iff object

/-- To stand for calls is to be made of them, one by one. -/
theorem forall₂_standsForCall_iff {kind : EntityKind}
    {defs? : MethodDef → Option (OrderedMap PropertyDef)} {cs : List Call} {es : List Entity} :
    List.Forall₂ (fun c e => e.StandsForCall kind defs? c) cs es ↔
    es = cs.map (entityOf kind defs?) :=
  forall₂_iff_eq_map fun _ _ => Entity.standsForCall_iff

/-- A model collects a document exactly if it is the model that is collected from it. -/
theorem eq_collect_iff_collects (m : Model) (d : Document) (permissive : Bool) :
    m = collect d permissive ↔ m.Collects d permissive := by
  constructor
  · rintro rfl
    refine ⟨?objects, ?components, ?results, fun hp => ?paired, fun hp => ?answered⟩
    case objects => exact forall₂_standsForObject_iff.2 (objects_collect d permissive)
    case components => exact forall₂_standsForCall_iff.2 (components_collect d permissive)
    case results => exact forall₂_standsForCall_iff.2 (results_collect d permissive)
    case paired =>
      have hall : d.calls.filter (fun c => c.definition.returns?.isSome ∨ permissive) = d.calls :=
        List.filter_eq_self.2 fun c _ => by simp [hp]
      rw [components_collect, results_collect, hall, List.forall₂_map_left_iff,
        List.forall₂_map_right_iff, List.forall₂_same]
      exact fun c _ => sameCall_entityOf c
    case answered =>
      -- next to its method, a component is kept or left out as the method is
      rw [components_collect, results_collect, ← List.map_prod_left_eq_zip, List.filter_map,
        List.map_map]
      simp only [hp, Bool.false_eq_true, or_false, Bool.decide_eq_true, Function.comp_def]
      rw [List.forall₂_map_left_iff, List.forall₂_map_right_iff, List.forall₂_same]
      exact fun c _ => sameCall_entityOf c
  · intro h
    have hobjects := forall₂_standsForObject_iff.1 h.objects
    have hcomponents := forall₂_standsForCall_iff.1 h.components
    have hresults := forall₂_standsForCall_iff.1 h.results
    cases m
    exact Model.mk.injEq .. ▸ ⟨hobjects.trans (objects_collect d permissive).symm,
      hcomponents.trans (components_collect d permissive).symm,
      hresults.trans (results_collect d permissive).symm⟩

end Model

end Classwright
