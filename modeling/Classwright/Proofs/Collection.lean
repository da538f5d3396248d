import Classwright.Model.Entity

/-!
# What is collected from a document

The objects that a property refers to are those named by the descriptors of its chain
(`Shape.mem_objectNames_classify`), the properties of the collected entities are those
that the document defines (`Model.exists_def_of_mem_collect`), and every declared object
is collected unless it is written by hand (`Model.exists_object_of_mem_keys`).
-/

namespace Classwright

namespace Schema

/-- The object that a descriptor refers to, other than the result of a method. -/
def Descriptor.reference? (d : Descriptor) : Option String :=
  ((d.object?.map Text.trim).filter fun name => !name.isEmpty).filter (· != resultName)

/-- The definitions of all properties of a document: of its objects, and of the
parameters and the results of its methods. -/
def Document.propertyDefs (d : Document) : List PropertyDef :=
  (d.objects.entries.flatMap fun object => object.2.properties.entries.map Prod.snd) ++
  d.components.entries.flatMap fun ns => ns.2.methods.entries.flatMap fun m =>
    (m.2.params?.toList ++ m.2.returns?.toList).flatMap fun defs => defs.entries.map Prod.snd

end Schema

open Schema (Document PropertyDef Descriptor)

/-! ## Shapes

Classifying a chain of descriptors keeps the objects that the descriptors name, level by
level.
-/

/-- The object of a descriptor wins over its type. -/
theorem Atom.object?_ofDescriptor? (d : Descriptor) :
    (Atom.ofDescriptor? d).bind Atom.object? = d.reference? := by
  simp only [Atom.ofDescriptor?, Descriptor.reference?]
  cases (d.object?.map Text.trim).filter fun name => !name.isEmpty with
  | some name =>
    by_cases h : name = resultName
    · simp [h, Atom.object?, Option.filter]
    · simp [h, Atom.object?, Option.filter]
  | none =>
    cases (d.type?.map Text.trim).filter fun name => !name.isEmpty with
    | none => rfl
    | some name => cases h : Primitive.ofName? name <;> simp [h, Atom.object?]

/-- The single form of a polymorphic property refers to the object of its own
descriptor. -/
theorem Shape.object?_besideList (d : Descriptor) :
    (Shape.besideList d).bind Atom.object? = d.reference? := by
  rw [← Atom.object?_ofDescriptor?, Shape.besideList]
  cases Atom.ofDescriptor? d with
  | none => rfl
  | some atom =>
    by_cases h : atom = .primitive .array
    · simp [h, Atom.object?, Option.filter]
    · simp [h, Option.filter]

/-- The objects of a shape are those that the levels of the property refer to. -/
theorem Shape.mem_objectNames_classify {n : String} : ∀ {d : PropertyDef},
    n ∈ (Shape.classify d).objectNames ↔ ∃ level ∈ d.chain, level.reference? = some n
  | .plain own => by
    have h := Atom.object?_ofDescriptor? own
    simp only [Shape.classify, Shape.objectNames, PropertyDef.chain, List.mem_singleton,
      exists_eq_left, ← h, Option.mem_toList]
    cases Atom.ofDescriptor? own <;> simp [Atom.object?]
  | .listed own element => by
    have h := Shape.object?_besideList own
    have ih := Shape.mem_objectNames_classify (n := n) (d := element)
    simp only [Shape.classify, PropertyDef.chain, List.mem_cons, exists_eq_or_imp, ← ih, ← h]
    cases Shape.besideList own <;> simp [Shape.objectNames]

/-! ## Entities

An entity is made of one object or of one method, and its tables list the objects that
its properties refer to.
-/

/-- The object that the elements of a list refer to is among the names of its shape. -/
theorem Property.mem_objectNames_of_elementObject? {p : Property} {n : String}
    (h : p.elementObject? = some n) :
    n ∈ p.shape.objectNames := by
  unfold Property.elementObject? Shape.elementAtom? Shape.element? at h
  cases hs : p.shape with
  | single atom => simp [hs] at h
  | list element =>
    cases element <;> simp_all [Shape.objectNames]
  | either atom element =>
    cases element <;> simp_all [Shape.objectNames]

/-- So is the object that the property refers to itself. -/
theorem Property.mem_objectNames_of_referencedObject? {p : Property} {n : String}
    (h : p.referencedObject? = some n) : n ∈ p.shape.objectNames := by
  rcases Option.or_eq_some_iff.1 h with h | ⟨-, h⟩
  · unfold Shape.single? at h
    cases hs : p.shape <;> simp_all [Shape.objectNames]
  · exact mem_objectNames_of_elementObject? h

/-- The objects that the properties of an entity refer to. -/
def Entity.objectNames (e : Entity) : List String :=
  e.properties.flatMap fun p => p.shape.objectNames

theorem Entity.mem_objectNames_of_mem {e : Entity} {p : Property} (hp : p ∈ e.properties)
    {n : String} (hn : n ∈ p.shape.objectNames) : n ∈ e.objectNames :=
  List.mem_flatMap.2 ⟨p, hp, hn⟩

/-- Whether the tables of an entity list only objects that its properties refer to. -/
def Entity.TablesMatch (e : Entity) : Prop :=
  ∀ row ∈ e.objectMap ++ e.objectLists, row.2 ∈ e.objectNames

/-- The tables of an entity are computed from its properties, so they match them. -/
theorem Entity.tablesMatch_ofProperties (kind : EntityKind) (name : String)
    (description? : Option String) (properties : List Property) :
    (Entity.ofProperties kind name description? properties).TablesMatch := by
  intro row hrow
  simp only [Entity.ofProperties, List.mem_append, List.mem_filterMap,
    Option.map_eq_some_iff] at hrow
  rcases hrow with ⟨p, hp, n, hn, rfl⟩ | ⟨p, hp, n, hn, rfl⟩
  · exact mem_objectNames_of_mem hp (Property.mem_objectNames_of_referencedObject? hn)
  · exact mem_objectNames_of_mem hp (Property.mem_objectNames_of_elementObject? hn)

namespace Model

variable {d : Document} {permissive : Bool} {e : Entity}

/-- The collected objects are the declared ones but for those written by hand. -/
theorem mem_objects_collect : e ∈ (collect d permissive).objects ↔
    ∃ object ∈ d.objects.entries, isSentinel object.1 = false ∧
    e = Entity.ofObject object.1 object.2 := by
  constructor
  · intro h
    obtain ⟨object, ho, rfl⟩ := List.mem_map.1 h
    obtain ⟨hm, hs⟩ := List.mem_filter.1 ho
    exact ⟨object, hm, by simpa using hs, rfl⟩
  · rintro ⟨object, ho, hs, rfl⟩
    exact List.mem_map.2 ⟨object, List.mem_filter.2 ⟨ho, by simp [hs]⟩, rfl⟩

/-- Every collected entity is that of an object, or that of a method with its parameters
or with its result. -/
theorem mem_entities_collect (h : e ∈ (collect d permissive).entities) :
    e ∈ (collect d permissive).objects ∨
    ∃ ns ∈ d.components.entries, ∃ m ∈ ns.2.methods.entries, ∃ kind ≠ EntityKind.object,
      ∃ defs? ∈ [m.2.params?, m.2.returns?], e = Entity.ofMethod kind ns.1 m.1 m.2 defs? := by
  -- Components and results come from the same methods.
  have hmethods : ∀ m ∈ methods d, ∃ ns ∈ d.components.entries, ∃ m' ∈ ns.2.methods.entries,
      m = (ns.1, m'.1, m'.2) := by
    intro m hm
    obtain ⟨ns, hns, hm⟩ := List.mem_flatMap.1 hm
    obtain ⟨m', hm', rfl⟩ := List.mem_map.1 hm
    exact ⟨ns, (List.mem_filter.1 hns).1, m', hm', rfl⟩
  simp only [entities, List.mem_append] at h
  rcases h with (h | h) | h
  · exact Or.inl h
  · obtain ⟨m, hm, rfl⟩ := List.mem_map.1 h
    obtain ⟨ns, hns, m', hm', rfl⟩ := hmethods m hm
    exact Or.inr ⟨ns, hns, m', hm', .component, by decide, m'.2.params?, by simp, rfl⟩
  · obtain ⟨m, hm, rfl⟩ := List.mem_map.1 h
    obtain ⟨ns, hns, m', hm', rfl⟩ := hmethods m (List.mem_filter.1 hm).1
    exact Or.inr ⟨ns, hns, m', hm', .result, by decide, m'.2.returns?, by simp, rfl⟩

/-- The tables of every collected entity match its properties. -/
theorem tablesMatch_of_mem_collect (h : e ∈ (collect d permissive).entities) : e.TablesMatch := by
  rcases mem_entities_collect h with h | ⟨ns, -, m, -, kind, -, defs?, -, rfl⟩
  · obtain ⟨object, -, -, rfl⟩ := mem_objects_collect.1 h
    exact Entity.tablesMatch_ofProperties _ _ _ _
  · exact Entity.tablesMatch_ofProperties kind (ns.1 ++ "." ++ m.1) m.2.description?
      ((defs?.map Entity.propertiesOf).getD [])

/-- Every property of a collected entity has a definition in the document. -/
theorem exists_def_of_mem_collect (h : e ∈ (collect d permissive).entities) {p : Property}
    (hp : p ∈ e.properties) : ∃ q ∈ d.propertyDefs, p.shape = Shape.classify q := by
  rcases mem_entities_collect h with h | ⟨ns, hns, m, hm, kind, -, defs?, hd, rfl⟩
  · obtain ⟨object, ho, -, rfl⟩ := mem_objects_collect.1 h
    obtain ⟨entry, he, rfl⟩ := List.mem_map.1 hp
    refine ⟨entry.2, List.mem_append_left _ (List.mem_flatMap.2 ⟨object, ho, ?_⟩), rfl⟩
    exact List.mem_map.2 ⟨entry, he, rfl⟩
  -- The properties come from the parameters of a component or from what a result
  -- returns.
  · cases defs? with
    | none => cases hp
    | some defs =>
      obtain ⟨entry, he, rfl⟩ := List.mem_map.1 hp
      refine ⟨entry.2,
        List.mem_append_right _ (List.mem_flatMap.2 ⟨ns, hns, List.mem_flatMap.2 ⟨m, hm, ?_⟩⟩), rfl⟩
      refine List.mem_flatMap.2 ⟨defs, ?_, List.mem_map.2 ⟨entry, he, rfl⟩⟩
      rcases List.mem_cons.1 hd with hd | hd
      · simp [← hd]
      · simp [← List.mem_singleton.1 hd]

/-- A declared object is collected unless it is written by hand. -/
theorem exists_object_of_mem_keys (permissive : Bool) {n : String} (hn : n ∈ d.objects.keys)
    (hs : isSentinel n = false) :
    ∃ e ∈ (collect d permissive).objects, e.name = n := by
  obtain ⟨object, ho, rfl⟩ := List.mem_map.1 hn
  exact ⟨Entity.ofObject object.1 object.2, mem_objects_collect.2 ⟨object, ho, hs, rfl⟩, rfl⟩

theorem kind_eq_of_mem_objects (h : e ∈ (collect d permissive).objects) : e.kind = .object := by
  obtain ⟨object, -, -, rfl⟩ := mem_objects_collect.1 h
  rfl

/-- No collected object is one that is written by hand. -/
theorem not_isSentinel_of_mem_objects (h : e ∈ (collect d permissive).objects) :
    isSentinel e.name = false := by
  obtain ⟨object, -, hs, rfl⟩ := mem_objects_collect.1 h
  exact hs

/-- The entities that stand for objects are the collected objects. -/
theorem mem_objects_of_kind_eq (h : e ∈ (collect d permissive).entities) (hk : e.kind = .object) :
    e ∈ (collect d permissive).objects := by
  rcases mem_entities_collect h with h | ⟨ns, -, m, -, kind, hne, defs?, -, rfl⟩
  · exact h
  · exact absurd hk hne

end Model

end Classwright
