import Classwright.Proofs.Collection
import Classwright.Proofs.Mention
import Classwright.Proofs.Outcome

/-!
# Classes in the file of an entity

Every language has a list of the classes and types in the code of an entity's file:
imported, extended, declared, tested for, cast to and made instances of. All of them are
`Usable`: given by the language or the hand-written base, or made of the classes of
objects that the properties of the entity refer to.
-/

namespace Classwright

/-! ## Objects of an entity -/

/-- The three kinds of entities. -/
def EntityKind.all : List EntityKind :=
  [.object, .component, .result]

theorem EntityKind.mem_all (k : EntityKind) : k ∈ EntityKind.all := by
  cases k <;> decide

/-- Adding names only if they are new loses none. -/
theorem mem_foldl_distinct {x : String} : ∀ {xs acc : List String},
    x ∈ xs.foldl (fun names name => if names.contains name then names else names ++ [name]) acc ↔
    x ∈ acc ∨ x ∈ xs
  | [], acc => by simp
  | y :: xs, acc => by
    rw [List.foldl_cons, mem_foldl_distinct]
    split
    · next h =>
      have hy : y ∈ acc := by simpa using h
      grind
    · grind

/-- The objects of an entity are listed without repetition, but all of them. -/
theorem Entity.mem_referencedObjects {e : Entity} {n : String} :
    n ∈ e.referencedObjects ↔ n ∈ e.objectNames := by
  rw [Entity.referencedObjects, mem_foldl_distinct, Entity.objectNames]
  simp

theorem mem_objectNames_of_mem_importedObjects {e : Entity} {n : String}
    (h : n ∈ importedObjects e) :
    n ∈ e.objectNames :=
  Entity.mem_referencedObjects.1 (List.mem_filter.1 h).1

/-- The accessors of an entity, in either dialect, name classes of its objects. -/
theorem Script.usable_of_mem_members {d : Script.Dialect} {c : Script.Caster}
    {docs : Property → Script.MemberDocs} {e : Entity} {given : List String}
    (hr : c.types.resultBase ∈ given) {t : String} (ht : t ∈ Script.classesIn ((e.properties.flatMap
      fun p => Script.membersOf d c (docs p) e.name p).flatMap Script.Member.body)) :
    Usable given c.types e.objectNames t := by
  rw [List.flatMap_assoc, Script.classesIn, List.flatMap_assoc] at ht
  obtain ⟨p, hp, ht⟩ := List.mem_flatMap.1 ht
  exact Usable.of_mem_classesOf hr (fun n => Entity.mem_objectNames_of_mem hp)
    ((Script.mem_classesIn_members c).1 ht)

namespace JavaScript

open Script (usable_of_mem_members)

/-- The names that come from the runtime module and from the index. -/
def given : List String :=
  EntityKind.all.map baseName ++ ["ObjectIndex"]

/-- The classes in the code of an entity's file: imported, extended, tested for and made
instances of. -/
def mentions (l : Layout) (o : Options) (e : Entity) : List String :=
  ((imports l o e).toOption.getD []).flatMap Import.names ++ [baseName e.kind] ++
  Script.classesIn ((e.properties.flatMap (members o e)).flatMap Script.Member.body)

theorem baseName_mem_given (k : EntityKind) : baseName k ∈ given := by
  cases k <;> decide

/-- The names of the hand-written classes and of the index, as far as an entity needs
them. -/
def givenNames (e : Entity) : List String :=
  [baseName e.kind] ++ (if e.usesResultLookup && e.kind != .result then ["BaseResult"] else []) ++
    if e.usesResultLookup then ["ObjectIndex"] else []

theorem givenNames_subset_given (e : Entity) : givenNames e ⊆ given := by
  unfold givenNames
  cases e.kind <;> cases e.usesResultLookup <;> decide

/-- The index is imported by its name, where results are looked up. -/
theorem flatMap_names_indexImport {l : Layout} {o : Options} {e : Entity} {ofIndex : List Import}
    (h : indexImport l o e = .ok ofIndex) :
    ofIndex.flatMap Import.names = if e.usesResultLookup then ["ObjectIndex"] else [] := by
  unfold indexImport at h
  -- The index is imported only if results are looked up in it.
  split at h
  · next hu =>
    split at h
    · cases h
    · cases h
      rw [if_pos hu]
      rfl
  · next hu =>
    cases h
    rw [if_neg hu]
    rfl

/-- A file imports the given names that it needs and the classes of objects. -/
theorem flatMap_names_imports {l : Layout} {o : Options} {e : Entity} {imported : List Import}
    (h : imports l o e = .ok imported) :
    imported.flatMap Import.names = givenNames e ++ (importedObjects e).map (types o).object := by
  obtain ⟨ofIndex, hindex, h⟩ := Outcome.bind_eq_ok.1 h
  cases h
  have hobjects : (objectImports l o e).flatMap Import.names =
      (importedObjects e).map (types o).object := by
    rw [objectImports, List.flatMap_map, List.map_eq_flatMap]
  simp [flatMap_names_indexImport hindex, hobjects, runtimeImport, givenNames]

/-- The names that an entity's file imports. -/
theorem usable_of_mem_imports {l : Layout} {o : Options} {e : Entity} {imported : List Import}
    (h : imports l o e = .ok imported) :
    ∀ t ∈ imported.flatMap Import.names, Usable given (types o) e.objectNames t := by
  intro t ht
  rw [flatMap_names_imports h, List.mem_append] at ht
  rcases ht with ht | ht
  · exact .given (givenNames_subset_given e ht)
  · obtain ⟨n, hn, rfl⟩ := List.mem_map.1 ht
    exact .object (mem_objectNames_of_mem_importedObjects hn)

/-- All classes that a JavaScript class mentions are usable in it. -/
theorem usable_of_mem_mentions {l : Layout} {o : Options} {e : Entity} :
    ∀ t ∈ mentions l o e, Usable given (types o) e.objectNames t := by
  intro t ht
  simp only [mentions, List.mem_append] at ht
  rcases ht with (ht | ht) | ht
  · cases hi : imports l o e with
    | error fault => simp [hi, Except.toOption] at ht
    | ok imported =>
      rw [hi] at ht
      exact usable_of_mem_imports hi t ht
  · rw [List.mem_singleton.1 ht]
    exact .given (baseName_mem_given e.kind)
  · exact usable_of_mem_members (baseName_mem_given .result) ht

end JavaScript

namespace CSharp

open Conversion (Converter)

/-- The types of the language and the classes of the hand-written base. -/
def given (o : Options) : List String :=
  ["int?", "double?", "string", "bool", "bool?", "object", "List<object>",
    Conversion.dictionaryType, Conversion.anyListType, indexClass o] ++
    EntityKind.all.map (baseClass o)

/-- The types of the fields and accessors of a property. -/
def declaredTypes (o : Options) (p : Property) : List String :=
  if p.isPolymorphic then ["object", singleType o p, listType o p, "bool"]
    else [(types o).shape p.shape]

/-- The types in the code of an entity's file: extended, declared, tested for, cast to
and made instances of. -/
def mentions (o : Options) (e : Entity) : List String :=
  [baseClass o e.kind] ++ e.properties.flatMap (declaredTypes o) ++
  Conversion.typesIn (e.properties.flatMap (caseBody o e.name))

variable {o : Options}

theorem given_of_fixed {t : String}
    (h : t ∈ ["int?", "double?", "string", "bool", "bool?", "object", "List<object>",
      Conversion.dictionaryType, Conversion.anyListType, indexClass o]) : t ∈ given o :=
  List.mem_append_left _ h

theorem baseClass_mem_given (k : EntityKind) : baseClass o k ∈ given o :=
  List.mem_append_right _ (List.mem_map.2 ⟨k, k.mem_all, rfl⟩)

theorem resultBase_mem_given : (types o).resultBase ∈ given o := by
  have h : (types o).resultBase = baseClass o .result := by
    simp [types, baseClass, baseName, String.append_assoc]
  rw [h]
  exact baseClass_mem_given .result

theorem unknown_mem_given : (types o).unknown ∈ given o :=
  given_of_fixed (by simp [types])

theorem primitive_mem_given (p : Primitive) : (types o).primitive p ∈ given o := by
  cases p <;> exact given_of_fixed (by simp [types])

/-- The type of a shape is usable, if the names that it refers to are. -/
theorem usable_shape {shape : Shape} {names : List String}
    (hn : ∀ n ∈ shape.objectNames, n ∈ names) :
    Usable (given o) (types o) names ((types o).shape shape) :=
  Usable.of_shape primitive_mem_given resultBase_mem_given unknown_mem_given
    (fun _ _ => given_of_fixed (by simp [types])) shape hn

/-- So are the types that a property declares. -/
theorem usable_of_mem_declaredTypes {p : Property} {names : List String}
    (hn : ∀ n ∈ p.shape.objectNames, n ∈ names) :
    ∀ t ∈ declaredTypes o p, Usable (given o) (types o) names t := by
  intro t ht
  unfold declaredTypes Property.isPolymorphic Property.kind at ht
  -- A polymorphic property is declared with a type for each form, any other with one
  -- type.
  cases hs : p.shape with
  | either atom element =>
    rw [hs] at hn
    have hsingle : singleType o p = (types o).atom atom := by simp [singleType, hs, Shape.single?]
    have hlist : listType o p = (types o).list ((types o).shape element) := by
      simp [listType, hs, Shape.element?]
    simp only [hs, Shape.kind, hsingle, hlist, beq_self_eq_true, if_true, List.mem_cons,
      List.not_mem_nil,
      or_false] at ht
    rcases ht with rfl | rfl | rfl | rfl
    · exact .given (given_of_fixed (by simp))
    · exact Usable.of_atom primitive_mem_given resultBase_mem_given unknown_mem_given
        fun n h => hn n (List.mem_append_left _ h)
    · exact .list (usable_shape fun n h => hn n (List.mem_append_right _ h))
    · exact .given (given_of_fixed (by simp))
  | single atom =>
    have hk : p.shape.kind ≠ .polymorphic := by
      rw [hs]
      cases atom <;> simp [Shape.kind]
    rw [if_neg (by simpa using hk), List.mem_singleton] at ht
    rw [ht]
    exact usable_shape hn
  | list element =>
    have hk : p.shape.kind ≠ .polymorphic := by
      rw [hs]
      unfold Shape.kind
      split <;> simp_all
      split <;> simp
    rw [if_neg (by simpa using hk), List.mem_singleton] at ht
    rw [ht]
    exact usable_shape hn

/-- The types that the conversion of an atom mentions are usable. -/
theorem usable_of_mem_atomTypes {names : List String} {atom : Atom}
    (hn : ∀ n ∈ atom.object?.toList, n ∈ names) :
    ∀ t ∈ (converter o).atomTypes atom, Usable (given o) (types o) names t := by
  intro t ht
  have hdict : Usable (given o) (types o) names Conversion.dictionaryType :=
    .given (given_of_fixed (by simp))
  -- Objects and results are built from dictionaries, and primitives have types of the
  -- language.
  cases atom with
  | primitive p =>
    refine .given (given_of_fixed ?_)
    cases p <;> simp [Converter.atomTypes] at ht <;> simp [ht]
  | unknown => simp [Converter.atomTypes] at ht
  | object name =>
    rcases List.mem_cons.1 ht with rfl | ht
    · exact .object (hn name (by simp [Atom.object?]))
    · rwa [List.mem_singleton.1 ht]
  | result =>
    rcases List.mem_cons.1 ht with rfl | ht
    · exact .given resultBase_mem_given
    · rwa [List.mem_singleton.1 ht]

/-- So are those of the conversion of any shape, by induction on the shape. -/
theorem usable_of_mem_convert {names : List String} : ∀ (shape : Shape)
    {value target label : String} {indent depth : Nat}, (∀ n ∈ shape.objectNames, n ∈ names) →
    ∀ t ∈ Conversion.typesIn ((converter o).convert shape value target label indent depth),
      Usable (given o) (types o) names t
  | .single atom, _, _, _, _, _, hn, t, ht =>
    usable_of_mem_atomTypes hn t ((Conversion.mem_typesIn_convertAtom _).1 ht)
  | .either atom element, _, _, _, _, _, hn, t, ht =>
    usable_of_mem_atomTypes (fun n h => hn n (List.mem_append_left _ h)) t
      ((Conversion.mem_typesIn_convertAtom _).1 ht)
  | .list element, _, _, _, _, _, hn, t, ht => by
    rcases (Conversion.mem_typesIn_convertListWith _).1 ht with rfl | rfl | rfl | ht
    · exact .given (given_of_fixed (by simp))
    · exact .list (usable_shape hn)
    · exact usable_shape hn
    · exact usable_of_mem_convert element hn t ht

@[simp] theorem typesIn_nullCase (statements : List Conversion.Statement) :
    Conversion.typesIn (nullCase statements) = statements.flatMap Conversion.Statement.types := by
  have h : Conversion.typesIn (statements.map (⟨6, ·⟩)) =
      statements.flatMap Conversion.Statement.types := by
    simp only [Conversion.typesIn, List.flatMap_map]
  simp [nullCase, h, Conversion.Statement.types, Conversion.Guard.types]

/-- The types in the code for a property without a choice are usable. -/
theorem usable_of_mem_onlyForm {names : List String} {p : Property}
    (hn : ∀ n ∈ p.shape.objectNames, n ∈ names) (slot label : String) : ∀ t ∈ Conversion.typesIn
    (if p.isChecked then (converter o).convert p.shape "value" slot label 5 0
        else [⟨5, .assign slot (.plain "value")⟩]), Usable (given o) (types o) names t := by
  intro t ht
  split at ht
  · exact usable_of_mem_convert p.shape hn t ht
  · simp [Conversion.Statement.types, Conversion.Expr.types] at ht

/-- So are those in the case of any property. -/
theorem usable_of_mem_caseBody {names : List String} {entity : String} {p : Property}
    (hn : ∀ n ∈ p.shape.objectNames, n ∈ names) :
    ∀ t ∈ Conversion.typesIn (caseBody o entity p), Usable (given o) (types o) names t := by
  intro t ht
  -- A property with one form only is converted by the code for its shape.
  have honly := fun slot label => usable_of_mem_onlyForm (o := o) hn slot label t
  unfold caseBody at ht
  cases hs : p.shape with
  | either atom element =>
    rw [hs] at hn
    simp only [hs, Conversion.typesIn_append, typesIn_nullCase, Conversion.typesIn_cons,
      Conversion.typesIn_nil, Conversion.typesIn_braced, Conversion.Statement.types,
      Conversion.Guard.types, Conversion.Expr.types, List.flatMap_cons, List.flatMap_nil,
      List.mem_append, List.mem_cons, List.not_mem_nil, or_false, false_or] at ht
    rcases ht with (rfl | ht) | ht
    · exact .given (given_of_fixed (by simp))
    · exact usable_of_mem_convert (.list element) (fun n h => hn n (List.mem_append_right _ h)) t ht
    · exact usable_of_mem_convert (.either atom element) hn t ht
  | single atom | list element =>
    simp only [hs, Conversion.typesIn_append, typesIn_nullCase, Conversion.typesIn_cons,
      Conversion.typesIn_nil, Conversion.Statement.types, Conversion.Expr.types, List.flatMap_cons,
      List.flatMap_nil, List.append_nil, List.nil_append] at ht honly
    exact honly _ _ ht

/-- Whatever the file of an entity mentions. -/
theorem usable_of_mem_mentions {e : Entity} :
    ∀ t ∈ mentions o e, Usable (given o) (types o) e.objectNames t := by
  intro t ht
  simp only [mentions, List.mem_append] at ht
  rcases ht with (ht | ht) | ht
  · rw [List.mem_singleton.1 ht]
    exact .given (baseClass_mem_given e.kind)
  · obtain ⟨p, hp, ht⟩ := List.mem_flatMap.1 ht
    exact usable_of_mem_declaredTypes (fun n => Entity.mem_objectNames_of_mem hp) t ht
  · rw [Conversion.typesIn, List.flatMap_assoc] at ht
    obtain ⟨p, hp, ht⟩ := List.mem_flatMap.1 ht
    exact usable_of_mem_caseBody (fun n => Entity.mem_objectNames_of_mem hp) t ht

end CSharp

namespace ActionScript

open Script (usable_of_mem_members)

/-- The types of the language and the classes of the hand-written base. -/
def given (o : Options) : List String :=
  ["Number", "String", "Boolean", "Object", "Array", "", indexClass o] ++
    EntityKind.all.map (baseClass o)

/-- The types of the fields and accessors of a property. -/
def declaredTypes (o : Options) (p : Property) : List String :=
  [(types o).shape p.shape] ++ if p.isPolymorphic then ["Array", "Boolean"] else []

/-- The classes and types in the code of an entity's file: imported, extended, declared,
listed in the tables of the constructor, tested for and made instances of. -/
def mentions (o : Options) (e : Entity) : List String :=
  imports o e ++ [baseClass o e.kind] ++ e.properties.flatMap (declaredTypes o) ++
  (e.objectMap ++ e.objectLists).map (fun row => (types o).object row.2) ++
  Script.classesIn ((e.properties.flatMap (members o e)).flatMap Script.Member.body)

variable {o : Options}

theorem given_of_fixed {t : String}
    (h : t ∈ ["Number", "String", "Boolean", "Object", "Array", "", indexClass o]) : t ∈ given o :=
  List.mem_append_left _ h

theorem baseClass_mem_given (k : EntityKind) : baseClass o k ∈ given o :=
  List.mem_append_right _ (List.mem_map.2 ⟨k, k.mem_all, rfl⟩)

theorem resultBase_mem_given : (types o).resultBase ∈ given o := by
  have h : (types o).resultBase = baseClass o .result := by
    simp [types, baseClass, baseName, String.append_assoc]
  rw [h]
  exact baseClass_mem_given .result

/-- The type of a shape is usable, if the names that it refers to are. -/
theorem usable_shape {shape : Shape} {names : List String}
    (hn : ∀ n ∈ shape.objectNames, n ∈ names) :
    Usable (given o) (types o) names ((types o).shape shape) :=
  Usable.of_shape (fun p => given_of_fixed (by cases p <;> simp [types])) resultBase_mem_given
    (given_of_fixed (by simp [types])) (fun _ _ => given_of_fixed (by simp [types])) shape hn

/-- So are the types that a property declares. -/
theorem usable_of_mem_declaredTypes {p : Property} {names : List String}
    (hn : ∀ n ∈ p.shape.objectNames, n ∈ names) :
    ∀ t ∈ declaredTypes o p, Usable (given o) (types o) names t := by
  intro t ht
  rcases List.mem_append.1 ht with ht | ht
  · rw [List.mem_singleton.1 ht]
    exact usable_shape hn
  · split at ht
    · refine .given (given_of_fixed ?_)
      rcases List.mem_cons.1 ht with rfl | ht
      · simp
      · simp [List.mem_singleton.1 ht]
    · cases ht

/-- Whatever the file of an entity mentions. -/
theorem usable_of_mem_mentions {e : Entity} (he : e.TablesMatch) :
    ∀ t ∈ mentions o e, Usable (given o) (types o) e.objectNames t := by
  intro t ht
  simp only [mentions, imports, List.mem_append] at ht
  -- The parts are taken one by one: the imports, the index, the base class, the
  -- declarations, the registered names and the members.
  rcases ht with ((((ht | ht) | ht) | ht) | ht) | ht
  · obtain ⟨n, hn, rfl⟩ := List.mem_map.1 ht
    exact .object (mem_objectNames_of_mem_importedObjects hn)
  · split at ht
    · rw [List.mem_singleton.1 ht]
      exact .given (given_of_fixed (by simp))
    · cases ht
  · rw [List.mem_singleton.1 ht]
    exact .given (baseClass_mem_given e.kind)
  · obtain ⟨p, hp, ht⟩ := List.mem_flatMap.1 ht
    exact usable_of_mem_declaredTypes (fun n => Entity.mem_objectNames_of_mem hp) t ht
  · obtain ⟨row, hrow, rfl⟩ := List.mem_map.1 ht
    exact .object (he row hrow)
  · exact usable_of_mem_members resultBase_mem_given ht

end ActionScript

end Classwright
