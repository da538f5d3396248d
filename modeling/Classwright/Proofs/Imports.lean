import Classwright.Proofs.Links
import Classwright.Proofs.Lookups
import Classwright.Proofs.Reports

/-!
# Imports and what uses them

The imports of a file come from one recursion over the shapes of the properties, which
collects names of objects and looks for results, and the code of the setters comes from
another. Both meet in the levels of a shape: setters name the classes of its objects
(`Script.mem_classesIn_setters`), and look a result up if one of its levels is a result
(`Script.exists_looksUp_setters_iff`). So the imports of a file, in JavaScript as well as in
ActionScript, are what its setters use, and nothing else (`importsMatch_of_renderEntity`).
-/

namespace Classwright

/-! ## Objects of an entity

The objects that an entity imports are those that its properties refer to, each once and
without itself.
-/

/-- Adding names only if they are new keeps them distinct. -/
theorem nodup_foldl_distinct : ∀ {xs acc : List String}, acc.Nodup →
    (xs.foldl (fun names name => if names.contains name then names else names ++ [name]) acc).Nodup
  | [], _, h => h
  | x :: xs, acc, h => by
    rw [List.foldl_cons]
    apply nodup_foldl_distinct
    split
    · exact h
    · next hx =>
      have hx : x ∉ acc := by simpa using hx
      exact h.append (List.nodup_singleton x) (List.disjoint_singleton.2 hx)

theorem nodup_importedObjects (e : Entity) : (importedObjects e).Nodup :=
  (nodup_foldl_distinct List.nodup_nil).filter _

/-- Whether an entity is an object that some property of its own refers to. -/
def Entity.RefersToItself (e : Entity) : Prop :=
  e.kind = .object ∧ e.name ∈ e.objectNames

variable {e : Entity}

theorem mem_importedObjects_iff {n : String} :
    n ∈ importedObjects e ↔ n ∈ e.objectNames ∧ ¬(e.kind = .object ∧ n = e.name) := by
  rw [importedObjects, List.mem_filter, Entity.mem_referencedObjects]
  simp [refersToSelf, Decidable.imp_iff_not_or]

/-- An object that an entity refers to is imported or the entity itself. -/
theorem mem_objectNames_iff {n : String} :
    n ∈ e.objectNames ↔ n ∈ importedObjects e ∨ e.RefersToItself ∧ n = e.name := by
  rw [mem_importedObjects_iff, Entity.RefersToItself]
  grind

/-! ## Setters

The classes in the code of the setters come from the same shapes as the imports, so each
is imported and each import is used.
-/

namespace Script

/-- Whether imports match what the setters of an entity use: the imports of the index,
of which there is one at most, and of the classes of objects. -/
structure ImportsMatch (c : Caster) (e : Entity) (own : String) (setters : List Line)
    (ofIndex ofObjects : List String) : Prop where
  /-- The classes of objects that setters test for or make instances of are the imported
  ones, and the entity's own class if it refers to itself. -/
  objects : ∀ k, k ∈ classesIn setters ∧ k ≠ c.types.resultBase ↔ k ∈ ofObjects ∨
    e.RefersToItself ∧ k = own
  /-- An object does not import its own class. -/
  own_notMem : e.kind = .object → own ∉ ofObjects
  /-- The index is imported exactly if some setter looks a result up. -/
  index : ofIndex = if setters.any Line.looksUp then [c.index] else []

variable (c : Caster) (d : Dialect)

theorem setterLines_flatMap {α : Type} (f : α → List Member) (xs : List α) :
    setterLines (xs.flatMap f) = xs.flatMap fun x => setterLines (f x) :=
  List.flatMap_assoc

/-- The setters of a property name the classes of its shape. -/
theorem mem_classesIn_setterLines {docs : MemberDocs} {entity : String} {p : Property}
    {k : String} :
    k ∈ classesIn (setterLines (membersOf d c docs entity p)) ↔ k ∈ c.types.classesOf p.shape := by
  unfold membersOf
  cases hs : p.shape with
  | single atom => simp [setterLines, mem_classesIn_plainSetter, hs]
  | list element => simp [setterLines, mem_classesIn_plainSetter, hs]
  | either atom element =>
    simp [setterLines, mem_classesIn_singleSetter, mem_classesIn_listSetter, TypeSystem.classesOf]

/-- The setters of a property have a look-up for every level that is a result. -/
theorem looksUp_setterLines (docs : MemberDocs) (entity : String) (p : Property) :
    LooksUp (setterLines (membersOf d c docs entity p))
    (List.replicate p.shape.resultCount true) := by
  unfold membersOf
  cases hs : p.shape with
  | single atom | list element =>
    have hsetter := looksUp_plainSetter c (slotsOf d p.name) p (entity ++ "." ++ p.name)
    simpa [setterLines, hs] using hsetter
  | either atom element =>
    have hsingle := looksUp_singleSetter c (slotsOf d p.name) p.name atom (entity ++ "." ++ p.name)
    have hlist := looksUp_listSetter c (slotsOf d p.name) p.name element (entity ++ "." ++ p.name)
    simpa [setterLines, Shape.resultCount] using hsingle.append hlist

variable (docs : Property → MemberDocs)

/-- The setters of an entity name the classes of the objects that it refers to, and the
base of results if it refers to one. -/
theorem mem_classesIn_setters {k : String} :
    k ∈ classesIn (setterLines (e.properties.flatMap fun p => membersOf d c (docs p) e.name p)) ↔
      (∃ n ∈ e.objectNames, k = c.types.object n) ∨ e.usesResultLookup ∧
      k = c.types.resultBase := by
  have hproperties :
      k ∈ classesIn (setterLines (e.properties.flatMap fun p => membersOf d c (docs p) e.name p)) ↔
      ∃ p ∈ e.properties, k ∈ classesIn (setterLines (membersOf d c (docs p) e.name p)) := by
    rw [setterLines_flatMap, classesIn, List.flatMap_assoc, List.mem_flatMap]
    rfl
  simp only [hproperties, mem_classesIn_setterLines, TypeSystem.mem_classesOf, Entity.objectNames,
    Entity.usesResultLookup, List.mem_flatMap, List.any_eq_true]
  grind

/-- Some setter of an entity looks a result up exactly if some property refers to one. -/
theorem exists_looksUp_setters_iff :
    (∃ line ∈ setterLines (e.properties.flatMap fun p => membersOf d c (docs p) e.name p),
      line.looksUp) ↔ e.usesResultLookup := by
  have hproperty : ∀ p, (∃ line ∈ setterLines (membersOf d c (docs p) e.name p), line.looksUp) ↔
      p.shape.mentionsResult := by
    intro p
    rw [(looksUp_setterLines c d (docs p) e.name p).exists_asks_iff, Ne, List.replicate_eq_nil_iff,
      Shape.resultCount_eq_zero_iff, Bool.not_eq_false]
  simp only [setterLines_flatMap, List.mem_flatMap, Entity.usesResultLookup, List.any_eq_true,
    ← hproperty]
  grind

/-- The objects that an entity refers to besides itself, and the index if it refers to a
result, match what the setters use. -/
theorem importsMatch_setters {own : String} (hbase : ∀ n, c.types.object n ≠ c.types.resultBase)
    (hobject : Set.InjOn c.types.object {n | n ∈ e.objectNames ∨ e.kind = .object ∧ n = e.name})
    (hown : e.kind = .object → own = c.types.object e.name) :
    ImportsMatch c e own
      (setterLines (e.properties.flatMap fun p => membersOf d c (docs p) e.name p))
      (if e.usesResultLookup then [c.index] else []) ((importedObjects e).map c.types.object) where
  objects k := by
    -- The class itself needs no import; every other object it refers to has one.
    have hobjects : k ∈ (importedObjects e).map c.types.object ∨ e.RefersToItself ∧ k = own ↔
        ∃ n ∈ e.objectNames, k = c.types.object n := by
      simp only [mem_objectNames_iff, List.mem_map]
      constructor
      · rintro (⟨n, hn, rfl⟩ | ⟨hself, rfl⟩)
        · exact ⟨n, Or.inl hn, rfl⟩
        · exact ⟨e.name, Or.inr ⟨hself, rfl⟩, hown hself.1⟩
      · rintro ⟨n, hn | ⟨hself, rfl⟩, rfl⟩
        · exact Or.inl ⟨n, hn, rfl⟩
        · exact Or.inr ⟨hself, (hown hself.1).symm⟩
    rw [hobjects, mem_classesIn_setters]
    constructor
    · rintro ⟨h | ⟨-, rfl⟩, hne⟩
      · exact h
      · exact absurd rfl hne
    · rintro ⟨n, hn, rfl⟩
      exact ⟨Or.inl ⟨n, hn, rfl⟩, hbase n⟩
  -- The class is not imported into itself, as different objects have different classes.
  own_notMem hk hmem := by
    obtain ⟨n, hn, hclass⟩ := List.mem_map.1 hmem
    obtain ⟨hn, hother⟩ := mem_importedObjects_iff.1 hn
    rw [hown hk] at hclass
    exact hother ⟨hk, hobject (Or.inl hn) (Or.inr ⟨hk, rfl⟩) hclass⟩
  index := by
    simp only [List.any_eq_true, exists_looksUp_setters_iff]

end Script

/-! ## Classes of objects

Objects with different names in code have different classes, as a language puts a fixed
text in front of the name.
-/

namespace Backend

/-- The class of an object is the name that the target has for it, behind a text that is
the same for all objects. -/
theorem exists_object_eq_append (b : Backend) (o : Options) :
    ∃ front, ∀ n, (b.types o).object n = front ++ o.className n := by
  cases b <;> exact ⟨_, fun _ => rfl⟩

/-- Where the target has different names for objects, their classes are different. -/
theorem injOn_object (b : Backend) {o : Options} {s : Set String} (ho : Set.InjOn o.className s) :
    Set.InjOn (b.types o).object s := by
  obtain ⟨front, hfront⟩ := b.exists_object_eq_append o
  intro n hn n' hn' h
  rw [hfront, hfront, String.append_right_inj] at h
  exact ho hn hn' h

end Backend

/-! ## JavaScript

An import of an object has an underscore in its name, and what else is imported has
none.
-/

namespace JavaScript

variable {l : Layout} {o : Options}

/-- Whether the imports of a module match what its setters use: a base class or two,
then the index and the classes of objects. -/
structure ImportsMatch (l : Layout) (o : Options) (e : Entity) (imported : List Import) : Prop where
  /-- Imports from the index and of objects are those that the setters use. -/
  uses : ∃ ofIndex ofObjects,
    imported.flatMap Import.names = (runtimeImport l o e).names ++ ofIndex ++ ofObjects ∧
    Script.ImportsMatch (caster o) e (className o e)
    (Script.setterLines (e.properties.flatMap (members o e)))
      ofIndex ofObjects
  /-- The name of the index is imported exactly if some setter looks a result up. -/
  index_mem_iff : "ObjectIndex" ∈ imported.flatMap Import.names ↔
    ∃ line ∈ Script.setterLines (e.properties.flatMap (members o e)), line.looksUp
  /-- No name is imported twice. -/
  nodup : (imported.flatMap Import.names).Nodup

theorem nodup_givenNames (e : Entity) : (givenNames e).Nodup := by
  unfold givenNames
  cases e.kind <;> cases e.usesResultLookup <;> decide

theorem mem_givenNames_index : "ObjectIndex" ∈ givenNames e ↔ e.usesResultLookup := by
  unfold givenNames
  cases e.kind <;> cases e.usesResultLookup <;> decide

theorem underscore_notMem_givenNames : ∀ n ∈ givenNames e, '_' ∉ n.toList := by
  unfold givenNames
  cases e.kind <;> cases e.usesResultLookup <;> decide

theorem underscore_mem_object (n : String) : '_' ∈ ((types o).object n).toList := by
  simp [types]

theorem object_ne_resultBase (n : String) : (types o).object n ≠ (types o).resultBase := by
  intro h
  have hmem : '_' ∈ (types o).resultBase.toList := h ▸ underscore_mem_object n
  simp [types] at hmem

/-- The imports of a class are the classes that it mentions, if objects have different
classes. -/
theorem importsMatch_of_imports {imported : List Import} (h : imports l o e = .ok imported)
    (ho : Set.InjOn o.className {n | n ∈ e.objectNames ∨ e.kind = .object ∧ n = e.name}) :
    ImportsMatch l o e imported := by
  have hnames := flatMap_names_imports h
  -- Only classes of objects have underscores, so the other imports are none of them.
  have hobjects : ∀ n ∈ (importedObjects e).map (types o).object, '_' ∈ n.toList := by
    rw [List.forall_mem_map]
    exact fun n _ => underscore_mem_object n
  refine ⟨⟨_, _, ?_,
    Script.importsMatch_setters (caster o) .javaScript (memberDocs o e) object_ne_resultBase
    (Backend.javaScript.injOn_object ho) (Backend.className_of_kind (b := .javaScript))⟩, ?_, ?_⟩
  · rw [hnames]
    rfl
  · have hindex : "ObjectIndex" ∉ (importedObjects e).map (types o).object :=
      fun hmem => absurd (hobjects _ hmem) (by decide)
    rw [hnames, List.mem_append, or_iff_left hindex, mem_givenNames_index]
    exact (Script.exists_looksUp_setters_iff ..).symm
  · rw [hnames]
    refine (nodup_givenNames e).append ((nodup_importedObjects e).map_on ?_) ?_
    · intro n hn n' hn' hclass
      exact Backend.javaScript.injOn_object ho (Or.inl (mem_objectNames_of_mem_importedObjects hn))
        (Or.inl (mem_objectNames_of_mem_importedObjects hn')) hclass
    · exact fun n hgiven hobject => underscore_notMem_givenNames n hgiven (hobjects n hobject)

end JavaScript

/-! ## ActionScript

An import names a class in full. An object may have been renamed to the class of the
index, so only where none is, the import of the index tells that results are looked up.
-/

namespace ActionScript

variable {o : Options}

/-- Whether the imports of a file match what its setters and its tables use. The imports
of objects stand before that of the index. -/
structure ImportsMatch (o : Options) (e : Entity) : Prop where
  /-- The imports are those that the setters use, and the tables name no class but
  imported ones and the own. -/
  uses : ∃ ofIndex ofObjects, imports o e = ofObjects ++ ofIndex ∧
    Script.ImportsMatch (caster o) e (className o e)
    (Script.setterLines (e.properties.flatMap (members o e)))
      ofIndex ofObjects ∧
    ∀ row ∈ e.objectMap ++ e.objectLists,
      (types o).object row.2 ∈ ofObjects ∨ (types o).object row.2 = className o e
  /-- Where no imported object has the name of the index, that name is imported exactly
  if some setter looks a result up. -/
  index_mem_iff : (∀ n ∈ importedObjects e, o.className n ≠ "ObjectIndex") →
    (indexClass o ∈ imports o e ↔
    ∃ line ∈ Script.setterLines (e.properties.flatMap (members o e)), line.looksUp)

/-- In ActionScript too, the class of an object is not the base class of results. -/
theorem object_ne_resultBase (n : String) : (types o).object n ≠ (types o).resultBase := by
  intro h
  simp only [types, String.append_assoc, String.append_right_inj] at h
  have hchars := congrArg String.toList h
  simp at hchars

theorem indexClass_eq (o : Options) :
    indexClass o = o.rootNamespace ++ ".objects." ++ "ObjectIndex" := by
  simp [indexClass, String.append_assoc]

/-- The imports of an ActionScript class are the classes that it mentions, if objects
have different classes. -/
theorem importsMatch
    (ho : Set.InjOn o.className {n | n ∈ e.objectNames ∨ e.kind = .object ∧ n = e.name})
    (ht : e.TablesMatch) : ImportsMatch o e := by
  refine ⟨⟨_, _, rfl,
    Script.importsMatch_setters (caster o) .actionScript (memberDocs o e) object_ne_resultBase
    (Backend.actionScript.injOn_object ho) (Backend.className_of_kind (b := .actionScript)),
    fun row hrow => ?_⟩, fun hindex => ?_⟩
  · rcases mem_objectNames_iff.1 (ht row hrow) with hn | ⟨hself, hn⟩
    · exact Or.inl (List.mem_map_of_mem hn)
    · exact Or.inr (hn ▸ (Backend.className_of_kind (b := .actionScript) hself.1).symm)
  -- The class of the index is no class of an object here, by hypothesis.
  · have hobjects : indexClass o ∉ (importedObjects e).map (types o).object := by
      intro hmem
      obtain ⟨n, hn, hclass⟩ := List.mem_map.1 hmem
      rw [indexClass_eq] at hclass
      exact hindex n hn ((String.append_right_inj _).1 hclass)
    rw [imports, List.mem_append, or_iff_right hobjects]
    refine Iff.trans ?_
      (Script.exists_looksUp_setters_iff (caster o) .actionScript (memberDocs o e)).symm
    simp

end ActionScript

/-! ## Rendered files

The imports are those at the top of the file that is rendered.
-/

/-- Where the objects that an entity has to do with have classes of different names,
what its files import is what their setters use, and the tables of ActionScript besides.
These have to list objects of the entity only, as those of every entity of a document do
(`Model.tablesMatch_of_mem_collect`). -/
theorem importsMatch_of_renderEntity {l : Layout} {o : Options} {h : Hooks}
    (ho : Set.InjOn o.className {n | n ∈ e.objectNames ∨ e.kind = .object ∧ n = e.name})
    (ht : e.TablesMatch) :
    (∀ file, Backend.javaScript.renderEntity l o e h = .ok file →
      ∃ imported, file.contents = (JavaScript.parts imported o e).fill h ∧
        JavaScript.ImportsMatch l o e imported) ∧
    ∀ file, Backend.actionScript.renderEntity l o e h = .ok file →
      file.contents = (ActionScript.parts o e).fill h ∧ ActionScript.ImportsMatch o e := by
  constructor
  · intro file hfile
    obtain ⟨t, htemplate, rfl⟩ := Backend.exists_template_of_renderEntity hfile
    obtain ⟨imported, himports, htemplate⟩ := Outcome.bind_eq_ok.1 htemplate
    cases htemplate
    exact ⟨imported, rfl, JavaScript.importsMatch_of_imports himports ho⟩
  · intro file hfile
    obtain ⟨t, htemplate, rfl⟩ := Backend.exists_template_of_renderEntity hfile
    obtain ⟨-, -, htemplate⟩ := Outcome.bind_eq_ok.1 htemplate
    cases htemplate
    exact ⟨rfl, ActionScript.importsMatch ho ht⟩

/-- An object that refers to itself, in a list of lists as well, and to a result and
another object. -/
def branch : Entity :=
  .ofObject "Branch" ⟨none, ⟨[
    ("parent", .plain { object? := some "Branch" }),
    ("leaves",
      .listed { object? := some "Leaf" } (.listed {} (.plain { object? := some "Branch" }))),
    ("answers", .listed {} (.plain { object? := some "Result" })),
    ("fallen", .listed {} (.plain { object? := some "Leaf" }))]⟩⟩

/-- The files of the object import the index and the class of the other object, on lines
of their own. -/
theorem importsMatch_of_renderEntity_branch : branch.RefersToItself ∧
    (∃ file,
      Backend.javaScript.renderEntity Backend.indexed (appNaming "Leaf" "Sheet") branch {} =
        .ok file ∧
      file.HasLine "import \x7b App_objects_Sheet \x7d from './Sheet.cs';" ∧
      file.HasLine "import \x7b ObjectIndex \x7d from '../ObjectIndex.cs';" ∧
      ∃ imported,
        file.contents = (JavaScript.parts imported (appNaming "Leaf" "Sheet") branch).fill {} ∧
        JavaScript.ImportsMatch Backend.indexed (appNaming "Leaf" "Sheet") branch imported) ∧
    (∃ file,
      Backend.actionScript.renderEntity Backend.indexed (appNaming "Leaf" "Sheet") branch {} =
        .ok file ∧
      file.HasLine "import App.objects.Sheet;" ∧
      file.HasLine "import App.objects.ObjectIndex;" ∧
      file.contents = (ActionScript.parts (appNaming "Leaf" "Sheet") branch).fill {} ∧
      ActionScript.ImportsMatch (appNaming "Leaf" "Sheet") branch) ∧
    ActionScript.imports (appNaming "Leaf" "Sheet") branch =
      ["App.objects.Sheet", "App.objects.ObjectIndex"] := by
  -- The class refers to itself and to one other object, by their names.
  have hnames : ∀ n, (n ∈ branch.objectNames ∨ branch.kind = .object ∧ n = branch.name) →
      n ∈ ["Branch", "Leaf"] := by
    have hmentioned : branch.objectNames = ["Branch", "Leaf", "Branch", "Leaf"] := by decide
    have hname : branch.name = "Branch" := rfl
    rw [hmentioned, hname]
    grind
  -- The two have different classes although one is renamed.
  have ho : Set.InjOn (appNaming "Leaf" "Sheet").className
      {n | n ∈ branch.objectNames ∨ branch.kind = .object ∧ n = branch.name} := by
    have hdistinct : ∀ n ∈ ["Branch", "Leaf"], ∀ n' ∈ ["Branch", "Leaf"],
        (appNaming "Leaf" "Sheet").className n = (appNaming "Leaf" "Sheet").className n' →
        n = n' := by
      decide
    exact fun n hn n' hn' => hdistinct n (hnames n hn) n' (hnames n' hn')
  obtain ⟨hjs, has⟩ := importsMatch_of_renderEntity (l := Backend.indexed) (h := {}) ho
    (Entity.tablesMatch_ofProperties _ _ _ _)
  refine ⟨⟨rfl, by decide⟩, ⟨_, rfl, ?_, ?_, hjs _ rfl⟩, ⟨_, rfl, ?_, ?_, has _ rfl⟩, by decide⟩
  · exact Template.hasLine_of_mem (Template.opening_subset_lines _ (by decide)) _ _
  · exact Template.hasLine_of_mem (Template.opening_subset_lines _ (by decide)) _ _
  · exact Template.hasLine_of_mem (Template.opening_subset_lines _ (by decide)) _ _
  · exact Template.hasLine_of_mem (Template.opening_subset_lines _ (by decide)) _ _

end Classwright
