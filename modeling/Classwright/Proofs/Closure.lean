import Classwright.Proofs.Dispatch
import Classwright.Proofs.FileLines
import Classwright.Proofs.Generation
import Classwright.Proofs.References

/-!
# Closed references

In a document whose properties refer to declared objects only, whatever a generated file
mentions is given by the language or by the hand-written base, or is made of classes
that other generated files declare (`ReferencesResolve`). The one exception is the
object `Execute`: a reference to it is a reference to a class like any other, but its
class is written by hand and has no file (`Backend.referencesResolve_iff`).
-/

namespace Classwright

open Schema (Document)

/-! ## Languages

For each language, what its code can name without a file of the model, and what the file
of an entity mentions and declares.
-/

namespace Backend

/-- The types that need no declaration: of the language, and of the hand-written base. -/
def given (b : Backend) (o : Options) : List String :=
  match b with
  | .javaScript => JavaScript.given
  | .cSharp => CSharp.given o
  | .actionScript => ActionScript.given o

/-- The classes and types in the code of an entity's file. -/
def mentions (b : Backend) (l : Layout) (o : Options) (e : Entity) : List String :=
  match b with
  | .javaScript => JavaScript.mentions l o e
  | .cSharp => CSharp.mentions o e
  | .actionScript => ActionScript.mentions o e

/-- The class of an entity, as other files refer to it. -/
def className (b : Backend) (o : Options) (e : Entity) : String :=
  match b with
  | .javaScript => JavaScript.className o e
  | .cSharp => CSharp.qualified o e
  | .actionScript => ActionScript.className o e

/-- The lines that declare the class of an entity. -/
def declaration (b : Backend) (o : Options) (e : Entity) : List String :=
  match b with
  | .javaScript =>
    ["export class " ++ JavaScript.className o e ++ " extends " ++ baseName e.kind ++ " \x7b"]
  | .cSharp => ["namespace " ++ CSharp.namespaceOf o e,
    "\tpublic class " ++ CSharp.className o e ++ " : " ++ CSharp.baseClass o e.kind]
  | .actionScript =>
    ["class " ++ ActionScript.className o e ++ " extends " ++
      ActionScript.baseClass o e.kind ++ " \x7b"]

variable {b : Backend} {l : Layout} {o : Options} {e : Entity}

/-- The file of an entity declares its class. -/
theorem declaration_subset_fields {t : Template} (h : b.template l o e = .ok t) :
    b.declaration o e ⊆ t.fields := by
  cases b with
  | javaScript =>
    obtain ⟨imported, -, h⟩ := Outcome.bind_eq_ok.1 h
    cases h
    simp [declaration, JavaScript.parts]
  | cSharp =>
    obtain ⟨-, -, h⟩ := Outcome.bind_eq_ok.1 h
    cases h
    simp [declaration, CSharp.parts]
  | actionScript =>
    obtain ⟨-, -, h⟩ := Outcome.bind_eq_ok.1 h
    cases h
    simp [declaration, ActionScript.parts]

/-- The code of an entity's file is made of given types and of classes of the objects
that the entity refers to. -/
theorem usable_of_mem_mentions (he : e.TablesMatch) :
    ∀ t ∈ b.mentions l o e, Usable (b.given o) (b.types o) e.objectNames t := by
  cases b with
  | javaScript => exact JavaScript.usable_of_mem_mentions
  | cSharp => exact CSharp.usable_of_mem_mentions
  | actionScript => exact ActionScript.usable_of_mem_mentions he

theorem className_of_kind (h : e.kind = .object) : b.className o e = (b.types o).object e.name := by
  cases b <;> simp [className, types, JavaScript.className, CSharp.qualified, CSharp.namespaceOf,
    CSharp.className, CSharp.types, ActionScript.className, h, String.append_assoc]

end Backend

theorem Layout.fileFor_of_kind {l : Layout} {e : Entity} (h : e.kind = .object)
    (className : String) :
    l.fileFor e className = l.objectFile className := by
  simp [fileFor, h]

/-- Without other names, the classes of different objects are different. -/
theorem JavaScript.object_injective {o : Options} (ho : o.classNames.entries = []) {n n' : String}
    (h : (JavaScript.types o).object n = (JavaScript.types o).object n') : n = n' := by
  simpa [JavaScript.types, Options.className, SortedMap.get?, ho] using h

/-! ## Whole models

A name that is mentioned is one of a declared object. Unless it is written by hand, its
file is among those that are generated.
-/

/-- Whether the objects that properties refer to are declared. -/
def Schema.Document.ReferencesDeclared (d : Document) : Prop :=
  ∀ p ∈ d.propertyDefs, ∀ level ∈ p.chain, ∀ name, level.reference? = some name →
    name ∈ d.objects.keys

/-- Whether the files of a model declare the classes of all objects that they refer to. -/
structure ReferencesResolve (b : Backend) (l : Layout) (o : Options) (m : Model)
    (files : List SourceFile) : Prop where
  /-- The file of an entity mentions what is given, and what is made of the classes of
  the model's objects. -/
  resolved : ∀ e ∈ m.entities, ∀ t ∈ b.mentions l o e,
    Usable (b.given o) (b.types o) (m.objects.map Entity.name) t
  /-- The index lists objects of the model. -/
  indexed : ∀ entry ∈ (Index.ofModel m).objects, entry.entity ∈ m.objects
  /-- The class of an object is declared, by the name that other files use, in the file
  of the object. -/
  declared : ∀ e ∈ m.objects, b.className o e = (b.types o).object e.name ∧
    ∃ file ∈ files, file.path = l.objectFile (o.className e.name) ∧ ∀ line ∈ b.declaration o e,
    file.HasLine line
  /-- An import of an object names its class, and the file that declares it. -/
  imported : b = .javaScript → ∀ e ∈ m.entities, ∀ i ∈ JavaScript.objectImports l o e,
    ∃ target ∈ m.objects,
    ∃ file ∈ files, (∀ line ∈ b.declaration o target, file.HasLine line) ∧
      i.names = [b.className o target] ∧ i.source = (JavaScript.fileOf l o e).specifier file.path

namespace Model

variable {d : Document} {permissive : Bool} {e : Entity}

/-- In a document whose references are declared, an entity refers to collected objects,
and perhaps to `Execute`. -/
theorem mem_names_of_mem_objectNames (hd : d.ReferencesDeclared)
    (he : e ∈ (collect d permissive).entities)
    {n : String} (hn : n ∈ e.objectNames) (hx : n ≠ "Execute") :
    n ∈ (collect d permissive).objects.map Entity.name := by
  obtain ⟨p, hp, hn⟩ := List.mem_flatMap.1 hn
  obtain ⟨q, hq, hs⟩ := exists_def_of_mem_collect he hp
  obtain ⟨level, hl, hr⟩ := Shape.mem_objectNames_classify.1 (hs ▸ hn)
  have hne : n ≠ resultName := by
    simpa using (Option.filter_eq_some_iff.1 hr).2
  obtain ⟨target, ht, rfl⟩ := exists_object_of_mem_keys permissive (hd q hq level hl n hr)
    (by simp [isSentinel, sentinels, hne, hx])
  exact List.mem_map.2 ⟨target, ht, rfl⟩

/-- No object called `Execute` is collected: the name stands for a class that is written
by hand. -/
theorem execute_notMem_names : "Execute" ∉ (collect d permissive).objects.map Entity.name := by
  intro h
  obtain ⟨e, he, hx⟩ := List.mem_map.1 h
  have hs := not_isSentinel_of_mem_objects he
  rw [hx] at hs
  exact absurd hs (by decide)

end Model

namespace Backend

variable {b : Backend} {l : Layout} {o : Options} {f : Fragments} {d : Document} {permissive : Bool}
  {files : List SourceFile}

/-- The class of a collected object is declared in its file. -/
theorem exists_declaring_file (h : b.generate l o f (.collect d permissive) = .ok files)
    {e : Entity} (he : e ∈ (Model.collect d permissive).objects) :
    ∃ file ∈ files, file.path = l.objectFile (o.className e.name) ∧ ∀ line ∈ b.declaration o e,
    file.HasLine line := by
  have hm : e ∈ (Model.collect d permissive).entities :=
    List.mem_append_left _ (List.mem_append_left _ he)
  obtain ⟨t, ht, hf⟩ := exists_file_of_generate h hm
  refine ⟨_, hf, Layout.fileFor_of_kind (Model.kind_eq_of_mem_objects he) _, fun line hl => ?_⟩
  exact Template.hasLine_of_mem (t.fields_subset_lines (declaration_subset_fields ht hl)) _ _

/-- Where no property refers to `Execute`, the files of a document whose references are
declared have closed references. -/
theorem referencesResolve_of_generate (hd : d.ReferencesDeclared)
    (hx : ∀ e ∈ (Model.collect d permissive).entities, "Execute" ∉ e.objectNames)
    (h : b.generate l o f (.collect d permissive) = .ok files) :
    ReferencesResolve b l o (.collect d permissive) files := by
  -- Every name that a class refers to is that of a generated object.
  have hnames : ∀ e ∈ (Model.collect d permissive).entities, ∀ n ∈ e.objectNames,
      n ∈ (Model.collect d permissive).objects.map Entity.name := by
    intro e he n hn
    refine Model.mem_names_of_mem_objectNames hd he hn ?_
    rintro rfl
    exact hx e he hn
  refine ⟨?_, ?_, ?_, ?_⟩
  · intro e he t ht
    exact (usable_of_mem_mentions (Model.tablesMatch_of_mem_collect he) t ht).mono (hnames e he)
  · exact fun entry => Index.mem_of_mem_table
  · intro e he
    exact ⟨className_of_kind (Model.kind_eq_of_mem_objects he), exists_declaring_file h he⟩
  -- Imports are made of names of objects, whose files are generated with the class.
  · rintro rfl e he i hi
    obtain ⟨n, hn, rfl⟩ := List.mem_map.1 hi
    obtain ⟨target, ht, rfl⟩ :=
      List.mem_map.1 (hnames e he n (mem_objectNames_of_mem_importedObjects hn))
    obtain ⟨file, hf, hp, hl⟩ := exists_declaring_file h ht
    refine ⟨target, ht, file, hf, hl, ?_, by rw [hp]⟩
    rw [className_of_kind (Model.kind_eq_of_mem_objects ht)]
    rfl

/-- The import of `Execute` names a class that no file declares. -/
theorem execute_notMem_of_resolve (ho : o.classNames.entries = [])
    (h : ReferencesResolve .javaScript l o (.collect d permissive) files) {e : Entity}
    (he : e ∈ (Model.collect d permissive).entities) : "Execute" ∉ e.objectNames := by
  intro hn
  have hself : refersToSelf e "Execute" = false := by
    by_contra hs
    simp only [refersToSelf, Bool.not_eq_false, Bool.and_eq_true, beq_iff_eq] at hs
    exact Model.execute_notMem_names (List.mem_map.2 ⟨e,
      Model.mem_objects_of_kind_eq he hs.1, hs.2.symm⟩)
  have hi : "Execute" ∈ importedObjects e :=
    List.mem_filter.2 ⟨Entity.mem_referencedObjects.2 hn, by simp [hself]⟩
  obtain ⟨target, ht, -, -, -, hc, -⟩ := h.imported rfl e he _ (List.mem_map_of_mem hi)
  rw [className_of_kind (Model.kind_eq_of_mem_objects ht)] at hc
  have hname : "Execute" = target.name := JavaScript.object_injective ho (List.singleton_inj.1 hc)
  exact Model.execute_notMem_names (List.mem_map.2 ⟨target, ht, hname.symm⟩)

end Backend

/-- The references of a model that is generated are closed in every language exactly
when no property refers to `Execute`. -/
theorem referencesResolve_iff {l : Layout} {o : Options} {f : Fragments} {d : Document}
    {permissive : Bool} (hd : d.ReferencesDeclared) (ho : o.classNames.entries = []) :
    (∀ b files, Backend.generate b l o f (.collect d permissive) = .ok files →
      ReferencesResolve b l o (.collect d permissive) files) ↔
    (∃ e ∈ (Model.collect d permissive).entities, Refused l e) ∨
      ∀ e ∈ (Model.collect d permissive).entities, "Execute" ∉ e.objectNames := by
  constructor
  · intro h
    rw [or_iff_not_imp_left]
    intro hr e he
    -- Every back-end fails on the same entities, so it is enough to look at one that
    -- resolves.
    cases hg : Backend.javaScript.generate l o f (.collect d permissive) with
    | error failure => exact absurd (Backend.generate_isError_iff.1 ⟨failure, hg⟩) hr
    | ok files => exact Backend.execute_notMem_of_resolve ho (h _ _ hg) he
  · rintro (hr | hx) b files hg
    · obtain ⟨failure, hf⟩ := Backend.generate_isError_iff.2 hr
      rw [hg] at hf
      cases hf
    · exact Backend.referencesResolve_of_generate hd hx hg

/-! ## Two documents

A reference to an object that is declared, and one to the object that is written by
hand.
-/

/-- A document in which users refer to another object. -/
def friendDocument (name : String) : Document where
  objects :=
    ⟨[("User", ⟨none, ⟨[("friend", .plain { object? := some name })]⟩⟩), (name, ⟨none, ⟨[]⟩⟩)]⟩
  components := ⟨[]⟩

/-- A layout with one directory for each kind of entities. -/
def threeDirs : Layout :=
  ⟨⟨"out/objects"⟩, ⟨"out/components"⟩, ⟨"out/results"⟩, none, ".js", none⟩

/-- The document refers to declared objects only if the name survives trimming. -/
theorem referencesDeclared_friendDocument (name : String) (h : Text.trim name = name) :
    (friendDocument name).ReferencesDeclared := by
  intro p hp level hl n hn
  simp only [friendDocument, Document.propertyDefs, List.flatMap_cons, List.flatMap_nil,
    List.map_cons, List.map_nil, List.append_nil, List.mem_singleton] at hp
  subst hp
  obtain rfl := List.mem_singleton.1 hl
  obtain ⟨hn, -⟩ := Option.filter_eq_some_iff.1 hn
  obtain ⟨hn, -⟩ := Option.filter_eq_some_iff.1 hn
  rw [Option.map_some, h, Option.some.injEq] at hn
  simp [friendDocument, OrderedMap.keys, hn]

/-- References to an object with a file are closed. -/
theorem referencesResolve_friendDocument_team : (friendDocument "Team").ReferencesDeclared ∧
    ∀ b files,
      Backend.generate b threeDirs ⟨"App", .empty⟩ {} (.collect (friendDocument "Team") true) =
        .ok files →
      ReferencesResolve b threeDirs ⟨"App", .empty⟩ (.collect (friendDocument "Team") true)
        files := by
  have hd := referencesDeclared_friendDocument "Team" (by decide)
  exact ⟨hd, (referencesResolve_iff hd rfl).2 (Or.inr (by decide))⟩

/-- A declared reference to `Execute` is not closed. -/
theorem not_referencesResolve_friendDocument_execute :
    (friendDocument "Execute").ReferencesDeclared ∧
    ∃ files,
      Backend.javaScript.generate threeDirs ⟨"App", .empty⟩ {}
        (.collect (friendDocument "Execute") true) = .ok files ∧
      ¬ReferencesResolve .javaScript threeDirs ⟨"App", .empty⟩
        (.collect (friendDocument "Execute") true) files := by
  refine ⟨referencesDeclared_friendDocument "Execute" (by decide), _, rfl, fun h => ?_⟩
  have he : ∃ e ∈ (Model.collect (friendDocument "Execute") true).entities,
      "Execute" ∈ e.objectNames := by
    decide
  obtain ⟨e, he, hx⟩ := he
  exact Backend.execute_notMem_of_resolve rfl h he hx

end Classwright
