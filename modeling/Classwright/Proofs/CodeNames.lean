import Classwright.Proofs.Closure

/-!
# Names of classes in code

What is generated is checked first: the parts of an entity's name and the names of its
properties are identifiers (`checkNames_eq_ok_iff`). The names of objects that stand in
code are others (`Model.codeNames`). A target may choose another name for a class, and a
property may refer to an object that is not generated; neither is looked at. All names
of objects in the code of a model are identifiers exactly if these two kinds of them are
(`Backend.isIdentifier_codeNames_iff`).
-/

namespace Classwright

open Schema (Document)
open Text (isIdentifier)

/-! ## Checked names

The check goes through the parts of the name and the properties, and generating a file
starts with it.
-/

/-- An entity passes the check exactly if its own names and those of its properties are
identifiers. -/
theorem checkNames_eq_ok_iff {e : Entity} : checkNames e = .ok () ↔
    (∀ part ∈ e.nameParts, isIdentifier part) ∧ ∀ p ∈ e.properties, isIdentifier p.name := by
  have hfault : nameFault? e = none ↔
      (∀ part ∈ e.nameParts, isIdentifier part) ∧ ∀ p ∈ e.properties, isIdentifier p.name := by
    unfold nameFault?
    cases hp : e.nameParts.find? fun part => !isIdentifier part with
    | some part =>
      have hpart : ¬isIdentifier part := by simpa using List.find?_some hp
      have hmem : part ∈ e.nameParts := List.mem_of_find?_eq_some hp
      simpa using fun hall => absurd (hall part hmem) hpart
    | none =>
      have hparts : ∀ part ∈ e.nameParts, isIdentifier part := by simpa using hp
      simpa using fun _ => hparts
  rw [← hfault, checkNames]
  cases nameFault? e <;> simp

/-- What is generated has been checked. -/
theorem Backend.checkNames_of_generate {b : Backend} {l : Layout} {o : Options} {f : Fragments}
    {m : Model} {files : List SourceFile} (h : b.generate l o f m = .ok files) {e : Entity}
    (he : e ∈ m.entities) :
    (∀ part ∈ e.nameParts, isIdentifier part) ∧ ∀ p ∈ e.properties, isIdentifier p.name := by
  by_contra hnames
  have hr : Refused l e := Or.inl (mt checkNames_eq_ok_iff.1 hnames)
  obtain ⟨failure, hf⟩ := (generate_isError_iff (b := b) (o := o) (f := f)).2 ⟨e, he, hr⟩
  rw [h] at hf
  cases hf

/-! ## Names in code

Of an object that is mentioned, either the other name that the target chose stands in
code or its own.
-/

/-- The objects whose classes stand in the code of a model: those that are generated,
and those that properties refer to at any depth. -/
def Model.objectNames (m : Model) : List String :=
  m.objects.map Entity.name ++ m.entities.flatMap Entity.objectNames

/-- The names by which the code of a model refers to objects. -/
def Model.codeNames (m : Model) (o : Options) : List String :=
  m.objectNames.map o.className

/-- What is generated has been checked except for two kinds of names: the other names
that the target chooses for classes, and those of objects that are referred to but not
generated. The names of objects in the code are identifiers exactly if these are. -/
theorem Backend.isIdentifier_codeNames_iff {b : Backend} {l : Layout} {o : Options} {f : Fragments}
    {d : Document} {permissive : Bool} {files : List SourceFile}
    (h : b.generate l o f (.collect d permissive) = .ok files) :
    (∀ e ∈ (Model.collect d permissive).entities,
      (∀ part ∈ e.nameParts, isIdentifier part) ∧ ∀ p ∈ e.properties, isIdentifier p.name) ∧
    ((∀ name ∈ (Model.collect d permissive).codeNames o, isIdentifier name) ↔
      (∀ n ∈ (Model.collect d permissive).objectNames, ∀ other, o.classNames.get? n = some other →
        isIdentifier other) ∧
      ∀ e ∈ (Model.collect d permissive).entities, ∀ n ∈ e.objectNames, o.classNames.get? n = none →
        n ∉ (Model.collect d permissive).objects.map Entity.name → isIdentifier n) := by
  refine ⟨fun e he => checkNames_of_generate h he, ?_⟩
  rw [Model.codeNames, List.forall_mem_map]
  -- A renamed object has the other name in code, and any other object keeps its own.
  have hrenamed : ∀ {n other}, o.classNames.get? n = some other → o.className n = other := by
    intro n other hn
    rw [Options.className, hn, Option.getD_some]
  have hkept : ∀ {n}, o.classNames.get? n = none → o.className n = n := by
    intro n hn
    rw [Options.className, hn, Option.getD_none]
  constructor
  · intro hall
    refine ⟨fun n hn other ho => hrenamed ho ▸ hall n hn, fun e he n hn ho _ => ?_⟩
    have hmem : n ∈ (Model.collect d permissive).objectNames :=
      List.mem_append_right _ (List.mem_flatMap.2 ⟨e, he, hn⟩)
    exact hkept ho ▸ hall n hmem
  · rintro ⟨hother, hforeign⟩ n hn
    cases ho : o.classNames.get? n with
    | some other =>
      rw [hrenamed ho]
      exact hother n hn other ho
    | none =>
      rw [hkept ho]
      by_cases hobject : n ∈ (Model.collect d permissive).objects.map Entity.name
      · -- The name of an object that is generated is the one part of its entity's name.
        obtain ⟨e, he, rfl⟩ := List.mem_map.1 hobject
        have hm : e ∈ (Model.collect d permissive).entities :=
          List.mem_append_left _ (List.mem_append_left _ he)
        obtain ⟨object, -, -, rfl⟩ := Model.mem_objects_collect.1 he
        exact (checkNames_of_generate h hm).1 _ (List.mem_singleton.2 rfl)
      · obtain ⟨e, he, hn⟩ := List.mem_flatMap.1 ((List.mem_append.1 hn).resolve_left hobject)
        exact hforeign e he n hn ho hobject

/-- The lines of an entity's imports stand in a file, with the names and specifiers as
they are. -/
theorem Backend.exists_import_line {l : Layout} {o : Options} {f : Fragments} {m : Model}
    {files : List SourceFile} (h : javaScript.generate l o f m = .ok files) {e : Entity}
    (he : e ∈ m.entities) {imported : List JavaScript.Import}
    (him : JavaScript.imports l o e = .ok imported) {i : JavaScript.Import} (hi : i ∈ imported) :
    ∃ file ∈ files, file.HasLine i.line := by
  obtain ⟨t, ht, hf⟩ := exists_file_of_generate h he
  have htemplate : t = JavaScript.parts imported o e := by
    simp only [template, JavaScript.template, him] at ht
    exact (Except.ok.inj ht).symm
  subst htemplate
  have hline : i.line ∈ (JavaScript.parts imported o e).opening :=
    List.mem_append_right _ (List.mem_map_of_mem hi)
  exact ⟨_, hf, Template.hasLine_of_mem (Template.opening_subset_lines _ hline) _ _⟩

/-! ## Two documents

A target that renames an object, and one that does so badly beside a reference to an
object that is not declared.
-/

/-- A document in which users refer to an object that is not declared. -/
def strangerDocument (name : String) : Document where
  objects := ⟨[("User", ⟨none, ⟨[("friend", .plain { object? := some name })]⟩⟩)]⟩
  components := ⟨[]⟩

/-- A target that has another name for the objects of a name. -/
def appNaming (name other : String) : Options :=
  ⟨"App", SortedMap.empty.insert name other⟩

/-- A class whose other name is an identifier does no harm. -/
theorem Backend.isIdentifier_codeNames_squad :
    ∃ files,
      javaScript.generate threeDirs (appNaming "Team" "Squad") {}
        (.collect (friendDocument "Team") true) = .ok files ∧
      ∀ name ∈ (Model.collect (friendDocument "Team") true).codeNames (appNaming "Team" "Squad"),
        isIdentifier name := by
  refine ⟨_, rfl,
    (isIdentifier_codeNames_iff (b := .javaScript) (l := threeDirs) (f := {}) rfl).2.2 ⟨?_, ?_⟩⟩
  · decide
  · decide

/-- A reference to an object that is not declared, and another name for a class, stand
in code as they are. -/
theorem Backend.not_isIdentifier_codeNames_stranger :
    (∃ files,
      javaScript.generate threeDirs ⟨"App", .empty⟩ {}
        (.collect (strangerDocument "Best Friend") true) = .ok files ∧
      (∃ file ∈ files,
        file.HasLine "import \x7b App_objects_Best Friend \x7d from './Best Friend.js';") ∧
      ¬∀ name ∈ (Model.collect (strangerDocument "Best Friend") true).codeNames ⟨"App", .empty⟩,
        isIdentifier name) ∧
    ∃ files,
      javaScript.generate threeDirs (appNaming "Team" "my team") {}
        (.collect (friendDocument "Team") true) = .ok files ∧
      (∃ file ∈ files, file.HasLine "export class App_objects_my team extends BaseObject \x7b") ∧
      ¬∀ name ∈ (Model.collect (friendDocument "Team") true).codeNames (appNaming "Team" "my team"),
        isIdentifier name := by
  constructor
  · obtain ⟨files, h⟩ : ∃ files, javaScript.generate threeDirs ⟨"App", .empty⟩ {}
        (.collect (strangerDocument "Best Friend") true) = .ok files := ⟨_, rfl⟩
    obtain ⟨file, hf, hline⟩ := exists_import_line h List.mem_cons_self rfl
      (List.mem_cons_of_mem _ List.mem_cons_self)
    have htext : (⟨["App_objects_Best Friend"], "./Best Friend.js"⟩ : JavaScript.Import).line =
        "import \x7b App_objects_Best Friend \x7d from './Best Friend.js';" := by decide
    exact ⟨files, h, ⟨file, hf, htext ▸ hline⟩, by decide⟩
  · obtain ⟨files, h⟩ : ∃ files, javaScript.generate threeDirs (appNaming "Team" "my team") {}
        (.collect (friendDocument "Team") true) = .ok files := ⟨_, rfl⟩
    have he : Entity.ofObject "Team" ⟨none, ⟨[]⟩⟩ ∈
        (Model.collect (friendDocument "Team") true).objects :=
      List.mem_cons_of_mem _ List.mem_cons_self
    obtain ⟨file, hf, -, hlines⟩ := exists_declaring_file h he
    have htext : "export class App_objects_my team extends BaseObject \x7b" ∈
        javaScript.declaration (appNaming "Team" "my team") (.ofObject "Team" ⟨none, ⟨[]⟩⟩) := by
      decide
    exact ⟨files, h, ⟨file, hf, hlines _ htext⟩, by decide⟩

end Classwright
