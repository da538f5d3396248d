import Classwright.Proofs.CodeNames
import Classwright.Proofs.Dispatch
import Classwright.Proofs.Specifiers

/-!
# Links between modules

The place of a module is worked out twice: where its file is written, and where another
module imports it. In a layout whose directories and files lie below one root
(`Layout.RootedAt`) the two agree. The file of every entity imports its base class from
the runtime module and the index from the index file, and the index imports every class
from the file of its entity (`JavaScript.linked_of_generate`).
-/

namespace Classwright

open Text (isIdentifier)

namespace Path

/-- Whether a path is made of names. -/
def IsOrdinary (p : Path) : Prop :=
  p.components ≠ [] ∧ ∀ c ∈ p.components, c.IsNamed

instance (p : Path) : Decidable p.IsOrdinary :=
  inferInstanceAs (Decidable (_ ∧ _))

/-- Whether a path is an ordinary one joined to a root. -/
def RootedAt (p root : Path) : Prop :=
  ∃ q : Path, q.IsOrdinary ∧ p = root.join q

/-- A path of names behind a root leads below it by names. -/
theorem RootedAt.namedBelow {p root : Path} (h : p.RootedAt root) :
    p.NamedBelow root.components := by
  obtain ⟨q, ⟨hne, hnamed⟩, rfl⟩ := h
  have hjoin : (root.join q).components = root.components ++ q.components :=
    root.components_join (Component.head?_ne_of_isNamed hnamed (by decide))
      (Component.head?_ne_of_isNamed hnamed (by decide))
  obtain ⟨front, c, hq⟩ := (List.eq_nil_or_concat q.components).resolve_left hne
  rw [hq, List.concat_eq_append] at hnamed hjoin
  obtain ⟨hfront, hlast⟩ := List.forall_mem_append.1 hnamed
  obtain ⟨last, rfl⟩ := hlast c List.mem_cons_self
  exact ⟨front, last, hjoin, hfront⟩

end Path

/-- Whether an entity comes of a method, so that its file lies below a namespace. -/
def Entity.IsMethod (e : Entity) : Prop :=
  e.kind ≠ .object ∧ e.inNamespace?.isSome ∧ e.method?.isSome

namespace Layout

open Classwright.Path (IsPart NamedBelow isPart_append)

variable {l : Layout} {root : Path} {e : Entity}

/-- The paths that a layout sets. -/
def settings (l : Layout) : List Path :=
  l.dirs ++ l.indexFile?.toList ++ l.runtimeModule?.toList

/-- Whether all paths that a layout sets are ordinary ones joined to a root. -/
def RootedAt (l : Layout) (root : Path) : Prop :=
  ∀ p ∈ l.settings, p.RootedAt root

/-- The file of a method lies in a directory of the layout, under its namespace and its
name. -/
theorem exists_fileFor_of_isMethod (l : Layout) (h : e.IsMethod) (className : String) :
    ∃ dir ∈ l.dirs, ∃ ns method, e.nameParts = [ns, method] ∧
    l.fileFor e className = l.sourceIn (dir.child ns) method := by
  obtain ⟨hk, hn, hm⟩ := h
  obtain ⟨ns, hn⟩ := Option.isSome_iff_exists.1 hn
  obtain ⟨method, hm⟩ := Option.isSome_iff_exists.1 hm
  cases hkind : e.kind with
  | object => exact absurd hkind hk
  | component =>
    exact ⟨l.componentsDir, by simp [dirs], ns, method, by simp [Entity.nameParts, hn, hm],
      by simp [fileFor, hkind, hn, hm]⟩
  | result => exact ⟨l.resultsDir, by simp [dirs], ns, method, by simp [Entity.nameParts, hn, hm],
      by simp [fileFor, hkind, hn, hm]⟩

/-- Any other file lies in the directory of the objects, under the name of its class. -/
theorem fileFor_of_not_isMethod (l : Layout) (h : ¬e.IsMethod) (className : String) :
    l.fileFor e className = l.objectFile className := by
  unfold fileFor
  split
  · next hk hn hm => exact absurd ⟨by simp [hk], by simp [hn], by simp [hm]⟩ h
  · next hk hn hm => exact absurd ⟨by simp [hk], by simp [hn], by simp [hm]⟩ h
  · rfl

variable (hl : l.RootedAt root) (he : '/' ∉ l.fileExtension.toList)

include hl

theorem namedBelow_of_mem_dirs {dir : Path} (h : dir ∈ l.dirs) : dir.NamedBelow root.components :=
  (hl dir (List.mem_append_left _ (List.mem_append_left _ h))).namedBelow

theorem namedBelow_indexFile {index : Path} (h : l.indexFile? = some index) :
    index.NamedBelow root.components :=
  (hl index (List.mem_append_left _ (List.mem_append_right _ (Option.mem_toList.2 h)))).namedBelow

include he

theorem namedBelow_fileFor {className : String} (hparts : ∀ part ∈ e.nameParts, isIdentifier part)
    (hclass : ¬e.IsMethod → isIdentifier className) :
    (l.fileFor e className).NamedBelow root.components := by
  by_cases h : e.IsMethod
  · obtain ⟨dir, hdir, ns, method, hnames, hfile⟩ := l.exists_fileFor_of_isMethod h className
    rw [hnames, List.forall_mem_cons, List.forall_mem_singleton] at hparts
    have hns : IsPart (ns ++ "") := isPart_append hparts.1 (by simp)
    rw [String.append_empty] at hns
    rw [hfile]
    exact ((namedBelow_of_mem_dirs hl hdir).child hns).child (isPart_append hparts.2 he)
  · rw [l.fileFor_of_not_isMethod h]
    exact (namedBelow_of_mem_dirs hl List.mem_cons_self).child (isPart_append (hclass h) he)

/-- The module of the base classes lies below the root, also where it lies beside the
directory of the objects. -/
theorem namedBelow_runtimeModule : l.runtimeModule.NamedBelow root.components := by
  unfold runtimeModule
  cases h : l.runtimeModule? with
  | some module => exact (hl module (List.mem_append_right _ (Option.mem_toList.2 h))).namedBelow
  | none =>
    obtain ⟨front, last, hobjects, hfront⟩ := namedBelow_of_mem_dirs hl List.mem_cons_self
    obtain ⟨base, hbase, hcomponents⟩ :=
      Path.exists_parent? (hobjects.trans (List.append_assoc _ _ _).symm) (by simp)
    refine ⟨front, "runtime" ++ l.fileExtension, ?_, hfront⟩
    rw [Option.getD_none, baseDir, hbase, Option.getD_some,
      base.components_child (isPart_append (by decide) he), hcomponents, List.append_assoc]

end Layout

/-- Where the other names of a target are identifiers, so are the names of the classes
of a document that is generated. -/
theorem Backend.isIdentifier_className_of_generate {b : Backend} {l : Layout} {o : Options}
    {f : Fragments} {d : Schema.Document} {permissive : Bool} {files : List SourceFile}
    (ho : ∀ entry ∈ o.classNames.entries, isIdentifier entry.2)
    (h : b.generate l o f (.collect d permissive) = .ok files) {e : Entity}
    (he : e ∈ (Model.collect d permissive).entities) (hm : ¬e.IsMethod) :
    isIdentifier (o.className e.name) := by
  have hname : isIdentifier e.name := by
    rcases Model.mem_entities_collect he with hobject | ⟨ns, -, m, -, kind, hk, defs?, -, rfl⟩
    · obtain ⟨object, -, -, rfl⟩ := Model.mem_objects_collect.1 hobject
      exact (checkNames_of_generate h he).1 _ (List.mem_singleton.2 rfl)
    · exact absurd ⟨hk, rfl, rfl⟩ hm
  unfold Options.className SortedMap.get?
  cases hx : o.classNames.entries.find? fun entry => entry.1 == e.name with
  | none => exact hname
  | some entry => exact ho entry (List.mem_of_find?_eq_some hx)

/-- Every entity of a model that is generated has its file. -/
theorem Backend.exists_generateEntity_of_generate {b : Backend} {l : Layout} {o : Options}
    {f : Fragments} {m : Model} {files : List SourceFile} (h : b.generate l o f m = .ok files)
    {e : Entity} (he : e ∈ m.entities) :
    ∃ file ∈ files, b.generateEntity l o f e = .ok file := by
  obtain ⟨rendered, hrendered, rfl⟩ := exists_rendered_of_generate h
  obtain ⟨file, hf, hg⟩ := Outcome.exists_of_mapM_eq_ok hrendered e he
  exact ⟨file, List.mem_append_left _ hf, hg⟩

theorem Backend.renderIndex_eq_ok {b : Backend} {l : Layout} {o : Options} {i : Index} {path : Path}
    (h : l.indexFile? = some path) :
    b.renderIndex l o i = .ok ⟨path, Text.unlines (b.indexLines l o path i)⟩ := by
  rw [renderIndex, h]

namespace JavaScript

variable {l : Layout} {o : Options} {e : Entity} {imported : List Import}

/-- Whether an import of a module leads to a path. -/
def Import.LeadsTo (i : Import) (source target : Path) : Prop :=
  Path.resolve? source.components.dropLast i.source = some target.components

theorem leadsTo_specifier (names : List String) {source target : Path} {start : List Component}
    (hs : source.NamedBelow start) (ht : target.NamedBelow start) :
    Import.LeadsTo ⟨names, source.specifier target⟩ source target := by
  simp only [Import.LeadsTo, Path.resolve?_specifier hs ht]

/-- The lines that a module begins with. -/
def openingLines (imported : List Import) : List String :=
  [banner, ""] ++ imported.map Import.line

/-- Whether the modules of a model import their base classes, the index and the classes
of the index from where these are written. -/
structure Linked (l : Layout) (o : Options) (f : Fragments) (m : Model) (files : List SourceFile) :
    Prop where
  /-- The file of an entity begins with its imports. They import its base class, from
  the runtime module only, and the index from the index file only. -/
  entity : ∀ e ∈ m.entities, ∃ file ∈ files, Backend.javaScript.generateEntity l o f e = .ok file ∧
    ∃ imported, imports l o e = .ok imported ∧
      (∃ rest, file.contents = Text.unlines (openingLines imported) ++ rest) ∧
      (∃ i ∈ imported, baseName e.kind ∈ i.names) ∧
      (∀ i ∈ imported, baseName e.kind ∈ i.names → ∃ runtime,
        Skeleton.files .javaScript l o = [runtime] ∧ i.LeadsTo file.path runtime.path) ∧
      ∀ i ∈ imported, "ObjectIndex" ∈ i.names → ∃ index,
        Backend.javaScript.renderIndex l o (.ofModel m) = .ok index ∧ i.LeadsTo file.path index.path
  /-- The index file begins with its imports. Each imports the class of an entity from
  the file of that entity. -/
  index : ∀ index, Backend.javaScript.renderIndex l o (.ofModel m) = .ok index → index ∈ files ∧
    ∃ imported rest, index.contents = Text.unlines (openingLines imported ++ rest) ∧
      (∀ line ∈ rest, Text.startsWith "import " line = false) ∧
      ∀ i ∈ imported, ∃ e ∈ m.entities, i.names = [className o e] ∧
        ∃ file ∈ files, Backend.javaScript.generateEntity l o f e = .ok file ∧
        i.LeadsTo index.path file.path

/-! ## The imports of an entity

Every line that imports something is told apart by what it names: the base, the index,
or a class with an underscore in its name.
-/

/-- The imports of an entity's file: the base class, perhaps the index, and objects. -/
theorem exists_imports_eq (h : imports l o e = .ok imported) :
    ∃ ofIndex, indexImport l o e = .ok ofIndex ∧
    imported = [runtimeImport l o e] ++ ofIndex ++ objectImports l o e := by
  obtain ⟨ofIndex, hi, h⟩ := Outcome.bind_eq_ok.1 h
  cases h
  exact ⟨ofIndex, hi, rfl⟩

/-- The import of the index goes to its file. -/
theorem exists_of_mem_indexImport {ofIndex : List Import} (h : indexImport l o e = .ok ofIndex)
    {i : Import} (hi : i ∈ ofIndex) : ∃ index, l.indexFile? = some index ∧
      i = ⟨["ObjectIndex"], (fileOf l o e).specifier index⟩ := by
  unfold indexImport at h
  split_ifs at h
  · cases hx : l.indexFile? with
    | none => simp [hx] at h
    | some index =>
      simp only [hx, Except.ok.injEq] at h
      exact ⟨index, rfl, List.mem_singleton.1 (h ▸ hi)⟩
  · cases h
    cases hi

/-- The class of an object has an underscore in its name. -/
theorem underscore_of_mem_objectImports {i : Import} (hi : i ∈ objectImports l o e) {name : String}
    (hn : name ∈ i.names) : '_' ∈ name.toList := by
  obtain ⟨object, -, rfl⟩ := List.mem_map.1 hi
  rw [List.mem_singleton.1 hn]
  simp [types]

theorem underscore_notMem_baseName (k : EntityKind) : '_' ∉ (baseName k).toList := by
  cases k <;> decide

/-- The base class is imported from one module only. -/
theorem eq_runtimeImport_of_mem (h : imports l o e = .ok imported) {i : Import} (hi : i ∈ imported)
    (hn : baseName e.kind ∈ i.names) : i = runtimeImport l o e := by
  obtain ⟨ofIndex, hindex, rfl⟩ := exists_imports_eq h
  rcases List.mem_append.1 hi with hi | hi
  · rcases List.mem_append.1 hi with hi | hi
    · exact List.mem_singleton.1 hi
    · obtain ⟨index, -, rfl⟩ := exists_of_mem_indexImport hindex hi
      cases hk : e.kind <;> simp [hk, baseName] at hn
  · exact absurd (underscore_of_mem_objectImports hi hn) (underscore_notMem_baseName e.kind)

/-- The index is imported from the index file only. -/
theorem exists_index_of_mem (h : imports l o e = .ok imported) {i : Import} (hi : i ∈ imported)
    (hn : "ObjectIndex" ∈ i.names) : ∃ index, l.indexFile? = some index ∧
      i = ⟨["ObjectIndex"], (fileOf l o e).specifier index⟩ := by
  obtain ⟨ofIndex, hindex, rfl⟩ := exists_imports_eq h
  rcases List.mem_append.1 hi with hi | hi
  · rcases List.mem_append.1 hi with hi | hi
    · obtain rfl := List.mem_singleton.1 hi
      cases hk : e.kind <;> simp [runtimeImport, hk, baseName] at hn
    · exact exists_of_mem_indexImport hindex hi
  · exact absurd (underscore_of_mem_objectImports hi hn) (by decide)

/-- The file of an entity begins with its imports. -/
theorem exists_of_generateEntity {f : Fragments} {file : SourceFile}
    (h : Backend.javaScript.generateEntity l o f e = .ok file) : file.path = fileOf l o e ∧
      ∃ imported, imports l o e = .ok imported ∧
        ∃ rest, file.contents = Text.unlines (openingLines imported) ++ rest := by
  obtain ⟨t, ht, rfl⟩ := Backend.exists_template_of_generateEntity h
  obtain ⟨imported, hi, ht⟩ := Outcome.bind_eq_ok.1 ht
  cases ht
  refine ⟨rfl, imported, hi, ?_⟩
  simp only [Template.fill, String.append_assoc]
  exact ⟨_, rfl⟩

/-! ## The index

Behind the imports of the index no line starts like one.
-/

/-- The lines of the index after its imports. -/
def registrationLines (o : Options) (i : Index) : List String :=
  ["", "let tables = null;", ""] ++ registryLines o i ++ [""] ++ lookupLines

theorem head?_toList_ofList_ne {cs : List Char} {c : Char} (h : cs.head? ≠ some c) :
    (String.ofList cs).toList.head? ≠ some c := by
  rwa [String.toList_ofList]

/-- No line of a table starts like an import. -/
theorem head?_ne_of_mem_tableLines {o : Options} {name : String} {entries : List IndexEntry} :
    ∀ line ∈ tableLines o name entries, line.toList.head? ≠ some 'i' := by
  simp only [tableLines, List.forall_mem_append, List.forall_mem_map, List.forall_mem_singleton]
  refine ⟨⟨?_, fun entry _ => ?_⟩, head?_toList_ofList_ne (by decide)⟩
  · simp [String.toList_append]
  · simp [entryRow, String.toList_append]

/-- No line of the index but its imports begins like one. -/
theorem startsWith_import_registrationLines (o : Options) (i : Index) :
    ∀ line ∈ registrationLines o i, Text.startsWith "import " line = false := by
  have hhead : ∀ line ∈ registrationLines o i, line.toList.head? ≠ some 'i' := by
    -- A line that is written out is taken as a list of characters: its bytes would have
    -- to be decoded otherwise.
    simp only [registrationLines, registryLines, lookupLines, List.forall_mem_append,
      List.forall_mem_cons, List.not_mem_nil, false_imp_iff, implies_true, and_true]
    and_intros <;>
      first | exact head?_ne_of_mem_tableLines | exact head?_toList_ofList_ne (by decide)
  intro line hline
  have hne := hhead line hline
  rw [Text.startsWith]
  cases hl : line.toList with
  | nil => rfl
  | cons c cs =>
    have hc : c ≠ 'i' := by simpa [hl] using hne
    simp [List.isPrefixOf, hc.symm]

/-! ## All modules of a model

The imports of the base classes, those of the index and those in the index are taken one
kind after the other. Where the files of the classes lie below the root, each of these
imports leads to its file.
-/

variable {root : Path} {f : Fragments} {m : Model} {files : List SourceFile}

section imports

variable (hl : l.RootedAt root) (hfile : (fileOf l o e).NamedBelow root.components)
  (hi : imports l o e = .ok imported) {i : Import} (him : i ∈ imported)

include hl hfile hi him

/-- An import of a base class leads to the module of the base classes. -/
theorem leadsTo_runtime (he : '/' ∉ l.fileExtension.toList) (hn : baseName e.kind ∈ i.names) :
    ∃ runtime, Skeleton.files .javaScript l o = [runtime] ∧
      i.LeadsTo (fileOf l o e) runtime.path := by
  rw [eq_runtimeImport_of_mem hi him hn]
  have hlead : (runtimeImport l o e).LeadsTo (fileOf l o e) l.runtimeModule := by
    rw [runtimeImport]
    exact leadsTo_specifier _ hfile (Layout.namedBelow_runtimeModule hl he)
  exact ⟨⟨l.runtimeModule, Text.unlines Skeleton.javaScript⟩, rfl, hlead⟩

/-- An import of the index leads to its file, which can be rendered. -/
theorem leadsTo_index (m : Model) (hn : "ObjectIndex" ∈ i.names) :
    ∃ index, Backend.javaScript.renderIndex l o (.ofModel m) = .ok index ∧
      i.LeadsTo (fileOf l o e) index.path := by
  obtain ⟨index, hindex, rfl⟩ := exists_index_of_mem hi him hn
  have hlead := leadsTo_specifier ["ObjectIndex"] hfile (Layout.namedBelow_indexFile hl hindex)
  exact ⟨_, Backend.renderIndex_eq_ok hindex, hlead⟩

end imports

/-- The index file begins with one import for each row of its tables. -/
theorem exists_of_renderIndex {index : SourceFile}
    (h : Backend.javaScript.renderIndex l o (.ofModel m) = .ok index) :
    l.indexFile? = some index.path ∧ index.contents = Text.unlines
      (openingLines ((Index.ofModel m).entries.map (entryImport l o index.path)) ++
        registrationLines o (.ofModel m)) := by
  cases hindex : l.indexFile? with
  | none => simp [Backend.renderIndex, hindex] at h
  | some path =>
    rw [Backend.renderIndex_eq_ok hindex] at h
    cases h
    refine ⟨rfl, ?_⟩
    simp only [Backend.indexLines, indexLines, openingLines, registrationLines, List.map_map,
      List.append_assoc]
    rfl

/-- The index file is the last of the files that are generated. -/
theorem mem_of_renderIndex (hg : Backend.javaScript.generate l o f m = .ok files)
    {index : SourceFile} (h : Backend.javaScript.renderIndex l o (.ofModel m) = .ok index) :
    index ∈ files := by
  obtain ⟨rendered, -, rfl⟩ := Backend.exists_rendered_of_generate hg
  have hindex := (exists_of_renderIndex h).1
  rw [Backend.renderIndex_eq_ok hindex, Except.ok.injEq] at h
  rw [← h]
  simp [Backend.indexFiles, hindex]

/-- In a layout whose paths are ordinary ones joined to one root, the imports of what is
generated lead where they should. -/
theorem linked_of_generate (hl : l.RootedAt root) (he : '/' ∉ l.fileExtension.toList)
    (hclass : ∀ e ∈ m.entities, ¬e.IsMethod → isIdentifier (o.className e.name))
    (h : Backend.javaScript.generate l o f m = .ok files) : Linked l o f m files := by
  -- All files of classes lie below the root, by names.
  have hfile : ∀ e ∈ m.entities, (fileOf l o e).NamedBelow root.components := fun e hm =>
    Layout.namedBelow_fileFor hl he (Backend.checkNames_of_generate h hm).1 (hclass e hm)
  constructor
  -- A class: its imports from the runtime and from the index arrive.
  · intro e hm
    obtain ⟨file, hf, hg⟩ := Backend.exists_generateEntity_of_generate h hm
    obtain ⟨hpath, imported, hi, hrest⟩ := exists_of_generateEntity hg
    refine ⟨file, hf, hg, imported, hi, hrest,
      ⟨runtimeImport l o e, ?_, List.mem_cons_self⟩, ?_, ?_⟩
    · obtain ⟨ofIndex, -, rfl⟩ := exists_imports_eq hi
      exact List.mem_cons_self
    · intro i him hn
      exact hpath ▸ leadsTo_runtime hl (hfile e hm) hi him he hn
    · intro i him hn
      exact hpath ▸ leadsTo_index hl (hfile e hm) hi him m hn
  -- The index: it has one import for each of its rows, and no other line is one.
  · intro index hrender
    obtain ⟨hindex, hcontents⟩ := exists_of_renderIndex hrender
    refine ⟨mem_of_renderIndex h hrender, _, registrationLines o (.ofModel m), hcontents,
      startsWith_import_registrationLines _ _, fun i hi => ?_⟩
    obtain ⟨entry, hentry, rfl⟩ := List.mem_map.1 hi
    -- The rows are entities of the model, so their files are among those generated.
    have hm : entry.entity ∈ m.entities :=
      (Index.entries_sublist m).subset (List.mem_map_of_mem hentry)
    obtain ⟨file, hf, hg⟩ := Backend.exists_generateEntity_of_generate h hm
    refine ⟨entry.entity, hm, rfl, file, hf, hg, ?_⟩
    rw [(exists_of_generateEntity hg).1]
    exact leadsTo_specifier _ (Layout.namedBelow_indexFile hl hindex) (hfile entry.entity hm)

/-! ## A document in scattered directories

The directories lie at different depths and in different branches, so specifiers go up
and down.
-/

/-- A document with an object that holds a result, a second one, and a method that two
files come of. -/
def replyDocument : Schema.Document where
  objects := ⟨[("Reply", ⟨none, ⟨[("answer", .plain { object? := some "Result" })]⟩⟩),
    ("Team", ⟨none, ⟨[]⟩⟩)]⟩
  components := ⟨[("Gateway", ⟨⟨[("ping", ⟨none, false, false, false, none, none⟩)]⟩⟩)]⟩

/-- A layout with directories at different depths below a root that is itself reached
upwards. -/
def scatteredDirs : Layout where
  objectsDir := ⟨"../api/out/objects"⟩
  componentsDir := ⟨"../api/out/lib/components"⟩
  resultsDir := ⟨"../api/results"⟩
  indexFile? := some ⟨"../api/out/index.js"⟩
  fileExtension := ".js"
  runtimeModule? := none

/-- All modules of a document in scattered directories are linked. The file of the
method climbs to the base classes, and the index goes down to the file. -/
theorem linked_scatteredDirs : ∃ files,
    Backend.javaScript.generate scatteredDirs (appNaming "Team" "Squad") {}
      (.collect replyDocument true) = .ok files ∧
    Linked scatteredDirs (appNaming "Team" "Squad") {} (.collect replyDocument true) files ∧
    (∃ file ∈ files, file.HasLine "import \x7b BaseComponent \x7d from '../../../runtime.js';") ∧
    ∃ file ∈ files, file.HasLine
      "import \x7b App_components_Gateway_ping \x7d from './lib/components/Gateway/ping.js';" := by
  -- All settings are ordinary texts, joined to the directory of the project.
  have hl : scatteredDirs.RootedAt ⟨"../api"⟩ := by
    have hsettings : scatteredDirs.settings =
        ["out/objects", "out/lib/components", "results", "out/index.js"].map fun s =>
        Path.join ⟨"../api"⟩ ⟨s⟩ := by
      decide
    have hordinary : ∀ s ∈ ["out/objects", "out/lib/components", "results", "out/index.js"],
        (⟨s⟩ : Path).IsOrdinary := by
      decide
    rw [Layout.RootedAt, hsettings, List.forall_mem_map]
    exact fun s hs => ⟨⟨s⟩, hordinary s hs, rfl⟩
  obtain ⟨files, h⟩ : ∃ files, Backend.javaScript.generate scatteredDirs (appNaming "Team" "Squad")
      {} (.collect replyDocument true) = .ok files := ⟨_, rfl⟩
  have hlinked :
      Linked scatteredDirs (appNaming "Team" "Squad") {} (.collect replyDocument true) files :=
    linked_of_generate hl (by decide)
      (fun e he hm => Backend.isIdentifier_className_of_generate (by decide) h he hm) h
  refine ⟨files, h, hlinked, ?_, ?_⟩
  · have he : (Model.collect replyDocument true).entities[2] ∈
        (Model.collect replyDocument true).entities :=
      List.getElem_mem (by decide)
    -- The import of the runtime is a line of the file of the component.
    obtain ⟨file, hf, hline⟩ := Backend.exists_import_line h he rfl List.mem_cons_self
    have htext : (runtimeImport scatteredDirs (appNaming "Team" "Squad")
        (Model.collect replyDocument true).entities[2]).line =
          "import \x7b BaseComponent \x7d from '../../../runtime.js';" := by
      decide +kernel
    exact ⟨file, hf, htext ▸ hline⟩
  -- The imports of the index are lines of its file.
  · have hindex := Backend.renderIndex_eq_ok (b := .javaScript) (l := scatteredDirs)
      (o := appNaming "Team" "Squad") (i := .ofModel (.collect replyDocument true)) rfl
    have hline :
        "import \x7b App_components_Gateway_ping \x7d from './lib/components/Gateway/ping.js';" ∈
          indexLines scatteredDirs (appNaming "Team" "Squad") ⟨"../api/out/index.js"⟩
            (.ofModel (.collect replyDocument true)) := by
      decide +kernel
    refine ⟨_, (hlinked.index _ hindex).1, SourceFile.hasLine_of_mem ⟨"", ?_⟩ (Or.inl rfl) hline⟩
    simp [Backend.indexLines]

end JavaScript

end Classwright
