import Classwright.Proofs.Closure

/-!
# Edits stay local

Two documents with the same outline (`Schema.Document.SameOutline`) have the same names
in the same order, and differ at most in what is said about them. Every file is
generated from one declaration (`Schema.Document.declarations`), and the index from the
names alone. So the files of the two documents have the same paths, the index is the
same, and a file is another one only where its declaration was edited in something that
the file is made of (`Backend.edits_stay_local`).
-/

namespace Classwright

open Schema (Document ObjectDef MethodDef)

/-! ## Documents with the same outline

The outline has what decides which files there are and under which names: the objects,
the methods, and whether something is returned.
-/

namespace Schema

/-- What calls of a method need. -/
def MethodDef.flags (d : MethodDef) : MethodFlags :=
  ⟨d.secure, d.requireSession, d.redirect⟩

/-- The namespaces with the names of their methods, and whether these declare what they
return. -/
def Document.methodOutline (d : Document) : List (String × List (String × Bool)) :=
  d.components.entries.map fun ns =>
    (ns.1, ns.2.methods.entries.map fun m => (m.1, m.2.returns?.isSome))

/-- Whether two documents have the same names in the same order, and the same methods
declare what they return. -/
structure Document.SameOutline (d d' : Document) : Prop where
  /-- The objects have the same names. -/
  objects : d'.objects.keys = d.objects.keys
  /-- The namespaces and their methods have the same names. -/
  methods : d'.methodOutline = d.methodOutline

end Schema

namespace Model

theorem map_fst_generated {α : Type} (m : OrderedMap α) :
    (generated m).map Prod.fst = m.keys.filter fun name => !isSentinel name := by
  rw [OrderedMap.keys, List.filter_map]
  rfl

/-- The names of the methods to generate can be read off the outline. -/
theorem map_names_methods (d : Document) :
    ((methods d).map fun m => (m.1, m.2.1, m.2.2.returns?.isSome)) =
      (d.methodOutline.filter fun ns => !isSentinel ns.1).flatMap fun ns => ns.2.map fun m =>
      (ns.1, m) := by
  rw [methods, generated, Document.methodOutline, List.filter_map, List.flatMap_map,
    List.map_flatMap]
  simp only [List.map_map, Function.comp_def]

end Model

/-! ## Declarations

Every file but that of the index comes from one declaration, and the declarations of two
documents with one outline correspond.
-/

/-- What a file is generated from. -/
inductive Declaration where
  | object (name : String) (d : ObjectDef)
  | component (ns method : String) (d : MethodDef)
  | result (ns method : String) (d : MethodDef)

namespace Declaration

/-- The entity of a declaration. -/
def entity : Declaration → Entity
  | .object name d => .ofObject name d
  | .component ns method d => .ofMethod .component ns method d d.params?
  | .result ns method d => .ofMethod .result ns method d d.returns?

/-- The kind and the names of a declaration. -/
def head : Declaration → EntityKind × List String
  | .object name _ => (.object, [name])
  | .component ns method _ => (.component, [ns, method])
  | .result ns method _ => (.result, [ns, method])

/-- Declarations with one head are of one kind and declare one name. -/
theorem cases_of_head_eq {x x' : Declaration} (h : x'.head = x.head) :
    (∃ name d d', x = object name d ∧ x' = object name d') ∨
    (∃ ns method d d', x = component ns method d ∧ x' = component ns method d') ∨
    ∃ ns method d d', x = result ns method d ∧ x' = result ns method d' := by
  cases x <;> cases x' <;> simp_all [head]

/-- Whether a declaration has been edited in something that its file is made of: an
object in any way, a component in the description, the flags or the parameters of its
method, and a result in the description of its method or in what that returns. -/
inductive Edited : Declaration → Declaration → Prop
  | object {name : String} {d d' : ObjectDef} (h : d' ≠ d) :
      Edited (.object name d) (.object name d')
  | component {ns method : String} {d d' : MethodDef}
      (h : d'.description? ≠ d.description? ∨ d'.flags ≠ d.flags ∨ d'.params? ≠ d.params?) :
      Edited (.component ns method d) (.component ns method d')
  | result {ns method : String} {d d' : MethodDef}
      (h : d'.description? ≠ d.description? ∨ d'.returns? ≠ d.returns?) :
      Edited (.result ns method d) (.result ns method d')

end Declaration

/-- The declarations from which the files of a document are generated, in their order. -/
def Schema.Document.declarations (d : Document) (permissive : Bool) : List Declaration :=
  ((Model.generated d.objects).map fun object => .object object.1 object.2) ++
  ((Model.methods d).map fun m => .component m.1 m.2.1 m.2.2) ++
  ((Model.methods d).filter fun m => m.2.2.returns?.isSome || permissive).map fun m =>
    .result m.1 m.2.1 m.2.2

theorem Model.entities_collect (d : Document) (permissive : Bool) :
    (collect d permissive).entities = (d.declarations permissive).map Declaration.entity := by
  simp only [entities, collect, Document.declarations, List.map_append, List.map_map,
    Function.comp_def, Declaration.entity]

namespace Schema.Document.SameOutline

variable {d d' : Document} (hd : d.SameOutline d')

include hd

theorem map_fst_objects :
    (Model.generated d'.objects).map Prod.fst = (Model.generated d.objects).map Prod.fst := by
  rw [Model.map_fst_generated, Model.map_fst_generated, hd.objects]

theorem map_names_methods :
    ((Model.methods d').map fun m => (m.1, m.2.1, m.2.2.returns?.isSome)) =
      (Model.methods d).map fun m => (m.1, m.2.1, m.2.2.returns?.isSome) := by
  rw [Model.map_names_methods, Model.map_names_methods, hd.methods]

/-- What depends only on the names of objects is the same. -/
theorem map_objects {α : Type} (g : String → α) :
    ((Model.generated d'.objects).map fun object => g object.1) =
      (Model.generated d.objects).map fun object => g object.1 := by
  have h := congrArg (List.map g) hd.map_fst_objects
  rwa [List.map_map, List.map_map] at h

/-- What depends only on the names of methods is the same. -/
theorem map_methods {α : Type} (g : String → String → α) :
    ((Model.methods d').map fun m => g m.1 m.2.1) = (Model.methods d).map fun m => g m.1 m.2.1 := by
  have h := congrArg (List.map fun m => g m.1 m.2.1) hd.map_names_methods
  rwa [List.map_map, List.map_map] at h

/-- The same methods have results. -/
theorem map_results {α : Type} (g : String → String → α) (permissive : Bool) :
    (((Model.methods d').filter fun m => m.2.2.returns?.isSome || permissive).map fun m =>
        g m.1 m.2.1) =
      ((Model.methods d).filter fun m => m.2.2.returns?.isSome || permissive).map fun m =>
        g m.1 m.2.1 := by
  have h := congrArg (fun ms => (ms.filter fun m => m.2.2 || permissive).map fun m => g m.1 m.2.1)
    hd.map_names_methods
  simpa only [List.filter_map, List.map_map, Function.comp_def] using h

/-- The declarations of the two documents are for the same things. -/
theorem map_head_declarations (permissive : Bool) :
    (d'.declarations permissive).map Declaration.head =
    (d.declarations permissive).map Declaration.head := by
  have hobjects := hd.map_objects fun name => (EntityKind.object, [name])
  have hcomponents := hd.map_methods fun ns method => (EntityKind.component, [ns, method])
  have hresults := hd.map_results (fun ns method => (EntityKind.result, [ns, method])) permissive
  simp only [declarations, List.map_append, List.map_map, Function.comp_def, Declaration.head,
    hobjects, hcomponents, hresults]

end Schema.Document.SameOutline

/-! ## The index

A row of the index has a key, a class and a file, and these come from the names of an
entity.
-/

/-- An entity without anything but its kind and its names. -/
def Entity.outline (e : Entity) : Entity :=
  { kind := e.kind, name := e.name, inNamespace? := e.inNamespace?, method? := e.method?,
    description? := none, properties := [], required := [], objectMap := [], objectLists := [],
    flags := {} }

namespace Index

/-- A row with the outline of its entity. -/
def outlineRow (entry : IndexEntry) : IndexEntry :=
  ⟨entry.key, entry.entity.outline⟩

/-- The tables with the outlines of their entities. -/
def outline (i : Index) : Index :=
  ⟨i.objects.map outlineRow, i.components.map outlineRow, i.results.map outlineRow⟩

/-- Adding an entity to a table only looks at its outline. -/
theorem map_outlineRow_addEntry (rows : List IndexEntry) (e : Entity) :
    (addEntry rows e).map outlineRow = addEntry (rows.map outlineRow) e.outline := by
  have hany : (rows.map outlineRow).any (fun entry => entry.key == e.indexKey) =
      rows.any fun entry => entry.key == e.indexKey := by
    rw [List.any_map]
    rfl
  unfold addEntry
  rw [show e.outline.indexKey = e.indexKey from rfl, show e.outline.name = e.name from rfl, hany]
  split
  · rfl
  · rw [List.map_append]
    rfl

/-- So does adding several. -/
theorem map_outlineRow_foldl : ∀ (es : List Entity) (rows : List IndexEntry),
    (es.foldl addEntry rows).map outlineRow =
    (es.map Entity.outline).foldl addEntry (rows.map outlineRow)
  | [], _ => rfl
  | e :: es, rows => by
    rw [List.foldl_cons, List.map_cons, List.foldl_cons, map_outlineRow_foldl es,
      map_outlineRow_addEntry]

/-- Which entities have a row depends only on their names. -/
theorem outline_ofModel (m : Model) : (ofModel m).outline =
    ⟨table (m.objects.map Entity.outline), table (m.components.map Entity.outline),
      table (m.results.map Entity.outline)⟩ := by
  simp only [outline, ofModel, table, map_outlineRow_foldl, List.map_nil]

end Index

/-- The lines of an index depend only on the outlines of the entities. -/
theorem Backend.indexLines_outline (b : Backend) (l : Layout) (o : Options) (path : Path)
    (i : Index) :
    b.indexLines l o path i.outline = b.indexLines l o path i := by
  cases b with
  | javaScript =>
    simp only [indexLines, JavaScript.indexLines, JavaScript.registryLines, JavaScript.tableLines,
      Index.entries, Index.outline, ← List.map_append, List.map_map]
    rfl
  | cSharp =>
    simp only [indexLines, CSharp.indexLines, CSharp.tableLines, Index.outline, List.map_map]
    rfl
  | actionScript =>
    simp only [indexLines, ActionScript.indexLines, ActionScript.tableLines, Index.outline,
      List.map_map]
    rfl

namespace Schema.Document.SameOutline

variable {d d' : Document} (hd : d.SameOutline d') (permissive : Bool)

include hd

/-- The entities of the two documents have the same outlines. -/
theorem map_outline_collect :
    (Model.collect d' permissive).objects.map Entity.outline =
      (Model.collect d permissive).objects.map Entity.outline ∧
    (Model.collect d' permissive).components.map Entity.outline =
      (Model.collect d permissive).components.map Entity.outline ∧
    (Model.collect d' permissive).results.map Entity.outline =
      (Model.collect d permissive).results.map Entity.outline := by
  have hobjects := hd.map_objects fun name => (Entity.ofProperties .object name none []).outline
  have hcomponents := hd.map_methods fun ns method =>
    (Entity.ofMethod .component ns method default none).outline
  have hresults := hd.map_results
    (fun ns method => (Entity.ofMethod .result ns method default none).outline) permissive
  simp only [Model.collect, List.map_map]
  exact ⟨hobjects, hcomponents, hresults⟩

/-- Documents of one outline have indexes of one outline. -/
theorem outline_ofModel :
    (Index.ofModel (.collect d' permissive)).outline =
    (Index.ofModel (.collect d permissive)).outline := by
  obtain ⟨hobjects, hcomponents, hresults⟩ := hd.map_outline_collect permissive
  rw [Index.outline_ofModel, Index.outline_ofModel, hobjects, hcomponents, hresults]

/-- What depends only on the outlines of the entities is the same. -/
theorem map_entities {α : Type} {g : Entity → α} (hg : ∀ e, g e.outline = g e) :
    (Model.collect d' permissive).entities.map g = (Model.collect d permissive).entities.map g := by
  obtain ⟨hobjects, hcomponents, hresults⟩ := hd.map_outline_collect permissive
  have houtline : (Model.collect d' permissive).entities.map Entity.outline =
      (Model.collect d permissive).entities.map Entity.outline := by
    simp only [Model.entities, List.map_append, hobjects, hcomponents, hresults]
  simpa only [List.map_map, Function.comp_def, hg] using congrArg (List.map g) houtline

end Schema.Document.SameOutline

/-! ## One file

Flags stand in the file of a component only, so the file of a result does not see them.
-/

section flags

variable {e : Entity} (hk : e.kind ≠ .component) (flags : MethodFlags)

include hk

theorem JavaScript.flagLines_of_kind_ne : JavaScript.flagLines e = [] := by
  simp [JavaScript.flagLines, hk]

theorem CSharp.flagLines_of_kind_ne : CSharp.flagLines e = [] := by
  simp [CSharp.flagLines, hk]

theorem ActionScript.flagLines_of_kind_ne : ActionScript.flagLines e = [] := by
  simp [ActionScript.flagLines, hk]

/-- Only the file of a component says what calls need. -/
theorem Backend.template_withFlags (b : Backend) (l : Layout) (o : Options) :
    b.template l o { e with flags := flags } = b.template l o e := by
  cases b with
  | javaScript =>
    simp only [template, JavaScript.template, JavaScript.parts, JavaScript.constructorLines,
      JavaScript.flagLines_of_kind_ne hk,
      JavaScript.flagLines_of_kind_ne (e := { e with flags := flags }) hk]
    rfl
  | cSharp =>
    simp only [template, CSharp.template, CSharp.parts, CSharp.constructorLines,
      CSharp.flagLines_of_kind_ne hk,
      CSharp.flagLines_of_kind_ne (e := { e with flags := flags }) hk]
    rfl
  | actionScript =>
    simp only [template, ActionScript.template, ActionScript.parts, ActionScript.constructorLines,
      ActionScript.flagLines_of_kind_ne hk,
      ActionScript.flagLines_of_kind_ne (e := { e with flags := flags }) hk]
    rfl

/-- The file of an entity that is no component does not depend on its flags. -/
theorem Backend.generateEntity_withFlags (b : Backend) (l : Layout) (o : Options) (f : Fragments) :
    b.generateEntity l o f { e with flags := flags } = b.generateEntity l o f e := by
  unfold generateEntity renderEntity
  rw [b.template_withFlags hk flags]
  rfl

end flags

namespace Backend

variable {b : Backend} {l : Layout} {o : Options} {f : Fragments}

/-- The file of a declaration is the same unless something was edited that it is made
of. -/
theorem generateEntity_of_not_edited {x x' : Declaration} (hh : x'.head = x.head)
    (hx : ¬x.Edited x') :
    b.generateEntity l o f x'.entity = b.generateEntity l o f x.entity := by
  rcases Declaration.cases_of_head_eq hh with ⟨name, d, d', rfl, rfl⟩ |
    ⟨ns, method, d, d', rfl, rfl⟩ | ⟨ns, method, d, d', rfl, rfl⟩
  · have hd : d' = d := by
      by_contra hne
      exact hx (.object hne)
    rw [hd]
  · have hsame := mt Declaration.Edited.component hx
    simp only [not_or, not_not] at hsame
    obtain ⟨hdescription, hflags, hparams⟩ := hsame
    rw [MethodDef.flags, MethodDef.flags] at hflags
    rw [Declaration.entity, Declaration.entity, Entity.ofMethod, Entity.ofMethod, hdescription,
      hflags, hparams]
  · have hsame := mt Declaration.Edited.result hx
    simp only [not_or, not_not] at hsame
    obtain ⟨hdescription, hreturns⟩ := hsame
    -- The flags may differ, but the file of a result has none.
    have hentity : (Declaration.result ns method d').entity =
        { (Declaration.result ns method d).entity with flags := d'.flags } := by
      simp only [Declaration.entity, Entity.ofMethod, MethodDef.flags, hdescription, hreturns]
    have hkind : (Declaration.result ns method d).entity.kind ≠ .component := by
      simp [Declaration.entity, Entity.ofMethod, Entity.ofProperties]
    rw [hentity]
    exact b.generateEntity_withFlags hkind d'.flags l o f

/-! ## All files

The files are compared position by position with the declarations that they come from.
-/

/-- Documents of one outline have the same index file. -/
theorem indexFiles_of_sameOutline {d d' : Document} (hd : d.SameOutline d') (b : Backend)
    (l : Layout) (o : Options) (permissive : Bool) :
    b.indexFiles l o (.collect d' permissive) = b.indexFiles l o (.collect d permissive) := by
  unfold indexFiles
  refine List.map_congr_left fun path _ => ?_
  rw [← b.indexLines_outline, hd.outline_ofModel, b.indexLines_outline]

/-- A file of a document comes from the declaration at its position. -/
theorem getElem?_of_mapM_generateEntity {ds : List Declaration} {rendered : List SourceFile}
    (h : (ds.map Declaration.entity).mapM (b.generateEntity l o f) = .ok rendered) {i : Nat}
    {x : Declaration} (hx : ds[i]? = some x) (rest : List SourceFile) :
    (rendered ++ rest)[i]? = (b.generateEntity l o f x.entity).toOption := by
  have hi : i < rendered.length := by
    rw [Outcome.length_of_mapM_eq_ok h, List.length_map]
    exact (List.getElem?_eq_some_iff.1 hx).1
  rw [List.getElem?_append_left hi, Outcome.getElem?_of_mapM_eq_ok h, List.getElem?_map, hx]
  rfl

/-- An edit changes no other file. Where two documents have the same outline and files
are generated for both, the files have the same paths in the same order, the index files
are the same, and a file is another one only if it was generated from a declaration that
was edited in something that the file is made of. -/
theorem edits_stay_local {d d' : Document} {permissive : Bool} {files files' : List SourceFile}
    (hd : d.SameOutline d') (h : b.generate l o f (.collect d permissive) = .ok files)
    (h' : b.generate l o f (.collect d' permissive) = .ok files') :
    files'.map SourceFile.path = files.map SourceFile.path ∧
    (files'.drop (d.declarations permissive).length =
      files.drop (d.declarations permissive).length ∧
      files.drop (d.declarations permissive).length = b.indexFiles l o (.collect d permissive)) ∧
    ∀ i : Nat, files'[i]? ≠ files[i]? → ∃ x x', (d.declarations permissive)[i]? = some x ∧
      (d'.declarations permissive)[i]? = some x' ∧
      files[i]? = (b.generateEntity l o f x.entity).toOption ∧
      files'[i]? = (b.generateEntity l o f x'.entity).toOption ∧ x.Edited x' := by
  have hpaths : files'.map SourceFile.path = files.map SourceFile.path := by
    rw [map_path_of_generate h, map_path_of_generate h', hd.map_entities permissive fun e => rfl]
  have hlength : (d'.declarations permissive).length = (d.declarations permissive).length := by
    simpa using congrArg List.length (hd.map_head_declarations permissive)
  obtain ⟨rendered, hr, rfl⟩ := exists_rendered_of_generate h
  obtain ⟨rendered', hr', rfl⟩ := exists_rendered_of_generate h'
  rw [Model.entities_collect] at hr hr'
  have hr₁ : rendered.length = (d.declarations permissive).length := by
    simpa using Outcome.length_of_mapM_eq_ok hr
  have hr₂ : rendered'.length = (d.declarations permissive).length := by
    simpa [hlength] using Outcome.length_of_mapM_eq_ok hr'
  refine ⟨hpaths, ?_⟩
  rw [indexFiles_of_sameOutline hd]
  refine ⟨⟨?_, ?_⟩, fun i hi => ?_⟩
  · rw [← hr₂, List.drop_left, hr₂, ← hr₁, List.drop_left]
  · rw [← hr₁, List.drop_left]
  · have hhead : ((d'.declarations permissive)[i]?).map Declaration.head =
        ((d.declarations permissive)[i]?).map Declaration.head := by
      rw [← List.getElem?_map, ← List.getElem?_map, hd.map_head_declarations]
    cases hx : (d.declarations permissive)[i]? with
    | none =>
      -- Past the declarations there is only the index, which is the same.
      have hlen : (d.declarations permissive).length ≤ i := List.getElem?_eq_none_iff.1 hx
      rw [List.getElem?_append_right (hr₂ ▸ hlen), List.getElem?_append_right (hr₁ ▸ hlen),
        hr₁, hr₂] at hi
      exact absurd rfl hi
    | some x =>
      obtain ⟨x', hx', hh⟩ : ∃ x', (d'.declarations permissive)[i]? = some x' ∧
        x'.head = x.head := by
        simpa [hx] using hhead
      have hfile := getElem?_of_mapM_generateEntity hr hx (b.indexFiles l o (.collect d permissive))
      have hfile' :=
        getElem?_of_mapM_generateEntity hr' hx' (b.indexFiles l o (.collect d permissive))
      refine ⟨x, x', rfl, hx', hfile, hfile', ?_⟩
      by_contra hedited
      apply hi
      rw [hfile, hfile', generateEntity_of_not_edited hh hedited]

end Backend

/-- A document with an object and a method, whose calls may have to be secure. -/
def gatewayDocument (secure : Bool) : Document where
  objects := ⟨[("User", ⟨none, ⟨[]⟩⟩)]⟩
  components := ⟨[("Gateway", ⟨⟨[("ping", ⟨none, secure, false, false, none, none⟩)]⟩⟩)]⟩

/-- Securing the calls of a method changes the file of the component, and neither the
object nor the result. -/
theorem Backend.edits_gatewayDocument :
    (gatewayDocument false).SameOutline (gatewayDocument true) ∧ ∃ files files',
      javaScript.generate threeDirs ⟨"App", .empty⟩ {} (.collect (gatewayDocument false) true) =
        .ok files ∧
      javaScript.generate threeDirs ⟨"App", .empty⟩ {} (.collect (gatewayDocument true) true) =
        .ok files' ∧
      files'.map SourceFile.path = files.map SourceFile.path ∧ files'[0]? = files[0]? ∧
      files'[2]? = files[2]? ∧ files' ≠ files := by
  have hd : (gatewayDocument false).SameOutline (gatewayDocument true) := ⟨rfl, rfl⟩
  obtain ⟨files, h⟩ : ∃ files,
      javaScript.generate threeDirs ⟨"App", .empty⟩ {} (.collect (gatewayDocument false) true) =
      .ok files := ⟨_, rfl⟩
  obtain ⟨files', h'⟩ : ∃ files,
      javaScript.generate threeDirs ⟨"App", .empty⟩ {} (.collect (gatewayDocument true) true) =
      .ok files := ⟨_, rfl⟩
  -- The two documents have one outline, so only files of the edited component can
  -- differ.
  obtain ⟨hpaths, -, hfiles⟩ := edits_stay_local hd h h'
  refine ⟨hd, files, files', h, h', hpaths, ?_, ?_, ?_⟩
  · by_contra hne
    obtain ⟨x, x', hx, hx', -, -, hedited⟩ := hfiles 0 hne
    cases hx
    cases hx'
    cases hedited with
    | object hne => exact hne rfl
  · by_contra hne
    obtain ⟨x, x', hx, hx', -, -, hedited⟩ := hfiles 2 hne
    cases hx
    cases hx'
    cases hedited with
    | result hne => simp at hne
  -- The file of the component itself does differ, as computed.
  · rintro rfl
    have hsame := congrArg (fun files => files.toOption.map (·[1]?)) (h.trans h'.symm)
    revert hsame
    decide +kernel

end Classwright
