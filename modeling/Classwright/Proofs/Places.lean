import Classwright.Proofs.CodeNames
import Classwright.Proofs.Keys
import Classwright.Proofs.Recognition
import Classwright.Proofs.Steps

/-!
# One file for each entity

Two files at one path would overwrite each other. The file of an object lies in the
directory of the objects, under its class name, and the file of a method lies in one of
two other directories, under its namespace and its name (`Layout.places`). Where no
directory begins with another one (`Layout.Apart`) and the classes of the objects have
different names, no two files of a document have the same components
(`Backend.nodup_components_of_generate`).
-/

namespace Classwright

open Schema (Document)
open Text (isIdentifier)

/-! ## Components below a path

A path is split at its slashes. A name without slashes adds one component to the path
that it is put below.
-/

namespace Path

/-- Whether a text is one component below a path. -/
structure IsPart (name : String) : Prop where
  /-- It has no slash. -/
  slash : '/' ∉ name.toList
  /-- It stands for itself. -/
  itself : laterComponent? name.toList = some (.name name)

theorem components_of_pieces {p : Path} {first : List Char} {rest : List (List Char)}
    (h : pieces p.text.toList = first :: rest) :
    p.components = (firstComponent? first rest).toList ++ rest.filterMap laterComponent? := by
  cases hc : firstComponent? first rest <;> simp [components, marks, h, hc]

theorem components_of_text_eq {p : Path} (h : p.text = "") : p.components = [] := by
  simp [components, marks, h, pieces, firstComponent?, laterComponent?]

/-- What follows a first piece matters only if the piece is empty. -/
theorem firstComponent?_congr {first : List Char} {rest rest' : List (List Char)}
    (h : first = [] → (rest = [] ↔ rest' = [])) :
    firstComponent? first rest = firstComponent? first rest' := by
  unfold firstComponent?
  by_cases hf : first = []
  · have he : rest.isEmpty = rest'.isEmpty := by
      rw [Bool.eq_iff_iff, List.isEmpty_iff, List.isEmpty_iff, h hf]
    rw [he]
  · simp [hf]

/-- A path that starts neither at the root nor with a dot has the components of its
pieces. -/
theorem components_eq_filterMap {p : Path} (hr : p.components.head? ≠ some .root)
    (hh : p.components.head? ≠ some .here) :
    p.components = (pieces p.text.toList).filterMap laterComponent? := by
  obtain ⟨first, rest, hp⟩ := exists_pieces_eq_cons p.text.toList
  have hfirst : firstComponent? first rest = laterComponent? first := by
    rw [components_of_pieces hp] at hr hh
    unfold firstComponent? at hr hh ⊢
    split_ifs at hr hh ⊢ with hroot hdot
    · simp at hr
    · simp at hh
    · rfl
  rw [components_of_pieces hp, hp, hfirst]
  cases h : laterComponent? first <;> simp [h]

/-- The components of joined paths, where the second starts neither at the root nor with
a dot. -/
theorem components_join (p : Path) {q : Path} (hr : q.components.head? ≠ some .root)
    (hh : q.components.head? ≠ some .here) :
    (p.join q).components = p.components ++ q.components := by
  have hq := components_eq_filterMap hr hh
  have ha : q.isAbsolute = false := by
    rw [← Bool.not_eq_true, isAbsolute_iff]
    rintro ⟨cs, hcs⟩
    obtain ⟨rest, hrest⟩ := exists_pieces_eq_nil_cons.2 (Or.inr ⟨cs, hcs⟩)
    have hne : rest ≠ [] := by
      rintro rfl
      have htext := congrArg joinPieces hrest
      rw [joinPieces_pieces, hcs] at htext
      cases htext
    simp [components_of_pieces hrest, firstComponent?, hne] at hr
  rcases p.text_join ha with ⟨hp, hjoin⟩ | ⟨cs, hp, hjoin⟩
  · rw [hjoin, components_of_text_eq (String.toList_eq_nil_iff.1 hp), List.nil_append]
  · obtain ⟨first, rest, hcs⟩ := exists_pieces_eq_cons cs
    have hpieces : pieces (p.join q).text.toList = first :: (rest ++ pieces q.text.toList) := by
      rw [hjoin, pieces_append_slash, hcs, List.cons_append]
    have hsome := pieces_ne_nil q.text.toList
    rw [components_of_pieces hpieces, List.filterMap_append, ← hq, ← List.append_assoc]
    congr 1
    rcases hp with ⟨hne, hp⟩ | hp
    · -- The text does not end in a slash, so what comes after it makes no first piece
      -- the root that was none before.
      have hfirst : firstComponent? first (rest ++ pieces q.text.toList) =
          firstComponent? first rest := by
        refine firstComponent?_congr fun hf => ?_
        have hrest : rest ≠ [] := by
          rintro rfl
          apply hne
          rw [← joinPieces_pieces cs, hcs, hf, joinPieces]
        simp [hrest]
      rw [components_of_pieces (hp ▸ hcs), hfirst]
    · have hslash : pieces p.text.toList = first :: (rest ++ [[]]) := by
        rw [hp, pieces_append_slash, hcs]
        rfl
      have hfirst : firstComponent? first (rest ++ pieces q.text.toList) =
          firstComponent? first (rest ++ [[]]) :=
        firstComponent?_congr fun _ => by simp [hsome]
      rw [components_of_pieces hslash, hfirst, List.filterMap_append]
      simp [laterComponent?]

/-- What stands for a component after the first piece does so below a path. -/
theorem components_child_of_later (p : Path) {name : String} {c : Component}
    (hslash : '/' ∉ name.toList) (hc : laterComponent? name.toList = some c) :
    (p.child name).components = p.components ++ [c] := by
  have hdot : name.toList ≠ ['.'] := by
    intro hn
    simp [hn, laterComponent?] at hc
  -- The name is one piece, which stands first in a path of its own.
  have hname : (⟨name⟩ : Path).components = [c] := by
    have hfirst : firstComponent? name.toList [] = some c := by
      simpa [firstComponent?, hdot] using hc
    rw [components_of_pieces (pieces_of_notMem hslash), hfirst]
    rfl
  -- What is put behind something starts neither at the root nor with a dot.
  have hroot : c ≠ .root := by
    rintro rfl
    exact laterComponent?_ne_root _ hc
  have hhere : c ≠ .here := by
    rintro rfl
    exact laterComponent?_ne_here _ hc
  rw [child, p.components_join (by simpa [hname]) (by simpa [hname]), hname]

theorem components_child (p : Path) {name : String} (h : IsPart name) :
    (p.child name).components = p.components ++ [Component.name name] :=
  p.components_child_of_later h.slash h.itself

/-- A file named by an identifier and a suffix is one component. -/
theorem isPart_append {name suffix : String} (hn : isIdentifier name) (hs : '/' ∉ suffix.toList) :
    IsPart (name ++ suffix) := by
  -- An identifier starts with a letter, an underscore or a dollar sign, and not a dot.
  obtain ⟨c, rest, hchars, hstart, hrest⟩ := Text.exists_toList_of_isIdentifier hn
  have hdot : c ≠ '.' := by
    rintro rfl
    exact absurd hstart (by decide)
  have hc : '/' ≠ c := by
    rintro rfl
    exact absurd hstart (by decide)
  have hr : '/' ∉ rest := fun hmem => absurd (hrest _ hmem) (by decide)
  have htext : (name ++ suffix).toList = c :: (rest ++ suffix.toList) := by
    rw [String.toList_append, hchars, List.cons_append]
  have hlater : laterComponent? (c :: (rest ++ suffix.toList)) =
      some (.name (String.ofList (c :: (rest ++ suffix.toList)))) := by
    simp [laterComponent?, hdot]
  constructor
  · rw [htext]
    simp [hc, hr, hs]
  · rw [htext, hlater, ← htext, String.ofList_toList]

/-- Whether a path lies below a directory, both taken by their components. -/
def LiesBelow (p dir : Path) : Prop :=
  dir.components <+: p.components ∧ dir.components ≠ p.components

instance (p dir : Path) : Decidable (p.LiesBelow dir) :=
  inferInstanceAs (Decidable (_ ∧ _))

end Path

/-! ## Places

Places are lists of components. Where no directory begins with another one, places below
the two differ.
-/

namespace Layout

variable (l : Layout)

/-- The directories of a layout. -/
def dirs : List Path :=
  [l.objectsDir, l.componentsDir, l.resultsDir]

/-- Whether no directory begins with another one, and the index lies below none of them. -/
structure Apart : Prop where
  /-- No directory begins with another one. -/
  dirs : l.dirs.Pairwise fun p q => ¬p.components <+: q.components ∧ ¬q.components <+: p.components
  /-- The index lies below no directory. -/
  index : ∀ index ∈ l.indexFile?, ∀ dir ∈ l.dirs, ¬index.LiesBelow dir

/-- The place of an object's file: directly in the directory of the objects. -/
def objectPlace (className : String) : List Component :=
  l.objectsDir.components ++ [.name (className ++ l.fileExtension)]

/-- The place of a method's file in a directory: under the namespace. -/
def methodPlace (dir : Path) (m : String × String) : List Component :=
  dir.components ++ [.name m.1, .name (m.2 ++ l.fileExtension)]

/-- The places of the files of a document, in order: one for each object, one for each
method, and one for each method with a result. -/
def places (o : Options) (d : Document) (permissive : Bool) : List (List Component) :=
  ((Model.generated d.objects).map fun object => l.objectPlace (o.className object.1)) ++
  ((Model.methods d).map fun m => l.methodPlace l.componentsDir (m.1, m.2.1)) ++
  ((Model.methods d).filter fun m => m.2.2.returns?.isSome || permissive).map fun m =>
    l.methodPlace l.resultsDir (m.1, m.2.1)

variable {l}

theorem objectPlace_injective : l.objectPlace.Injective := by
  intro n n' h
  simpa [objectPlace, String.append_left_inj] using h

theorem methodPlace_injective (dir : Path) : (l.methodPlace dir).Injective := by
  intro m m' h
  simpa [methodPlace, String.append_left_inj, Prod.ext_iff] using h

/-- The components of a file in a directory. -/
theorem components_sourceIn {dir : Path} {name : String} (hn : isIdentifier name)
    (he : '/' ∉ l.fileExtension.toList) :
    (l.sourceIn dir name).components = dir.components ++
    [Component.name (name ++ l.fileExtension)] :=
  dir.components_child (Path.isPart_append hn he)

/-- The components of the file of a method, in the directory of its namespace. -/
theorem components_methodFile {dir : Path} {ns method : String} (hn : isIdentifier ns)
    (hm : isIdentifier method) (he : '/' ∉ l.fileExtension.toList) :
    (l.sourceIn (dir.child ns) method).components = l.methodPlace dir (ns, method) := by
  have hpart : Path.IsPart (ns ++ "") := Path.isPart_append hn (by simp)
  rw [String.append_empty] at hpart
  rw [components_sourceIn hm he, dir.components_child hpart, methodPlace, List.append_assoc]
  rfl

/-- What begins with one of two lists does not begin with the other, if neither begins
with the other. -/
theorem disjoint_map_of_prefix {α β : Type} {p q : List Component} (h : ¬p <+: q ∧ ¬q <+: p)
    {f : α → List Component} {g : β → List Component} (hf : ∀ x, p <+: f x) (hg : ∀ y, q <+: g y)
    (xs : List α) (ys : List β) : (xs.map f).Disjoint (ys.map g) := by
  intro place hx hy
  obtain ⟨x, -, rfl⟩ := List.mem_map.1 hx
  obtain ⟨y, -, hxy⟩ := List.mem_map.1 hy
  rcases List.prefix_or_prefix_of_prefix (hf x) (hxy ▸ hg y) with hpq | hqp
  · exact h.1 hpq
  · exact h.2 hqp

section document

variable {o : Options} {d : Document} {permissive : Bool}

/-- The files of the entities lie at the places of the document. -/
theorem map_components_fileFor (he : '/' ∉ l.fileExtension.toList)
    (hclass : ∀ e ∈ (Model.collect d permissive).objects, isIdentifier (o.className e.name))
    (hparts : ∀ e ∈ (Model.collect d permissive).entities, ∀ part ∈ e.nameParts,
      isIdentifier part) :
    ((Model.collect d permissive).entities.map fun e =>
      (l.fileFor e (o.className e.name)).components) = l.places o d permissive := by
  -- The parts of every method are checked, as each has a class of its own.
  have hmethod : ∀ m ∈ Model.methods d, isIdentifier m.1 ∧ isIdentifier m.2.1 := by
    intro m hm
    have hc : Entity.ofMethod .component m.1 m.2.1 m.2.2 m.2.2.params? ∈
        (Model.collect d permissive).entities :=
      List.mem_append_left _ (List.mem_append_right _ (List.mem_map_of_mem hm))
    have hboth := hparts _ hc
    exact ⟨hboth m.1 List.mem_cons_self, hboth m.2.1 (List.mem_cons_of_mem _ List.mem_cons_self)⟩
  -- The three lists of entities are gone through one after the other.
  have hobjects : ((Model.collect d permissive).objects.map fun e =>
      (l.fileFor e (o.className e.name)).components) = (Model.generated d.objects).map fun object =>
      l.objectPlace (o.className object.1) := by
    rw [Model.collect, List.map_map]
    exact List.map_congr_left fun object ho =>
      components_sourceIn (hclass _ (List.mem_map_of_mem ho)) he
  have hcomponents :
      ((Model.collect d permissive).components.map fun e =>
        (l.fileFor e (o.className e.name)).components) = (Model.methods d).map fun m =>
        l.methodPlace l.componentsDir (m.1, m.2.1) := by
    rw [Model.collect, List.map_map]
    exact List.map_congr_left fun m hm => components_methodFile (hmethod m hm).1 (hmethod m hm).2 he
  have hresults : ((Model.collect d permissive).results.map fun e =>
      (l.fileFor e (o.className e.name)).components) =
      ((Model.methods d).filter fun m => m.2.2.returns?.isSome || permissive).map fun m =>
        l.methodPlace l.resultsDir (m.1, m.2.1) := by
    rw [Model.collect, List.map_map]
    refine List.map_congr_left fun m hm => ?_
    have hm := hmethod m (List.mem_filter.1 hm).1
    exact components_methodFile hm.1 hm.2 he
  rw [Model.entities, List.map_append, List.map_append, hobjects, hcomponents, hresults, places]

/-- No two places of a document are the same. -/
theorem nodup_places (hl : l.Apart) (hd : d.KeysDistinct)
    (hclass : ((Model.generated d.objects).map fun object => o.className object.1).Nodup) :
    (l.places o d permissive).Nodup := by
  -- The directories differ in pairs and none is in front of another.
  have hapart := hl.dirs
  simp only [Layout.dirs, List.pairwise_cons, List.forall_mem_cons] at hapart
  obtain ⟨⟨hoc, hor, -⟩, ⟨hcr, -⟩, -⟩ := hapart
  -- Within each of the three lists the places differ.
  have hobjects : ((Model.generated d.objects).map fun object =>
      l.objectPlace (o.className object.1)).Nodup := by
    simpa [Function.comp_def] using hclass.map objectPlace_injective
  have hmethods : ∀ dir : Path,
      ((Model.methods d).map fun m => l.methodPlace dir (m.1, m.2.1)).Nodup := by
    intro dir
    simpa [Function.comp_def] using (Model.nodup_map_methods hd).map (methodPlace_injective dir)
  have hresults :
      (((Model.methods d).filter fun m => m.2.2.returns?.isSome || permissive).map fun m =>
        l.methodPlace l.resultsDir (m.1, m.2.1)).Nodup :=
    (List.filter_sublist.map _).nodup (hmethods l.resultsDir)
  have hobject : ∀ name, l.objectsDir.components <+: l.objectPlace name := fun _ =>
    List.prefix_append _ _
  have hmethod : ∀ dir m, dir.components <+: l.methodPlace dir m := fun _ _ =>
    List.prefix_append _ _
  refine (hobjects.append (hmethods l.componentsDir) ?_).append hresults
    (List.disjoint_append_left.2 ⟨?_, ?_⟩)
  · exact disjoint_map_of_prefix hoc (fun _ => hobject _) (fun _ => hmethod _ _) _ _
  · exact disjoint_map_of_prefix hor (fun _ => hobject _) (fun _ => hmethod _ _) _ _
  · exact disjoint_map_of_prefix hcr (fun _ => hmethod _ _) (fun _ => hmethod _ _) _ _

/-- Every place of a document is below a directory. -/
theorem exists_dir_of_mem_places {place : List Component} (h : place ∈ l.places o d permissive) :
    ∃ dir ∈ l.dirs, dir.components <+: place ∧ dir.components ≠ place := by
  simp only [places, List.mem_append, List.mem_map] at h
  rcases h with (⟨object, -, rfl⟩ | ⟨m, -, rfl⟩) | ⟨m, -, rfl⟩
  · exact ⟨l.objectsDir, by simp [dirs], by simp [objectPlace]⟩
  · exact ⟨l.componentsDir, by simp [dirs], by simp [methodPlace]⟩
  · exact ⟨l.resultsDir, by simp [dirs], by simp [methodPlace]⟩

end document

end Layout

/-! ## Files

The paths of the files are compared by their components, as paths can spell one place in
different ways.
-/

/-- Every entity has a file of its own, at its place, and so has the index: where the
classes of the objects have different names, which are identifiers, and the directories
and the index of the layout lie apart, the files have different components, there are as
many as there are entities, with the index, and each is at its place. The maps of a
document have distinct keys if it was read (`Schema.keysDistinct_of_ofText`). -/
theorem Backend.nodup_components_of_generate {b : Backend} {l : Layout} {o : Options}
    {f : Fragments} {d : Document} {permissive : Bool} {files : List SourceFile} (hl : l.Apart)
    (he : '/' ∉ l.fileExtension.toList) (hd : d.KeysDistinct)
    (hdistinct : ((Model.collect d permissive).objects.map fun e => o.className e.name).Nodup)
    (hclass : ∀ e ∈ (Model.collect d permissive).objects, isIdentifier (o.className e.name))
    (h : b.generate l o f (.collect d permissive) = .ok files) :
    (files.map fun file => file.path.components).Nodup ∧
    files.length = (Model.collect d permissive).size + (if l.indexFile?.isSome then 1 else 0) ∧
    (files.map fun file => file.path.components) =
      l.places o d permissive ++ l.indexFile?.toList.map Path.components := by
  have hpaths := map_path_of_generate h
  -- The places are the components of the paths, which the layout gives.
  have hcomponents : (files.map fun file => file.path.components) =
      l.places o d permissive ++ l.indexFile?.toList.map Path.components := by
    rw [← Layout.map_components_fileFor he hclass fun e hm => (checkNames_of_generate h hm).1]
    simpa [Function.comp_def] using congrArg (List.map Path.components) hpaths
  refine ⟨?_, ?_, hcomponents⟩
  · rw [hcomponents]
    have hobjects : ((Model.generated d.objects).map fun object => o.className object.1).Nodup := by
      rw [Model.collect, List.map_map] at hdistinct
      exact hdistinct
    refine (Layout.nodup_places hl hd hobjects).append ?_ ?_
    · cases l.indexFile? <;> simp
    -- The index is in no directory of the layout, so it is none of the other files.
    · intro place hplace hindex
      obtain ⟨index, hi, rfl⟩ := List.mem_map.1 hindex
      obtain ⟨dir, hdir, hbelow⟩ := Layout.exists_dir_of_mem_places hplace
      exact hl.index index (Option.mem_toList.1 hi) dir hdir hbelow
  · have hlength := congrArg List.length hpaths
    cases hi : l.indexFile? <;> simpa [hi, Model.size] using hlength

/-- A document with two objects, and a method that two files come of. -/
def pingDocument : Document :=
  { friendDocument "Team" with
    components := ⟨[("Gateway", ⟨⟨[("ping", ⟨none, false, false, false, none, none⟩)]⟩⟩)]⟩ }

/-- A layout with an index beside its directories. -/
def indexedDirs : Layout :=
  { threeDirs with indexFile? := some ⟨"out/index.js"⟩ }

/-- The text of the document. -/
def pingText : String :=
  "\x7b\"objects\":\x7b\"User\":\x7b\"properties\":\x7b\"friend\":" ++
    "\x7b\"object\":\"Team\"\x7d\x7d\x7d,\"Team\":\x7b\x7d\x7d," ++
    "\"components\":\x7b\"Gateway\":\x7b\"methods\":\x7b\"ping\":\x7b\x7d\x7d\x7d\x7d\x7d"

/-- It is read as the document. -/
theorem ofText_pingText : Document.ofText pingText = .ok pingDocument := by
  let friend : Json.Raw := .object [(.plain ['f', 'r', 'i', 'e', 'n', 'd'] (by decide),
    .object [(.plain ['o', 'b', 'j', 'e', 'c', 't'] (by decide),
      .scalar (.text (.plain ['T', 'e', 'a', 'm'] (by decide))))])]
  let value : Json.Raw := .object [
    (.plain ['o', 'b', 'j', 'e', 'c', 't', 's'] (by decide), .object [
      (.plain ['U', 's', 'e', 'r'] (by decide),
        .object [(.plain ['p', 'r', 'o', 'p', 'e', 'r', 't', 'i', 'e', 's'] (by decide), friend)]),
      (.plain ['T', 'e', 'a', 'm'] (by decide), .object [])]),
    (.plain ['c', 'o', 'm', 'p', 'o', 'n', 'e', 'n', 't', 's'] (by decide), .object [
      (.plain ['G', 'a', 't', 'e', 'w', 'a', 'y'] (by decide),
        .object [(.plain ['m', 'e', 't', 'h', 'o', 'd', 's'] (by decide),
          .object [(.plain ['p', 'i', 'n', 'g'] (by decide), .object [])])])])]
  have hvalue : value.Spells pingText := Json.Raw.spells_of_flatten (by decide +kernel)
  exact (Schema.ofText_eq_ok_iff_of_spells hvalue).2 rfl

/-- Two objects, a component, a result and the index of a document that was read have
five files. -/
theorem Backend.nodup_components_pingDocument :
    Document.ofText pingText = .ok pingDocument ∧ ∃ files,
      javaScript.generate indexedDirs (appNaming "Team" "Squad") {} (.collect pingDocument true) =
        .ok files ∧
      (files.map fun file => file.path.components).Nodup ∧ files.length = 5 := by
  have hl : indexedDirs.Apart := by
    refine ⟨by decide, ?_⟩
    rintro index ⟨⟩
    decide
  have hd := Schema.keysDistinct_of_ofText ofText_pingText
  obtain ⟨files, hf⟩ : ∃ files,
      javaScript.generate indexedDirs (appNaming "Team" "Squad") {} (.collect pingDocument true) =
      .ok files := ⟨_, rfl⟩
  obtain ⟨hnodup, hlength, -⟩ :=
    nodup_components_of_generate hl (by decide) hd (by decide) (by decide) hf
  exact ⟨ofText_pingText, files, hf, hnodup, hlength⟩

end Classwright
