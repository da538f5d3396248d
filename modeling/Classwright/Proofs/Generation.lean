import Mathlib.Tactic.ByContra
import Classwright.Proofs.Outcome
import Classwright.Render.Generate

/-!
# Where generation stops

Whether the file of an entity can be generated does not depend on the target language,
although the templates of the languages look for the index at different points
(`Backend.map_template`). `filePlace` decides it, together with the path of the file, so
that the outcome of a whole model up to the contents of its files is that of going
through the entities with `filePlace` (`Backend.map_path_generate`). It fails at the
first entity that is `Refused` (`Backend.generate_outcome`).
-/

namespace Classwright

/-- How the types of a language are written. -/
def Backend.types (b : Backend) (o : Options) : TypeSystem :=
  match b with
  | .javaScript => JavaScript.types o
  | .cSharp => CSharp.types o
  | .actionScript => ActionScript.types o

/-- Whether an entity looks results up while there is no index. -/
def LacksIndex (l : Layout) (e : Entity) : Prop :=
  (∃ p ∈ e.properties, p.shape.mentionsResult) ∧ l.indexFile? = none

/-- Whether an entity gets no file: its names cannot be used, or it lacks an index. -/
def Refused (l : Layout) (e : Entity) : Prop :=
  checkNames e ≠ .ok () ∨ LacksIndex l e

/-! ## One entity

The name is checked first, and then the index is needed or not. Neither depends on the
language.
-/

theorem requireIndex_eq_ok_iff {l : Layout} {e : Entity} :
    requireIndex l e = .ok () ↔ ¬LacksIndex l e := by
  simp [requireIndex, LacksIndex, Entity.usesResultLookup]

/-- It fails exactly if the entity lacks it, and always in the same way. -/
theorem requireIndex_eq_error_iff {l : Layout} {e : Entity} {fault : RenderFault} :
    requireIndex l e = .error fault ↔ LacksIndex l e ∧ fault = .resultWithoutIndex := by
  by_cases h : LacksIndex l e
  · have hr : requireIndex l e = .error .resultWithoutIndex := by
      obtain ⟨hp, hi⟩ := h
      simpa [requireIndex, Entity.usesResultLookup, hi] using hp
    simp [hr, h, eq_comm]
  · simp [requireIndex_eq_ok_iff.2 h, h]

/-- The import of the index is missing exactly where an index is required and there is
none. -/
theorem JavaScript.map_indexImport (l : Layout) (o : Options) (e : Entity) :
    (JavaScript.indexImport l o e).map (fun _ => ()) = requireIndex l e := by
  unfold JavaScript.indexImport requireIndex
  cases e.usesResultLookup <;> cases l.indexFile? <;> rfl

/-- The templates of all languages fail for the same entities. -/
theorem Backend.map_template (b : Backend) (l : Layout) (o : Options) (e : Entity) :
    (b.template l o e).map (fun _ => ()) = requireIndex l e := by
  cases b with
  | javaScript =>
    rw [← JavaScript.map_indexImport l o e]
    simp only [Backend.template, JavaScript.template, JavaScript.imports]
    cases JavaScript.indexImport l o e <;> rfl
  | cSharp =>
    simp only [Backend.template, CSharp.template]
    cases requireIndex l e <;> rfl
  | actionScript =>
    simp only [Backend.template, ActionScript.template]
    cases requireIndex l e <;> rfl

/-- The path of the file of an entity, if it can be generated. -/
def filePlace (l : Layout) (o : Options) (e : Entity) : Outcome Path := do
  checkNames e
  (requireIndex l e).mapError (Failure.render e.name)
  return l.fileFor e (o.className e.name)

/-- The path of a generated file does not depend on the language, nor does the failure. -/
theorem Backend.map_path_generateEntity (b : Backend) (l : Layout) (o : Options) (f : Fragments)
    (e : Entity) : (b.generateEntity l o f e).map SourceFile.path = filePlace l o e := by
  unfold Backend.generateEntity Backend.renderEntity filePlace
  rw [← b.map_template l o e]
  cases checkNames e with
  | error failure => rfl
  | ok u => cases b.template l o e <;> rfl

/-- An entity has a place exactly if it is not refused, and then by the layout. -/
theorem filePlace_eq_ok_iff {l : Layout} {o : Options} {e : Entity} {path : Path} :
    filePlace l o e = .ok path ↔ ¬Refused l e ∧ path = l.fileFor e (o.className e.name) := by
  rw [Refused, not_or, not_not, ← requireIndex_eq_ok_iff]
  constructor
  · intro h
    obtain ⟨⟨⟩, hnames, h⟩ := Outcome.bind_eq_ok.1 h
    obtain ⟨⟨⟩, hindex, h⟩ := Outcome.bind_eq_ok.1 h
    cases h
    exact ⟨⟨hnames, Outcome.mapError_eq_ok.1 hindex⟩, rfl⟩
  · rintro ⟨⟨hnames, hindex⟩, rfl⟩
    rw [filePlace, hnames, hindex]
    rfl

/-- A refused entity is named in the failure; names are looked at before the index. -/
theorem filePlace_eq_error_iff {l : Layout} {o : Options} {e : Entity} {failure : Failure} :
    filePlace l o e = .error failure ↔ ∃ fault, failure = .render e.name fault ∧
      (nameFault? e = some fault ∨ nameFault? e = none ∧ LacksIndex l e ∧
        fault = .resultWithoutIndex) := by
  unfold filePlace checkNames
  cases nameFault? e with
  | some fault => simp [bind, Except.bind, eq_comm]
  | none =>
    cases h : requireIndex l e with
    | ok u =>
      have hl : ¬LacksIndex l e := requireIndex_eq_ok_iff.1 h
      simp [bind, Except.bind, pure, Except.pure, hl]
    | error fault =>
      obtain ⟨hl, rfl⟩ := requireIndex_eq_error_iff.1 h
      change Except.error (Failure.render e.name .resultWithoutIndex) = .error failure ↔ _
      simp [hl, eq_comm]

/-! ## A whole model

The entities are gone through in their order and the first one that is refused decides
the failure, in every language the same.
-/

/-- Up to the contents of the files, the outcome of a model is the same in every
language. -/
theorem Backend.map_path_generate (b : Backend) (l : Layout) (o : Options) (f : Fragments)
    (m : Model) : (b.generate l o f m).map (List.map SourceFile.path) =
      (m.entities.mapM (filePlace l o)).map (· ++ l.indexFile?.toList) := by
  have hp : filePlace l o = fun e => (b.generateEntity l o f e).map SourceFile.path :=
    funext fun e => (b.map_path_generateEntity l o f e).symm
  rw [hp, ← Outcome.map_mapM]
  unfold Backend.generate Backend.renderIndex
  cases m.entities.mapM (b.generateEntity l o f) with
  | error failure => rfl
  | ok files => cases l.indexFile? <;> simp [bind, Except.bind, pure, Except.pure, Except.map]

/-- An entity has no place exactly if it is refused. -/
theorem filePlace_isError_iff {l : Layout} {o : Options} {e : Entity} :
    (∃ failure, filePlace l o e = .error failure) ↔ Refused l e := by
  cases h : filePlace l o e with
  | ok path => simp [(filePlace_eq_ok_iff.1 h).1]
  | error failure =>
    have hr : Refused l e := by
      by_contra hr
      simp [filePlace_eq_ok_iff.2 ⟨hr, rfl⟩] at h
    simp [hr]

/-- Going through the entities fails exactly when one is refused, and the failure names
the first such. -/
theorem mapM_filePlace_eq_error_iff {l : Layout} {o : Options} {es : List Entity}
    {failure : Failure} :
    es.mapM (filePlace l o) = .error failure ↔ ∃ before e after, es = before ++ e :: after ∧
      (∀ x ∈ before, ¬Refused l x) ∧ filePlace l o e = .error failure := by
  have hok : ∀ x, (∃ path, filePlace l o x = .ok path) ↔ ¬Refused l x := by
    intro x
    simp [filePlace_eq_ok_iff]
  simp only [Outcome.mapM_eq_error_iff, hok]

/-- Some entity has no place exactly if one is refused. -/
theorem exists_mapM_filePlace_eq_error_iff {l : Layout} {o : Options} {es : List Entity} :
    (∃ failure, es.mapM (filePlace l o) = .error failure) ↔ ∃ e ∈ es, Refused l e := by
  constructor
  · rintro ⟨failure, h⟩
    obtain ⟨before, e, after, rfl, -, he⟩ := mapM_filePlace_eq_error_iff.1 h
    exact ⟨e, by simp, filePlace_isError_iff.1 ⟨failure, he⟩⟩
  · rintro ⟨e, he, hr⟩
    cases h : es.mapM (filePlace l o) with
    | error failure => exact ⟨failure, rfl⟩
    | ok paths =>
      obtain ⟨path, -, hp⟩ := Outcome.exists_of_mapM_eq_ok h e he
      exact absurd hr (filePlace_eq_ok_iff.1 hp).1

/-- The paths of a model without refused entities. -/
theorem mapM_filePlace_eq_ok {l : Layout} {o : Options} :
    ∀ {es : List Entity} {paths : List Path}, es.mapM (filePlace l o) = .ok paths →
      paths = es.map fun e => l.fileFor e (o.className e.name)
  | [], _, h => by
    cases h
    rfl
  | e :: es, paths, h => by
    rw [List.mapM_cons, Outcome.bind_eq_ok] at h
    obtain ⟨path, hp, h⟩ := h
    obtain ⟨rest, hr, h⟩ := Outcome.bind_eq_ok.1 h
    cases h
    rw [List.map_cons, (filePlace_eq_ok_iff.1 hp).2, mapM_filePlace_eq_ok hr]

/-- A generation fails as finding the places does. -/
theorem Backend.generate_eq_error_iff {b : Backend} {l : Layout} {o : Options} {f : Fragments}
    {m : Model} {failure : Failure} :
    b.generate l o f m = .error failure ↔ m.entities.mapM (filePlace l o) = .error failure := by
  have h := b.map_path_generate l o f m
  cases hg : b.generate l o f m <;> cases hm : m.entities.mapM (filePlace l o) <;>
    simp_all [Except.map]

/-- Generation fails exactly when some entity is refused. -/
theorem Backend.generate_isError_iff {b : Backend} {l : Layout} {o : Options} {f : Fragments}
    {m : Model} :
    (∃ failure, b.generate l o f m = .error failure) ↔ ∃ e ∈ m.entities, Refused l e := by
  simp only [generate_eq_error_iff, exists_mapM_filePlace_eq_error_iff]

/-- The index file of a model, if it has a place. -/
def Backend.indexFiles (b : Backend) (l : Layout) (o : Options) (m : Model) : List SourceFile :=
  l.indexFile?.toList.map fun path => ⟨path, Text.unlines (b.indexLines l o path (.ofModel m))⟩

/-- The files of a model are those of its entities, and after them the index. -/
theorem Backend.exists_rendered_of_generate {b : Backend} {l : Layout} {o : Options} {f : Fragments}
    {m : Model} {files : List SourceFile} (h : b.generate l o f m = .ok files) :
    ∃ rendered, m.entities.mapM (b.generateEntity l o f) = .ok rendered ∧
    files = rendered ++ b.indexFiles l o m := by
  obtain ⟨rendered, hm, h⟩ := Outcome.bind_eq_ok.1 h
  refine ⟨rendered, hm, ?_⟩
  unfold renderIndex at h
  cases hi : l.indexFile? with
  | none =>
    simp only [hi] at h
    cases h
    simp [indexFiles, hi]
  | some path =>
    simp only [hi] at h
    cases h
    simp [indexFiles, hi]

/-- The file of an entity is the entity's template with hand-written texts put in. -/
theorem Backend.exists_template_of_renderEntity {b : Backend} {l : Layout} {o : Options}
    {e : Entity}
    {h : Hooks} {file : SourceFile} (hr : b.renderEntity l o e h = .ok file) :
    ∃ t, b.template l o e = .ok t ∧ file = ⟨l.fileFor e (o.className e.name), t.fill h⟩ := by
  obtain ⟨t, ht, hr⟩ := Outcome.bind_eq_ok.1 hr
  cases hr
  exact ⟨t, Outcome.mapError_eq_ok.1 ht, rfl⟩

/-- The texts are those for the entity. -/
theorem Backend.exists_template_of_generateEntity {b : Backend} {l : Layout} {o : Options}
    {f : Fragments}
    {e : Entity} {file : SourceFile} (hg : b.generateEntity l o f e = .ok file) :
    ∃ t, b.template l o e = .ok t ∧
      file = ⟨l.fileFor e (o.className e.name), t.fill (f.hooksFor e)⟩ := by
  obtain ⟨-, -, hr⟩ := Outcome.bind_eq_ok.1 hg
  exact exists_template_of_renderEntity hr

/-- The file of an entity is among the files of its model. -/
theorem Backend.exists_file_of_generate {b : Backend} {l : Layout} {o : Options} {f : Fragments}
    {m : Model} {files : List SourceFile} (h : b.generate l o f m = .ok files) {e : Entity}
    (he : e ∈ m.entities) :
    ∃ t, b.template l o e = .ok t ∧
    ⟨l.fileFor e (o.className e.name), t.fill (f.hooksFor e)⟩ ∈ files := by
  obtain ⟨rendered, hm, rfl⟩ := exists_rendered_of_generate h
  obtain ⟨file, hf, hg⟩ := Outcome.exists_of_mapM_eq_ok hm e he
  obtain ⟨t, ht, rfl⟩ := exists_template_of_generateEntity hg
  exact ⟨t, ht, List.mem_append_left _ hf⟩

/-- The paths of the files of a model. -/
theorem Backend.map_path_of_generate {b : Backend} {l : Layout} {o : Options} {f : Fragments}
    {m : Model} {files : List SourceFile} (h : b.generate l o f m = .ok files) :
    files.map SourceFile.path = (m.entities.map fun e => l.fileFor e (o.className e.name)) ++
    l.indexFile?.toList := by
  have hp := b.map_path_generate l o f m
  rw [h] at hp
  cases hm : m.entities.mapM (filePlace l o) with
  | error failure => simp [hm, Except.map] at hp
  | ok paths => simpa [hm, Except.map, mapM_filePlace_eq_ok hm] using hp

/-- All languages give files at the same paths in the same order, or all fail in the
same way. They fail exactly when some entity is refused, and the failure is about the
first such entity. -/
theorem Backend.generate_outcome (l : Layout) (o : Options) (f : Fragments) (m : Model) :
    ((∀ b : Backend, ∃ files, b.generate l o f m = .ok files ∧ files.map SourceFile.path =
        (m.entities.map fun e => l.fileFor e (o.className e.name)) ++ l.indexFile?.toList) ∨
      ∃ failure, ∀ b : Backend, b.generate l o f m = .error failure) ∧
    ∀ b : Backend,
      ((∃ failure, b.generate l o f m = .error failure) ↔ ∃ e ∈ m.entities, Refused l e) ∧
      ∀ failure, b.generate l o f m = .error failure → ∃ before e after fault,
        m.entities = before ++ e :: after ∧ (∀ x ∈ before, ¬Refused l x) ∧ Refused l e ∧
          failure = .render e.name fault := by
  refine ⟨?_, fun b => ⟨generate_isError_iff, ?_⟩⟩
  -- The places decide: if all entities have one, every back-end succeeds with them.
  · cases hm : m.entities.mapM (filePlace l o) with
    | error failure => exact Or.inr ⟨failure, fun b => generate_eq_error_iff.2 hm⟩
    | ok paths =>
      refine Or.inl fun b => ?_
      cases hg : b.generate l o f m with
      | error failure => simp [generate_eq_error_iff.1 hg] at hm
      | ok files => exact ⟨files, rfl, map_path_of_generate hg⟩
  · intro failure h
    -- Otherwise the first entity without a place is the one that fails.
    obtain ⟨before, e, after, hs, hb, he⟩ :=
      mapM_filePlace_eq_error_iff.1 (generate_eq_error_iff.1 h)
    obtain ⟨fault, hf, -⟩ := filePlace_eq_error_iff.1 he
    exact ⟨before, e, after, fault, hs, hb, filePlace_isError_iff.1 ⟨failure, he⟩, hf⟩

end Classwright
