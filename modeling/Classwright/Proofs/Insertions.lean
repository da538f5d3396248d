import Classwright.Proofs.Generation

/-!
# Hand-written texts are only put in

What is generated for an entity is cut at four places, and none of the five segments
depends on the hand-written texts (`Backend.renderEntity_segments`). At each place
stands the text for it, if there is one, as it was written: it is ended by a line feed
and may be set off by empty lines (`Insertion`). A text that is registered for the
entities of a kind and a name has no influence on any other file
(`Backend.exists_hooksFor_ne_of_generate`).
-/

namespace Classwright

/-! ## One text

A hook is a text with a margin. Where there is nothing to put in, there is no margin
either.
-/

/-- Whether a text ends with a line feed. -/
def EndsLine (text : String) : Prop :=
  ∃ start, text = start ++ "\n"

/-- Whether a block is what is put in for a text: the text with a line feed at its end,
added if there is none, and with at most one more line feed on either side; nothing if
there is no text. -/
def Insertion : Option String → String → Prop
  | none, block => block = ""
  | some text, block => ∃ before ∈ ["", "\n"], ∃ ending ∈ ["", "\n"], ∃ after ∈ ["", "\n"],
    block = before ++ (text ++ ending) ++ after ∧ EndsLine (text ++ ending) ∧
    (EndsLine text → ending = "")

/-- A text ends a line if its last character is a line feed. -/
theorem endsLine_iff {text : String} : EndsLine text ↔ text.toList.getLast? = some '\n' := by
  rw [List.getLast?_eq_some_iff]
  constructor
  · rintro ⟨start, rfl⟩
    exact ⟨start.toList, by rw [String.toList_append]; rfl⟩
  · rintro ⟨cs, hcs⟩
    exact ⟨String.ofList cs, by rw [← String.ofList_toList (s := text), hcs, String.ofList_append]⟩

/-- What `terminated` adds to a text. -/
theorem exists_terminated_eq (text : String) :
    ∃ ending ∈ ["", "\n"], terminated text = text ++ ending ∧
    EndsLine (text ++ ending) ∧ (EndsLine text → ending = "") := by
  by_cases h : EndsLine text
  · have heq : terminated text = text := by
      rw [terminated, if_pos (by simpa using endsLine_iff.1 h)]
    refine ⟨"", by simp, ?_, ?_, fun _ => rfl⟩
    · rw [heq, String.append_empty]
    · rwa [String.append_empty]
  · have heq : terminated text = text ++ "\n" := by
      rw [terminated, if_neg (by simpa using fun hl => h (endsLine_iff.2 hl))]
    exact ⟨"\n", by simp, heq, ⟨text, rfl⟩, fun h' => absurd h' h⟩

/-- What a hook adds to a file is its text and the blank lines around it. -/
theorem Margin.insertion_block (margin : Margin) :
    ∀ text? : Option String, Insertion text? (margin.block text?)
  | none => rfl
  | some text => by
    have hif : ∀ b : Bool, (if b then "\n" else "") ∈ ["", "\n"] := by decide
    obtain ⟨ending, he, heq, hends, hkept⟩ := exists_terminated_eq text
    refine ⟨_, hif margin.before, ending, he, _, hif margin.after, ?_, hends, hkept⟩
    rw [Margin.block, heq]

/-! ## One file

The text of a file is cut at its four hooks, and the five pieces are the same whatever
is put in.
-/

/-- The margin of the text at a place. -/
def Template.margin (t : Template) : Hook → Margin
  | .imports => t.importsMargin
  | .properties => t.propertiesMargin
  | .statements => t.statementsMargin
  | .members => t.membersMargin

namespace Backend

variable (b : Backend) (l : Layout) (o : Options)

/-- The file of an entity has five segments and four blocks between them, where the
segments and the way to write a block are the same for all hand-written texts. An entity
without a file has none for any texts. -/
theorem renderEntity_segments (e : Entity) :
    (∃ failure, ∀ h, b.renderEntity l o e h = .error failure) ∨
    ∃ (path : Path) (s₀ s₁ s₂ s₃ s₄ : String) (block : Hook → Option String → String),
      (∀ hook text?, Insertion text? (block hook text?)) ∧
      ∀ h : Hooks, b.renderEntity l o e h = .ok ⟨path, s₀ ++ block .imports h.imports? ++ s₁ ++
        block .properties h.properties? ++ s₂ ++ block .statements h.statements? ++ s₃ ++
        block .members h.members? ++ s₄⟩ := by
  -- The template does not depend on the hooks, so neither do the segments.
  cases ht : b.template l o e with
  | error fault =>
    refine Or.inl ⟨.render e.name fault, fun h => ?_⟩
    rw [renderEntity, ht]
    rfl
  | ok t =>
    refine Or.inr ⟨l.fileFor e (o.className e.name), Text.unlines t.opening, Text.unlines t.fields,
      Text.unlines t.constructor, Text.unlines t.members, Text.unlines t.closing, fun hook =>
      (t.margin hook).block, fun hook => (t.margin hook).insertion_block, fun h => ?_⟩
    rw [renderEntity, ht]
    rfl

end Backend

/-! ## All files

A hook that is registered belongs to one entity, so the files of all others are rendered
as before.
-/

/-- Registers a text for a place in the files of the entities of a kind and a name. -/
def Fragments.insert (f : Fragments) (kind : EntityKind) (name : String) (hook : Hook)
    (text : String) : Fragments :=
  match kind with
  | .object => { f with objects := f.objects.insert name hook text }
  | .component => { f with components := f.components.insert name hook text }
  | .result => { f with results := f.results.insert name hook text }

theorem Fragments.forKind_insert (f : Fragments) (kind : EntityKind) (name : String) (hook : Hook)
    (text : String) (k : EntityKind) : (f.insert kind name hook text).forKind k =
      if k = kind then (f.forKind k).insert name hook text else f.forKind k := by
  cases kind <;> cases k <;> rfl

theorem Catalog.hooksFor_insert_of_ne (c : Catalog) {name other : String} (h : name ≠ other)
    (hook : Hook) (text : String) :
    (c.insert name hook text).hooksFor other = c.hooksFor other := by
  rw [hooksFor, insert, OrderedMap.get?_insert, if_neg h, hooksFor]

/-- Only the entities of the kind and the name that a text is registered for may get
other texts. -/
theorem Fragments.hooksFor_insert {f : Fragments} {kind : EntityKind} {name : String} {hook : Hook}
    {text : String} {e : Entity} (h : (f.insert kind name hook text).hooksFor e ≠ f.hooksFor e) :
    e.kind = kind ∧ e.name = name := by
  rw [hooksFor, forKind_insert] at h
  split at h
  · next hk =>
    refine ⟨hk, ?_⟩
    by_contra hn
    exact h (Catalog.hooksFor_insert_of_ne _ (Ne.symm hn) hook text)
  · exact absurd rfl h

namespace Backend

variable {b : Backend} {l : Layout} {o : Options} {m : Model} {f f' : Fragments}
    {files files' : List SourceFile}

/-- Where the files of a model differ with other texts, there is the file of an entity
that has other texts. -/
theorem exists_hooksFor_ne_of_generate (h : b.generate l o f m = .ok files)
    (h' : b.generate l o f' m = .ok files') {i : Nat} (hi : files'[i]? ≠ files[i]?) :
    ∃ e, m.entities[i]? = some e ∧ f'.hooksFor e ≠ f.hooksFor e := by
  obtain ⟨rendered, hr, rfl⟩ := exists_rendered_of_generate h
  obtain ⟨rendered', hr', rfl⟩ := exists_rendered_of_generate h'
  have hlength : rendered'.length = rendered.length := by
    rw [Outcome.length_of_mapM_eq_ok hr, Outcome.length_of_mapM_eq_ok hr']
  -- The index is the same, so the difference is among the entities.
  have hne : rendered'[i]? ≠ rendered[i]? := by
    intro heq
    apply hi
    rw [List.getElem?_append, List.getElem?_append, hlength, heq]
  rw [Outcome.getElem?_of_mapM_eq_ok hr, Outcome.getElem?_of_mapM_eq_ok hr'] at hne
  cases he : m.entities[i]? with
  | none => simp [he] at hne
  | some e =>
    refine ⟨e, rfl, fun hooks => hne ?_⟩
    simp only [he, Option.bind_some, generateEntity, hooks]

theorem generate_error_of_generate_error {failure : Failure}
    (h : b.generate l o f m = .error failure) (f' : Fragments) :
    b.generate l o f' m = .error failure :=
  generate_eq_error_iff.2 (generate_eq_error_iff.1 h)

/-- Without texts, the segments stand side by side. -/
theorem renderEntity_of_segments {e : Entity} {path : Path} {s₀ s₁ s₂ s₃ s₄ : String}
    {block : Hook → Option String → String}
    (hblock : ∀ hook text?, Insertion text? (block hook text?))
    (h : ∀ h : Hooks, b.renderEntity l o e h = .ok ⟨path, s₀ ++ block .imports h.imports? ++ s₁ ++
      block .properties h.properties? ++ s₂ ++ block .statements h.statements? ++ s₃ ++
      block .members h.members? ++ s₄⟩) :
    b.renderEntity l o e {} = .ok ⟨path, s₀ ++ s₁ ++ s₂ ++ s₃ ++ s₄⟩ := by
  have hnone : ∀ hook, block hook none = "" := fun hook => hblock hook none
  rw [h]
  simp only [hnone, String.append_empty]

/-- A text that is registered leaves every file in its place, and changes the files of
the entities of its kind and name only. -/
theorem generate_insert_of_ok {kind : EntityKind} {name : String} {hook : Hook} {text : String}
    (h : b.generate l o f m = .ok files)
    (h' : b.generate l o (f.insert kind name hook text) m = .ok files') :
    files'.map SourceFile.path = files.map SourceFile.path ∧
    ∀ i : Nat, files'[i]? ≠ files[i]? → ∃ e, m.entities[i]? = some e ∧ e.kind = kind ∧
    e.name = name := by
  refine ⟨by rw [map_path_of_generate h, map_path_of_generate h'], fun i hi => ?_⟩
  obtain ⟨e, he, hooks⟩ := exists_hooksFor_ne_of_generate h h' hi
  exact ⟨e, he, Fragments.hooksFor_insert hooks⟩

/-- Hand-written texts are only put in. The file of an entity, if there is one, consists
of five segments that are the same for all texts, and of the four texts between them,
each as it was written. A text that is registered for the entities of a kind and a name
changes the files of these entities only, which stand where the entities stand. -/
theorem fragments_inserted (b : Backend) (l : Layout) (o : Options) :
    (∀ e : Entity, (∃ failure, ∀ h, b.renderEntity l o e h = .error failure) ∨
      ∃ (path : Path) (s₀ s₁ s₂ s₃ s₄ : String) (block : Hook → Option String → String),
        (∀ hook text?, Insertion text? (block hook text?)) ∧
        b.renderEntity l o e {} = .ok ⟨path, s₀ ++ s₁ ++ s₂ ++ s₃ ++ s₄⟩ ∧
        ∀ h : Hooks, b.renderEntity l o e h = .ok ⟨path, s₀ ++ block .imports h.imports? ++ s₁ ++
          block .properties h.properties? ++ s₂ ++ block .statements h.statements? ++ s₃ ++
          block .members h.members? ++ s₄⟩) ∧
    ∀ (f : Fragments) (m : Model) (kind : EntityKind) (name : String) (hook : Hook) (text : String),
      (∃ failure, b.generate l o f m = .error failure ∧
        b.generate l o (f.insert kind name hook text) m = .error failure) ∨
      ∃ files files', b.generate l o f m = .ok files ∧
        b.generate l o (f.insert kind name hook text) m = .ok files' ∧
        files.map SourceFile.path =
          (m.entities.map fun e => l.fileFor e (o.className e.name)) ++ l.indexFile?.toList ∧
        files'.map SourceFile.path = files.map SourceFile.path ∧
        ∀ i : Nat, files'[i]? ≠ files[i]? →
          ∃ e, m.entities[i]? = some e ∧ e.kind = kind ∧ e.name = name := by
  refine ⟨fun e => ?_, fun f m kind name hook text => ?_⟩
  · rcases b.renderEntity_segments l o e with h | ⟨path, s₀, s₁, s₂, s₃, s₄, block, hblock, hfile⟩
    · exact Or.inl h
    · exact Or.inr ⟨path, s₀, s₁, s₂, s₃, s₄, block, hblock,
        renderEntity_of_segments hblock hfile, hfile⟩
  · cases h : b.generate l o f m with
    | error failure => exact Or.inl ⟨failure, rfl, generate_error_of_generate_error h _⟩
    | ok files =>
      -- A generation that fails does so whatever the fragments.
      cases h' : b.generate l o (f.insert kind name hook text) m with
      | error failure =>
        rw [generate_error_of_generate_error h' f] at h
        cases h
      | ok files' =>
        exact Or.inr ⟨files, files', rfl, rfl, map_path_of_generate h, generate_insert_of_ok h h'⟩

end Backend

end Classwright
