import Classwright.Proofs.Generation

/-!
# The comments of a file and the code around them

A generated file has a comment for the class and one for every property
(`Backend.docBlocks`), with code between them. The code does not depend on the
descriptions of the entity: the files of entities that differ in nothing else are the
same code with other comments in it (`Backend.fill_eq_weave`).
-/

namespace Classwright

/-! ## Descriptions of an entity

Leaving out the descriptions changes neither names nor shapes, so whatever is computed
from these is the same without them.
-/

/-- A property without its description. -/
def Property.undescribed (p : Property) : Property :=
  { p with description? := none }

namespace Entity

/-- An entity without its descriptions. -/
def undescribed (e : Entity) : Entity :=
  { e with description? := none, properties := e.properties.map Property.undescribed }

/-- The descriptions of an entity and of its properties. -/
def descriptions (e : Entity) : List String :=
  e.description?.toList ++ e.properties.filterMap Property.description?

variable {α : Type} {e : Entity} {f : Property → α}

theorem map_undescribed (hf : ∀ p, f p.undescribed = f p) :
    e.undescribed.properties.map f = e.properties.map f := by
  simp [undescribed, hf]

theorem flatMap_undescribed {f : Property → List α} (hf : ∀ p, f p.undescribed = f p) :
    e.undescribed.properties.flatMap f = e.properties.flatMap f := by
  simp [undescribed, List.flatMap_map, hf]

theorem isEmpty_undescribed : e.undescribed.properties.isEmpty = e.properties.isEmpty := by
  simp [undescribed]

theorem referencedObjects_undescribed : e.undescribed.referencedObjects = e.referencedObjects := by
  unfold referencedObjects
  rw [flatMap_undescribed fun p => rfl]

theorem usesResultLookup_undescribed : e.undescribed.usesResultLookup = e.usesResultLookup := by
  simp only [usesResultLookup, undescribed, List.any_map]
  rfl

end Entity

/-- Descriptions import nothing. -/
theorem importedObjects_undescribed (e : Entity) :
    importedObjects e.undescribed = importedObjects e := by
  unfold importedObjects
  rw [Entity.referencedObjects_undescribed]
  rfl

theorem propertyNames_undescribed (e : Entity) : propertyNames e.undescribed = propertyNames e := by
  unfold propertyNames
  rw [Entity.map_undescribed fun p => rfl]

theorem requireIndex_undescribed (l : Layout) (e : Entity) :
    requireIndex l e.undescribed = requireIndex l e := by
  unfold requireIndex
  rw [Entity.usesResultLookup_undescribed]

/-! ## Comments between code

A template is filled by writing code, a comment, code and so on. `Surroundings` are the
pieces of code, and they fit an entity if its file is woven from them.
-/

/-- Code before and after every block, with the blocks. -/
def weave (code : List (String × String)) (blocks : List String) : String :=
  String.join (List.zipWith (fun around block => around.1 ++ block ++ around.2) code blocks)

/-- The first comment is woven into the code around it. -/
theorem weave_cons (before after block : String) (code : List (String × String))
    (blocks : List String) :
    weave ((before, after) :: code) (block :: blocks) = before ++ block ++ after ++
    weave code blocks := by
  rw [weave, List.zipWith_cons_cons, String.join_cons]
  rfl

theorem Text.unlines_append (ls ms : List String) :
    unlines (ls ++ ms) = unlines ls ++ unlines ms := by
  simp [unlines]

/-- Code that is made property by property is woven with comments made in the same way. -/
theorem weave_map {α : Type} (before block after : α → List String) : ∀ xs : List α,
    weave (xs.map fun x => (Text.unlines (before x), Text.unlines (after x)))
        (xs.map fun x => Text.unlines (block x)) =
      Text.unlines (xs.flatMap fun x => before x ++ block x ++ after x)
  | [] => rfl
  | x :: xs => by
    rw [List.map_cons, List.map_cons, weave_cons, weave_map before block after xs,
      List.flatMap_cons, Text.unlines_append, Text.unlines_append, Text.unlines_append]

/-- The lines of a file around its comments. -/
structure Surroundings where
  /-- The lines between the imports and the comment of the class. -/
  classBefore : List String
  /-- The lines after the comment of the class, up to the place for properties. -/
  classAfter : List String
  /-- The lines between the constructor and the accessors. -/
  accessorsBefore : List String
  /-- The lines of a property before its comment. -/
  propertyBefore : Property → List String
  /-- The lines of a property after its comment. -/
  propertyAfter : Property → List String
  /-- The lines between the accessors and the place for members. -/
  accessorsAfter : List String

/-- Whether lines are those around the comments in a template. -/
structure Surroundings.Fit (s : Surroundings) (t : Template) (properties : List Property)
    (classDoc : List String) (doc : Property → List String) : Prop where
  /-- The lines around the comment of the class. -/
  fields : t.fields = s.classBefore ++ classDoc ++ s.classAfter
  /-- The lines around the comments of the properties. -/
  members : t.members = s.accessorsBefore ++
    properties.flatMap (fun p => s.propertyBefore p ++ doc p ++ s.propertyAfter p) ++
    s.accessorsAfter

/-- The code around the comments of a file. -/
def Surroundings.code (s : Surroundings) (t : Template) (h : Hooks) (properties : List Property) :
    List (String × String) :=
  (Text.unlines t.opening ++ t.importsMargin.block h.imports? ++ Text.unlines s.classBefore,
    Text.unlines s.classAfter ++ t.propertiesMargin.block h.properties? ++ Text.unlines
      t.constructor ++ t.statementsMargin.block h.statements? ++ Text.unlines s.accessorsBefore) ::
  properties.map fun p => (Text.unlines (s.propertyBefore p), Text.unlines (s.propertyAfter p))

/-- The code after the last accessor of a file. -/
def Surroundings.ending (s : Surroundings) (t : Template) (h : Hooks) : String :=
  Text.unlines s.accessorsAfter ++ t.membersMargin.block h.members? ++ Text.unlines t.closing

/-- A template whose surroundings fit is filled by weaving its comments into its code. -/
theorem Surroundings.Fit.fill_eq_weave {s : Surroundings} {t : Template}
    {properties : List Property} {classDoc : List String} {doc : Property → List String}
    (hs : s.Fit t properties classDoc doc) (h : Hooks) :
    t.fill h = weave (s.code t h properties)
      (Text.unlines classDoc :: properties.map fun p => Text.unlines (doc p)) ++ s.ending t h := by
  rw [Surroundings.code, weave_cons, weave_map, Template.fill, hs.fields, hs.members,
    Surroundings.ending]
  simp only [Text.unlines_append, String.append_assoc]

/-! ## The languages

For each language, the pieces of code between the comments of a file.
-/

/-- The lines of a property's accessors after their first comment. -/
def Script.linesAfterDoc (d : Dialect) (c : Caster) (docs : MemberDocs) (entity : String)
    (p : Property) :
    List String :=
  ((membersOf d c { docs with own := [] } entity p).flatMap (Member.lines d)).tail

/-- The lines of a property in a script: a blank one, its comment, and the rest. -/
theorem Script.lines_members (d : Dialect) (c : Caster) (docs : MemberDocs) (entity : String)
    (p : Property) : (membersOf d c docs entity p).flatMap (Member.lines d) =
      [""] ++ docs.own ++ linesAfterDoc d c docs entity p := by
  unfold linesAfterDoc membersOf
  dsimp only
  cases p.shape <;> simp [Member.lines, Member.head]

namespace JavaScript

/-- The lines around the comments of an entity's file. -/
def surroundings (o : Options) (e : Entity) : Surroundings where
  classBefore := [""]
  classAfter := ["export class " ++ className o e ++ " extends " ++ baseName e.kind ++ " \x7b"]
  accessorsBefore := ["\t\x7d"]
  propertyBefore _ := [""]
  propertyAfter p := Script.linesAfterDoc .javaScript (caster o) (memberDocs o e p) e.name p
  accessorsAfter := []

/-- The surroundings of the JavaScript template fit it. -/
theorem fit_parts (imported : List Import) (o : Options) (e : Entity) :
    (surroundings o e).Fit (parts imported o e) e.properties (classDoc o e) fun p =>
    (memberDocs o e p).own where
  fields := rfl
  members := by
    simp only [parts, surroundings, List.flatMap_assoc, members, Script.lines_members,
      List.append_nil]

/-- The imports of a class do not depend on descriptions. -/
theorem imports_undescribed (l : Layout) (o : Options) (e : Entity) :
    imports l o e.undescribed = imports l o e := by
  have hr : runtimeImport l o e.undescribed = runtimeImport l o e := by
    unfold runtimeImport
    rw [Entity.usesResultLookup_undescribed]
    rfl
  have hi : indexImport l o e.undescribed = indexImport l o e := by
    unfold indexImport
    rw [Entity.usesResultLookup_undescribed]
    rfl
  have ho : objectImports l o e.undescribed = objectImports l o e := by
    unfold objectImports
    rw [importedObjects_undescribed]
    rfl
  rw [imports, imports, hr, hi, ho]

theorem constructorLines_undescribed (e : Entity) :
    constructorLines e.undescribed = constructorLines e := by
  unfold constructorLines
  rw [propertyNames_undescribed, Entity.flatMap_undescribed fun p => rfl]
  rfl

end JavaScript

namespace CSharp

/-- The lines around the comments of an entity's file. -/
def surroundings (o : Options) (e : Entity) : Surroundings where
  classBefore := ["", "namespace " ++ namespaceOf o e, "\x7b"]
  classAfter := ["\tpublic class " ++ className o e ++ " : " ++ baseClass o e.kind, "\t\x7b"] ++
    e.properties.flatMap (fieldLines o)
  accessorsBefore := ["\t\t\x7d"]
  propertyBefore _ := [""]
  propertyAfter p := (accessorLines o { e with required := [] } p.undescribed).tail
  accessorsAfter := setPropertyLines o e

theorem constructorLines_undescribed (o : Options) (e : Entity) :
    constructorLines o e.undescribed = constructorLines o e := by
  unfold constructorLines
  rw [propertyNames_undescribed, Entity.flatMap_undescribed fun p => rfl]
  rfl

/-- The comment of an entity's class. -/
def classDoc (o : Options) (e : Entity) : List String :=
  summary 1 (docLines (types o) e.description?)

/-- The comment of a property. -/
def propertyDoc (o : Options) (e : Entity) (p : Property) : List String :=
  summary 2 (docLines (types o) p.description? ++ requiredNote e p)

theorem accessorLines_eq (o : Options) (e : Entity) (p : Property) : accessorLines o e p =
    [""] ++ propertyDoc o e p ++
    (accessorLines o { e with required := [] } p.undescribed).tail := by
  rfl

/-- The surroundings of the C# template fit it. -/
theorem fit_parts (o : Options) (e : Entity) :
    (surroundings o e).Fit (parts o e) e.properties (classDoc o e) (propertyDoc o e) where
  fields := by simp [parts, surroundings, classDoc]
  members := by
    have hlines := funext (accessorLines_eq o e)
    simp only [parts, surroundings, ← hlines]

end CSharp

namespace ActionScript

/-- The lines around the comments of an entity's file. -/
def surroundings (o : Options) (e : Entity) : Surroundings where
  classBefore := if (imports o e).isEmpty then [] else [""]
  classAfter := ["class " ++ className o e ++ " extends " ++ baseClass o e.kind ++ " \x7b", ""] ++
    e.properties.flatMap (fieldLines o)
  accessorsBefore := ["\t\tthis.fillProperties(props);", "\t\x7d"]
  propertyBefore _ := [""]
  propertyAfter p := Script.linesAfterDoc .actionScript (caster o) (memberDocs o e p) e.name p
  accessorsAfter := []

/-- The surroundings of the ActionScript template fit it. -/
theorem fit_parts (o : Options) (e : Entity) :
    (surroundings o e).Fit (parts o e) e.properties (classDoc o e) fun p =>
    (memberDocs o e p).own where
  fields := by simp [parts, surroundings]
  members := by
    simp only [parts, surroundings, List.flatMap_assoc, members, Script.lines_members,
      List.append_nil]

theorem imports_undescribed (o : Options) (e : Entity) : imports o e.undescribed = imports o e := by
  unfold imports
  rw [importedObjects_undescribed, Entity.usesResultLookup_undescribed]

theorem constructorLines_undescribed (o : Options) (e : Entity) :
    constructorLines o e.undescribed = constructorLines o e := by
  unfold constructorLines
  rw [propertyNames_undescribed]
  rfl

end ActionScript

namespace Backend

variable {b : Backend} {l : Layout} {o : Options} {e : Entity}

/-- The lines around the comments of an entity's file. -/
def surroundings (b : Backend) (o : Options) (e : Entity) : Surroundings :=
  match b with
  | .javaScript => JavaScript.surroundings o e
  | .cSharp => CSharp.surroundings o e
  | .actionScript => ActionScript.surroundings o e

/-- The comment of an entity's class. -/
def classDoc (b : Backend) (o : Options) (e : Entity) : List String :=
  match b with
  | .javaScript => JavaScript.classDoc o e
  | .cSharp => CSharp.classDoc o e
  | .actionScript => ActionScript.classDoc o e

/-- The comment of a property. -/
def propertyDoc (b : Backend) (o : Options) (e : Entity) (p : Property) : List String :=
  match b with
  | .javaScript => (JavaScript.memberDocs o e p).own
  | .cSharp => CSharp.propertyDoc o e p
  | .actionScript => (ActionScript.memberDocs o e p).own

/-- The comments of an entity's file, that of the class first. -/
def docBlocks (b : Backend) (o : Options) (e : Entity) : List (List String) :=
  b.classDoc o e :: e.properties.map (b.propertyDoc o e)

/-- The template of any language fits its surroundings. -/
theorem fit_of_template {t : Template} (ht : b.template l o e = .ok t) :
    (b.surroundings o e).Fit t e.properties (b.classDoc o e) (b.propertyDoc o e) := by
  cases b with
  | javaScript =>
    obtain ⟨imported, -, ht⟩ := Outcome.bind_eq_ok.1 ht
    cases ht
    exact JavaScript.fit_parts imported o e
  | cSharp =>
    obtain ⟨-, -, ht⟩ := Outcome.bind_eq_ok.1 ht
    cases ht
    exact CSharp.fit_parts o e
  | actionScript =>
    obtain ⟨-, -, ht⟩ := Outcome.bind_eq_ok.1 ht
    cases ht
    exact ActionScript.fit_parts o e

/-! ### Without descriptions

The pieces of code of an entity are those of the entity without its descriptions.
-/

/-- The code around the comments of a class does not depend on descriptions. -/
theorem surroundings_undescribed : b.surroundings o e.undescribed = b.surroundings o e := by
  cases b with
  | javaScript => rfl
  | cSharp =>
    simp only [surroundings, CSharp.surroundings, CSharp.setPropertyLines]
    rw [Entity.flatMap_undescribed fun p => rfl, Entity.flatMap_undescribed fun p => rfl]
    rfl
  | actionScript =>
    simp only [surroundings, ActionScript.surroundings, ActionScript.imports_undescribed]
    rw [Entity.flatMap_undescribed fun p => rfl]
    rfl

/-- Without descriptions, the template of an entity has the same code outside of the
lines with comments. -/
theorem template_undescribed {t : Template} (ht : b.template l o e = .ok t) :
    ∃ t₀, b.template l o e.undescribed = .ok t₀ ∧
    t = { t₀ with fields := t.fields, members := t.members } := by
  -- In each language only the fields and the members of the template contain
  -- descriptions.
  cases b with
  | javaScript =>
    obtain ⟨imported, hi, ht⟩ := Outcome.bind_eq_ok.1 ht
    cases ht
    refine ⟨JavaScript.parts imported o e.undescribed, ?_, ?_⟩
    · rw [template, JavaScript.template, JavaScript.imports_undescribed, hi]
      rfl
    · simp only [JavaScript.parts, JavaScript.constructorLines_undescribed]
  | cSharp =>
    obtain ⟨u, hu, ht⟩ := Outcome.bind_eq_ok.1 ht
    cases ht
    refine ⟨CSharp.parts o e.undescribed, ?_, ?_⟩
    · rw [template, CSharp.template, requireIndex_undescribed, hu]
      rfl
    · simp only [CSharp.parts, CSharp.constructorLines_undescribed, Entity.isEmpty_undescribed]
  | actionScript =>
    obtain ⟨u, hu, ht⟩ := Outcome.bind_eq_ok.1 ht
    cases ht
    refine ⟨ActionScript.parts o e.undescribed, ?_, ?_⟩
    · rw [template, ActionScript.template, requireIndex_undescribed, hu]
      rfl
    · simp only [ActionScript.parts, ActionScript.imports_undescribed,
        ActionScript.constructorLines_undescribed]

theorem propertyLines_undescribed (b : Backend) (o : Options) (e : Entity) (p : Property) :
    (b.surroundings o e).propertyBefore p.undescribed = (b.surroundings o e).propertyBefore p ∧
      (b.surroundings o e).propertyAfter p.undescribed = (b.surroundings o e).propertyAfter p := by
  cases b <;> exact ⟨rfl, rfl⟩

/-- The code of a file is the same with and without descriptions. -/
theorem code_undescribed (t : Template) (h : Hooks) : (b.surroundings o e).code t h
    e.undescribed.properties = (b.surroundings o e).code t h e.properties := by
  unfold Surroundings.code
  rw [Entity.map_undescribed fun p => ?_]
  rw [(propertyLines_undescribed b o e p).1, (propertyLines_undescribed b o e p).2]

/-- The code around the comments of a file is that of the file without descriptions. -/
theorem code_eq_of_template {t t₀ : Template} (ht : b.template l o e = .ok t)
    (ht₀ : b.template l o e.undescribed = .ok t₀) (h : Hooks) :
    (b.surroundings o e).code t h e.properties =
      (b.surroundings o e).code t₀ h e.undescribed.properties ∧
      (b.surroundings o e).ending t h = (b.surroundings o e).ending t₀ h := by
  obtain ⟨t₁, ht₁, hsame⟩ := template_undescribed ht
  obtain rfl : t₀ = t₁ := by
    rw [ht₀] at ht₁
    exact Except.ok.inj ht₁
  rw [code_undescribed, hsame]
  exact ⟨rfl, rfl⟩

/-- The files of entities that differ in nothing but descriptions are the same code
around their comments. -/
theorem exists_code (b : Backend) (l : Layout) (o : Options) (f : Fragments) (e₀ : Entity) :
    ∃ (code : List (String × String)) (ending : String), ∀ (e : Entity) (file : SourceFile),
      e.undescribed = e₀.undescribed → b.generateEntity l o f e = .ok file →
        code.length = (b.docBlocks o e).length ∧
        file.contents = weave code ((b.docBlocks o e).map Text.unlines) ++ ending := by
  -- The code is that of the class without descriptions, which all these classes share.
  cases h₀ : b.template l o e₀.undescribed with
  | error fault =>
    refine ⟨[], "", fun e file he hf => ?_⟩
    obtain ⟨t, ht, -⟩ := exists_template_of_generateEntity hf
    obtain ⟨t₀, ht₀, -⟩ := template_undescribed ht
    rw [he, h₀] at ht₀
    cases ht₀
  | ok t₀ =>
    refine ⟨(b.surroundings o e₀).code t₀ (f.hooksFor e₀) e₀.undescribed.properties,
      (b.surroundings o e₀).ending t₀ (f.hooksFor e₀), fun e file he hf => ?_⟩
    obtain ⟨t, ht, rfl⟩ := exists_template_of_generateEntity hf
    -- Descriptions show neither in the surroundings nor in the hooks.
    have hs : b.surroundings o e₀ = b.surroundings o e := by
      rw [← surroundings_undescribed, ← he, surroundings_undescribed]
    have hh : f.hooksFor e₀ = f.hooksFor e := by
      have hu := congrArg f.hooksFor he
      exact hu.symm
    obtain ⟨hcode, hending⟩ := code_eq_of_template ht (he ▸ h₀) (f.hooksFor e)
    rw [hs, hh, ← he, ← hcode, ← hending, (fit_of_template ht).fill_eq_weave]
    refine ⟨?_, ?_⟩
    · simp [Surroundings.code, docBlocks]
    · simp [docBlocks, Function.comp_def]

end Backend

end Classwright
