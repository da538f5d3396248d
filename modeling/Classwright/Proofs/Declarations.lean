import Classwright.Proofs.CodeNames
import Classwright.Proofs.Members

/-!
# Names that C# declares

The file of an entity declares a namespace, a class and the members for its properties
(`CSharp.declaredNames`). The names that these are made of are checked to be
identifiers, by one check for all languages. In C# there are no dollar signs in names,
and reserved words are none; neither is looked at. What is put around the names does no
harm: all names that are declared can be names of C# exactly if the checked ones are
without dollar signs and not reserved, and the segments of the root namespace, which is
not checked, can be names (`CSharp.isName_declaredNames_iff`).
-/

namespace Classwright

open Text (isIdentifier isIdentifierStart isIdentifierPart)

namespace Text

theorem isIdentifierPart_of_isIdentifierStart {c : Char} (h : isIdentifierStart c) :
    isIdentifierPart c := by
  simp only [isIdentifierStart, isIdentifierPart, Char.isAlphanum, Bool.or_eq_true] at h ⊢
  tauto

/-- An identifier, by its first character and by all of them. -/
theorem isIdentifier_iff {s : String} :
    isIdentifier s ↔ (∃ c ∈ s.toList.head?, isIdentifierStart c) ∧ ∀ c ∈ s.toList,
    isIdentifierPart c := by
  constructor
  · intro h
    obtain ⟨c, rest, hs, hc, hrest⟩ := exists_toList_of_isIdentifier h
    rw [hs]
    exact ⟨⟨c, rfl, hc⟩, List.forall_mem_cons.2 ⟨isIdentifierPart_of_isIdentifierStart hc, hrest⟩⟩
  · rintro ⟨⟨c, hhead, hc⟩, hall⟩
    obtain ⟨rest, hs⟩ := List.head?_eq_some_iff.1 hhead
    rw [hs] at hall
    have hrest := (List.forall_mem_cons.1 hall).2
    simpa [isIdentifier, hs, isIdentifierChars, hc] using hrest

/-- An identifier can be continued. -/
theorem isIdentifier_append {s t : String} (h : isIdentifier s)
    (ht : ∀ c ∈ t.toList, isIdentifierPart c) :
    isIdentifier (s ++ t) := by
  obtain ⟨⟨c, hhead, hc⟩, hall⟩ := isIdentifier_iff.1 h
  refine isIdentifier_iff.2 ⟨⟨c, ?_, hc⟩, ?_⟩
  · rw [String.toList_append]
    exact List.mem_head?_append_of_mem_head? hhead
  · rw [String.toList_append]
    exact List.forall_mem_append.2 ⟨hall, ht⟩

end Text

namespace CSharp

/-! ## Names of C#

A name starts with a letter or an underscore, goes on with those and digits, and is no
reserved word.
-/

/-- The reserved words of C#. -/
def keywords : List String :=
  ["abstract", "as", "base", "bool", "break", "byte", "case", "catch", "char", "checked", "class",
    "const", "continue", "decimal", "default", "delegate", "do", "double", "else", "enum", "event",
    "explicit", "extern", "false", "finally", "fixed", "float", "for", "foreach", "goto", "if",
    "implicit", "in", "int", "interface", "internal", "is", "lock", "long", "namespace", "new",
    "null", "object", "operator", "out", "override", "params", "private", "protected", "public",
    "readonly", "ref", "return", "sbyte", "sealed", "short", "sizeof", "stackalloc", "static",
    "string", "struct", "switch", "this", "throw", "true", "try", "typeof", "uint", "ulong",
    "unchecked", "unsafe", "ushort", "using", "virtual", "void", "volatile", "while"]

/-- Whether a text can be the name of what is declared: letters, digits and underscores,
of which a digit is not the first, and no reserved word. -/
structure IsName (s : String) : Prop where
  /-- There is a first character, and it is no digit. -/
  start : ∃ c ∈ s.toList.head?, c.isAlpha ∨ c = '_'
  /-- All characters are letters, digits and underscores. -/
  parts : ∀ c ∈ s.toList, c.isAlphanum ∨ c = '_'
  /-- It is not reserved. -/
  free : s ∉ keywords

/-- What the check of identifiers leaves open are dollar signs and reserved words. -/
theorem isName_iff {s : String} : IsName s ↔ isIdentifier s ∧ '$' ∉ s.toList ∧ s ∉ keywords := by
  rw [Text.isIdentifier_iff]
  constructor
  · rintro ⟨⟨c, hhead, hc⟩, hall, hfree⟩
    refine ⟨⟨⟨c, hhead, ?_⟩, fun d hd => ?_⟩, fun hdollar => ?_, hfree⟩
    · simp [isIdentifierStart, hc]
    · simp [isIdentifierPart, hall d hd]
    · exact absurd (hall _ hdollar) (by decide)
  · rintro ⟨⟨⟨c, hhead, hc⟩, hall⟩, hdollar, hfree⟩
    have hne : ∀ d ∈ s.toList, d ≠ '$' := fun d hd h => hdollar (h ▸ hd)
    refine ⟨⟨c, hhead, ?_⟩, fun d hd => ?_, hfree⟩
    · simpa [isIdentifierStart, hne c (List.mem_of_mem_head? hhead)] using hc
    · simpa [isIdentifierPart, hne d hd] using hall d hd

instance (s : String) : Decidable (IsName s) :=
  decidable_of_iff _ isName_iff.symm

/-! ## Declared names

The namespace of an entity is the root namespace, a word for its kind and, for a method,
the namespace of the method; its class is the last part of its name. So whatever is
declared comes from the root namespace, the parts of the name and the properties.
-/

/-- The segments of a namespace. -/
def segments (ns : String) : List String :=
  (ns.toList.splitOn '.').map String.ofList

/-- The parts of its name under which an entity is declared: namespace and name of a
method, or the name of an object. -/
def ownParts (e : Entity) : List String :=
  match e.kind, e.inNamespace?, e.method? with
  | .component, some ns, some method => [ns, method]
  | .result, some ns, some method => [ns, method]
  | _, _, _ => [e.name]

/-- The names that the file of an entity declares: the segments of its namespace, its
class and the members. -/
def declaredNames (o : Options) (e : Entity) : List String :=
  segments (namespaceOf o e) ++ [className o e] ++
    e.properties.flatMap (Backend.cSharp.memberNames o e)

/-- A dot separates segments. -/
theorem segments_append (s t : String) : segments (s ++ "." ++ t) = segments s ++ segments t := by
  have hdot : ".".toList = ['.'] := rfl
  rw [segments, String.toList_append, String.toList_append, hdot, List.append_assoc,
    List.singleton_append, List.splitOn, List.splitOnP_append_cons _ _ (by decide), List.map_append]
  rfl

theorem segments_of_isIdentifier {s : String} (h : isIdentifier s) : segments s = [s] := by
  have hdot : '.' ∉ s.toList := fun hmem =>
    absurd ((Text.isIdentifier_iff.1 h).2 _ hmem) (by decide)
  rw [segments, List.splitOn_eq_singleton hdot, List.map_singleton, String.ofList_toList]

/-- An entity is declared as a method, below a namespace, or as an object. -/
theorem own_cases (o : Options) (e : Entity) :
    (∃ ns method, e.inNamespace? = some ns ∧ e.method? = some method ∧ ownParts e = [ns, method] ∧
      className o e = method ∧
      ∃ group ∈ ["components", "results"],
      namespaceOf o e = o.rootNamespace ++ "." ++ group ++ "." ++ ns) ∨
    ownParts e = [e.name] ∧ className o e = o.className e.name ∧
      namespaceOf o e = o.rootNamespace ++ "." ++ "objects" := by
  have hobjects : o.rootNamespace ++ ".objects" = o.rootNamespace ++ "." ++ "objects" := by
    rw [String.append_assoc]
    rfl
  have hmethod : ∀ group ns, o.rootNamespace ++ ("." ++ group ++ ".") ++ ns =
      o.rootNamespace ++ "." ++ group ++ "." ++ ns := by
    simp [String.append_assoc]
  -- The names of an entity decide where it is declared: a method in the namespace of
  -- its group, any other class by its name.
  obtain ⟨kind, name, ns?, method?, description?, properties, required, objectMap,
    objectLists, flags⟩ := e
  cases kind <;> cases ns? <;> cases method?
  case component.some.some ns method =>
    exact Or.inl ⟨ns, method, rfl, rfl, rfl, rfl, "components", by decide, hmethod "components" ns⟩
  case result.some.some ns method =>
    exact Or.inl ⟨ns, method, rfl, rfl, rfl, rfl, "results", by decide, hmethod "results" ns⟩
  all_goals exact Or.inr ⟨rfl, rfl, hobjects⟩

variable {e : Entity} {o : Options}

/-- Between the root and the parts of its name, there is a word for the kind of an
entity. -/
theorem exists_declared_own (h : checkNames e = .ok ()) (ho : o.classNames.entries = []) :
    ∃ group ∈ ["objects", "components", "results"],
      segments (namespaceOf o e) ++ [className o e] = segments o.rootNamespace ++
      group :: ownParts e := by
  have hgroup : ∀ group ∈ ["objects", "components", "results"], segments group = [group] := by
    decide
  rcases own_cases o e with ⟨ns, method, hns, hm, hown, hclass, group, hg, hspace⟩ | ⟨hown,
    hclass, hspace⟩
  -- A method: its namespace is an identifier, so it is one segment.
  · have hparts : e.nameParts = [ns, method] := by simp [Entity.nameParts, hns, hm]
    have hident : isIdentifier ns := (checkNames_eq_ok_iff.1 h).1 ns (by simp [hparts])
    have hmem : group ∈ ["objects", "components", "results"] := List.mem_cons_of_mem _ hg
    refine ⟨group, hmem, ?_⟩
    rw [hspace, hclass, hown, segments_append, segments_append, hgroup group hmem,
      segments_of_isIdentifier hident]
    simp
  -- An object: without renaming, the class has its own name.
  · have hname : o.className e.name = e.name := by simp [Options.className, SortedMap.get?, ho]
    refine ⟨"objects", by decide, ?_⟩
    rw [hspace, hclass, hown, hname, segments_append, hgroup "objects" (by decide)]
    simp

/-- The parts of its name under which a collected entity is declared are those that are
checked. -/
theorem ownParts_of_mem_collect {d : Schema.Document} {permissive : Bool}
    (he : e ∈ (Model.collect d permissive).entities) : ownParts e = e.nameParts := by
  rcases Model.mem_entities_collect he with h | ⟨ns, -, m, -, kind, hkind, defs?, -, rfl⟩
  · obtain ⟨object, -, -, rfl⟩ := Model.mem_objects_collect.1 h
    rfl
  · cases kind with
    | object => exact absurd rfl hkind
    | component => rfl
    | result => rfl

/-! ## Members

Around the name of a property stand an underscore or one of the endings for the list
form and the flag. No reserved word begins with an underscore or ends in this way.
-/

theorem parts_of_mem_endings (p : Property) : ∀ s ∈ p.endings, s.toList.all isIdentifierPart ∧
    '$' ∉ s.toList ∧ (s = "" ∨ "List".toList <:+ s.toList) := by
  unfold Property.endings
  cases p.isPolymorphic <;> decide

/-- An ending makes no reserved word of a name, as none has the ending of a list form or
of a flag. -/
theorem isName_append {p : Property} {s name : String} (hs : s ∈ p.endings) (h : IsName name) :
    IsName (name ++ s) := by
  have hending : ∀ k ∈ keywords, ¬"List".toList <:+ k.toList := by decide
  obtain ⟨hident, hdollar, hfree⟩ := isName_iff.1 h
  obtain ⟨hparts, hplain, hlist⟩ := parts_of_mem_endings p s hs
  refine isName_iff.2 ⟨Text.isIdentifier_append hident (List.all_eq_true.1 hparts), ?_, ?_⟩
  · rw [String.toList_append, List.mem_append, not_or]
    exact ⟨hdollar, hplain⟩
  · rcases hlist with rfl | hlist
    · rwa [String.append_empty]
    · intro hmem
      refine hending _ hmem ?_
      rw [String.toList_append]
      exact hlist.trans (List.suffix_append _ _)

/-- The mark of a field makes a name of any identifier without dollar signs, as no
reserved word has it. -/
theorem isName_slotName {name : String} (h : isIdentifier name) (hdollar : '$' ∉ name.toList) :
    IsName ("_" ++ name) := by
  have hmark : ∀ k ∈ keywords, k.toList.head? ≠ some '_' := by decide
  have hchars : ("_" ++ name).toList = '_' :: name.toList := String.toList_append
  refine isName_iff.2 ⟨Text.isIdentifier_append (by decide) (Text.isIdentifier_iff.1 h).2, ?_,
    fun hmem => ?_⟩
  · rw [hchars, List.mem_cons, not_or]
    exact ⟨by decide, hdollar⟩
  · exact hmark _ hmem (by rw [hchars, List.head?_cons])

/-- The members for a property have names of C# exactly if the property has. -/
theorem isName_memberNames_iff {p : Property} (h : isIdentifier p.name) :
    (∀ n ∈ Backend.cSharp.memberNames o e p, IsName n) ↔ '$' ∉ p.name.toList ∧
    p.name ∉ keywords := by
  -- The name itself is among the names of a property, with the empty ending.
  have hempty : "" ∈ p.endings := by
    unfold Property.endings
    cases p.isPolymorphic <;> decide
  have hmark : Backend.cSharp.slotMark = "_" := by decide
  rw [Backend.memberNames_eq, Property.names, List.forall_mem_append, List.forall_mem_map,
    List.forall_mem_map, hmark]
  constructor
  -- Of the names of a property only the first can be a word of the language.
  · rintro ⟨hown, -⟩
    have hname := hown "" hempty
    rw [String.append_empty] at hname
    exact (isName_iff.1 hname).2
  · rintro ⟨hdollar, hfree⟩
    exact ⟨fun s hs => isName_append hs (isName_iff.2 ⟨h, hdollar, hfree⟩),
      fun s hs => isName_append hs (isName_slotName h hdollar)⟩

/-! ## Declarations

Every name that is declared stands in a line that declares it.
-/

/-- What the file of an entity declares is what `declaredNames` lists. -/
theorem exists_declaring_line {l : Layout} {t : Template}
    (ht : Backend.cSharp.template l o e = .ok t) : Backend.cSharp.declaration o e ⊆ t.fields ∧
      ∀ n ∈ e.properties.flatMap (Backend.cSharp.memberNames o e),
        ∃ line ∈ t.fields ++ t.constructor ++ t.members, Backend.cSharp.Declares line n := by
  refine ⟨Backend.declaration_subset_fields ht, fun n hn => ?_⟩
  obtain ⟨p, hp, hn⟩ := List.mem_flatMap.1 hn
  obtain ⟨line, hline, hdeclares⟩ := Backend.exists_declares hn
  exact ⟨line, Backend.memberLines_subset ht hp hline, hdeclares⟩

/-- An entity that passes the check declares names of C# only exactly if the segments of
the root are such names, what it is declared under is checked, and neither that nor the
properties have a dollar sign or a reserved word for a name. What a collected entity is
declared under is always checked. -/
theorem isName_declaredNames_iff (h : checkNames e = .ok ()) (ho : o.classNames.entries = []) :
    (∀ l t, Backend.cSharp.template l o e = .ok t →
      Backend.cSharp.declaration o e ⊆ t.fields ∧
      ∀ n ∈ e.properties.flatMap (Backend.cSharp.memberNames o e),
        ∃ line ∈ t.fields ++ t.constructor ++ t.members, Backend.cSharp.Declares line n) ∧
    ((∀ n ∈ declaredNames o e, IsName n) ↔
      (∀ s ∈ segments o.rootNamespace, IsName s) ∧
      (∀ part ∈ ownParts e, part ∈ e.nameParts ∨ isIdentifier part) ∧
      ∀ n ∈ ownParts e ++ e.properties.map Property.name, '$' ∉ n.toList ∧ n ∉ keywords) ∧
    ∀ d permissive, e ∈ (Model.collect d permissive).entities → ownParts e = e.nameParts := by
  refine ⟨fun l t => exists_declaring_line, ?_, fun d permissive => ownParts_of_mem_collect⟩
  obtain ⟨hchecked, hproperties⟩ := checkNames_eq_ok_iff.1 h
  obtain ⟨group, hg, hown⟩ := exists_declared_own h ho
  have hgroup : IsName group :=
    (by decide : ∀ g ∈ ["objects", "components", "results"], IsName g) group hg
  -- For the members it is enough to look at the names of the properties.
  have hmembers : (∀ n ∈ e.properties.flatMap (Backend.cSharp.memberNames o e), IsName n) ↔
      ∀ n ∈ e.properties.map Property.name, '$' ∉ n.toList ∧ n ∉ keywords := by
    rw [List.forall_mem_flatMap, List.forall_mem_map]
    exact forall₂_congr fun p hp => isName_memberNames_iff (hproperties p hp)
  rw [declaredNames, hown, List.forall_mem_append, List.forall_mem_append, List.forall_mem_cons,
    hmembers, List.forall_mem_append]
  constructor
  · rintro ⟨⟨hroot, -, hparts⟩, hnames⟩
    exact ⟨hroot, fun part hp => Or.inr (isName_iff.1 (hparts part hp)).1,
      fun part hp => (isName_iff.1 (hparts part hp)).2, hnames⟩
  · rintro ⟨hroot, hident, hparts, hnames⟩
    refine ⟨⟨hroot, hgroup, fun part hp => isName_iff.2 ⟨?_, hparts part hp⟩⟩, hnames⟩
    exact (hident part hp).elim (hchecked part) id

/-- Without reserved words and dollar signs, there are names of C# only. -/
theorem isName_declaredNames_labelledUser :
    let user :=
      Backend.labelledUser (.listed { type? := some "string" } (.plain { type? := some "string" }))
    checkNames user = .ok () ∧ ∀ n ∈ declaredNames ⟨"App.Data", .empty⟩ user, IsName n := by
  refine ⟨rfl, (isName_declaredNames_iff rfl rfl).2.1.2 ⟨?_, ?_, ?_⟩⟩
  all_goals decide

/-- An object with properties whose names are none of C#. -/
def reservedObject : Schema.ObjectDef :=
  ⟨none, ⟨[("event", .plain { type? := some "string" }), ("$id", .plain {})]⟩⟩

/-- A document with this object, whose own name is none either. -/
def reservedDocument : Schema.Document :=
  ⟨⟨[("class", reservedObject)]⟩, ⟨[]⟩⟩

/-- Reserved words and a name with a dollar sign pass the check and are declared. -/
theorem not_isName_declaredNames_reservedObject :
    ∃ files,
      Backend.cSharp.generate threeDirs ⟨"App", .empty⟩ {} (.collect reservedDocument true) =
        .ok files ∧
      (∃ file ∈ files, file.HasLine "\tpublic class class : App.BaseObject") ∧
      checkNames (.ofObject "class" reservedObject) = .ok () ∧
      ∀ n ∈ ["class", "event", "$id"],
        n ∈ declaredNames ⟨"App", .empty⟩ (.ofObject "class" reservedObject) ∧ ¬IsName n := by
  -- The document is generated, so its class stands in a file.
  obtain ⟨files, hfiles⟩ : ∃ files, Backend.cSharp.generate threeDirs ⟨"App", .empty⟩ {}
      (.collect reservedDocument true) = .ok files := ⟨_, rfl⟩
  have he : Entity.ofObject "class" reservedObject ∈
      (Model.collect reservedDocument true).objects :=
    List.mem_cons_self
  obtain ⟨file, hf, -, hlines⟩ := Backend.exists_declaring_file hfiles he
  have hline : "\tpublic class class : App.BaseObject" ∈
      Backend.cSharp.declaration ⟨"App", .empty⟩ (.ofObject "class" reservedObject) := by decide
  exact ⟨files, hfiles, ⟨file, hf, hlines _ hline⟩, rfl, by decide⟩

end CSharp

end Classwright
