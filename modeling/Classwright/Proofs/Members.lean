import Mathlib.Data.List.Nodup
import Mathlib.Tactic.Tauto
import Classwright.Proofs.Outcome
import Classwright.Render.Generate

/-!
# Names of members

A property has an accessor and a field. One with a single form and a list form has three
of each: of its own name, for the list form, and for the flag that tells which form
holds. The names of these end in `List` and `IsList`, and those of the fields begin with
a mark. Names of properties are free to end and to begin in the same way, and then two
members of a class have one name. Whether they do is a matter of two properties at a
time (`Property.Clash`): the members are distinct exactly if the names of the properties
are and no two properties clash (`Backend.memberNames_nodup_iff`).
-/

namespace Classwright

/-! ## Lists without clashes

Whether names are distinct in pairs is a matter of two elements at a time.
-/

/-- Where nothing clashes with itself, it need not be asked which of two elements comes
first. -/
theorem pairwise_not_or_iff {α : Type} {r : α → α → Prop} (hr : ∀ x, ¬r x x) {xs : List α} :
    xs.Pairwise (fun x y => ¬(r x y ∨ r y x)) ↔ ∀ x ∈ xs, ∀ y ∈ xs, ¬r x y := by
  constructor
  · intro h x hx y hy hxy
    have hself : ∀ x ∈ xs, ¬(r x x ∨ r x x) := fun x _ hx => hx.elim (hr x) (hr x)
    exact h.forall_of_forall_of_flip hself (h.imp (mt Or.symm)) hx hy (Or.inl hxy)
  · intro h
    exact List.pairwise_of_forall_mem_list fun x hx y hy hxy => hxy.elim (h x hx y hy) (h y hy x hx)

/-- Elements are pairwise neither of one name nor clashing exactly if the names are
distinct and no elements clash. -/
theorem pairwise_not_same_iff {α β : Type} {r : α → α → Prop} (hr : ∀ x, ¬r x x) {name : α → β}
    {xs : List α} : xs.Pairwise (fun x y => ¬(name x = name y ∨ r x y ∨ r y x)) ↔
      (xs.map name).Nodup ∧ ∀ x ∈ xs, ∀ y ∈ xs, ¬r x y := by
  have hsplit : ∀ x y, ¬(name x = name y ∨ r x y ∨ r y x) ↔ name x ≠ name y ∧ ¬(r x y ∨ r y x) :=
    fun x y => not_or
  rw [List.Pairwise.iff hsplit, List.pairwise_and_iff, pairwise_not_or_iff hr, List.Nodup,
    List.pairwise_map]

/-! ## Clashes

A name with an ending can equal another name with an ending, or one with a mark. What
has to stand between two names of properties for this depends on their endings alone
(`Property.gaps`).
-/

namespace Property

/-- What follows the name of a property in the names of its accessors. -/
def endings (p : Property) : List String :=
  if p.isPolymorphic then ["", "List", "IsList"] else [""]

/-- A choice has three names, any other shape one. -/
theorem endings_eq (p : Property) :
    p.endings = match p.shape with
      | .either _ _ => ["", "List", "IsList"]
      | _ => [""] := by
  unfold endings isPolymorphic kind
  cases p.shape with
  | single atom => cases atom <;> rfl
  | list element =>
    cases element with
    | single atom => cases atom <;> rfl
    | list element => rfl
    | either atom element => rfl
  | either atom element => rfl

/-- What has to follow a name of one property to make it a name of another one, whatever
ending either has. -/
def gaps (p q : Property) : List String :=
  (if p.isPolymorphic then ["List", "IsList"] else []) ++ if p.isPolymorphic && q.isPolymorphic
    then ["Is"] else []

/-- Whether the members of two properties clash: the second one has the name of the
field of the first one, or of a further accessor or field of the first one, or a further
accessor of the second one has the name of the field of the first one. -/
def Clash (mark : String) (p q : Property) : Prop :=
  q.name = mark ++ p.name ∨ q.name ∈ (p.gaps q).map (p.name ++ ·) ∨
    q.name ∈ (p.gaps q).map (mark ++ p.name ++ ·) ∨ mark ++ p.name ∈ (q.gaps p).map (q.name ++ ·)

instance (mark : String) (p q : Property) : Decidable (p.Clash mark q) :=
  inferInstanceAs (Decidable (_ ∨ _ ∨ _ ∨ _))

theorem append_isList_eq_iff {m n : String} : m ++ "IsList" = n ++ "List" ↔ m ++ "Is" = n := by
  have h : "IsList" = "Is" ++ "List" := rfl
  rw [h, ← String.append_assoc, String.append_left_inj]

/-- Two names can be continued to the same name if they are the same, or if one is the
other with a gap. -/
theorem exists_endings_iff (p q : Property) (m n : String) : (∃ s ∈ p.endings, ∃ t ∈ q.endings,
    m ++ s = n ++ t) ↔ n = m ∨ n ∈ (p.gaps q).map (m ++ ·) ∨ m ∈ (q.gaps p).map (n ++ ·) := by
  have hright : m ++ "List" = n ++ "IsList" ↔ n ++ "Is" = m := eq_comm.trans append_isList_eq_iff
  cases hp : p.isPolymorphic <;> cases hq : q.isPolymorphic <;>
    simp [endings, gaps, hp, hq, append_isList_eq_iff, hright] <;> grind

/-- The names of the accessors of a property, and of the fields, which begin with a
mark. -/
def names (mark : String) (p : Property) : List String :=
  p.endings.map (p.name ++ ·) ++ p.endings.map (mark ++ p.name ++ ·)

theorem even_length_of_mem_gaps (p q : Property) :
    ∀ s ∈ p.gaps q, s.length % 2 = 0 ∧ 0 < s.length := by
  unfold gaps
  cases p.isPolymorphic <;> cases q.isPolymorphic <;> decide

/-- Members of two properties have a name in common exactly if the properties have, or
if one clashes with the other. -/
theorem exists_mem_names_iff {mark : String} {p q : Property} :
    (∃ x ∈ p.names mark, x ∈ q.names mark) ↔
    q.name = p.name ∨ p.Clash mark q ∨ q.Clash mark p := by
  have hmaps : ∀ (p q : Property) (m n : String),
      (∃ x ∈ p.endings.map (m ++ ·), x ∈ q.endings.map (n ++ ·)) ↔
        ∃ s ∈ p.endings, ∃ t ∈ q.endings, m ++ s = n ++ t := by
    intro p q m n
    simp only [List.mem_map, exists_exists_and_eq_and]
    simp only [eq_comm]
  have hcomm : (∃ x ∈ p.endings.map (p.name ++ ·), x ∈ q.endings.map (mark ++ q.name ++ ·)) ↔
      ∃ x ∈ q.endings.map (mark ++ q.name ++ ·), x ∈ p.endings.map (p.name ++ ·) := by
    simp only [and_comm]
  -- Two fields have the same name exactly if the accessors behind the mark have.
  have hfields : (∃ s ∈ p.endings, ∃ t ∈ q.endings, mark ++ p.name ++ s = mark ++ q.name ++ t) ↔
      ∃ s ∈ p.endings, ∃ t ∈ q.endings, p.name ++ s = q.name ++ t := by
    simp only [String.append_assoc, String.append_right_inj]
  simp only [names, List.mem_append, or_and_right, and_or_left, exists_or]
  rw [hcomm, hmaps, hmaps, hmaps, hmaps, hfields, exists_endings_iff, exists_endings_iff,
    exists_endings_iff, Clash, Clash]
  grind

/-- The marks are of odd length, and what stands between names is of even length. -/
theorem not_clash_self {mark : String} (hmark : mark.length % 2 = 1) (p : Property) :
    ¬p.Clash mark p := by
  have hgap := even_length_of_mem_gaps p p
  have hne : ∀ m n : String, m.length ≠ n.length → m ≠ n := fun m n h =>
    mt (congrArg String.length) h
  simp only [Clash, List.mem_map, not_or, not_exists, not_and]
  refine ⟨hne _ _ ?_, fun s hs => hne _ _ ?_, fun s hs => hne _ _ ?_, fun s hs => hne _ _ ?_⟩
  · rw [String.length_append]
    omega
  all_goals
    have := hgap s hs
    simp only [String.length_append]
    omega

/-- The names of one property are distinct, as its marks have an odd length. -/
theorem names_nodup {mark : String} (hmark : mark.length % 2 = 1) (p : Property) :
    (p.names mark).Nodup := by
  have hendings : p.endings.Nodup ∧ ∀ s ∈ p.endings, s.length % 2 = 0 := by
    unfold endings
    cases p.isPolymorphic <;> decide
  refine List.nodup_append.2 ⟨hendings.1.map ?_, hendings.1.map ?_, ?_⟩
  · exact fun s t => String.append_right_inj p.name |>.1
  · exact fun s t => String.append_right_inj (mark ++ p.name) |>.1
  · simp only [List.mem_map, forall_exists_index, and_imp, forall_apply_eq_imp_iff₂]
    intro s hs t ht h
    have hlength := congrArg String.length h
    have := hendings.2 s hs
    have := hendings.2 t ht
    simp only [String.length_append] at hlength
    omega

/-- The members of all properties are distinct exactly if the names of the properties
are and no two of them clash. -/
theorem flatMap_names_nodup_iff {mark : String} (hmark : mark.length % 2 = 1) (ps : List Property) :
    (ps.flatMap (names mark)).Nodup ↔
      (ps.map Property.name).Nodup ∧ ∀ p ∈ ps, ∀ q ∈ ps, ¬p.Clash mark q := by
  have hdisjoint : ∀ p q : Property, (p.names mark).Disjoint (q.names mark) ↔
      ¬(p.name = q.name ∨ p.Clash mark q ∨ q.Clash mark p) := by
    intro p q
    rw [List.disjoint_left, eq_comm, ← exists_mem_names_iff]
    simp
  rw [List.nodup_flatMap, List.Pairwise.iff hdisjoint, pairwise_not_same_iff (not_clash_self hmark)]
  exact and_iff_right fun p _ => names_nodup hmark p

end Property

/-! ## Members in scripts

Getters and fields are read off the lines that declare them, one name for each line.
-/

namespace Script

/-- Whether an accessor is a getter. A setter stands after the getter of its name. -/
def Member.isGetter (m : Member) : Bool :=
  match m.kind with
  | .getter _ => true
  | .setter => false

variable (d : Dialect)

theorem slotNames_eq (p : Property) :
    slotNames d p = p.endings.map (slotMark d ++ p.name ++ ·) := by
  unfold slotNames Property.endings
  cases p.isPolymorphic <;> simp [slotName, listName, flagName, String.append_assoc]

/-- The getters of a property are its names. -/
theorem getters_membersOf (c : Caster) (docs : MemberDocs) (entity : String) (p : Property) :
    ((membersOf d c docs entity p).filter Member.isGetter).map Member.name =
    p.endings.map (p.name ++ ·) := by
  unfold membersOf
  rw [Property.endings_eq]
  cases p.shape <;> simp [Member.isGetter, List.filter, listName, flagName]

/-- The first line of a getter is among the lines of the accessors. -/
theorem exists_getter_head {ms : List Member} {name : String}
    (h : name ∈ (ms.filter Member.isGetter).map Member.name) :
    ∃ m : Member, (∃ type, m.kind = .getter type) ∧ m.name = name ∧
      "\t" ++ m.head d ++ " \x7b" ∈ ms.flatMap (Member.lines d) := by
  obtain ⟨m, hm, rfl⟩ := List.mem_map.1 h
  obtain ⟨hm, hg⟩ := List.mem_filter.1 hm
  refine ⟨m, ?_, rfl, List.mem_flatMap.2 ⟨m, hm, by simp [Member.lines]⟩⟩
  unfold Member.isGetter at hg
  split at hg
  · next type hk => exact ⟨type, hk⟩
  · cases hg

end Script

/-- The fields of a property are declared one by one. -/
theorem JavaScript.declared_slotLines (p : Property) :
    List.Forall₂ (fun line name => ∃ value, line = "\t\tthis." ++ name ++ " = " ++ value ++ ";")
      (slotLines p) (Script.slotNames .javaScript p) := by
  have hmark : "\t\tthis._" = "\t\tthis." ++ "_" := rfl
  have hlist : "List = null;" = "List" ++ " = " ++ "null" ++ ";" := rfl
  have hflag : "IsList = false;" = "IsList" ++ " = " ++ "false" ++ ";" := rfl
  unfold slotLines Script.slotNames
  rw [hmark, hlist, hflag]
  cases p.isPolymorphic
  · refine .cons ⟨scriptLiteral p.default?, ?_⟩ .nil
    simp only [Script.slotName, Script.slotMark, String.append_assoc]
  · refine .cons ⟨scriptLiteral p.default?, ?_⟩ (.cons ⟨"null", ?_⟩ (.cons ⟨"false", ?_⟩ .nil)) <;>
      simp only [Script.slotName, Script.slotMark, Script.listName, Script.flagName,
        String.append_assoc]

/-- Each field of a class declares one slot. -/
theorem ActionScript.declared_fieldLines (o : Options) (p : Property) :
    List.Forall₂
      (fun line name => ∃ type value?,
        line = "\tprivate var " ++ name ++ annotation type ++ defaultText value? ++ ";")
      (fieldLines o p) (Script.slotNames .actionScript p) := by
  have hmark : "\tprivate var ___" = "\tprivate var " ++ "___" := rfl
  have hlist : "List:Array;" = "List" ++ annotation "Array" ++ defaultText none ++ ";" := rfl
  have hflag : "IsList:Boolean = false;" =
    "IsList" ++ annotation "Boolean" ++ defaultText (some (.bool false)) ++ ";" := rfl
  unfold fieldLines Script.slotNames
  rw [hmark, hlist, hflag]
  cases p.isPolymorphic
  · refine .cons ⟨(types o).shape p.shape, p.default?, ?_⟩ .nil
    simp only [Script.slotName, Script.slotMark, String.append_assoc]
  · refine .cons ⟨(types o).shape p.shape, p.default?, ?_⟩ (.cons ⟨"Array", none, ?_⟩
      (.cons ⟨"Boolean", some (.bool false), ?_⟩ .nil)) <;>
      simp only [Script.slotName, Script.slotMark, Script.listName, Script.flagName,
        String.append_assoc]

namespace CSharp

theorem accessorNames_eq (p : Property) : accessorNames p = p.endings.map (p.name ++ ·) := by
  unfold accessorNames Property.endings
  cases p.isPolymorphic <;> simp [listName, flagName]

theorem slotNames_eq (p : Property) : slotNames p = p.endings.map ("_" ++ p.name ++ ·) := by
  rw [slotNames, accessorNames_eq, List.map_map]
  exact List.map_congr_left fun s _ => String.append_assoc.symm

/-- Each field of a class declares one slot. -/
theorem declared_fieldLines (o : Options) (p : Property) :
    List.Forall₂
      (fun line name => ∃ type, line = "\t\tprivate " ++ type ++ " " ++ name ++ ";")
      (fieldLines o p) (slotNames p) := by
  have hflag : "\t\tprivate bool " = "\t\tprivate " ++ "bool" ++ " " := rfl
  unfold fieldLines slotNames accessorNames
  rw [hflag]
  cases p.isPolymorphic
  · exact .cons ⟨_, rfl⟩ .nil
  · exact .cons ⟨_, rfl⟩ (.cons ⟨_, rfl⟩ (.cons ⟨_, rfl⟩ .nil))

/-- Each accessor is declared by a line. -/
theorem exists_accessorLine (o : Options) (e : Entity) (p : Property) :
    ∀ name ∈ accessorNames p, ∃ type, "\t\tpublic " ++ type ++ " " ++ name ∈
    accessorLines o e p := by
  have hflag : "\t\tpublic bool " = "\t\tpublic " ++ "bool" ++ " " := rfl
  unfold accessorNames accessorLines
  cases p.isPolymorphic
  · refine List.forall_mem_singleton.2 ⟨(types o).shape p.shape, ?_⟩
    simp [shortProperty]
  · simp only [if_true, List.forall_mem_cons]
    refine ⟨⟨"object", ?_⟩, ⟨listType o p, ?_⟩, ⟨"bool", ?_⟩, by simp⟩
    · simp [shortProperty]
    · simp [listProperty]
    · simp [flagProperty]

end CSharp

/-! ## All languages

The names of a property are its endings with and without the mark, in every language.
-/

/-- What is related to the elements of a list one by one is related to one of them. -/
theorem exists_of_forall₂ {α β : Type} {r : α → β → Prop} {y : β} :
    ∀ {xs : List α} {ys : List β}, List.Forall₂ r xs ys → y ∈ ys → ∃ x ∈ xs, r x y
  | _, _, .cons hr hrs, hy => by
    rcases List.mem_cons.1 hy with rfl | hy
    · exact ⟨_, List.mem_cons_self, hr⟩
    · obtain ⟨x, hx, hr⟩ := exists_of_forall₂ hrs hy
      exact ⟨x, List.mem_cons_of_mem _ hx, hr⟩

namespace Backend

/-- What stands before the name of an accessor in the name of the field behind it. -/
def slotMark : Backend → String
  | .javaScript => Script.slotMark .javaScript
  | .cSharp => CSharp.slotName ""
  | .actionScript => Script.slotMark .actionScript

/-- The names of the members that a class has for a property: its accessors and the
fields behind them. -/
def memberNames (b : Backend) (o : Options) (e : Entity) (p : Property) : List String :=
  match b with
  | .javaScript =>
    ((JavaScript.members o e p).filter Script.Member.isGetter).map Script.Member.name ++
      Script.slotNames .javaScript p
  | .cSharp => CSharp.accessorNames p ++ CSharp.slotNames p
  | .actionScript =>
    ((ActionScript.members o e p).filter Script.Member.isGetter).map Script.Member.name ++
      Script.slotNames .actionScript p

/-- Whether a line declares a name: as that of a field, or of an accessor. -/
def Declares (b : Backend) (line name : String) : Prop :=
  match b with
  | .javaScript =>
    (∃ value, line = "\t\tthis." ++ name ++ " = " ++ value ++ ";") ∨
      line = "\t" ++ ("get " ++ name ++ "()") ++ " \x7b"
  | .cSharp =>
    ∃ type, line = "\t\tprivate " ++ type ++ " " ++ name ++ ";" ∨
      line = "\t\tpublic " ++ type ++ " " ++ name
  | .actionScript =>
    (∃ type value?, line = "\tprivate var " ++ name ++ ActionScript.annotation type ++
      ActionScript.defaultText value? ++ ";") ∨
    ∃ type, line = "\t" ++ ("public function get " ++ name ++ "()" ++ type) ++ " \x7b"

/-- The lines of the members for a property. -/
def memberLines (b : Backend) (o : Options) (e : Entity) (p : Property) : List String :=
  match b with
  | .javaScript =>
    JavaScript.slotLines p ++ (JavaScript.members o e p).flatMap (Script.Member.lines .javaScript)
  | .cSharp => CSharp.fieldLines o p ++ CSharp.accessorLines o e p
  | .actionScript =>
    ActionScript.fieldLines o p ++
      (ActionScript.members o e p).flatMap (Script.Member.lines .actionScript)

variable {b : Backend} {l : Layout} {o : Options} {e : Entity} {p : Property}

/-- The lines of a property are lines of the template of its entity. -/
theorem memberLines_subset {t : Template} (h : b.template l o e = .ok t) (hp : p ∈ e.properties) :
    b.memberLines o e p ⊆ t.fields ++ t.constructor ++ t.members := by
  -- What is a line for the property is a line for all properties together.
  have hlines : ∀ f : Property → List String, ∀ line ∈ f p, line ∈ e.properties.flatMap f :=
    fun f line hl => List.mem_flatMap.2 ⟨p, hp, hl⟩
  intro line hl
  cases b with
  | javaScript =>
    obtain ⟨imported, -, h⟩ := Outcome.bind_eq_ok.1 h
    cases h
    simp only [JavaScript.parts, JavaScript.constructorLines, List.mem_append, List.flatMap_assoc]
    rcases List.mem_append.1 hl with hl | hl
    · have := hlines JavaScript.slotLines line hl
      tauto
    · have := hlines (fun p =>
        (JavaScript.members o e p).flatMap (Script.Member.lines .javaScript)) line hl
      tauto
  | cSharp =>
    obtain ⟨-, -, h⟩ := Outcome.bind_eq_ok.1 h
    cases h
    simp only [CSharp.parts, List.mem_append]
    rcases List.mem_append.1 hl with hl | hl
    · have := hlines (CSharp.fieldLines o) line hl
      tauto
    · have := hlines (CSharp.accessorLines o e) line hl
      tauto
  | actionScript =>
    obtain ⟨-, -, h⟩ := Outcome.bind_eq_ok.1 h
    cases h
    simp only [ActionScript.parts, List.mem_append, List.flatMap_assoc]
    rcases List.mem_append.1 hl with hl | hl
    · have := hlines (ActionScript.fieldLines o) line hl
      tauto
    · have := hlines (fun p =>
        (ActionScript.members o e p).flatMap (Script.Member.lines .actionScript)) line hl
      tauto

/-- The names of the members of a property follow from the mark of the language. -/
theorem memberNames_eq : b.memberNames o e p = p.names b.slotMark := by
  cases b with
  | javaScript => exact congrArg₂ _ (Script.getters_membersOf _ _ _ _ p) (Script.slotNames_eq _ p)
  | cSharp => exact congrArg₂ _ (CSharp.accessorNames_eq p) (CSharp.slotNames_eq p)
  | actionScript => exact congrArg₂ _ (Script.getters_membersOf _ _ _ _ p) (Script.slotNames_eq _ p)

/-- Every name of a member is declared. -/
theorem exists_declares {name : String} (h : name ∈ b.memberNames o e p) :
    ∃ line ∈ b.memberLines o e p, b.Declares line name := by
  -- The accessors and the slots are declared by lines of their own.
  cases b with
  | javaScript =>
    rcases List.mem_append.1 h with h | h
    · obtain ⟨m, ⟨type, hk⟩, rfl, hm⟩ := Script.exists_getter_head .javaScript h
      exact ⟨_, List.mem_append_right _ hm, Or.inr (by simp [Script.Member.head, hk])⟩
    · obtain ⟨line, hl, hd⟩ := exists_of_forall₂ (JavaScript.declared_slotLines p) h
      exact ⟨line, List.mem_append_left _ hl, Or.inl hd⟩
  | cSharp =>
    rcases List.mem_append.1 h with h | h
    · obtain ⟨type, hl⟩ := CSharp.exists_accessorLine o e p name h
      exact ⟨_, List.mem_append_right _ hl, type, Or.inr rfl⟩
    · obtain ⟨line, hl, type, hd⟩ := exists_of_forall₂ (CSharp.declared_fieldLines o p) h
      exact ⟨line, List.mem_append_left _ hl, type, Or.inl hd⟩
  | actionScript =>
    rcases List.mem_append.1 h with h | h
    · obtain ⟨m, ⟨type, hk⟩, rfl, hm⟩ := Script.exists_getter_head .actionScript h
      exact ⟨_, List.mem_append_right _ hm, Or.inr ⟨type, by simp [Script.Member.head, hk]⟩⟩
    · obtain ⟨line, hl, hd⟩ := exists_of_forall₂ (ActionScript.declared_fieldLines o p) h
      exact ⟨line, List.mem_append_left _ hl, Or.inl hd⟩

theorem odd_length_slotMark (b : Backend) : b.slotMark.length % 2 = 1 := by
  cases b <;> decide

/-- In the file of an entity all members are declared. They have different names exactly
if the properties have different names and no two of them clash. -/
theorem memberNames_nodup_iff (b : Backend) (o : Options) (e : Entity) :
    (∀ l t, b.template l o e = .ok t → ∀ p ∈ e.properties, ∀ name ∈ b.memberNames o e p,
      ∃ line ∈ t.fields ++ t.constructor ++ t.members, b.Declares line name) ∧
    ((e.properties.flatMap (b.memberNames o e)).Nodup ↔
      (e.properties.map Property.name).Nodup ∧
      ∀ p ∈ e.properties, ∀ q ∈ e.properties, ¬p.Clash b.slotMark q) := by
  constructor
  · intro l t ht p hp name hn
    obtain ⟨line, hl, hd⟩ := exists_declares hn
    exact ⟨line, memberLines_subset ht hp hl, hd⟩
  · have hnames : b.memberNames o e = Property.names b.slotMark := funext fun p => memberNames_eq
    rw [hnames]
    exact Property.flatMap_names_nodup_iff b.odd_length_slotMark e.properties

/-- An object with a tag, and with a number that has the name of the list form of a tag. -/
def labelledUser (tag : Schema.PropertyDef) : Entity :=
  .ofObject "User" ⟨none, ⟨[("tag", tag), ("tagList", .plain { type? := some "int" })]⟩⟩

/-- Without a list form there is no clash. -/
theorem memberNames_nodup_labelledUser_plain :
    let user := labelledUser (.plain { type? := some "string" })
    checkNames user = .ok () ∧
      ∀ b : Backend, (user.properties.flatMap (b.memberNames ⟨"App", .empty⟩ user)).Nodup := by
  refine ⟨rfl, fun b => (memberNames_nodup_iff b _ _).2.2 ⟨by decide, ?_⟩⟩
  cases b <;> decide

/-- A tag that may be a list has members with the names of those of another property. -/
theorem not_memberNames_nodup_labelledUser_listed :
    let user :=
      labelledUser (.listed { type? := some "string" } (.plain { type? := some "string" }))
    checkNames user = .ok () ∧ (user.properties.map Property.name).Nodup ∧
      ∀ b : Backend, ¬(user.properties.flatMap (b.memberNames ⟨"App", .empty⟩ user)).Nodup := by
  refine ⟨rfl, by decide, fun b => ?_⟩
  cases b <;> decide

end Backend

end Classwright
