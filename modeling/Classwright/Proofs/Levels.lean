import Classwright.Proofs.Collection
import Classwright.Proofs.Descriptions
import Mathlib.Data.List.DropRight

/-!
# Levels of a shape

The shape of a property has a level for every descriptor of its chain, and a level keeps
what its descriptor says: the object, which wins over the type, or else the type, if it
is known (`Atom.ofDescriptor?_cases`). The type `array` beside an element description
says nothing of its own (`Shape.isSome_besideList_iff`). So objects, mentions of the
result, choices between two forms and what is unknown can be read off the chain alone
(`Shape.Reflects`, `Property.ofDef_reflects`).
-/

namespace Classwright

/-! ## Texts that say something

A text says something if it is not blank, and blanks around it do not count.
-/

namespace Text

/-- A text that is trimmed at its start does not start with a blank. -/
theorem not_isBlank_of_trimStartChars {cs rest : List Char} {c : Char}
    (h : trimStartChars cs = c :: rest) :
    ¬isBlank c := by
  have hhead := List.head?_dropWhile_not isBlank cs
  rw [trimStartChars] at h
  rw [h] at hhead
  simpa using hhead

/-- A trimmed text begins with the first character that is not blank. -/
theorem trimChars_of_trimStartChars {cs rest : List Char} {c : Char}
    (h : trimStartChars cs = c :: rest) :
    trimChars cs = c :: trimEndChars rest := by
  rw [trimChars, h]
  exact trimEndChars_append_cons (not_isBlank_of_trimStartChars h) [] rest

/-- Nothing is left of a text exactly if it is blank. -/
theorem trim_eq_empty_iff {s : String} : trim s = "" ↔ isBlankText s := by
  have hchars : trimChars s.toList = [] ↔ trimStartChars s.toList = [] := by
    cases h : trimStartChars s.toList with
    | nil => simp [trimChars, h, trimEndChars, dropEndWhile]
    | cons c rest => simp [trimChars_of_trimStartChars h]
  have hempty : trim s = "" ↔ trimChars s.toList = [] := by
    rw [trim, ← String.toList_inj, String.toList_ofList, String.toList_empty]
  rw [hempty, hchars, trimStartChars, List.dropWhile_eq_nil_iff, isBlankText, List.all_eq_true]

theorem trimEndChars_trimEndChars (cs : List Char) :
    trimEndChars (trimEndChars cs) = trimEndChars cs := by
  rw [trimEndChars, dropEndWhile, trimEndChars, dropEndWhile, List.reverse_reverse,
    List.dropWhile_idempotent]

/-- Trimming once is enough. -/
@[simp] theorem trim_trim (s : String) : trim (trim s) = trim s := by
  have hchars : trimChars (trimChars s.toList) = trimChars s.toList := by
    cases h : trimStartChars s.toList with
    | nil =>
      have hnil : trimChars s.toList = [] := by rw [trimChars, h]; rfl
      rw [hnil]
      rfl
    | cons c rest =>
      have hstart : trimStartChars (trimChars s.toList) = trimChars s.toList := by
        rw [trimChars_of_trimStartChars h, trimStartChars,
          List.dropWhile_cons_of_neg (not_isBlank_of_trimStartChars h)]
      rw [trimChars, hstart, trimChars, trimEndChars_trimEndChars]
  rw [trim, trim, String.toList_ofList, hchars]

end Text

namespace Primitive

/-- The names of a scalar type, in small letters, the proper one first. -/
def names : Primitive → List String
  | .int => ["int", "integer"]
  | .float => ["float", "number", "double"]
  | .string => ["string"]
  | .boolean => ["boolean", "bool"]
  | .object => ["object"]
  | .array => ["array"]
  | .mixed => ["mixed"]

/-- A text names a type exactly if, trimmed and in small letters, it is one of its
names. -/
theorem ofName?_eq_some_iff {text : String} {p : Primitive} :
    ofName? text = some p ↔ Text.asciiLower (Text.trim text) ∈ p.names := by
  unfold ofName?
  generalize Text.asciiLower (Text.trim text) = word
  constructor
  · intro h
    split at h <;> cases h <;> decide
  · cases p <;> simp only [names, List.mem_cons, List.not_mem_nil, or_false]
    case int | boolean => rintro (rfl | rfl) <;> rfl
    case float => rintro (rfl | rfl | rfl) <;> rfl
    all_goals
      rintro rfl
      rfl

@[simp] theorem ofName?_trim (text : String) : ofName? (Text.trim text) = ofName? text := by
  rw [ofName?, ofName?, Text.trim_trim]

end Primitive

/-! ## What a descriptor says

An object is named before a type, and a name that is blank counts as none.
-/

namespace Schema.Descriptor

/-- Whether a descriptor names an object. -/
def NamesObject (d : Descriptor) : Prop :=
  ∃ text ∈ d.object?, ¬Text.isBlankText text

/-- Whether a descriptor names a type, be it known or not, other than that of all lists. -/
def NamesType (d : Descriptor) : Prop :=
  ∃ text ∈ d.type?, ¬Text.isBlankText text ∧
    Text.asciiLower (Text.trim text) ∉ Primitive.array.names

/-- Whether a descriptor names a type that is known. -/
def NamesKnownType (d : Descriptor) : Prop :=
  ∃ text ∈ d.type?, ∃ p : Primitive, Text.asciiLower (Text.trim text) ∈ p.names

end Schema.Descriptor

open Schema (Descriptor PropertyDef)

/-- A word is what is left of a text that is not blank. -/
theorem filter_trim_eq_some_iff {text? : Option String} {word : String} :
    ((text?.map Text.trim).filter fun name => !name.isEmpty) = some word ↔
      ∃ text ∈ text?, ¬Text.isBlankText text ∧ Text.trim text = word := by
  simp only [Option.filter_eq_some_iff, Option.map_eq_some_iff, Bool.not_eq_true',
    ← Bool.not_eq_true, String.isEmpty_iff, ← Text.trim_eq_empty_iff, Option.mem_def]
  grind

namespace Atom

variable {d : Descriptor}

/-- The object of a descriptor wins over its type, and a type counts whether it is known
or not. -/
theorem ofDescriptor?_cases (d : Descriptor) :
    (∃ text ∈ d.object?, ¬Text.isBlankText text ∧
      ofDescriptor? d =
      some (if Text.trim text = resultName then .result else .object (Text.trim text))) ∨
    ¬d.NamesObject ∧ (∃ text ∈ d.type?, ¬Text.isBlankText text ∧
      ofDescriptor? d = some ((Primitive.ofName? text).elim .unknown .primitive)) ∨
    ¬d.NamesObject ∧ (∀ text ∈ d.type?, Text.isBlankText text) ∧ ofDescriptor? d = none := by
  -- An object that is named decides, then a type, and without either nothing is
  -- described.
  cases hobject : (d.object?.map Text.trim).filter fun name => !name.isEmpty with
  | some name =>
    obtain ⟨text, ht, hb, rfl⟩ := filter_trim_eq_some_iff.1 hobject
    refine Or.inl ⟨text, ht, hb, ?_⟩
    simp only [ofDescriptor?, hobject, beq_iff_eq]
  | none =>
    have hnames : ¬d.NamesObject := by
      rintro ⟨text, ht, hb⟩
      have hsome := filter_trim_eq_some_iff.2 ⟨text, ht, hb, rfl⟩
      rw [hobject] at hsome
      cases hsome
    cases htype : (d.type?.map Text.trim).filter fun name => !name.isEmpty with
    | some name =>
      obtain ⟨text, ht, hb, rfl⟩ := filter_trim_eq_some_iff.1 htype
      refine Or.inr (Or.inl ⟨hnames, text, ht, hb, ?_⟩)
      simp only [ofDescriptor?, hobject, htype, Option.map_some, Primitive.ofName?_trim]
      cases Primitive.ofName? text <;> rfl
    | none =>
      refine Or.inr (Or.inr ⟨hnames, fun text ht => ?_, ?_⟩)
      · by_contra hb
        have hsome := filter_trim_eq_some_iff.2 ⟨text, ht, hb, rfl⟩
        rw [htype] at hsome
        cases hsome
      · simp only [ofDescriptor?, hobject, htype, Option.map_none]

/-- A descriptor is that of a result exactly if its object is `Result`. -/
theorem ofDescriptor?_eq_result_iff :
    ofDescriptor? d = some .result ↔ d.object?.map Text.trim = some resultName := by
  rcases ofDescriptor?_cases d with ⟨text, ht, -, h⟩ | ⟨hobject, text, -, -, h⟩ | ⟨hobject, -, h⟩
  · rw [h, Option.mem_def.1 ht, Option.map_some, Option.some.injEq, Option.some.injEq]
    split <;> simp [*]
  all_goals
    have hnot : d.object?.map Text.trim ≠ some resultName := by
      intro heq
      obtain ⟨text, ht, htrim⟩ := Option.map_eq_some_iff.1 heq
      refine hobject ⟨text, ht, fun hb => ?_⟩
      rw [Text.trim_eq_empty_iff.2 hb] at htrim
      exact absurd htrim (by decide)
    rw [iff_false_right hnot, h]
  · cases Primitive.ofName? text <;> simp
  · simp

/-- Nothing is known of a value without an object and without a type that is known. -/
theorem getD_ofDescriptor?_eq_unknown_iff :
    (ofDescriptor? d).getD .unknown = .unknown ↔ ¬d.NamesObject ∧ ¬d.NamesKnownType := by
  -- The text of the type decides whether it is a known one.
  have hknown : ∀ {text}, text ∈ d.type? →
      (d.NamesKnownType ↔ (Primitive.ofName? text).isSome) := by
    intro text ht
    simp only [Descriptor.NamesKnownType, ← Primitive.ofName?_eq_some_iff, Option.isSome_iff_exists]
    constructor
    · rintro ⟨text', ht', p, hp⟩
      obtain rfl := Option.mem_unique ht ht'
      exact ⟨p, hp⟩
    · exact fun hp => ⟨text, ht, hp⟩
  rcases ofDescriptor?_cases d with ⟨text, ht, hb, h⟩ | ⟨hobject, text, ht, -,
    h⟩ | ⟨hobject, hblank, h⟩
  · have hnames : d.NamesObject := ⟨text, ht, hb⟩
    rw [h, Option.getD_some]
    split <;> simp [hnames]
  · rw [h, Option.getD_some, hknown ht, and_iff_right hobject]
    cases Primitive.ofName? text <;> simp
  -- A blank type names nothing.
  · have hunknown : ¬d.NamesKnownType := by
      rintro ⟨text, ht, p, hp⟩
      rw [Text.trim_eq_empty_iff.2 (hblank text ht)] at hp
      cases p <;> exact absurd hp (by decide)
    simp [h, hobject, hunknown]

end Atom

/-- A list may be given beside its single form exactly if the descriptor names an object
or a type. -/
theorem Shape.isSome_besideList_iff {d : Descriptor} :
    (Shape.besideList d).isSome ↔ d.NamesObject ∨ d.NamesType := by
  -- The text of the type decides whether it is one that can stand beside a list.
  have htype : ∀ {text}, text ∈ d.type? → ¬Text.isBlankText text →
      (d.NamesType ↔ Primitive.ofName? text ≠ some .array) := by
    intro text ht hb
    rw [Ne, Primitive.ofName?_eq_some_iff]
    constructor
    · rintro ⟨text', ht', -, hn⟩
      obtain rfl := Option.mem_unique ht ht'
      exact hn
    · exact fun hn => ⟨text, ht, hb, hn⟩
  rw [Shape.besideList]
  rcases Atom.ofDescriptor?_cases d with ⟨text, ht, hb, h⟩ | ⟨hobject, text, ht, hb,
    h⟩ | ⟨hobject, hblank, h⟩
  · have hnames : d.NamesObject := ⟨text, ht, hb⟩
    rw [h]
    split <;> simp [hnames, Option.filter]
  · rw [h, htype ht hb, or_iff_right hobject]
    cases Primitive.ofName? text <;> simp [Option.filter]
  · have hnot : ¬d.NamesType := by
      rintro ⟨text, ht, hb, -⟩
      exact hb (hblank text ht)
    simp [h, hobject, hnot]

/-! ## Levels

A level of a shape is what remains below some lists around it. `around` puts the list of
a descriptor around the shape of its elements, and all facts are shown for one such
step.
-/

namespace Shape

/-- The elements of the elements of a shape, `depth` times. -/
def level? : Shape → Nat → Option Shape
  | s, 0 => some s
  | .single _, _ + 1 => none
  | .list element, depth + 1 => element.level? depth
  | .either _ element, depth + 1 => element.level? depth

/-- Whether a level of a shape has a single form beside its list form. -/
def EitherAt (s : Shape) (depth : Nat) : Prop :=
  ∃ atom element, s.level? depth = some (.either atom element)

/-- Whether a shape keeps what the descriptors of a chain say. -/
structure Reflects (s : Shape) (chain : List Descriptor) : Prop where
  /-- There is a list level for every descriptor but the innermost one. -/
  levels : chain.length = s.listLevels + 1
  /-- The objects are those that the descriptors refer to, in order. -/
  objects : s.objectNames = chain.filterMap Descriptor.reference?
  /-- The result of a method is mentioned exactly if it is the object of some
  descriptor. -/
  results : s.mentionsResult ↔ ∃ d ∈ chain, d.object?.map Text.trim = some resultName
  /-- A list level has a single form as well exactly if its descriptor names an object,
  or a type of its own. -/
  choices : ∀ depth, s.EitherAt depth ↔ depth < s.listLevels ∧ ∃ d ∈ chain[depth]?,
    d.NamesObject ∨ d.NamesType
  /-- Nothing is known of the innermost values exactly if the innermost descriptor names
  neither an object nor a type that is known. -/
  unknown : s.level? s.listLevels = some (.single .unknown) ↔
    ∃ d ∈ chain.getLast?, ¬d.NamesObject ∧ ¬d.NamesKnownType

/-- The shape of a single descriptor reflects it. -/
theorem reflects_single (own : Descriptor) :
    (single ((Atom.ofDescriptor? own).getD .unknown)).Reflects [own] where
  levels := rfl
  objects := by
    have hobject := Atom.object?_ofDescriptor? own
    rw [List.filterMap_cons, List.filterMap_nil, ← hobject]
    cases Atom.ofDescriptor? own with
    | none => rfl
    | some atom => cases atom <;> rfl
  results := by
    simp only [List.mem_singleton, exists_eq_left, ← Atom.ofDescriptor?_eq_result_iff]
    cases Atom.ofDescriptor? own <;> simp [mentionsResult]
  choices depth := by
    have hnot : ¬(single ((Atom.ofDescriptor? own).getD .unknown)).EitherAt depth := by
      rintro ⟨atom, element, h⟩
      cases depth <;> cases h
    simp [hnot, listLevels]
  unknown := by simp [level?, listLevels, Atom.getD_ofDescriptor?_eq_unknown_iff]

/-- The level of lists of elements, or of lists and single values. -/
def around : Option Atom → Shape → Shape
  | none, element => .list element
  | some atom, element => .either atom element

theorem classify_listed (own : Descriptor) (element : PropertyDef) :
    classify (.listed own element) = around (besideList own) (classify element) := by
  rw [classify]
  cases besideList own <;> rfl

section around

variable (atom? : Option Atom) (element : Shape)

theorem listLevels_around : (around atom? element).listLevels = element.listLevels + 1 := by
  cases atom? <;> rfl

theorem objectNames_around :
    (around atom? element).objectNames = (atom?.bind Atom.object?).toList ++
    element.objectNames := by
  cases atom? <;> rfl

theorem mentionsResult_around :
    (around atom? element).mentionsResult ↔ atom? = some .result ∨ element.mentionsResult := by
  cases atom? <;> simp [around, mentionsResult]

theorem level?_around (depth : Nat) :
    (around atom? element).level? (depth + 1) = element.level? depth := by
  cases atom? <;> rfl

theorem eitherAt_around_zero : (around atom? element).EitherAt 0 ↔ atom?.isSome := by
  cases atom? <;> simp [around, EitherAt, level?]

end around

/-- The object of a descriptor stays beside a list, be it the result of a method or not. -/
theorem besideList_eq_result_iff {d : Descriptor} :
    besideList d = some .result ↔ d.object?.map Text.trim = some resultName := by
  rw [← Atom.ofDescriptor?_eq_result_iff, besideList, Option.filter_eq_some_iff]
  exact and_iff_left (by decide)

/-- A descriptor in front of a chain makes a level around the shape of the chain. -/
theorem Reflects.around {s : Shape} {chain : List Descriptor} (h : s.Reflects chain)
    (own : Descriptor) : (Shape.around (besideList own) s).Reflects (own :: chain) where
  levels := by rw [List.length_cons, h.levels, listLevels_around]
  objects := by
    rw [objectNames_around, object?_besideList, h.objects, List.filterMap_cons]
    cases own.reference? <;> rfl
  results := by
    rw [mentionsResult_around, besideList_eq_result_iff, h.results, List.exists_mem_cons_iff]
  choices depth := by
    rw [listLevels_around]
    cases depth with
    | zero => simp [eitherAt_around_zero, isSome_besideList_iff]
    -- Below its first level the list has the choices of its elements.
    | succ depth =>
      have hchoice := h.choices depth
      rw [EitherAt] at hchoice
      rw [EitherAt, level?_around, hchoice, Nat.succ_lt_succ_iff, List.getElem?_cons_succ]
  unknown := by
    have hne : chain ≠ [] := List.ne_nil_of_length_pos (by rw [h.levels]; exact Nat.succ_pos _)
    rw [listLevels_around, level?_around, h.unknown, List.getLast?_cons_of_ne_nil hne]

/-- The shape of a property reflects the chain of its descriptors. -/
theorem classify_reflects : ∀ d : PropertyDef, (classify d).Reflects d.chain
  | .plain own => reflects_single own
  | .listed own element => by
    rw [classify_listed, PropertyDef.chain]
    exact (classify_reflects element).around own

end Shape

/-- The shape of a property reflects the chain of its descriptors. The object that the
property refers to by itself or by its elements, and the one that its elements refer to,
are among the objects of the shape. -/
theorem Property.ofDef_reflects (name : String) (d : PropertyDef) :
    (ofDef name d).shape.Reflects d.chain ∧
    (ofDef name d).referencedObject?.toList ⊆ (ofDef name d).shape.objectNames ∧
    (ofDef name d).elementObject?.toList ⊆ (ofDef name d).shape.objectNames := by
  refine ⟨Shape.classify_reflects d, fun n hn => ?_, fun n hn => ?_⟩
  · exact mem_objectNames_of_referencedObject? (Option.mem_toList.1 hn)
  · exact mem_objectNames_of_elementObject? (Option.mem_toList.1 hn)

/-- The type of a list that describes its elements says nothing of its own. -/
example :
    Shape.classify (.listed { type? := some " Array " } (.plain { object? := some " User " })) =
    .list (.single (.object "User")) := by decide

end Classwright
