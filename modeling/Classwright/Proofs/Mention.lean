import Classwright.Render.Generate

/-!
# What generated statements mention

Statements name classes: to test a value for one, and to make an instance of one. The
setters of a property name exactly the classes that its shape refers to
(`Script.mem_classesIn_cast`, `Script.mem_classesIn_members`). Statements that convert
name types as well; a type is `Usable` when it is made of given types, of the classes of
certain objects, and of lists.
-/

namespace Classwright

/-! ## Classes of a shape

A shape refers to the classes of its objects, and to the base class of results if there
is one at some level.
-/

namespace TypeSystem

/-- The class that an atom refers to. -/
def atomClasses (types : TypeSystem) : Atom → List String
  | .object name => [types.object name]
  | .result => [types.resultBase]
  | _ => []

/-- The classes that the levels of a shape refer to. -/
def classesOf (types : TypeSystem) : Shape → List String
  | .single atom => types.atomClasses atom
  | .list element => types.classesOf element
  | .either atom element => types.atomClasses atom ++ types.classesOf element

theorem mem_atomClasses (types : TypeSystem) {atom : Atom} {k : String} :
    k ∈ types.atomClasses atom ↔ (∃ n ∈ atom.object?.toList, k = types.object n) ∨
    (atom == .result) ∧ k = types.resultBase := by
  cases atom <;> simp [atomClasses, Atom.object?]

/-- The classes of a shape are those of its objects, and the base of results if some
level is one. -/
theorem mem_classesOf (types : TypeSystem) {k : String} :
    ∀ shape : Shape, k ∈ types.classesOf shape ↔ (∃ n ∈ shape.objectNames, k = types.object n) ∨
    shape.mentionsResult ∧ k = types.resultBase
  | .single atom => types.mem_atomClasses
  | .list element => types.mem_classesOf element
  | .either atom element => by
    have ih := types.mem_classesOf (k := k) element
    simp only [classesOf, Shape.objectNames, Shape.mentionsResult, List.mem_append, Bool.or_eq_true,
      ih, types.mem_atomClasses]
    grind

end TypeSystem

/-! ## Setters

What the statements name is collected construct by construct. Altogether, the code for a
shape names the classes that the shape refers to.
-/

namespace Script

/-- The class that a test is for. -/
def Test.classes : Test → List String
  | .notInstance _ class_ => [class_]
  | _ => []

/-- The class that an expression makes an instance of. -/
def Expr.classes : Expr → List String
  | .construct class_ _ => [class_]
  | _ => []

/-- The classes that a statement names. -/
def Statement.classes : Statement → List String
  | .check t _ => t.classes
  | .elseCheck t _ => t.classes
  | .assign _ e => e.classes
  | .assignIf t _ e => t.classes ++ e.classes
  | .declare _ e? => (e?.map Expr.classes).getD []
  | .push _ e => e.classes
  | .answer e => e.classes
  | .openIf t => t.classes
  | _ => []

/-- The classes that lines name. -/
def classesIn (ls : List Line) : List String :=
  ls.flatMap fun line => line.statement.classes

@[simp] theorem classesIn_nil : classesIn [] = [] :=
  rfl

@[simp] theorem classesIn_cons (line : Line) (ls : List Line) :
    classesIn (line :: ls) = line.statement.classes ++ classesIn ls :=
  rfl

@[simp] theorem classesIn_append (ls ms : List Line) :
    classesIn (ls ++ ms) = classesIn ls ++ classesIn ms :=
  List.flatMap_append

variable (c : Caster) {k : String}

/-- Checking a single value mentions the classes of its atom. -/
theorem mem_classesIn_castAtom {atom : Atom} {value target label : String} {indent : Nat} :
    k ∈ classesIn (c.castAtom atom value target label indent) ↔ k ∈ c.types.atomClasses atom := by
  cases atom with
  | primitive p =>
    cases p <;> simp [Caster.castAtom, TypeSystem.atomClasses, Statement.classes, Test.classes,
      Expr.classes]
  | object name =>
    simp [Caster.castAtom, TypeSystem.atomClasses, Statement.classes, Test.classes, Expr.classes]
  | result =>
    simp [Caster.castAtom, TypeSystem.atomClasses, Statement.classes, Test.classes, Expr.classes]
  | unknown => simp [Caster.castAtom, TypeSystem.atomClasses, Statement.classes, Expr.classes]

@[simp] theorem classesIn_castList (value target label : String) (indent depth : Nat)
    (inner : List Line) :
    classesIn (Caster.castList value target label indent depth inner) = classesIn inner := by
  simp [Caster.castList, Statement.classes, Test.classes, Expr.classes]

/-- The checks of a shape name the classes of the shape. -/
theorem mem_classesIn_cast : ∀ (shape : Shape) {value target label : String} {indent depth : Nat},
    k ∈ classesIn (c.cast shape value target label indent depth) ↔ k ∈ c.types.classesOf shape
  | .single atom, _, _, _, _, _ => mem_classesIn_castAtom c
  | .list element, _, _, _, _, _ => by
    rw [Caster.cast, classesIn_castList, mem_classesIn_cast element, TypeSystem.classesOf]
  | .either atom element, _, _, _, _, _ => by
    simp [Caster.cast, TypeSystem.classesOf, mem_classesIn_cast element, mem_classesIn_castAtom,
      Statement.classes, Test.classes, or_comm]

@[simp] theorem classesIn_missingGuard (name : String) (clear : List Statement) :
    classesIn (missingGuard name clear) = clear.flatMap Statement.classes := by
  have h : classesIn (clear.map (⟨3, ·⟩)) = clear.flatMap Statement.classes := by
    simp only [classesIn, List.flatMap_map]
  simp [missingGuard, h, Statement.classes, Test.classes]

@[simp] theorem classesIn_getterBody_plain (text : String) :
    classesIn (getterBody (.plain text)) = [] :=
  rfl

@[simp] theorem classesIn_getterBody_choice (test yes no : String) :
    classesIn (getterBody (.choice test yes no)) = [] :=
  rfl

@[simp] theorem classes_clear (s : Slots) : s.clear.flatMap Statement.classes = [] :=
  rfl

/-- A setter mentions the classes of its shape. -/
theorem mem_classesIn_plainSetter {slots : Slots} {p : Property} {label : String} :
    k ∈ classesIn (plainSetter c slots p label) ↔ k ∈ c.types.classesOf p.shape := by
  unfold plainSetter
  split
  · simp [mem_classesIn_cast, Statement.classes, Expr.classes]
  · next h =>
    -- What is not checked has no class to be checked for.
    rcases Property.shape_of_not_isChecked h with hs | hs <;>
      simp [hs, TypeSystem.classesOf, TypeSystem.atomClasses, Statement.classes, Expr.classes]

theorem mem_classesIn_singleSetter {slots : Slots} {name label : String} {atom : Atom} :
    k ∈ classesIn (singleSetter c slots name atom label) ↔ k ∈ c.types.atomClasses atom := by
  simp [singleSetter, mem_classesIn_cast, TypeSystem.classesOf, Statement.classes, Test.classes,
    Expr.classes]

theorem mem_classesIn_listSetter {slots : Slots} {name label : String} {element : Shape} :
    k ∈ classesIn (listSetter c slots name element label) ↔ k ∈ c.types.classesOf element := by
  simp [listSetter, mem_classesIn_cast, TypeSystem.classesOf, Statement.classes, Expr.classes]

/-- The accessors of a property name the classes of its shape. -/
theorem mem_classesIn_members {d : Dialect} {docs : MemberDocs} {entity : String} {p : Property} :
    k ∈ classesIn ((membersOf d c docs entity p).flatMap Member.body) ↔
    k ∈ c.types.classesOf p.shape := by
  unfold membersOf
  cases hs : p.shape with
  | single atom => simp [mem_classesIn_plainSetter, hs]
  | list element => simp [mem_classesIn_plainSetter, hs]
  | either atom element =>
    simp [mem_classesIn_singleSetter, mem_classesIn_listSetter, TypeSystem.classesOf]

end Script

/-! ## Conversions

Conversions name types where setters name classes, and besides those of the shape the
types of dictionaries and lists.
-/

namespace Conversion

/-- The type that a test is for. -/
def Guard.types : Guard → List String
  | .isType _ type => [type]
  | .isEnvelope _ => [dictionaryType]
  | _ => []

/-- The type that an expression casts to or makes an instance of. -/
def Expr.types : Expr → List String
  | .cast type _ => [type]
  | .create type => [type]
  | _ => []

/-- The types that a statement names. -/
def Statement.types : Statement → List String
  | .branch g => g.types
  | .elseBranch g => g.types
  | .reportUnless g _ => g.types
  | .assign _ e => e.types
  | .assignIf g _ e => g.types ++ e.types
  | .declare type _ => [type]
  | .define _ e => e.types
  | .loop _ _ => [anyListType]
  | _ => []

/-- The types that lines name. -/
def typesIn (ls : List Line) : List String :=
  ls.flatMap fun line => line.statement.types

@[simp] theorem typesIn_nil : typesIn [] = [] :=
  rfl

@[simp] theorem typesIn_cons (line : Line) (ls : List Line) :
    typesIn (line :: ls) = line.statement.types ++ typesIn ls :=
  rfl

@[simp] theorem typesIn_append (ls ms : List Line) :
    typesIn (ls ++ ms) = typesIn ls ++ typesIn ms :=
  List.flatMap_append

@[simp] theorem typesIn_braced (indent : Nat) (inner : List Line) :
    typesIn (braced indent inner) = typesIn inner := by
  simp [braced, Statement.types]

@[simp] theorem typesIn_refuse (value target label expected : String) (indent : Nat) :
    typesIn (refuse value target label expected indent) = [] := by
  simp [refuse, Statement.types, Expr.types]

@[simp] theorem typesIn_convertCast (type expected value target label : String) (indent : Nat) :
    typesIn (convertCast type expected value target label indent) = [type, type] := by
  simp [convertCast, Statement.types, Guard.types, Expr.types]

/-- The types that it takes to convert a value to an atom. -/
def Converter.atomTypes (c : Converter) : Atom → List String
  | .primitive .string => ["string"]
  | .primitive .boolean => ["bool"]
  | .primitive .object => [dictionaryType]
  | .primitive .array => ["List<object>"]
  | .object name => [c.types.object name, dictionaryType]
  | .result => [c.types.resultBase, dictionaryType]
  | _ => []

variable (c : Converter) {value target label k : String} {indent depth : Nat}

/-- Converting a single value mentions the types of its atom. -/
theorem mem_typesIn_convertAtom {atom : Atom} :
    k ∈ typesIn (c.convertAtom atom value target label indent depth) ↔ k ∈ c.atomTypes atom := by
  cases atom with
  | primitive p =>
    cases p <;> simp [Converter.convertAtom, Converter.atomTypes, Statement.types,
      Guard.types, Expr.types]
  | object name =>
    simp only [Converter.convertAtom, typesIn_append, typesIn_cons, typesIn_nil, typesIn_braced,
      typesIn_refuse, Statement.types, Guard.types, Expr.types, Converter.atomTypes,
      List.mem_append, List.mem_cons]
    grind
  | result =>
    simp only [Converter.convertAtom, typesIn_append, typesIn_cons, typesIn_nil, typesIn_braced,
      typesIn_refuse, Statement.types, Guard.types, Expr.types, Converter.atomTypes,
      List.mem_append, List.mem_cons]
    grind
  | unknown => simp [Converter.convertAtom, Converter.atomTypes, Statement.types, Expr.types]

/-- Converting a list mentions the types of lists, of its elements and of the code
inside. -/
theorem mem_typesIn_convertListWith {element : Shape} {inner : List Line} :
    k ∈ typesIn (c.convertListWith element value target label indent depth inner) ↔
      k = anyListType ∨ k = "List<" ++ c.types.shape element ++ ">" ∨ k = c.types.shape element ∨
        k ∈ typesIn inner := by
  simp only [Converter.convertListWith, typesIn_append, typesIn_cons, typesIn_nil, typesIn_braced,
    typesIn_refuse, Statement.types, Guard.types, Expr.types, List.mem_append, List.mem_cons]
  grind

end Conversion

/-! ## Types that code is made of

`Usable` has one constructor for each way to make a type, and what a type system makes
of a shape is usable if its objects are given.
-/

/-- A type that is made of the given types, of the classes of the named objects, and of
lists. -/
inductive Usable (given : List String) (types : TypeSystem) (names : List String) : String → Prop
  | given {t : String} (h : t ∈ given) : Usable given types names t
  | object {n : String} (h : n ∈ names) : Usable given types names (types.object n)
  | list {t : String} (h : Usable given types names t) : Usable given types names (types.list t)

namespace Usable

variable {given : List String} {types : TypeSystem} {names : List String}

/-- What is usable with some names is usable with more. -/
theorem mono {names' : List String} (hn : names ⊆ names') {t : String}
    (h : Usable given types names t) :
    Usable given types names' t := by
  induction h with
  | given h => exact .given h
  | object h => exact .object (hn h)
  | list _ ih => exact .list ih

/-- The classes of a shape are usable, if the names that it refers to are. -/
theorem of_mem_classesOf (hr : types.resultBase ∈ given) {shape : Shape}
    (hn : ∀ n ∈ shape.objectNames, n ∈ names) {k : String} (hk : k ∈ types.classesOf shape) :
    Usable given types names k := by
  rcases (types.mem_classesOf shape).1 hk with ⟨n, h, rfl⟩ | ⟨-, rfl⟩
  · exact .object (hn n h)
  · exact .given hr

variable (hp : ∀ p, types.primitive p ∈ given) (hr : types.resultBase ∈ given)
    (hu : types.unknown ∈ given)

include hp hr hu in
/-- The type of an atom is usable, if the name that it refers to is. -/
theorem of_atom {atom : Atom} (hn : ∀ n ∈ atom.object?.toList, n ∈ names) :
    Usable given types names (types.atom atom) := by
  cases atom with
  | primitive p => exact .given (hp p)
  | object name => exact .object (hn name (by simp [Atom.object?]))
  | result => exact .given hr
  | unknown => exact .given hu

include hp hr hu in
/-- The type of a shape, where the type of a single value or a list does not depend on
either. -/
theorem of_shape (he : ∀ a b, types.either a b ∈ given) :
    ∀ shape : Shape, (∀ n ∈ shape.objectNames, n ∈ names) →
    Usable given types names (types.shape shape)
  | .single _, hn => of_atom hp hr hu hn
  | .list element, hn => .list (of_shape he element hn)
  | .either _ _, _ => .given (he _ _)

end Usable

end Classwright
