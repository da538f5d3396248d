import Classwright.Proofs.Braces
import Classwright.Render.CSharp
import Classwright.Render.JavaScript

/-!
# Nested code

The code that checks a value opens blocks, puts the code of the elements of a list
inside, and closes them. Whatever the shape, its braces form a Dyck word, since those of
the code of an element do (`Script.isNest_cast`, `Conversion.isNest_convert`), and no
other brace is in the text if none is in the names that it is made of. The loops of a
list and of the lists in it are numbered, so they have variables of their own
(`Script.declaredNames_cast`, `Script.nodup_loops`).
-/

namespace Classwright

open Text (Balanced IsBraceFree isBraceFree_append isBraceFree_toString isDigit_of_mem_toString)

/-! ## Braces of blocks

A list of braces is a nest if it is made of blocks, one after the other and inside one
another.
-/

/-- Whether braces are nested in each other. -/
def IsNest (steps : List DyckStep) : Prop :=
  ∃ w : DyckWord, steps = w.toList

theorem IsNest.nil : IsNest [] :=
  ⟨0, rfl⟩

theorem IsNest.append {xs ys : List DyckStep} : IsNest xs → IsNest ys → IsNest (xs ++ ys) := by
  rintro ⟨v, rfl⟩ ⟨w, rfl⟩
  exact ⟨v + w, rfl⟩

/-- A block around nested braces. -/
theorem IsNest.block {xs : List DyckStep} :
    IsNest xs → IsNest ([DyckStep.U] ++ xs ++ [DyckStep.D]) := by
  rintro ⟨w, rfl⟩
  exact ⟨w.nest, rfl⟩

/-- An empty block. -/
theorem isNest_pair : IsNest [.U, .D] :=
  IsNest.nil.block

/-! ## Lines

The braces of a list of lines are those of their statements as long as the texts in them
have none.
-/

section lines

variable {α : Type} (texts : α → List String) (steps : α → List DyckStep)

/-- Whether no text in lines has a brace. -/
def AreBraceFree (ls : List α) : Prop :=
  ∀ l ∈ ls, ∀ s ∈ texts l, IsBraceFree s

@[simp] theorem areBraceFree_nil : AreBraceFree texts [] :=
  List.forall_mem_nil _

@[simp] theorem areBraceFree_cons (l : α) (ls : List α) :
    AreBraceFree texts (l :: ls) ↔ (∀ s ∈ texts l, IsBraceFree s) ∧ AreBraceFree texts ls :=
  List.forall_mem_cons

@[simp] theorem areBraceFree_append (ls ms : List α) :
    AreBraceFree texts (ls ++ ms) ↔ AreBraceFree texts ls ∧ AreBraceFree texts ms :=
  List.forall_mem_append

/-- The braces of lines. -/
def bracesOf (ls : List α) : List DyckStep :=
  ls.flatMap steps

@[simp] theorem bracesOf_nil : bracesOf steps [] = [] :=
  rfl

@[simp] theorem bracesOf_cons (l : α) (ls : List α) :
    bracesOf steps (l :: ls) = steps l ++ bracesOf steps ls :=
  List.flatMap_cons

@[simp] theorem bracesOf_append (ls ms : List α) :
    bracesOf steps (ls ++ ms) = bracesOf steps ls ++ bracesOf steps ms :=
  List.flatMap_append

variable {texts steps}

/-- Lines of texts without braces are balanced if their own braces are nested. -/
theorem balanced_unlines_map {code : α → String}
    (hcode : ∀ l, (∀ s ∈ texts l, IsBraceFree s) → Text.braces (code l) = steps l) {ls : List α}
    (hfree : AreBraceFree texts ls) (h : IsNest (bracesOf steps ls)) :
    Balanced (Text.unlines (ls.map code)) := by
  have hlines : ∀ l ∈ ls, Text.braces (code l) = steps l := fun l hl => hcode l (hfree l hl)
  obtain ⟨w, hw⟩ := h
  apply Text.balanced_of_braces (w := w)
  rw [Text.braces_unlines, List.flatMap_map, ← hw, bracesOf, List.flatMap_def, List.flatMap_def,
    List.map_congr_left hlines]

end lines

/-! ## Names of classes

The texts that come from outside are the names of the classes that a shape refers to.
-/

/-- The class names in the code of an atom. -/
def Atom.classTexts (types : TypeSystem) (index : String) : Atom → List String
  | .object name => [types.object name]
  | .result => [types.resultBase, index]
  | .primitive _ | .unknown => []

/-- The class names in the code of a shape. -/
def Shape.classTexts (types : TypeSystem) (index : String) : Shape → List String
  | .single atom => atom.classTexts types index
  | .list element => element.classTexts types index
  | .either atom element => atom.classTexts types index ++ element.classTexts types index

/-- The label of the elements of a list. -/
theorem isBraceFree_mark {label : String} (h : IsBraceFree label) : IsBraceFree (label ++ "[]") :=
  isBraceFree_append.2 ⟨h, by decide⟩

/-! ## Setters

The code for a list is a loop around the code for its elements, so the nest for the
elements is put inside the one for the list.
-/

namespace Script

/-- The texts that a line is made of. -/
def Line.texts (l : Line) : List String :=
  l.statement.texts

/-- The braces of a line. -/
def Line.braces (l : Line) : List DyckStep :=
  l.statement.braces

/-- The braces of a line are those of its statement, if no other text has any. -/
theorem Line.braces_code (d : Dialect) (l : Line) (h : ∀ s ∈ l.texts, IsBraceFree s) :
    Text.braces (l.code d) = l.braces := by
  rw [code, Text.braces_append, Text.braces_copies_tab, List.nil_append,
    l.statement.braces_code d h]
  rfl

theorem isBraceFree_numbered (name : String) (h : IsBraceFree name) (depth : Nat) :
    IsBraceFree (numbered name depth) :=
  isBraceFree_append.2 ⟨h, isBraceFree_toString depth⟩

section cast

variable (c : Caster)

/-- The words in the code of atoms and lists. -/
def castWords : List String :=
  ["number", "string", "boolean", "a number", "a string", "a boolean", "an object", "an array",
    "true", "false", "null", "[]", "arr", "i", "val", "item"]

theorem isBraceFree_of_mem_castWords : ∀ word ∈ castWords, IsBraceFree word := by
  simp only [castWords, List.forall_mem_cons, List.not_mem_nil, false_imp_iff,
    implies_true, and_true]
  and_intros <;> exact Text.notMem_toList_ofList (by decide)

/-- The texts in the check of a single value have no braces, if those it is made of have
none. -/
theorem areBraceFree_castAtom {atom : Atom} {value target label : String} (hv : IsBraceFree value)
    (ht : IsBraceFree target) (hl : IsBraceFree label)
    (hclass : ∀ s ∈ atom.classTexts c.types c.index, IsBraceFree s) (indent : Nat) :
    AreBraceFree Line.texts (c.castAtom atom value target label indent) := by
  have hwords := isBraceFree_of_mem_castWords
  simp only [castWords, List.forall_mem_cons] at hwords
  cases atom with
  | primitive p =>
    cases p <;> simp [Caster.castAtom, Line.texts, Statement.texts, Test.texts, Report.texts,
      Expr.texts, *]
  | object name =>
    simp only [Atom.classTexts, List.forall_mem_cons] at hclass
    simp [Caster.castAtom, Line.texts, Statement.texts, Test.texts, Report.texts, Expr.texts, *]
  | result =>
    simp only [Atom.classTexts, List.forall_mem_cons] at hclass
    simp [Caster.castAtom, Line.texts, Statement.texts, Test.texts, Report.texts, Expr.texts, *]
  | unknown => simp [Caster.castAtom, Line.texts, Statement.texts, Expr.texts, *]

/-- Nor have the texts of a loop. -/
theorem areBraceFree_castList {value target label : String} (hv : IsBraceFree value)
    (ht : IsBraceFree target) (hl : IsBraceFree label) (indent depth : Nat) {inner : List Line}
    (h : AreBraceFree Line.texts inner) :
    AreBraceFree Line.texts (Caster.castList value target label indent depth inner) := by
  have hwords := isBraceFree_of_mem_castWords
  simp only [castWords, List.forall_mem_cons] at hwords
  have hnumbered := fun name hname => isBraceFree_numbered name hname depth
  simp [Caster.castList, Line.texts, Statement.texts, Test.texts, Report.texts, Expr.texts, *]

/-- Nor have those of the check of any shape, by induction on the shape. -/
theorem areBraceFree_cast : ∀ (shape : Shape) {value target label : String}, IsBraceFree value →
    IsBraceFree target → IsBraceFree label →
    (∀ s ∈ shape.classTexts c.types c.index, IsBraceFree s) → ∀ indent depth : Nat,
    AreBraceFree Line.texts (c.cast shape value target label indent depth)
  | .single _, _, _, _, hv, ht, hl, hclass, indent, _ =>
    areBraceFree_castAtom c hv ht hl hclass indent
  | .list element, _, _, _, hv, ht, hl, hclass, indent, depth =>
    areBraceFree_castList hv ht hl indent depth
      (areBraceFree_cast element (isBraceFree_numbered "val" (by decide) depth)
        (isBraceFree_numbered "item" (by decide) depth) (isBraceFree_mark hl) hclass
        (indent + 2) (depth + 1))
  | .either atom element, _, _, _, hv, ht, hl, hclass, indent, depth => by
    rw [Shape.classTexts, List.forall_mem_append] at hclass
    have helement := areBraceFree_cast element (isBraceFree_numbered "val" (by decide) depth)
      (isBraceFree_numbered "item" (by decide) depth) (isBraceFree_mark hl) hclass.2
      (indent + 3) (depth + 1)
    -- The list and the single form are checked in two blocks, by the texts of each.
    have hlist := areBraceFree_castList hv ht hl (indent + 1) depth helement
    have hatom := areBraceFree_castAtom c hv ht hl hclass.1 (indent + 1)
    simp [Caster.cast, Line.texts, Statement.texts, Test.texts, hv, hlist, hatom]

/-- The check of a single value opens and closes its blocks. -/
theorem isNest_castAtom (atom : Atom) (value target label : String) (indent : Nat) :
    IsNest (bracesOf Line.braces (c.castAtom atom value target label indent)) := by
  cases atom with
  | primitive p => cases p <;> exact IsNest.nil
  | object name => exact isNest_pair
  | result => exact isNest_pair.block
  | unknown => exact IsNest.nil

/-- The loop stands in the last of two blocks, after the block that skips empty
elements. -/
theorem isNest_castList (value target label : String) (indent depth : Nat) {inner : List Line}
    (h : IsNest (bracesOf Line.braces inner)) :
    IsNest (bracesOf Line.braces (Caster.castList value target label indent depth inner)) := by
  have hloop : IsNest ([DyckStep.U] ++ ([.U, .D] ++ bracesOf Line.braces inner) ++ [DyckStep.D]) :=
    (isNest_pair.append h).block
  have hall := isNest_pair.append hloop.block
  simpa [Caster.castList, Line.braces, Statement.braces] using hall

/-- The braces of the code of a shape are nested. -/
theorem isNest_cast : ∀ (shape : Shape) (value target label : String) (indent depth : Nat),
    IsNest (bracesOf Line.braces (c.cast shape value target label indent depth))
  | .single atom, _, _, _, _, _ => isNest_castAtom c atom ..
  | .list element, _, _, _, _, _ => isNest_castList _ _ _ _ _ (isNest_cast element ..)
  | .either atom element, value, target, label, indent, depth => by
    have hlist := isNest_castList value target label (indent + 1) depth (isNest_cast element
      (numbered "val" depth) (numbered "item" depth) (label ++ "[]") (indent + 3) (depth + 1))
    have hatom := isNest_castAtom c atom value target label (indent + 1)
    simpa [Caster.cast, Line.braces, Statement.braces] using hlist.block.append hatom.block

end cast

/-! ### Variables of loops

A variable has a word and the number of its loop. The numbers grow from outside to
inside, and different numbers are written differently.
-/

/-- The variable that a statement declares. -/
def Statement.declared? : Statement → Option String
  | .declare name _ => some name
  | .openLoop index _ => some index
  | _ => none

/-- A statement that declares a variable names it behind the keyword. -/
theorem Statement.code_of_declared? (d : Dialect) {s : Statement} {name : String}
    (h : s.declared? = some name) : ∃ before stop rest, stop ∈ [";", " = "] ∧
    s.code d = before ++ "var " ++ name ++ stop ++ rest := by
  unfold code
  cases s with
  | declare _ value? =>
    cases h
    cases value? with
    | none =>
      exact ⟨"", ";", "", by decide, by simp only [String.append_empty, String.empty_append]⟩
    | some e =>
      exact ⟨"", " = ", e.code d ++ ";", by decide,
        by simp only [String.append_assoc, String.empty_append]⟩
  | openLoop _ list =>
    cases h
    refine ⟨"for (", " = ", "0; " ++ name ++ " < " ++ list ++ ".length; " ++ name ++ "++) \x7b",
      by decide, ?_⟩
    simp only [String.append_assoc]
    -- The head of the loop is one literal that ends in the keyword.
    rfl
  | _ => cases h

/-- The variables that lines declare, in order. -/
def declaredNames (ls : List Line) : List String :=
  ls.filterMap (·.statement.declared?)

@[simp] theorem declaredNames_append (ls ms : List Line) :
    declaredNames (ls ++ ms) = declaredNames ls ++ declaredNames ms :=
  List.filterMap_append

/-- The variables of a loop. -/
def loopVariables (depth : Nat) : List String :=
  ["arr", "i", "val", "item"].map (numbered · depth)

/-- A line of the text declares every variable. -/
theorem exists_of_mem_declaredNames (d : Dialect) {ls : List Line} {name : String}
    (h : name ∈ declaredNames ls) :
    ∃ text ∈ codeLines d ls, ∃ before stop rest, stop ∈ [";", " = "] ∧
      text = before ++ "var " ++ name ++ stop ++ rest := by
  obtain ⟨line, hline, hname⟩ := List.mem_filterMap.1 h
  obtain ⟨before, stop, rest, hstop, hcode⟩ := Statement.code_of_declared? d hname
  refine ⟨_, List.mem_map_of_mem hline, Text.copies line.depth "\t" ++ before, stop,
    rest, hstop, ?_⟩
  simp only [Line.code, hcode, String.append_assoc]

/-- The check of a single value declares no variables. -/
theorem declaredNames_castAtom (c : Caster) (atom : Atom) (value target label : String)
    (indent : Nat) :
    declaredNames (c.castAtom atom value target label indent) = [] := by
  cases atom with
  | primitive p => cases p <;> rfl
  | _ => rfl

/-- A loop declares the variables of its depth and those of the code inside. -/
theorem declaredNames_castList (value target label : String) (indent depth : Nat)
    (inner : List Line) :
    declaredNames (Caster.castList value target label indent depth inner) =
      loopVariables depth ++ declaredNames inner := by
  rw [Caster.castList, declaredNames_append, declaredNames_append]
  exact List.append_nil _

/-- Every level of lists has a loop of its own, numbered from the outside inwards. -/
theorem declaredNames_cast (c : Caster) : ∀ (shape : Shape) (value target label : String)
    (indent depth : Nat), declaredNames (c.cast shape value target label indent depth) =
      (List.range' depth shape.listLevels).flatMap loopVariables
  | .single _, _, _, _, _, _ => declaredNames_castAtom ..
  | .list element, _, _, _, _, depth => by
    rw [Caster.cast, declaredNames_castList, declaredNames_cast c element, Shape.listLevels,
      List.range'_succ, List.flatMap_cons]
  | .either atom element, _, _, _, _, depth => by
    rw [Caster.cast, declaredNames_append, declaredNames_append, declaredNames_append,
      declaredNames_append, declaredNames_castList, declaredNames_castAtom,
      declaredNames_cast c element, Shape.listLevels, List.range'_succ, List.flatMap_cons]
    simp [declaredNames, Statement.declared?]

/-- A variable without digits of its own is told from others by its letters and its
number. -/
theorem numbered_inj {s t : String} {m n : Nat} (hs : s.toList.all (!·.isDigit))
    (ht : t.toList.all (!·.isDigit)) (h : numbered s m = numbered t n) : s = t ∧ m = n := by
  have hletters : ∀ (name : String) (k : Nat), name.toList.all (!·.isDigit) →
      (numbered name k).toList.filter (!·.isDigit) = name.toList := by
    intro name k hname
    rw [numbered, String.toList_append, List.filter_append,
      List.filter_eq_self.2 (List.all_eq_true.1 hname),
      List.filter_eq_nil_iff.2 (by simpa using isDigit_of_mem_toString), List.append_nil]
  have hname : s = t := String.toList_inj.1 (by rw [← hletters s m hs, h, hletters t n ht])
  subst hname
  -- What is left behind the letters is the number in decimal.
  have hdigits : toString m = toString n := (String.append_right_inj s).1 h
  have hvalue := congrArg (fun digits => Nat.ofDigitChars 10 digits.toList 0) hdigits
  exact ⟨rfl, by simpa [Nat.toString_eq_ofList_toDigits] using hvalue⟩

/-- No two loops share a variable. -/
theorem nodup_loops (depth levels : Nat) :
    ((List.range' depth levels).flatMap loopVariables).Nodup := by
  have hletters : ∀ name ∈ ["arr", "i", "val", "item"], name.toList.all (!·.isDigit) := by decide
  rw [List.nodup_flatMap]
  constructor
  · intro number _
    refine List.Nodup.map_on (fun s hs t ht h => ?_) (by decide)
    exact (numbered_inj (hletters s hs) (hletters t ht) h).1
  · refine (List.nodup_range' 1).imp fun {m n} hne name hm hn => hne ?_
    obtain ⟨s, hs, rfl⟩ := List.mem_map.1 hm
    obtain ⟨t, ht, h⟩ := List.mem_map.1 hn
    exact (numbered_inj (hletters t ht) (hletters s hs) h).2.symm

end Script

/-! ## Conversions

The same for C#, where refusing a value opens a block as well.
-/

namespace Conversion

/-- The texts that a line is made of. -/
def Line.texts (l : Line) : List String :=
  l.statement.texts

/-- The braces of a line. -/
def Line.braces (l : Line) : List DyckStep :=
  l.statement.braces

theorem Line.braces_code (l : Line) (h : ∀ s ∈ l.texts, IsBraceFree s) :
    Text.braces l.code = l.braces := by
  rw [code, Text.braces_append, Text.braces_copies_tab, List.nil_append, l.statement.braces_code h]
  rfl

@[simp] theorem areBraceFree_braced (indent : Nat) (inner : List Line) :
    AreBraceFree Line.texts (braced indent inner) ↔ AreBraceFree Line.texts inner := by
  simp [braced, Line.texts, Statement.texts]

@[simp] theorem bracesOf_braced (indent : Nat) (inner : List Line) :
    bracesOf Line.braces (braced indent inner) = [DyckStep.U] ++ bracesOf Line.braces inner ++
    [DyckStep.D] := by
  simp [braced, Line.braces, Statement.braces]

theorem isBraceFree_numbered (name : String) (h : IsBraceFree name) (depth : Nat) :
    IsBraceFree (numbered name depth) :=
  isBraceFree_append.2 ⟨h, isBraceFree_toString depth⟩

section convert

variable (c : Converter)

/-- The words in the code of atoms and lists. -/
def convertWords : List String :=
  ["Convert.ToInt32", "Convert.ToDouble", "Convert.ToString", "IsTruthy", "string", "bool",
    "List<object>", dictionaryType, anyListType, "an integer", "a number", "a string", "a boolean",
    "an object", "a list", "null", "list", "val", "item", "obj", "json"]

theorem isBraceFree_of_mem_convertWords : ∀ word ∈ convertWords, IsBraceFree word := by
  simp only [convertWords, List.forall_mem_cons, List.not_mem_nil, false_imp_iff,
    implies_true, and_true]
  and_intros <;> exact Text.notMem_toList_ofList (by decide)

/-- The texts of a refusal have no braces, if those it is made of have none. -/
theorem areBraceFree_refuse {value target label expected : String} (hv : IsBraceFree value)
    (ht : IsBraceFree target) (hl : IsBraceFree label) (he : IsBraceFree expected) (indent : Nat) :
    AreBraceFree Line.texts (refuse value target label expected indent) := by
  have hnull : IsBraceFree "null" := by decide
  simp [refuse, Line.texts, Statement.texts, Report.texts, Expr.texts, *]

/-- Nor have those of the conversion of a single value. -/
theorem areBraceFree_convertAtom {atom : Atom} {value target label : String}
    (hv : IsBraceFree value) (ht : IsBraceFree target) (hl : IsBraceFree label)
    (hclass : ∀ s ∈ atom.classTexts c.types c.index, IsBraceFree s) (indent depth : Nat) :
    AreBraceFree Line.texts (c.convertAtom atom value target label indent depth) := by
  -- The words and the numbered variables of the conversion have no braces either.
  have hwords := isBraceFree_of_mem_convertWords
  simp only [convertWords, List.forall_mem_cons] at hwords
  have hnumbered := fun name hname => isBraceFree_numbered name hname depth
  have hrefuse := fun expected (he : IsBraceFree expected) => areBraceFree_refuse hv ht hl he indent
  cases atom with
  | primitive p =>
    cases p <;>
      simp [Converter.convertAtom, convertCast, Line.texts, Statement.texts, Guard.texts,
        Report.texts, Expr.texts, *]
  | object name =>
    simp only [Atom.classTexts, List.forall_mem_cons] at hclass
    simp [Converter.convertAtom, Line.texts, Statement.texts, Guard.texts, Expr.texts, *]
  | result =>
    simp only [Atom.classTexts, List.forall_mem_cons] at hclass
    simp [Converter.convertAtom, Line.texts, Statement.texts, Guard.texts, Expr.texts, *]
  | unknown => simp [Converter.convertAtom, Line.texts, Statement.texts, Expr.texts, *]

/-- Nor have those of the loop that converts a list. -/
theorem areBraceFree_convertListWith {element : Shape} {value target label : String}
    (hv : IsBraceFree value) (ht : IsBraceFree target) (hl : IsBraceFree label)
    (htype : IsBraceFree (c.types.shape element)) (indent depth : Nat) {inner : List Line}
    (h : AreBraceFree Line.texts inner) :
    AreBraceFree Line.texts (c.convertListWith element value target label indent depth inner) := by
  have hwords := isBraceFree_of_mem_convertWords
  simp only [convertWords, List.forall_mem_cons] at hwords
  have hnumbered := fun name hname => isBraceFree_numbered name hname depth
  have hrefuse := fun expected (he : IsBraceFree expected) => areBraceFree_refuse hv ht hl he indent
  have hlist : IsBraceFree ("List<" ++ c.types.shape element ++ ">") :=
    isBraceFree_append.2 ⟨isBraceFree_append.2 ⟨by decide, htype⟩, by decide⟩
  simp [Converter.convertListWith, Line.texts, Statement.texts, Guard.texts, Expr.texts, *]

theorem isNest_refuse (value target label expected : String) (indent : Nat) :
    IsNest (bracesOf Line.braces (refuse value target label expected indent)) :=
  isNest_pair

/-- The conversion of a single value opens and closes its blocks. -/
theorem isNest_convertAtom (atom : Atom) (value target label : String) (indent depth : Nat) :
    IsNest (bracesOf Line.braces (c.convertAtom atom value target label indent depth)) := by
  cases atom with
  | primitive p =>
    cases p with
    | int | float | object | array => exact isNest_pair
    | string | boolean | mixed => exact IsNest.nil
  | object _ | result => exact isNest_pair.append isNest_pair
  | unknown => exact IsNest.nil

/-- The code of an element stands in three blocks: of the list, of the loop and of the
elements that are not empty. -/
theorem isNest_convertListWith (element : Shape) (value target label : String) (indent depth : Nat)
    {inner : List Line} (h : IsNest (bracesOf Line.braces inner)) :
    IsNest
    (bracesOf Line.braces (c.convertListWith element value target label indent depth inner)) := by
  have hall := h.block.block.block.append (isNest_refuse value target label "a list" indent)
  simpa [Converter.convertListWith, Line.braces, Statement.braces] using hall

/-- The braces of the code of a shape are nested. -/
theorem isNest_convert : ∀ (shape : Shape) (value target label : String) (indent depth : Nat),
    IsNest (bracesOf Line.braces (c.convert shape value target label indent depth))
  | .single atom, _, _, _, _, _ => isNest_convertAtom c atom ..
  | .list element, _, _, _, _, _ => isNest_convertListWith c _ _ _ _ _ _ (isNest_convert element ..)
  | .either atom _, _, _, _, _, _ => isNest_convertAtom c atom ..

/-- The types of shapes are written without braces if the classes are. -/
theorem areBraceFree_convert (htypes : ∀ element : Shape,
      (∀ s ∈ element.classTexts c.types c.index, IsBraceFree s) →
      IsBraceFree (c.types.shape element)) :
    ∀ (shape : Shape) {value target label : String}, IsBraceFree value → IsBraceFree target →
      IsBraceFree label → (∀ s ∈ shape.classTexts c.types c.index, IsBraceFree s) →
      ∀ indent depth : Nat,
      AreBraceFree Line.texts (c.convert shape value target label indent depth)
  | .single _, _, _, _, hv, ht, hl, hclass, indent, depth =>
    areBraceFree_convertAtom c hv ht hl hclass indent depth
  | .list element, _, _, _, hv, ht, hl, hclass, indent, depth =>
    areBraceFree_convertListWith c hv ht hl (htypes element hclass) indent depth
      (areBraceFree_convert htypes element (isBraceFree_numbered "val" (by decide) depth)
        (isBraceFree_numbered "item" (by decide) depth) (isBraceFree_mark hl) hclass
        (indent + 3) (depth + 1))
  | .either atom element, _, _, _, hv, ht, hl, hclass, indent, depth =>
    areBraceFree_convertAtom c hv ht hl (List.forall_mem_append.1 hclass).1 indent depth

end convert

end Conversion

/-- The type of a shape has no braces, if its classes have none. -/
theorem CSharp.isBraceFree_shape (o : Options) (index : String) : ∀ shape : Shape,
    (∀ s ∈ shape.classTexts (types o) index, IsBraceFree s) → IsBraceFree ((types o).shape shape)
  | .single atom, h => by
    cases atom with
    | primitive p => cases p <;> dsimp only [TypeSystem.shape, TypeSystem.atom, types] <;> decide
    | object _ | result => exact h _ List.mem_cons_self
    | unknown =>
      dsimp only [TypeSystem.shape, TypeSystem.atom, types]
      decide
  | .list element, h =>
    isBraceFree_append.2 ⟨isBraceFree_append.2 ⟨by decide,
      isBraceFree_shape o index element h⟩, by decide⟩
  | .either _ _, _ => by
    dsimp only [TypeSystem.shape, types]
    decide

/-! ## Checks of values

Braces that match and variables that differ, for any shape and any depth.
-/

/-- Lines are well nested, and their loops, numbered from some depth on, do not share
variables. -/
structure Script.WellNested (d : Script.Dialect) (depth levels : Nat) (ls : List Script.Line) :
    Prop where
  /-- The braces of the text are balanced. -/
  balanced : Balanced (Text.unlines (Script.codeLines d ls))
  /-- The variables are those of one loop for every level. -/
  declared : Script.declaredNames ls = (List.range' depth levels).flatMap Script.loopVariables
  /-- No two are the same. -/
  distinct : (Script.declaredNames ls).Nodup
  /-- The text declares them, and their names end where the declaration goes on. -/
  written : ∀ name ∈ Script.declaredNames ls, ∃ text ∈ Script.codeLines d ls, ∃ before stop rest,
    stop ∈ [";", " = "] ∧ text = before ++ "var " ++ name ++ stop ++ rest

/-- The code that checks a value against a shape is well nested in both dialects, and
the code that converts it is balanced. -/
theorem checks_nest (shape : Shape) {value target label : String} (hv : IsBraceFree value)
    (ht : IsBraceFree target) (hl : IsBraceFree label) (indent depth : Nat) :
    (∀ (d : Script.Dialect) (c : Script.Caster),
      (∀ s ∈ shape.classTexts c.types c.index, IsBraceFree s) →
        Script.WellNested d depth shape.listLevels (c.cast shape value target label indent depth)) ∧
    ∀ (o : Options) (index : String),
      (∀ s ∈ shape.classTexts (CSharp.types o) index, IsBraceFree s) →
      Balanced (Text.unlines (((⟨CSharp.types o, index⟩ : Conversion.Converter).convert shape value
        target label indent depth).map Conversion.Line.code)) := by
  constructor
  -- In a script: the braces nest, and the variables are those of the levels.
  · intro d c hclass
    have hnames := Script.declaredNames_cast c shape value target label indent depth
    exact {
      balanced := balanced_unlines_map (Script.Line.braces_code d)
        (Script.areBraceFree_cast c shape hv ht hl hclass indent depth)
        (Script.isNest_cast c shape value target label indent depth)
      declared := hnames
      distinct := by
        rw [hnames]
        exact Script.nodup_loops depth shape.listLevels
      written := fun _ => Script.exists_of_mem_declaredNames d }
  · intro o index hclass
    exact balanced_unlines_map Conversion.Line.braces_code
      (Conversion.areBraceFree_convert _ (CSharp.isBraceFree_shape o index) shape hv ht hl hclass
        indent depth) (Conversion.isNest_convert _ shape value target label indent depth)

/-- A list whose elements are users or lists of results. -/
def mixedLists : Shape :=
  .list (.either (.object "User") (.single .result))

/-- The loop over the elements and the loop over an element that is a list nest and have
variables of their own; C# keeps its braces balanced with the one loop that it has. -/
theorem checks_nest_mixedLists :
    Script.WellNested .javaScript 0 2
      ((JavaScript.caster ⟨"App", .empty⟩).cast mixedLists "value" "this._tags" "User.tags" 2 0) ∧
    Balanced (Text.unlines
      (((CSharp.converter ⟨"App", .empty⟩).convert mixedLists "value" "_tags" "User.tags" 5 0).map
        Conversion.Line.code)) := by
  have hscript : ∀ s ∈ mixedLists.classTexts (JavaScript.types ⟨"App", .empty⟩) "ObjectIndex",
      IsBraceFree s := by
    decide
  have hsharp : ∀ s ∈ mixedLists.classTexts (CSharp.types ⟨"App", .empty⟩) "App.ObjectIndex",
      IsBraceFree s := by
    decide
  exact ⟨(checks_nest mixedLists (by decide) (by decide) (by decide) 2 0).1 .javaScript _ hscript,
    (checks_nest mixedLists (by decide) (by decide) (by decide) 5 0).2 _ _ hsharp⟩

end Classwright
