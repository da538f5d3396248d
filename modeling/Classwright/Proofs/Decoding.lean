import Classwright.Proofs.FileLines

/-!
# Loops of the decoding code

A list is decoded by a loop over its elements, and elements that may be lists again by a
loop in that loop. The setters of the two ECMAScript dialects have one loop for every
level of the shape that may hold a list (`Script.loopCount_members`). The conversions of
C# decide between the single form and the list form for the property itself, but not for
elements: of an element that may have either form they know the single form only
(`Shape.converted`). So the number of loops is the same in all languages exactly for
properties without such elements (`Backend.loopCount_eq_listLevels_iff`).
-/

namespace Classwright

/-! ## Levels

The levels of a shape are counted from outside, and a choice with a list counts as the
list does.
-/

namespace Shape

/-- Whether some level has both a single form and a list form. -/
def hasChoice : Shape → Bool
  | .single _ => false
  | .list element => element.hasChoice
  | .either _ _ => true

/-- Whether the elements have both a single form and a list form, at some level. -/
def nestsChoice (s : Shape) : Bool :=
  s.element?.any hasChoice

/-- An element as it is converted: in its single form, if it has one. -/
def narrowed : Shape → Shape
  | .single atom => .single atom
  | .list element => .list element.narrowed
  | .either atom _ => .single atom

/-- A property as it is converted: in both forms, with elements in one form. -/
def converted : Shape → Shape
  | .single atom => .single atom
  | .list element => .list element.narrowed
  | .either atom element => .either atom element.narrowed

/-- Narrowing loses the levels of a list form. -/
theorem listLevels_narrowed_eq_iff :
    ∀ s : Shape, s.narrowed.listLevels = s.listLevels ↔ s.hasChoice = false
  | .single _ => by simp [narrowed, hasChoice]
  | .list element => by simp [narrowed, listLevels, hasChoice, listLevels_narrowed_eq_iff element]
  | .either _ _ => by simp [narrowed, listLevels, hasChoice]

/-- Converting a choice as its single form loses no level of lists exactly if no list
holds a choice. -/
theorem listLevels_converted_eq_iff (s : Shape) :
    s.converted.listLevels = s.listLevels ↔ s.nestsChoice = false := by
  cases s with
  | single atom => simp [converted, nestsChoice, element?]
  | list element => simp [converted, listLevels, nestsChoice, element?, listLevels_narrowed_eq_iff]
  | either atom element =>
    simp [converted, listLevels, nestsChoice, element?, listLevels_narrowed_eq_iff]

end Shape

/-! ## Setters

Checking a value has one loop for each level, by induction on the shape; the setters of
a property are those of its forms.
-/

namespace Script

/-- Whether a statement begins a loop. -/
def Statement.isLoop : Statement → Bool
  | .openLoop _ _ => true
  | _ => false

/-- The number of loops in lines. -/
def loopCount (ls : List Line) : Nat :=
  ls.countP fun line => line.statement.isLoop

@[simp] theorem loopCount_nil : loopCount [] = 0 :=
  rfl

@[simp] theorem loopCount_cons (line : Line) (ls : List Line) :
    loopCount (line :: ls) = loopCount ls + if line.statement.isLoop then 1 else 0 :=
  List.countP_cons

@[simp] theorem loopCount_append (ls ms : List Line) :
    loopCount (ls ++ ms) = loopCount ls + loopCount ms :=
  List.countP_append

variable (c : Caster)

/-- Checking a single value takes no loop. -/
@[simp] theorem loopCount_castAtom (atom : Atom) (value target label : String) (indent : Nat) :
    loopCount (c.castAtom atom value target label indent) = 0 := by
  cases atom with
  | primitive p => cases p <;> simp [Caster.castAtom, Statement.isLoop]
  | object name => simp [Caster.castAtom, Statement.isLoop]
  | result => simp [Caster.castAtom, Statement.isLoop]
  | unknown => simp [Caster.castAtom, Statement.isLoop]

@[simp] theorem loopCount_castList (value target label : String) (indent depth : Nat)
    (inner : List Line) :
    loopCount (Caster.castList value target label indent depth inner) = loopCount inner + 1 := by
  simp [Caster.castList, Statement.isLoop]

/-- The checks of a shape have a loop for every level that may hold a list. -/
theorem loopCount_cast : ∀ (shape : Shape) (value target label : String) (indent depth : Nat),
    loopCount (c.cast shape value target label indent depth) = shape.listLevels
  | .single atom, _, _, _, _, _ => loopCount_castAtom c atom ..
  | .list element, _, _, _, _, _ => by
    rw [Caster.cast, loopCount_castList, loopCount_cast element, Shape.listLevels]
  | .either atom element, _, _, _, _, _ => by
    simp [Caster.cast, Statement.isLoop, loopCount_cast element, Shape.listLevels]

@[simp] theorem loopCount_missingGuard (name : String) (clear : List Statement) :
    loopCount (missingGuard name clear) = clear.countP Statement.isLoop := by
  have h : loopCount (clear.map (⟨3, ·⟩)) = clear.countP Statement.isLoop := by
    rw [loopCount, List.countP_map]
    rfl
  simp [missingGuard, h, Statement.isLoop]

@[simp] theorem loopCount_getterBody (value : Expr) : loopCount (getterBody value) = 0 :=
  rfl

@[simp] theorem countP_isLoop_clear (s : Slots) : s.clear.countP Statement.isLoop = 0 :=
  rfl

/-- A setter has as many loops as its shape has levels of lists. -/
theorem loopCount_plainSetter (slots : Slots) (p : Property) (label : String) :
    loopCount (plainSetter c slots p label) = p.shape.listLevels := by
  unfold plainSetter
  split
  · simp [loopCount_cast, Statement.isLoop]
  · next h =>
    rcases Property.shape_of_not_isChecked h with hs | hs <;>
      simp [hs, Statement.isLoop, Shape.listLevels]

/-- The accessors of a property have a loop for every level that may hold a list. -/
theorem loopCount_members (d : Dialect) (docs : MemberDocs) (entity : String) (p : Property) :
    loopCount ((membersOf d c docs entity p).flatMap Member.body) = p.shape.listLevels := by
  unfold membersOf
  cases hs : p.shape with
  | single atom => simp [loopCount_plainSetter, hs]
  | list element => simp [loopCount_plainSetter, hs]
  | either atom element =>
    -- The setter of the single form has no loop, the one of the list form has them all.
    simp [singleSetter, listSetter, loopCount_cast, Statement.isLoop, Shape.listLevels]

end Script

/-! ## Conversions

Converting a list loops over its elements and converts each of them as its single form,
so the levels of a choice below the first one are lost.
-/

namespace Conversion

/-- Whether a statement begins a loop. -/
def Statement.isLoop : Statement → Bool
  | .loop _ _ => true
  | _ => false

/-- The number of loops in lines. -/
def loopCount (ls : List Line) : Nat :=
  ls.countP fun line => line.statement.isLoop

@[simp] theorem loopCount_nil : loopCount [] = 0 :=
  rfl

@[simp] theorem loopCount_cons (line : Line) (ls : List Line) :
    loopCount (line :: ls) = loopCount ls + if line.statement.isLoop then 1 else 0 :=
  List.countP_cons

@[simp] theorem loopCount_append (ls ms : List Line) :
    loopCount (ls ++ ms) = loopCount ls + loopCount ms :=
  List.countP_append

@[simp] theorem loopCount_braced (indent : Nat) (inner : List Line) :
    loopCount (braced indent inner) = loopCount inner := by
  simp [braced, Statement.isLoop]

@[simp] theorem loopCount_refuse (value target label expected : String) (indent : Nat) :
    loopCount (refuse value target label expected indent) = 0 := by
  simp [refuse, Statement.isLoop]

variable (c : Converter)

/-- Converting a single value takes no loop. -/
@[simp] theorem loopCount_convertAtom (atom : Atom) (value target label : String)
    (indent depth : Nat) :
    loopCount (c.convertAtom atom value target label indent depth) = 0 := by
  cases atom with
  | primitive p => cases p <;> simp [Converter.convertAtom, convertCast, Statement.isLoop]
  | object name => simp [Converter.convertAtom, Statement.isLoop]
  | result => simp [Converter.convertAtom, Statement.isLoop]
  | unknown => simp [Converter.convertAtom, Statement.isLoop]

@[simp] theorem loopCount_convertListWith (element : Shape) (value target label : String)
    (indent depth : Nat) (inner : List Line) :
    loopCount (c.convertListWith element value target label indent depth inner) =
    loopCount inner + 1 := by
  simp [Converter.convertListWith, Statement.isLoop]

/-- The conversion to a shape has a loop for every level that is left when the shape is
narrowed. -/
theorem loopCount_convert : ∀ (shape : Shape) (value target label : String) (indent depth : Nat),
    loopCount (c.convert shape value target label indent depth) = shape.narrowed.listLevels
  | .single atom, _, _, _, _, _ => loopCount_convertAtom c atom ..
  | .list element, _, _, _, _, _ => by
    rw [Converter.convert, loopCount_convertListWith, loopCount_convert element, Shape.narrowed,
      Shape.listLevels]
  | .either atom _, _, _, _, _, _ => loopCount_convertAtom c atom ..

end Conversion

namespace CSharp

/-- The case of a missing value has the loops of its statements. -/
@[simp] theorem loopCount_nullCase (statements : List Conversion.Statement) :
    Conversion.loopCount (nullCase statements) = statements.countP Conversion.Statement.isLoop := by
  have h : Conversion.loopCount (statements.map (⟨6, ·⟩)) =
      statements.countP Conversion.Statement.isLoop := by
    rw [Conversion.loopCount, List.countP_map]
    rfl
  simp [nullCase, h, Conversion.Statement.isLoop]

/-- A case has as many loops as the shape that it converts has levels of lists. -/
theorem loopCount_caseBody (o : Options) (entity : String) (p : Property) :
    Conversion.loopCount (caseBody o entity p) = p.shape.converted.listLevels := by
  unfold caseBody
  -- Only the single form of a choice is converted, so a list in it loses its levels.
  cases hs : p.shape with
  | single atom =>
    cases hc : p.isChecked <;>
      simp [Conversion.loopCount_convert, Conversion.Statement.isLoop, Shape.narrowed,
        Shape.converted, Shape.listLevels]
  | list element =>
    have hc : p.isChecked = true := by simp [Property.isChecked, hs]
    simp [hc, Conversion.loopCount_convert, Conversion.Statement.isLoop, Shape.narrowed,
      Shape.converted]
  | either atom element =>
    simp [Conversion.Converter.convertList, Conversion.loopCount_convert,
      Conversion.Statement.isLoop,
      Shape.narrowed, Shape.converted, Shape.listLevels]

end CSharp

/-! ## All languages

What is decoded in a language is the shape that its code knows.
-/

namespace Backend

/-- The levels of a property that the code of a language decodes. -/
def decoded : Backend → Shape → Shape
  | .javaScript, s => s
  | .cSharp, s => s.converted
  | .actionScript, s => s

/-- The lines of the code that decodes a property, in blocks: the bodies of its
accessors, or its case of `SetProperty`. -/
def codeBlocks (b : Backend) (o : Options) (e : Entity) (p : Property) : List (List String) :=
  match b with
  | .javaScript => (JavaScript.members o e p).map fun m => Script.codeLines .javaScript m.body
  | .cSharp => [(CSharp.caseBody o e.name p).map Conversion.Line.code]
  | .actionScript => (ActionScript.members o e p).map fun m => Script.codeLines .actionScript m.body

/-! ### Where the code stands

The statements that are counted are lines of the file that is generated.
-/

/-- Lines that a list has for a member of another list stand together in it. -/
theorem infix_flatMap {α : Type} {xs : List α} {x : α} (hx : x ∈ xs) (f : α → List String) :
    f x <:+: xs.flatMap f :=
  List.infix_of_mem_flatten (List.mem_map_of_mem hx)

/-- The lines of an accessor hold those of its body. -/
theorem infix_lines (d : Script.Dialect) (m : Script.Member) :
    Script.codeLines d m.body <:+: m.lines d :=
  ⟨[""] ++ m.doc ++ ["\t" ++ m.head d ++ " \x7b"], ["\t\x7d"], rfl⟩

/-- The method of C# holds the case of every property. -/
theorem infix_setPropertyLines {o : Options} {e : Entity} {p : Property} (hp : p ∈ e.properties) :
    (CSharp.caseBody o e.name p).map Conversion.Line.code <:+: CSharp.setPropertyLines o e := by
  have hcase : (CSharp.caseBody o e.name p).map Conversion.Line.code <:+:
      CSharp.caseLines o e.name p :=
    ⟨_, _, rfl⟩
  have hcases := infix_flatMap hp (CSharp.caseLines o e.name)
  refine hcase.trans (hcases.trans ?_)
  unfold CSharp.setPropertyLines
  exact ⟨_, _, rfl⟩

variable {b : Backend} {l : Layout} {o : Options} {e : Entity} {p : Property}

/-- The code of a property is part of the template: every block stands there with no
line between its lines. -/
theorem infix_members_of_mem_codeBlocks {t : Template} (h : b.template l o e = .ok t)
    (hp : p ∈ e.properties) {block : List String} (hb : block ∈ b.codeBlocks o e p) :
    block <:+: t.members := by
  -- In both scripts a block is the body of one of the members of the property.
  have hscript : ∀ {d front} {ms : List Script.Member} {m}, m ∈ ms →
      Script.codeLines d m.body <:+: front ++ ms.flatMap (Script.Member.lines d) := fun hm =>
    ((infix_lines _ _).trans (infix_flatMap hm _)).trans (List.suffix_append _ _).isInfix
  cases b with
  | javaScript =>
    obtain ⟨imported, -, h⟩ := Outcome.bind_eq_ok.1 h
    cases h
    obtain ⟨m, hm, rfl⟩ := List.mem_map.1 hb
    exact hscript (List.mem_flatMap.2 ⟨p, hp, hm⟩)
  | cSharp =>
    obtain ⟨-, -, h⟩ := Outcome.bind_eq_ok.1 h
    cases h
    obtain rfl := List.mem_singleton.1 hb
    exact (infix_setPropertyLines hp).trans (List.suffix_append _ _).isInfix
  | actionScript =>
    obtain ⟨-, -, h⟩ := Outcome.bind_eq_ok.1 h
    cases h
    obtain ⟨m, hm, rfl⟩ := List.mem_map.1 hb
    exact hscript (List.mem_flatMap.2 ⟨p, hp, hm⟩)

/-- So its lines are lines of the file, whatever is put in. -/
theorem hasLine_of_mem_codeBlocks {h : Hooks} {file : SourceFile}
    (hr : b.renderEntity l o e h = .ok file) (hp : p ∈ e.properties) :
    ∀ block ∈ b.codeBlocks o e p, ∀ line ∈ block, file.HasLine line := by
  intro block hb line hl
  obtain ⟨t, ht, -⟩ := exists_template_of_renderEntity hr
  have hmembers : line ∈ t.members := (infix_members_of_mem_codeBlocks ht hp hb).subset hl
  exact hasLine_of_renderEntity ht hr (t.members_subset_lines hmembers)

/-! ### The number of loops

The loops of the code of a property are compared with the levels of its shape.
-/

/-- The number of loops in the code that decodes a property: in its setters, or in its
case of `SetProperty`. -/
def loopCount (b : Backend) (o : Options) (e : Entity) (p : Property) : Nat :=
  match b with
  | .javaScript => Script.loopCount ((JavaScript.members o e p).flatMap Script.Member.body)
  | .cSharp => Conversion.loopCount (CSharp.caseBody o e.name p)
  | .actionScript => Script.loopCount ((ActionScript.members o e p).flatMap Script.Member.body)

/-- The code of a property has a loop for every level that is decoded and may hold a
list. These are all levels that may hold a list, unless the language is C# and the
elements at some level have both forms. -/
theorem loopCount_eq_listLevels_iff (b : Backend) (o : Options) (e : Entity) (p : Property) :
    b.loopCount o e p = (b.decoded p.shape).listLevels ∧
    (b.loopCount o e p = p.shape.listLevels ↔ b ≠ .cSharp ∨ p.shape.nestsChoice = false) := by
  have hcount : b.loopCount o e p = (b.decoded p.shape).listLevels := by
    cases b with
    | javaScript => exact Script.loopCount_members _ _ _ _ _
    | cSharp => exact CSharp.loopCount_caseBody o e.name p
    | actionScript => exact Script.loopCount_members _ _ _ _ _
  refine ⟨hcount, ?_⟩
  rw [hcount]
  cases b with
  | javaScript | actionScript => simp [decoded]
  | cSharp => simp [decoded, Shape.listLevels_converted_eq_iff]

/-- An object with a list of texts and of lists of texts. -/
def taggedUser : Entity :=
  .ofObject "User" ⟨none, ⟨[
    ("tags",
      .listed {} (.listed { type? := some "string" } (.plain { type? := some "string" })))]⟩⟩

/-- The elements of a list may be lists, and C# has no loop for those in its file. -/
theorem not_loopCount_eq_listLevels_taggedUser :
    ∃ p ∈ taggedUser.properties, checkNames taggedUser = .ok () ∧
    (∀ b l h, ∃ file, renderEntity b l ⟨"App", .empty⟩ taggedUser h = .ok file ∧
      ∀ block ∈ b.codeBlocks ⟨"App", .empty⟩ taggedUser p, ∀ line ∈ block, file.HasLine line) ∧
    Backend.javaScript.loopCount ⟨"App", .empty⟩ taggedUser p = p.shape.listLevels ∧
    Backend.cSharp.loopCount ⟨"App", .empty⟩ taggedUser p ≠ p.shape.listLevels := by
  refine ⟨_, List.mem_cons_self, rfl, fun b l h => ?_, by decide, by decide⟩
  cases b <;> exact ⟨_, rfl, hasLine_of_mem_codeBlocks rfl List.mem_cons_self⟩

end Backend

end Classwright
