import Classwright.Proofs.Decoding

/-!
# Look-ups of results

A value that names a result is replaced by what the index makes of the name, and the
index answers `null` to a name that it does not know. Every look-up in a setter is
followed, in the same branch, by a test of the variable for `null` that reports. In C# a
look-up is the last statement of its branch, so the answer `null` is stored without a
report. There is one look-up for every level of the decoded shape that is a result
(`Backend.unknownReports_eq_replicate`).
-/

namespace Classwright

/-! ## Lines and the lines after them

Whether a look-up is answered is a matter of the lines behind it in the same branch.
`Answered` keeps a list of lines apart from what follows it.
-/

section lines

variable {α : Type} {asks : α → Bool} {answer : α → List α → Bool}

/-- The lines of a branch that follow one of its lines: up to the first that is less
deep. -/
def restOfBranch (depth : α → Nat) (line : α) (rest : List α) : List α :=
  rest.takeWhile fun l => depth line ≤ depth l

/-- For every line that asks, whether the lines after it answer. -/
def answers (asks : α → Bool) (answer : α → List α → Bool) : List α → List Bool
  | [] => []
  | line :: rest =>
    if asks line then answer line rest :: answers asks answer rest else answers asks answer rest

/-- There are no answers exactly if nothing asks. -/
theorem answers_eq_nil_iff : ∀ {ls : List α}, answers asks answer ls = [] ↔ ∀ l ∈ ls, asks l = false
  | [] => by simp [answers]
  | l :: ls => by
    have ih : answers asks answer ls = [] ↔ ∀ l ∈ ls, asks l = false := answers_eq_nil_iff
    rw [answers, List.forall_mem_cons, ← ih]
    cases asks l <;> simp

/-- Whether lines have the given answers, whatever lines follow them. -/
structure Answered (asks : α → Bool) (answer : α → List α → Bool) (ls : List α) (as : List Bool) :
    Prop where
  /-- The answers stand before those of the lines that follow. -/
  append_eq : ∀ rest, answers asks answer (ls ++ rest) = as ++ answers asks answer rest

namespace Answered

theorem nil : Answered asks answer [] [] :=
  ⟨fun _ => rfl⟩

theorem append {ls ms : List α} {as bs : List Bool} (hl : Answered asks answer ls as)
    (hm : Answered asks answer ms bs) : Answered asks answer (ls ++ ms) (as ++ bs) := by
  refine ⟨fun rest => ?_⟩
  rw [List.append_assoc, hl.append_eq, hm.append_eq, List.append_assoc]

/-- Lines that ask nothing have no answers. -/
theorem of_silent : ∀ {ls : List α}, ls.all (fun l => !asks l) → Answered asks answer ls []
  | [], _ => nil
  | l :: ls, h => by
    simp only [List.all_cons, Bool.and_eq_true, Bool.not_eq_eq_eq_not, Bool.not_true] at h
    refine ⟨fun rest => ?_⟩
    rw [List.cons_append, answers, h.1]
    exact (of_silent h.2).append_eq rest

theorem silent_append {ls ms : List α} {as : List Bool} (hl : ls.all fun l => !asks l)
    (hm : Answered asks answer ms as) : Answered asks answer (ls ++ ms) as :=
  (of_silent hl).append hm

theorem append_silent {ls ms : List α} {as : List Bool} (hl : Answered asks answer ls as)
    (hm : ms.all fun l => !asks l) : Answered asks answer (ls ++ ms) as := by
  simpa using hl.append (of_silent hm)

theorem answers_eq {ls : List α} {as : List Bool} (h : Answered asks answer ls as) :
    answers asks answer ls = as := by
  simpa [answers] using h.append_eq []

/-- Some line asks exactly if there are answers. -/
theorem exists_asks_iff {ls : List α} {as : List Bool} (h : Answered asks answer ls as) :
    (∃ l ∈ ls, asks l) ↔ as ≠ [] := by
  rw [← h.answers_eq, Ne, answers_eq_nil_iff]
  simp

end Answered

end lines

/-! ## Levels

Counted are the levels that refer to the result of a method, in the choices of a level
as well. The code looks up one result for each of them.
-/

/-- The number of results that an atom refers to. -/
def Atom.resultCount : Atom → Nat
  | .result => 1
  | _ => 0

/-- The number of levels that refer to the result of a method. -/
def Shape.resultCount : Shape → Nat
  | .single atom => atom.resultCount
  | .list element => element.resultCount
  | .either atom element => atom.resultCount + element.resultCount

theorem Atom.resultCount_eq_zero_iff {atom : Atom} :
    atom.resultCount = 0 ↔ (atom == .result) = false := by
  cases atom <;> simp [resultCount]

/-- There are results to look up exactly if some level mentions one. -/
theorem Shape.resultCount_eq_zero_iff : ∀ s : Shape, s.resultCount = 0 ↔ s.mentionsResult = false
  | .single atom => Atom.resultCount_eq_zero_iff
  | .list element => resultCount_eq_zero_iff element
  | .either atom element => by
    simp only [resultCount, mentionsResult, Nat.add_eq_zero_iff, Bool.or_eq_false_iff,
      Atom.resultCount_eq_zero_iff, resultCount_eq_zero_iff element]

/-! ## Setters

The test for `null` stands directly behind the look-up.
-/

namespace Script

/-- Whether an expression looks a result up. -/
def Expr.isLookup : Expr → Bool
  | .lookup _ _ => true
  | _ => false

/-- The expression that a statement evaluates, apart from tests. -/
def Statement.expression? : Statement → Option Expr
  | .assign _ e => some e
  | .assignIf _ _ e => some e
  | .declare _ e? => e?
  | .push _ e => some e
  | .answer e => some e
  | _ => none

/-- Whether a line looks a result up. -/
def Line.looksUp (l : Line) : Bool :=
  l.statement.expression?.any Expr.isLookup

/-- Whether a statement reports if a variable is `null`. -/
def Statement.reportsNull (name : String) : Statement → Bool
  | .check (.null v) _ => v == name
  | _ => false

/-- Whether the rest of the branch reports if the variable that a line sets is `null`. -/
def Line.isReported (l : Line) (rest : List Line) : Bool :=
  match l.statement with
  | .assign target _ =>
    (restOfBranch Line.depth l rest).any fun m => m.depth == l.depth &&
      m.statement.reportsNull target
  | _ => false

/-- Whether lines have the given look-ups, whatever lines follow them. -/
abbrev LooksUp (ls : List Line) (reports : List Bool) : Prop :=
  Answered Line.looksUp Line.isReported ls reports

variable (c : Caster)

/-- Checking a single value looks up its results, and reports each that is unknown. -/
theorem looksUp_castAtom (atom : Atom) (value target label : String) (indent : Nat) :
    LooksUp (c.castAtom atom value target label indent) (List.replicate atom.resultCount true) := by
  cases atom with
  | primitive p => cases p <;> exact .of_silent rfl
  | object name => exact .of_silent rfl
  | unknown => exact .of_silent rfl
  | result =>
    refine ⟨fun rest => ?_⟩
    simp [Caster.castAtom, answers, Line.looksUp, Line.isReported, restOfBranch,
      Statement.expression?, Expr.isLookup, Statement.reportsNull, Atom.resultCount]

theorem looksUp_castList (value target label : String) (indent depth : Nat) {inner : List Line}
    {reports : List Bool} (h : LooksUp inner reports) :
    LooksUp (Caster.castList value target label indent depth inner) reports :=
  (Answered.silent_append rfl h).append_silent rfl

/-- The checks of a shape have a look-up for every level that is a result, and all of
them are followed by a report. -/
theorem looksUp_cast : ∀ (shape : Shape) (value target label : String) (indent depth : Nat),
    LooksUp (c.cast shape value target label indent depth) (List.replicate shape.resultCount true)
  | .single atom, _, _, _, _, _ => looksUp_castAtom c atom ..
  | .list element, _, _, _, _, _ => looksUp_castList _ _ _ _ _ (looksUp_cast element ..)
  | .either atom element, value, target, label, indent, depth => by
    have hlist := looksUp_castList value target label (indent + 1) depth
      (looksUp_cast element (numbered "val" depth) (numbered "item" depth)
        (label ++ "[]") (indent + 3) (depth + 1))
    have hatom := looksUp_castAtom c atom value target label (indent + 1)
    -- The code for the list form stands before that for the single form.
    rw [Shape.resultCount, Nat.add_comm, ← List.replicate_append_replicate]
    exact (((Answered.silent_append rfl hlist).append_silent rfl).append hatom).append_silent rfl

/-- The guard of an optional value looks up nothing. -/
theorem looksUp_missingGuard (name : String) {clear : List Statement}
    (h : clear.all fun s => !(s.expression?.any Expr.isLookup)) :
    LooksUp (missingGuard name clear) [] := by
  refine .of_silent ?_
  simpa [missingGuard, Line.looksUp, Statement.expression?, Function.comp_def] using h

/-- A setter looks up the results of its shape. -/
theorem looksUp_plainSetter (slots : Slots) (p : Property) (label : String) :
    LooksUp (plainSetter c slots p label) (List.replicate p.shape.resultCount true) := by
  refine Answered.append (looksUp_missingGuard p.name rfl) ?_
  split
  · exact looksUp_cast c p.shape ..
  · next h =>
    rcases Property.shape_of_not_isChecked h with hs | hs <;> rw [hs] <;> exact .of_silent rfl

theorem looksUp_singleSetter (slots : Slots) (name : String) (atom : Atom) (label : String) :
    LooksUp (singleSetter c slots name atom label) (List.replicate atom.resultCount true) :=
  (((looksUp_missingGuard name rfl).append_silent rfl).append
    (looksUp_cast c (.single atom) ..)).append_silent rfl

theorem looksUp_listSetter (slots : Slots) (name : String) (element : Shape) (label : String) :
    LooksUp (listSetter c slots name element label) (List.replicate element.resultCount true) :=
  ((looksUp_missingGuard (listName name) rfl).append
    (looksUp_cast c (.list element) ..)).append_silent rfl

/-- The accessors of a property have a look-up for every level that is a result, and all
are followed by a report. -/
theorem looksUp_members (d : Dialect) (docs : MemberDocs) (entity : String) (p : Property) :
    LooksUp ((membersOf d c docs entity p).flatMap Member.body)
    (List.replicate p.shape.resultCount true) := by
  unfold membersOf
  cases hs : p.shape with
  | single atom | list element =>
    have hsetter := looksUp_plainSetter c (slotsOf d p.name) p (entity ++ "." ++ p.name)
    simp only [List.flatMap_cons, List.flatMap_nil, List.append_nil]
    exact .silent_append rfl (hs ▸ hsetter)
  | either atom element =>
    have hsingle := looksUp_singleSetter c (slotsOf d p.name) p.name atom (entity ++ "." ++ p.name)
    have hlist := looksUp_listSetter c (slotsOf d p.name) p.name element (entity ++ "." ++ p.name)
    simp only [List.flatMap_cons, List.flatMap_nil, List.append_nil, Shape.resultCount,
      ← List.replicate_append_replicate]
    exact .silent_append rfl (hsingle.append (.silent_append rfl (hlist.append_silent rfl)))

end Script

/-! ## Conversions

A look-up is the last statement of its branch, so nothing behind it tests what it gave.
-/

namespace Conversion

/-- Whether an expression looks a result up. -/
def Expr.isLookup : Expr → Bool
  | .lookup _ _ => true
  | _ => false

/-- The expression that a statement evaluates, apart from tests. -/
def Statement.expression? : Statement → Option Expr
  | .assign _ e => some e
  | .assignIf _ _ e => some e
  | .define _ e => some e
  | _ => none

/-- Whether a line looks a result up. -/
def Line.looksUp (l : Line) : Bool :=
  l.statement.expression?.any Expr.isLookup

/-- Whether a statement tests a variable for `null`. -/
def Statement.testsNull (name : String) : Statement → Bool
  | .branch (.isNull v) => v == name
  | _ => false

/-- Whether lines begin with a report at some depth, with or without a brace before it. -/
def beginsReport (depth : Nat) : List Line → Bool
  | ⟨d, .report _⟩ :: _ => d == depth
  | ⟨_, .openBlock⟩ :: ⟨d, .report _⟩ :: _ => d == depth
  | _ => false

/-- Whether some line tests a variable for `null`, with a report as what is done then. -/
def reportsNull (depth : Nat) (name : String) : List Line → Bool
  | [] => false
  | l :: rest =>
    (l.depth == depth && l.statement.testsNull name && beginsReport (depth + 1) rest) ||
      reportsNull depth name rest

/-- Whether the rest of the branch reports if the variable that a line sets is `null`. -/
def Line.isReported (l : Line) (rest : List Line) : Bool :=
  match l.statement with
  | .assign target _ => reportsNull l.depth target (restOfBranch Line.depth l rest)
  | _ => false

/-- Whether lines have the given look-ups, whatever lines follow them. -/
abbrev LooksUp (ls : List Line) (reports : List Bool) : Prop :=
  Answered Line.looksUp Line.isReported ls reports

variable (c : Converter)

theorem looksUp_braced (indent : Nat) {inner : List Line} {reports : List Bool}
    (h : LooksUp inner reports) :
    LooksUp (braced indent inner) reports :=
  (Answered.silent_append rfl h).append_silent rfl

/-- The look-up of a result is the last statement of its branch. -/
theorem looksUp_convertAtom (atom : Atom) (value target label : String) (indent depth : Nat) :
    LooksUp (c.convertAtom atom value target label indent depth)
    (List.replicate atom.resultCount false) := by
  cases atom with
  | primitive p => cases p <;> exact .of_silent rfl
  | object name => exact .of_silent rfl
  | unknown => exact .of_silent rfl
  | result =>
    refine .append_silent (.silent_append rfl ⟨fun rest => ?_⟩) rfl
    simp [braced, answers, Line.looksUp, Line.isReported, restOfBranch, reportsNull,
      Statement.expression?, Expr.isLookup, Atom.resultCount]

/-- The loop that converts a list looks up nothing itself. -/
theorem looksUp_convertListWith (element : Shape) (value target label : String) (indent depth : Nat)
    {inner : List Line} {reports : List Bool} (h : LooksUp inner reports) :
    LooksUp (c.convertListWith element value target label indent depth inner) reports := by
  refine .append_silent (.silent_append rfl (looksUp_braced indent ?_)) rfl
  refine .append_silent (.silent_append rfl (looksUp_braced (indent + 1) ?_)) rfl
  exact .append_silent (.silent_append rfl (looksUp_braced (indent + 2) h)) rfl

/-- The conversion to a shape has a look-up for every level that is left when the shape
is narrowed and is a result, and none is followed by a report. -/
theorem looksUp_convert : ∀ (shape : Shape) (value target label : String) (indent depth : Nat),
    LooksUp (c.convert shape value target label indent depth)
    (List.replicate shape.narrowed.resultCount false)
  | .single atom, _, _, _, _, _ => looksUp_convertAtom c atom ..
  | .list element, _, _, _, _, _ =>
    looksUp_convertListWith c element _ _ _ _ _ (looksUp_convert element ..)
  | .either atom _, _, _, _, _, _ => looksUp_convertAtom c atom ..

end Conversion

namespace CSharp

open Conversion (LooksUp looksUp_convert)

/-- The case of a missing value looks up nothing. -/
theorem looksUp_nullCase {statements : List Conversion.Statement}
    (h : statements.all fun s => !(s.expression?.any Conversion.Expr.isLookup)) :
    LooksUp (nullCase statements) [] := by
  refine .of_silent ?_
  simpa [nullCase, Conversion.braced, Conversion.Line.looksUp, Conversion.Statement.expression?,
    Function.comp_def] using h

/-- The case of a property has a look-up for every converted level that is a result, and
none is followed by a report. -/
theorem looksUp_caseBody (o : Options) (entity : String) (p : Property) :
    LooksUp (caseBody o entity p) (List.replicate p.shape.converted.resultCount false) := by
  have hconvert := fun slot =>
    looksUp_convert (converter o) p.shape "value" slot (entity ++ "." ++ p.name) 5 0
  unfold caseBody
  cases hs : p.shape with
  | single atom | list element =>
    rw [hs] at hconvert
    refine .append_silent (.append (looksUp_nullCase rfl) ?_) rfl
    split
    · exact hconvert _
    · next h =>
      rcases Property.shape_of_not_isChecked h with hs' | hs' <;> rw [hs] at hs' <;> cases hs' <;>
        exact .of_silent rfl
  | either atom element =>
    rw [hs] at hconvert
    have hlist := fun slot =>
      looksUp_convert (converter o) (.list element) "value" slot (entity ++ "." ++ p.name) 6 0
    -- The code for the list form stands before that for the single form.
    rw [Shape.converted, Shape.resultCount, Nat.add_comm, ← List.replicate_append_replicate]
    refine .append_silent (.append_silent (.append ?_ (hconvert _)) rfl) rfl
    refine .append (.append_silent (looksUp_nullCase rfl) rfl) ?_
    exact Conversion.looksUp_braced 5 (.append_silent (hlist _) rfl)

end CSharp

/-! ## All languages

The look-ups of a property, in the order of its code, with whether each of them is
reported.
-/

namespace Backend

/-- For every look-up of a result in the code that decodes a property, whether an
unknown name is reported in the branch of the look-up. -/
def unknownReports (b : Backend) (o : Options) (e : Entity) (p : Property) : List Bool :=
  match b with
  | .javaScript =>
    answers Script.Line.looksUp Script.Line.isReported
      ((JavaScript.members o e p).flatMap Script.Member.body)
  | .cSharp =>
    answers Conversion.Line.looksUp Conversion.Line.isReported (CSharp.caseBody o e.name p)
  | .actionScript =>
    answers Script.Line.looksUp Script.Line.isReported
      ((ActionScript.members o e p).flatMap Script.Member.body)

/-- There is a look-up for every decoded level that is a result. Unknown names are
reported after all look-ups, unless the language is C#, and then after none. -/
theorem unknownReports_eq_replicate (b : Backend) (o : Options) (e : Entity) (p : Property) :
    b.unknownReports o e p = List.replicate (b.decoded p.shape).resultCount (b != .cSharp) ∧
    ((b.unknownReports o e p).all id ↔ b ≠ .cSharp ∨
      (b.decoded p.shape).mentionsResult = false) := by
  have hreports : b.unknownReports o e p =
      List.replicate (b.decoded p.shape).resultCount (b != .cSharp) := by
    cases b with
    | javaScript => exact (Script.looksUp_members _ _ _ _ _).answers_eq
    | cSharp => exact (CSharp.looksUp_caseBody o e.name p).answers_eq
    | actionScript => exact (Script.looksUp_members _ _ _ _ _).answers_eq
  refine ⟨hreports, ?_⟩
  rw [hreports, List.all_replicate, ← Shape.resultCount_eq_zero_iff]
  cases b <;> simp

/-- An object with the result of a method. -/
def response : Entity :=
  .ofObject "Response" ⟨none, ⟨[("result", .plain { object? := some "Result" })]⟩⟩

/-- A layout with an index. -/
def indexed : Layout :=
  ⟨⟨"out/objects"⟩, ⟨"out/components"⟩, ⟨"out/results"⟩, some ⟨"out/ObjectIndex.cs"⟩, ".cs", none⟩

/-- An unknown name is reported where JavaScript looks it up, and not where C# does, in
the file of the object. -/
theorem not_reported_response : ∃ p ∈ response.properties, p.shape.mentionsResult ∧
    (∃ file, Backend.cSharp.generateEntity indexed ⟨"App", .empty⟩ {} response = .ok file ∧
      ∀ block ∈ Backend.cSharp.codeBlocks ⟨"App", .empty⟩ response p,
        ∀ line ∈ block, file.HasLine line) ∧
    Backend.javaScript.unknownReports ⟨"App", .empty⟩ response p = [true] ∧
    Backend.cSharp.unknownReports ⟨"App", .empty⟩ response p = [false] := by
  refine ⟨_, List.mem_cons_self, by decide, ⟨_, rfl, ?_⟩, by decide, by decide⟩
  exact hasLine_of_mem_codeBlocks (b := .cSharp) (l := indexed) (h := {}) rfl List.mem_cons_self

end Backend

end Classwright
