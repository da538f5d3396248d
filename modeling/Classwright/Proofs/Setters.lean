import Classwright.Proofs.Assignment
import Classwright.Proofs.Reports

/-!
# Setters of properties with two forms

A property that holds a single value or a list has a slot for each form and a flag. The
checks of a value store it into one slot and do nothing else to the slots, whatever is
nested in them (`Script.stores_cast`). So each setter clears all slots if its value is
missing, and otherwise, unless a report throws or the list is handed on, reaches its
last statements, which empty the slot of the other form and set the flag
(`Script.settersExclude_members`).
-/

namespace Classwright

open Classwright.Flow

namespace Script

/-! ## What statements do

The statements of the two dialects as tokens. They differ in the exit of a report.
-/

/-- How a report leaves a setter, if it does. -/
def Dialect.reportExit? : Dialect → Option Exit
  | .javaScript => none
  | .actionScript => some .throws

/-- What a statement does. -/
def Statement.tokens (d : Dialect) : Statement → List (Token Test Expr)
  | .report _ => [.step ⟨.always, [], d.reportExit?⟩]
  | .check test _ => [.step ⟨.when test, [], d.reportExit?⟩]
  | .elseCheck test _ => [.step ⟨.elseWhen test, [], d.reportExit?⟩]
  | .elseReport _ => [.step ⟨.otherwise, [], d.reportExit?⟩]
  | .assign target value => [.step ⟨.always, [(target, value)], none⟩]
  | .assignIf test target value => [.step ⟨.when test, [(target, value)], none⟩]
  | .declare name value? => [.step ⟨.always, value?.toList.map (name, ·), none⟩]
  | .push _ _ => [.step ⟨.always, [], none⟩]
  | .next => [.step ⟨.always, [], some .continues⟩]
  | .leave => [.step ⟨.always, [], some .returns⟩]
  | .answer _ => [.step ⟨.always, [], some .returns⟩]
  | .openIf test => [.block (.when test)]
  | .openElse => [.close, .block .otherwise]
  | .openLoop index _ => [.step ⟨.always, [(index, .plain "0")], none⟩, .loop]
  | .close => [.close]

/-- What lines do. -/
def tokens (d : Dialect) (ls : List Line) : List (Token Test Expr) :=
  ls.flatMap fun line => line.statement.tokens d

@[simp] theorem tokens_nil (d : Dialect) : tokens d [] = [] :=
  rfl

@[simp] theorem tokens_cons (d : Dialect) (line : Line) (ls : List Line) :
    tokens d (line :: ls) = line.statement.tokens d ++ tokens d ls :=
  List.flatMap_cons

@[simp] theorem tokens_append (d : Dialect) (ls ms : List Line) :
    tokens d (ls ++ ms) = tokens d ls ++ tokens d ms :=
  List.flatMap_append

/-! ## Checks

By induction on the shape, checking a value stores into the target, with branches for
the two forms of a choice.
-/

/-- How checks leave a setter: the reports of one dialect throw. -/
def Throws (d : Dialect) (x : Exit) : Prop :=
  d = .actionScript ∧ x = .throws

theorem throws_of_reportExit? {d : Dialect} {x : Exit} (h : d.reportExit? = some x) :
    Throws d x := by
  cases d <;> cases h
  exact ⟨rfl, rfl⟩

theorem quiet_report {d : Dialect} {slots : List String} (g : Guard Test) (pending : Bool) :
    Ensures ((⟨g, [], d.reportExit?⟩ : Step Test Expr).Runs pending) (Quiet slots (Throws d)) :=
  quiet_step pending (by simp) fun _ => throws_of_reportExit?

section stores

variable (d : Dialect) (c : Caster) {slots : List String} {value : String} (target label : String)
    (indent depth : Nat)

/-- Checking a single value stores it in the target, or leaves by a report. -/
theorem stores_castAtom (atom : Atom) (hv : value ∉ slots) :
    Stores slots target (Throws d) (tokens d (c.castAtom atom value target label indent)) := by
  -- A number is assigned once, and once more if it has to be rounded.
  have hnumber : ∀ (e e' : Expr) (test : Test) (q : Bool),
      Ensures (runs [.step ⟨.always, [(target, e)], none⟩,
        .step ⟨.when test, [(target, e')], none⟩] q) (Stored slots target (Throws d)) :=
    fun e e' _ q => stored_seq (stored_assign e q) fun q =>
      quiet_seq (quiet_assign _ e' q (by simp)) fun _ =>
      quiet_only _
  refine ⟨⟨fun rest => ?_⟩, fun q => ?_⟩
  · cases atom with
    | primitive p => cases p <;> rfl
    -- What is built is assigned after a guard that either reports or leaves the slots
    -- alone.
    | object name => rfl
    | result => rfl
    | unknown => rfl
  · cases atom with
    | primitive p =>
      cases p with
      | int =>
        exact stored_of_quiet_seq (quiet_report _ _) fun q =>
          stored_of_quiet_seq (quiet_report _ _) fun q =>
          hnumber _ _ _ _
      | float => exact stored_of_quiet_seq (quiet_report _ _) fun q => hnumber _ _ _ _
      | string | boolean | object | array => exact stored_after _ (quiet_report _ _)
      | mixed => exact stored_last _ _
    | object name =>
      refine stored_of_quiet_seq (quiet_guarded _ _ ?_) fun q => stored_last _ _
      exact quiet_seq (quiet_assign _ _ _ hv) fun q => quiet_seq (quiet_report _ _) fun q =>
        quiet_only _
    | result =>
      refine stored_of_quiet_seq (quiet_guarded _ _ ?_) fun q => stored_last _ _
      refine quiet_seq (quiet_guarded _ _ ?_) fun q => quiet_seq (quiet_report _ _) fun q =>
        quiet_only _
      exact quiet_seq (quiet_assign _ _ _ hv) fun q => quiet_seq (quiet_report _ _) fun q =>
        quiet_only _
    | unknown => exact stored_last _ _

variable (hlocal : ∀ name ∈ ["arr", "i", "val", "item"], ∀ n, numbered name n ∉ slots)

include hlocal

/-- Checking a list stores it if checking an element stores that into its variable. -/
theorem stores_castList (value : String) {inner : List Line}
    (h : Stores slots (numbered "item" depth) (Throws d) (tokens d inner)) :
    Stores slots target (Throws d)
    (tokens d (Caster.castList value target label indent depth inner)) := by
  refine ⟨⟨fun rest => ?_⟩, fun q => ?_⟩
  · simp [Caster.castList, Statement.tokens, parse, h.braced.parse_append, Code.append]
  · simp only [Caster.castList, tokens_append, tokens_cons, tokens_nil, Statement.tokens,
      List.cons_append, List.nil_append, runs, parse, h.braced.parse_append, Code.Runs,
      List.headD_cons, List.tail_cons]
    refine stored_choice q ?_ ?_
    · exact stored_after _ (quiet_report _ _)
    · refine stored_of_quiet_seq (quiet_assign _ _ _ (hlocal "arr" (by simp) _)) fun q => ?_
      refine stored_of_quiet_seq (quiet_assign _ _ _ (hlocal "i" (by simp) _)) fun q => ?_
      refine stored_of_quiet_seq (quiet_loops ?_) fun q => stored_last _ q
      -- a pass either goes on to the next one at once or checks the element, which
      -- assigns no slot
      refine quiet_seq (quiet_assign _ _ _ (hlocal "val" (by simp) _)) fun q => ?_
      refine quiet_seq (quiet_guarded _ _ ?_) fun q => ?_
      · exact quiet_seq (quiet_idle _ _) fun q => quiet_seq (quiet_leave _ _ (Or.inl rfl)) fun q =>
          quiet_only q
      · refine quiet_seq (quiet_idle _ _) fun q => ?_
        rw [Code.runs_append]
        have hitem := hlocal "item" (by simp) depth
        exact quiet_seq ((h.stored q).mono fun t e ht => (ht.quiet hitem).mono fun x =>
          Or.inr) fun q =>
          quiet_seq (quiet_idle _ _) fun q => quiet_only q

/-- Checking a value stores it, whatever its shape. -/
theorem stores_cast : ∀ (shape : Shape) (value : String) (_ : value ∉ slots) (target label : String)
    (indent depth : Nat),
    Stores slots target (Throws d) (tokens d (c.cast shape value target label indent depth))
  | .single atom, _, hv, target, label, indent, _ => stores_castAtom d c target label indent atom hv
  | .list element, value, _, target, label, indent, depth =>
    stores_castList d target label indent depth hlocal value
      (stores_cast element _ (hlocal "val" (by simp) depth) _ _ _ _)
  | .either atom element, value, hv, target, label, indent, depth => by
    -- The choice of a list or a single value is one between two branches that store.
    have hlist := stores_castList d target label (indent + 1) depth hlocal value
      (stores_cast element _ (hlocal "val" (by simp) depth) _
        (label ++ "[]") (indent + 3) (depth + 1))
    have hatom := stores_castAtom d c target label (indent + 1) atom hv
    refine ⟨⟨fun rest => ?_⟩, fun q => ?_⟩
    · simp [Caster.cast, Statement.tokens, parse, hlist.braced.parse_append,
        hatom.braced.parse_append, Code.append]
    · simp only [Caster.cast, tokens_append, tokens_cons, tokens_nil, Statement.tokens,
        List.cons_append, List.nil_append, List.append_assoc, runs, parse,
        hlist.braced.parse_append, hatom.braced.parse_append, Code.Runs, List.headD_cons,
        List.tail_cons, Code.append_done]
      exact stored_choice q (hlist.stored false) (hatom.stored false)

end stores

/-! ## Slots

At most one of the two slots holds something. `Slots.Exclusive` is the invariant that
every call of a setter keeps.
-/

/-- The forms in which a property can hold something. -/
inductive Form where
  | neither
  | single
  | list
deriving DecidableEq, Repr

namespace Slots

variable {τ ε : Type}

/-- The slots of a property. -/
def all (s : Slots) : List String :=
  [s.value, s.list, s.flag]

/-- Whether a run has left a form in the slots, and emptied the slot of the other form. -/
def Hold (s : Slots) (plain : String → ε) (t : Trace τ ε) : Form → Prop
  | .neither => final s.value t = some (plain "null") ∧ final s.list t = some (plain "null") ∧
    final s.flag t = some (plain "false")
  | .single =>
    (final s.value t).isSome ∧ final s.list t = some (plain "null") ∧
      final s.flag t = some (plain "false")
  | .list =>
    final s.value t = some (plain "null") ∧ (final s.list t).isSome ∧
      final s.flag t = some (plain "true")

/-- Whether a run has not assigned any slot. -/
def Kept (s : Slots) (t : Trace τ ε) : Prop :=
  ∀ slot ∈ s.all, final slot t = none

/-- Whether at most one form holds, the one that the flag tells. -/
def Exclusive (s : Slots) (plain : String → ε) (values : String → ε) : Prop :=
  values s.flag = plain "false" ∧ values s.list = plain "null" ∨
    values s.flag = plain "true" ∧ values s.value = plain "null"

/-- The values of variables after a run. -/
def after (values : String → ε) (t : Trace τ ε) : String → ε :=
  fun name => (final name t).getD (values name)

variable {s : Slots} {plain : String → ε} {values : String → ε} {t : Trace τ ε}

/-- Slots that hold one form are exclusive. -/
theorem Hold.exclusive {form : Form} (h : s.Hold plain t form) :
    s.Exclusive plain (after values t) := by
  cases form with
  | neither => exact Or.inl ⟨by simp [after, h.2.2], by simp [after, h.2.1]⟩
  | single => exact Or.inl ⟨by simp [after, h.2.2], by simp [after, h.2.1]⟩
  | list => exact Or.inr ⟨by simp [after, h.2.2], by simp [after, h.1]⟩

theorem Kept.exclusive (h : s.Kept t) (hvalues : s.Exclusive plain values) :
    s.Exclusive plain (after values t) := by
  simpa [Exclusive, after, h s.value (by simp [all]), h s.list (by simp [all]),
    h s.flag (by simp [all])] using hvalues

/-- Runs that leave a form or keep all slots never let both forms hold, however many
follow one another. -/
theorem exclusive_foldl : ∀ (ts : List (Trace τ ε)) (values : String → ε),
    (∀ t ∈ ts, s.Kept t ∨ ∃ form, s.Hold plain t form) → s.Exclusive plain values →
      s.Exclusive plain (ts.foldl after values)
  | [], _, _, hvalues => hvalues
  | t :: ts, values, h, hvalues => by
    have hafter : s.Exclusive plain (after values t) := by
      rcases h t List.mem_cons_self with hkept | ⟨form, hhold⟩
      · exact hkept.exclusive hvalues
      · exact hhold.exclusive
    exact exclusive_foldl ts _ (fun t' ht' => h t' (List.mem_cons_of_mem t ht')) hafter

end Slots

/-- The names of the slots of both forms and of the flag are different, whatever they
start with. -/
theorem formNames_ne (start name : String) : start ++ name ≠ start ++ listName name ∧
    start ++ name ≠ start ++ flagName name ∧ start ++ listName name ≠ start ++ flagName name := by
  have hne : ∀ m n : String, m.length ≠ n.length → m ≠ n := fun m n h =>
    mt (congrArg String.length) h
  have hlength : "List".length = 4 ∧ "IsList".length = 6 := ⟨rfl, rfl⟩
  refine ⟨hne _ _ ?_, hne _ _ ?_, hne _ _ ?_⟩ <;> simp [listName, flagName, hlength]

/-- The three slots of a property have different names. -/
theorem slotsOf_ne (d : Dialect) (name : String) : (slotsOf d name).value ≠ (slotsOf d name).list ∧
    (slotsOf d name).value ≠ (slotsOf d name).flag ∧
    (slotsOf d name).list ≠ (slotsOf d name).flag := by
  simp only [slotsOf, slotName, ← String.append_assoc]
  exact formNames_ne _ name

theorem head?_of_mem_slots {d : Dialect} {name : String} :
    ∀ slot ∈ (slotsOf d name).all, slot.toList.head? = some 't' := by
  simp [Slots.all, slotsOf]

theorem parameter_notMem_slots (d : Dialect) (name param : String) :
    parameter param ∉ (slotsOf d name).all := by
  intro h
  have hhead := head?_of_mem_slots _ h
  simp [parameter] at hhead

theorem numbered_notMem_slots (d : Dialect) (name : String) :
    ∀ variable_ ∈ ["arr", "i", "val", "item"], ∀ n,
    numbered variable_ n ∉ (slotsOf d name).all := by
  intro variable_ hvariable n h
  have hhead := head?_of_mem_slots _ h
  simp [numbered] at hhead hvariable
  rcases hvariable with rfl | rfl | rfl | rfl <;> simp at hhead

/-- The accessor of the list form is no slot. -/
theorem listAccessor_notMem_slots (d : Dialect) (name : String) :
    "this." ++ listName name ∉ (slotsOf d name).all := by
  have hmark : (slotMark d).length = 1 ∨ (slotMark d).length = 3 := by cases d <;> decide
  have hlength : "List".length = 4 ∧ "IsList".length = 6 := ⟨rfl, rfl⟩
  intro h
  simp only [Slots.all, slotsOf, List.mem_cons, List.not_mem_nil, or_false] at h
  rcases h with h | h | h
  all_goals
    have hlengths := congrArg String.length h
    simp only [slotName, listName, flagName, String.length_append, hlength] at hlengths
    omega

/-! ## Setters

The runs of a setter by what they are: a value that is missing, handed on, refused or
stored.
-/

/-- The runs of the setter of the single form. -/
inductive SingleRun (d : Dialect) (name : String) : Trace Test Expr → Ending → Prop where
  | missing {t : Trace Test Expr} : (slotsOf d name).Hold .plain t .neither →
    SingleRun d name (.tested (.missing (parameter name)) true :: t) (.exits .returns)
  | handedOn : SingleRun d name [.tested (.missing (parameter name)) false,
      .tested (.given (parameter name)) true,
      .set ("this." ++ listName name) (.plain (parameter name))] (.exits .returns)
  | stored {t : Trace Test Expr} {q : Bool} : (slotsOf d name).Hold .plain t .single →
    SingleRun d name (.tested (.missing (parameter name)) false ::
      .tested (.given (parameter name)) false :: t) (.falls q)
  | refused {t : Trace Test Expr} {x : Exit} : Throws d x → (slotsOf d name).Kept t →
    SingleRun d name (.tested (.missing (parameter name)) false ::
      .tested (.given (parameter name)) false :: t) (.exits x)

/-- The runs of the setter of the list form. -/
inductive ListRun (d : Dialect) (name : String) : Trace Test Expr → Ending → Prop where
  | missing {t : Trace Test Expr} : (slotsOf d name).Hold .plain t .neither →
    ListRun d name (.tested (.missing (parameter (listName name))) true :: t) (.exits .returns)
  | stored {t : Trace Test Expr} {q : Bool} : (slotsOf d name).Hold .plain t .list →
    ListRun d name (.tested (.missing (parameter (listName name))) false :: t) (.falls q)
  | refused {t : Trace Test Expr} {x : Exit} : Throws d x → (slotsOf d name).Kept t →
    ListRun d name (.tested (.missing (parameter (listName name))) false :: t) (.exits x)

section runs

variable (d : Dialect) (c : Caster) (name label : String) (pending : Bool)

/-- Every run of the setter of the single form is one of those listed. -/
theorem ensures_singleSetter (atom : Atom) :
    Ensures (runs (tokens d (singleSetter c (slotsOf d name) name atom label)) pending)
    (SingleRun d name) := by
  obtain ⟨hvl, hvf, hlf⟩ := slotsOf_ne d name
  have hcast :=
    stores_castAtom d c (slotsOf d name).value label 2 atom (parameter_notMem_slots d name name)
  simp only [singleSetter, missingGuard, Slots.clear, Caster.cast, List.map_cons, List.map_nil,
    tokens_append, tokens_cons, tokens_nil, Statement.tokens, List.cons_append, List.nil_append,
    runs, parse, hcast.braced.parse_append, Code.Runs, List.headD_cons, List.tail_cons]
  -- A missing value, a list, and any other value take different ways through the
  -- setter.
  refine ensures_seq.2 (ensures_when.2 ⟨?missing,
    ensures_seq.2 (ensures_when.2 ⟨?handedOn, ?checked⟩)⟩)
  case missing =>
    simp only [ensures_seq, ensures_assign, ensures_leave, before_falls, before_exits,
      Ending.closed_exits, List.cons_append, List.nil_append]
    exact .missing (by simp [Slots.Hold, hvl.symm, hvf.symm, hlf.symm])
  case handedOn =>
    simp only [ensures_seq, ensures_assign, ensures_leave, before_falls, before_exits,
      Ending.closed_exits, List.cons_append, List.nil_append]
    exact .handedOn
  case checked =>
    refine hcast.ensures_append _ true (fun t q ht => ?_) fun t x hx ht => .refused hx ht
    simp only [Code.Runs, ensures_seq, ensures_assign, ensures_only, before_falls, List.cons_append,
      List.nil_append]
    exact .stored ⟨by simp [ht.1, hvl.symm, hvf.symm], by simp [hlf.symm], by simp⟩

/-- Every run of the setter of the list form is one of those listed. -/
theorem ensures_listSetter (element : Shape) :
    Ensures (runs (tokens d (listSetter c (slotsOf d name) name element label)) pending)
    (ListRun d name) := by
  obtain ⟨hvl, hvf, hlf⟩ := slotsOf_ne d name
  have hcast := stores_cast d c (numbered_notMem_slots d name) (.list element) _
    (parameter_notMem_slots d name (listName name)) (slotsOf d name).list label 2 0
  simp only [listSetter, missingGuard, Slots.clear, List.map_cons, List.map_nil, tokens_append,
    tokens_cons, tokens_nil, Statement.tokens, List.cons_append, List.nil_append, runs, parse,
    hcast.braced.parse_append, Code.Runs, List.headD_cons, List.tail_cons]
  -- A missing value and any other take different ways through the setter.
  refine ensures_seq.2 (ensures_when.2 ⟨?missing, ?checked⟩)
  case missing =>
    simp only [ensures_seq, ensures_assign, ensures_leave, before_falls, before_exits,
      Ending.closed_exits, List.cons_append, List.nil_append]
    exact .missing (by simp [Slots.Hold, hvl.symm, hvf.symm, hlf.symm])
  case checked =>
    refine hcast.ensures_append _ true (fun t q ht => ?_) fun t x hx ht => .refused hx ht
    simp only [Code.Runs, ensures_seq, ensures_assign, ensures_only, before_falls, List.cons_append,
      List.nil_append]
    exact .stored ⟨by simp [hvf.symm], by simp [ht.1, hvl, hlf.symm], by simp⟩

end runs

/-! ## Return statements

The code that checks a value never returns, so the returns of a setter are in its guard
and, for the single form, where a list is handed on.
-/

/-- Whether a statement returns. -/
def Statement.returns : Statement → Bool
  | .leave => true
  | .answer _ => true
  | _ => false

/-- The return statements in lines. -/
def returnsIn (ls : List Line) : List Statement :=
  (ls.map Line.statement).filter Statement.returns

@[simp] theorem returnsIn_nil : returnsIn [] = [] :=
  rfl

@[simp] theorem returnsIn_cons (line : Line) (ls : List Line) : returnsIn (line :: ls) =
    if line.statement.returns then line.statement :: returnsIn ls else returnsIn ls :=
  List.filter_cons

@[simp] theorem returnsIn_append (ls ms : List Line) :
    returnsIn (ls ++ ms) = returnsIn ls ++ returnsIn ms := by
  simp [returnsIn]

/-- Checking a single value does not return. -/
@[simp] theorem returnsIn_castAtom (c : Caster) (atom : Atom) (value target label : String)
    (indent : Nat) :
    returnsIn (c.castAtom atom value target label indent) = [] := by
  cases atom with
  | primitive p => cases p <;> simp [Caster.castAtom, Statement.returns]
  | object name => simp [Caster.castAtom, Statement.returns]
  | result => simp [Caster.castAtom, Statement.returns]
  | unknown => simp [Caster.castAtom, Statement.returns]

@[simp] theorem returnsIn_castList (value target label : String) (indent depth : Nat)
    (inner : List Line) :
    returnsIn (Caster.castList value target label indent depth inner) = returnsIn inner := by
  simp [Caster.castList, Statement.returns]

/-- The checks of a value never return. -/
@[simp] theorem returnsIn_cast (c : Caster) : ∀ (shape : Shape) (value target label : String)
    (indent depth : Nat), returnsIn (c.cast shape value target label indent depth) = []
  | .single atom, _, _, _, _, _ => returnsIn_castAtom c atom ..
  | .list element, _, _, _, _, _ => by
    rw [Caster.cast, returnsIn_castList, returnsIn_cast c element]
  | .either atom element, _, _, _, _, _ => by
    simp [Caster.cast, Statement.returns, returnsIn_cast c element]

/-! ## Both setters

A sequence of calls is a fold over the slots, and the invariant holds after each of
them.
-/

/-- The setters among accessors, by name. -/
def setters (ms : List Member) : List (String × List Line) :=
  ms.filterMap fun m =>
    match m.kind with
    | .getter _ => none
    | .setter => some (m.name, m.body)

/-- Whether the setters of the two forms of a property keep them apart. -/
structure SettersExclude (d : Dialect) (name : String) (single list : List Line) : Prop where
  /-- The setter of the single form first clears all slots and returns if its value is
  missing. -/
  single_guard : missingGuard name (slotsOf d name).clear <+: single
  /-- So does the setter of the list form. -/
  list_guard : missingGuard (listName name) (slotsOf d name).clear <+: list
  /-- The setter of the single form ends with emptying the list slot and clearing the
  flag. -/
  single_ending : [⟨2, .assign (slotsOf d name).list (.plain "null")⟩,
    ⟨2, .assign (slotsOf d name).flag (.plain "false")⟩] <:+ single
  /-- The setter of the list form ends with emptying the single slot and setting the
  flag. -/
  list_ending : [⟨2, .assign (slotsOf d name).value (.plain "null")⟩,
    ⟨2, .assign (slotsOf d name).flag (.plain "true")⟩] <:+ list
  /-- The setter of the single form returns where its value is missing and where it
  hands the list on, ... -/
  single_returns : returnsIn single = [.leave, .leave]
  /-- ... and the setter of the list form where its value is missing. -/
  list_returns : returnsIn list = [.leave]
  /-- The braces match. -/
  braced : Braced (tokens d single) ∧ Braced (tokens d list)
  /-- These are the runs of the setter of the single form. -/
  single_runs : ∀ t e, runs (tokens d single) false t e → SingleRun d name t e
  /-- These are the runs of the setter of the list form. -/
  list_runs : ∀ t e, runs (tokens d list) false t e → ListRun d name t e
  /-- However often the setters are called, at most one form holds. -/
  exclusive : ∀ (calls : List (Trace Test Expr)) (values : String → Expr),
    (∀ t ∈ calls, ∃ e, runs (tokens d single) false t e ∨ runs (tokens d list) false t e) →
      (slotsOf d name).Exclusive .plain values →
      (slotsOf d name).Exclusive .plain (calls.foldl Slots.after values)

/-- After the setter of the single form the slots are kept or hold one form. -/
theorem SingleRun.kept_or_hold {d : Dialect} {name : String} {t : Trace Test Expr} {e : Ending}
    (h : SingleRun d name t e) : (slotsOf d name).Kept t ∨ ∃ form,
    (slotsOf d name).Hold .plain t form := by
  cases h with
  | missing h => exact Or.inr ⟨.neither, h⟩
  | handedOn =>
    have hne : ∀ slot ∈ (slotsOf d name).all, "this." ++ listName name ≠ slot :=
      fun slot hslot hname =>
      listAccessor_notMem_slots d name (hname ▸ hslot)
    exact Or.inl fun slot hslot => by simp [hne slot hslot]
  | stored h => exact Or.inr ⟨.single, h⟩
  | refused _ h => exact Or.inl h

/-- So they are after that of the list form. -/
theorem ListRun.kept_or_hold {d : Dialect} {name : String} {t : Trace Test Expr} {e : Ending}
    (h : ListRun d name t e) : (slotsOf d name).Kept t ∨ ∃ form,
    (slotsOf d name).Hold .plain t form := by
  cases h with
  | missing h => exact Or.inr ⟨.neither, h⟩
  | stored h => exact Or.inr ⟨.list, h⟩
  | refused _ h => exact Or.inl h

/-- The setters of a property with two forms keep these apart. -/
theorem settersExclude_members (d : Dialect) (c : Caster) (docs : MemberDocs) (entity : String)
    {p : Property} {atom : Atom} {element : Shape} (hp : p.shape = .either atom element) :
    ∃ single list, setters (membersOf d c docs entity p) = [(p.name, single),
      (listName p.name, list)] ∧
      SettersExclude d p.name single list := by
  let label := entity ++ "." ++ p.name
  refine ⟨singleSetter c (slotsOf d p.name) p.name atom label,
    listSetter c (slotsOf d p.name) p.name element label, ?_, ?_⟩
  · simp [membersOf, hp, setters, label]
  -- What a run of each setter does to the slots decides that they exclude each other.
  · have hsingle := ensures_singleSetter d c p.name label false atom
    have hlist := ensures_listSetter d c p.name label false element
    have hatom := stores_castAtom d c (slotsOf d p.name).value label 2 atom
      (parameter_notMem_slots d p.name p.name)
    have hcast := stores_cast d c (numbered_notMem_slots d p.name) (.list element) _
      (parameter_notMem_slots d p.name (listName p.name)) (slotsOf d p.name).list label 2 0
    refine {
      single_guard := ⟨_, by simp only [singleSetter, List.append_assoc]; rfl⟩
      list_guard := ⟨_, by simp only [listSetter, List.append_assoc]; rfl⟩
      single_ending := List.suffix_append _ _
      list_ending := List.suffix_append _ _
      single_returns := by simp [singleSetter, missingGuard, Slots.clear, Statement.returns]
      list_returns := by simp [listSetter, missingGuard, Slots.clear, Statement.returns]
      braced := ⟨⟨fun rest => ?_⟩, ⟨fun rest => ?_⟩⟩
      single_runs := hsingle
      list_runs := hlist
      exclusive := fun calls values hcalls => Slots.exclusive_foldl calls values fun t ht => ?_ }
    · simp [singleSetter, missingGuard, Slots.clear, Caster.cast, Statement.tokens, parse,
        hatom.braced.parse_append, Code.append, Code.append_assoc]
    · simp [listSetter, missingGuard, Slots.clear, Statement.tokens, parse,
        hcast.braced.parse_append, Code.append, Code.append_assoc]
    · obtain ⟨e, hrun | hrun⟩ := hcalls t ht
      · exact (hsingle _ _ hrun).kept_or_hold
      · exact (hlist _ _ hrun).kept_or_hold

end Script

end Classwright
