import Classwright.Proofs.Setters

/-!
# The two forms of a property

A property that holds a single value or a list never holds both: in the ECMAScript
dialects each of its setters, and in C# its case of `SetProperty`, leaves one form in
the slots and empties the slot of the other one (`Backend.forms_exclude`). In C#, the
conversion of a value stores into one slot and does nothing else to the slots
(`Conversion.stores_convert`), and the case is left only after that.
-/

namespace Classwright

open Classwright.Flow

/-- A property with two forms has a shape with two forms. -/
theorem Property.exists_either (p : Property) (hp : p.isPolymorphic = true) :
    ∃ atom element, p.shape = .either atom element := by
  unfold isPolymorphic kind at hp
  cases hs : p.shape with
  | single atom => cases atom <;> simp [hs, Shape.kind] at hp
  | list element =>
    cases element with
    | single atom => cases h : atom.isReference <;> simp [hs, Shape.kind, h] at hp
    | list element => simp [hs, Shape.kind] at hp
    | either atom element => simp [hs, Shape.kind] at hp
  | either atom element => exact ⟨atom, element, rfl⟩

namespace Conversion

/-! ## What statements do

The statements of a conversion as tokens: what they test, assign and leave by.
-/

/-- What a statement does. A report is a call, and is not the end of anything. -/
def Statement.tokens : Statement → List (Token Guard Expr)
  | .branch guard => [.block (.when guard)]
  | .elseBranch guard => [.block (.elseWhen guard)]
  | .otherwise => [.block .otherwise]
  | .openBlock => []
  | .closeBlock => [.close]
  | .report _ => [.step ⟨.always, [], none⟩]
  | .reportUnless guard _ => [.step ⟨.unless guard, [], none⟩]
  | .assign target value => [.step ⟨.always, [(target, value)], none⟩]
  | .assignIf guard target value => [.step ⟨.when guard, [(target, value)], none⟩]
  | .declare _ _ => [.step ⟨.always, [], none⟩]
  | .define name value => [.step ⟨.always, [(name, value)], none⟩]
  | .loop _ _ => [.loop]
  | .add _ _ => [.step ⟨.always, [], none⟩]
  | .decode _ _ => [.step ⟨.always, [], none⟩]
  | .leave => [.step ⟨.always, [], some .breaks⟩]

/-- What lines do. -/
def tokens (ls : List Line) : List (Token Guard Expr) :=
  ls.flatMap fun line => line.statement.tokens

@[simp] theorem tokens_nil : tokens [] = [] :=
  rfl

@[simp] theorem tokens_cons (line : Line) (ls : List Line) :
    tokens (line :: ls) = line.statement.tokens ++ tokens ls :=
  List.flatMap_cons

@[simp] theorem tokens_append (ls ms : List Line) : tokens (ls ++ ms) = tokens ls ++ tokens ms :=
  List.flatMap_append

/-! ## Conversions

By induction on the shape, a conversion stores into the target that it is given.
-/

section stores

variable (c : Converter) {slots : List String} (value target label : String) (indent depth : Nat)

/-- The branch for values of the wrong kind. -/
theorem stored_refused (pending : Bool) :
    Ensures (runs [.step ⟨.always, [], none⟩,
      (.step ⟨.always, [(target, .plain "null")], none⟩ : Token Guard Expr)] pending)
      (Stored slots target fun _ => False) :=
  stored_after _ (quiet_idle _ _)

variable (hlocal : ∀ name ∈ ["list", "val", "item", "obj", "json"], ∀ n, numbered name n ∉ slots)

include hlocal

/-- Converting a single value stores it in the target or leaves the slots as they are. -/
theorem stores_convertAtom (atom : Atom) :
    Stores slots target
    (fun _ => False) (tokens (c.convertAtom atom value target label indent depth)) := by
  refine ⟨⟨fun rest => ?_⟩, fun q => ?_⟩
  -- Parsing the code of an atom leaves the code behind it.
  · cases atom with
    | primitive p => cases p <;> rfl
    | object name => rfl
    | result => rfl
    | unknown => rfl
  · cases atom with
    -- An atom is stored by its test, after a conversion, or as it is.
    | primitive p =>
      cases p with
      | int | float | object | array =>
        exact stored_choice q (stored_only _) (stored_refused target false)
      | string | boolean => exact stored_after _ (quiet_idle _ _)
      | mixed => exact stored_last _ q
    | object name =>
      refine stored_threeWay q (stored_only _) ?_ (stored_refused target false)
      refine stored_of_quiet_seq (quiet_assign _ _ _ (hlocal "obj" (by simp) depth)) fun q => ?_
      exact stored_after _ (quiet_idle _ _)
    | result =>
      refine stored_threeWay q (stored_only _) ?_ (stored_refused target false)
      exact stored_after _ (quiet_assign _ _ _ (hlocal "json" (by simp) depth))
    | unknown => exact stored_last _ q

/-- Converting a list stores it if converting an element stores that into its variable. -/
theorem stores_convertListWith (element : Shape) {inner : List Line}
    (h : Stores slots (numbered "item" depth) (fun _ => False) (tokens inner)) :
    Stores slots target (fun _ => False)
      (tokens (c.convertListWith element value target label indent depth inner)) := by
  have hitem := hlocal "item" (by simp) depth
  refine ⟨⟨fun rest => ?_⟩, fun q => ?_⟩
  · simp [Converter.convertListWith, braced, refuse, Statement.tokens, parse, h.braced.parse_append,
      Code.append]
  · simp only [Converter.convertListWith, braced, refuse, tokens_append, tokens_cons, tokens_nil,
      Statement.tokens, List.cons_append, List.nil_append, List.append_assoc, runs, parse,
      h.braced.parse_append, Code.Runs, List.headD_cons, List.tail_cons, Code.append_done]
    refine stored_choice q ?_ (stored_refused target false)
    refine stored_of_quiet_seq (quiet_assign _ _ _ (hlocal "list" (by simp) depth)) fun q => ?_
    refine stored_of_quiet_seq (quiet_loops ?_) fun q => stored_last _ q
    -- a pass converts the element, or takes null for it, and both assign no slot
    refine quiet_seq (quiet_idle _ _) fun q => quiet_seq (quiet_assign _ _ _ hitem) fun q => ?_
    refine quiet_seq (quiet_guarded _ _ ?_) fun q => quiet_seq (quiet_idle _ _) fun q =>
      quiet_only q
    exact (h.stored false).mono fun t e ht => (ht.quiet hitem).mono fun x hx => hx.elim

omit hlocal in
/-- Converting a value of any shape does so: the induction is on the shape, and the
variables of its loops are no slots. -/
theorem stores_convert
    (hlocal : ∀ name ∈ ["list", "val", "item", "obj", "json"], ∀ n, numbered name n ∉ slots) :
    ∀ (shape : Shape) (value target label : String) (indent depth : Nat),
      Stores slots target
      (fun _ => False) (tokens (c.convert shape value target label indent depth))
  | .single atom, value, target, label, indent, depth =>
    stores_convertAtom c value target label indent depth hlocal atom
  | .list element, value, target, label, indent, depth =>
    stores_convertListWith c value target label indent depth hlocal element
      (stores_convert hlocal element _ _ _ _ _)
  | .either atom _, value, target, label, indent, depth =>
    stores_convertAtom c value target label indent depth hlocal atom

end stores

/-! ## Break statements

Converting a value never leaves the case, so all breaks in the code of a case are those
of the case itself.
-/

/-- Whether a statement leaves the case. -/
def Statement.isLeave : Statement → Bool
  | .leave => true
  | _ => false

/-- The number of statements in lines that leave the case. -/
def leaveCount (ls : List Line) : Nat :=
  ls.countP fun line => line.statement.isLeave

@[simp] theorem leaveCount_nil : leaveCount [] = 0 :=
  rfl

@[simp] theorem leaveCount_cons (line : Line) (ls : List Line) :
    leaveCount (line :: ls) = leaveCount ls + if line.statement.isLeave then 1 else 0 :=
  List.countP_cons

@[simp] theorem leaveCount_append (ls ms : List Line) :
    leaveCount (ls ++ ms) = leaveCount ls + leaveCount ms :=
  List.countP_append

/-- Converting a single value does not leave the case. -/
@[simp] theorem leaveCount_convertAtom (c : Converter) (atom : Atom) (value target label : String)
    (indent depth : Nat) : leaveCount (c.convertAtom atom value target label indent depth) = 0 := by
  cases atom with
  | primitive p =>
    cases p <;> simp [Converter.convertAtom, convertCast, braced, refuse, Statement.isLeave]
  | object name => simp [Converter.convertAtom, braced, refuse, Statement.isLeave]
  | result => simp [Converter.convertAtom, braced, refuse, Statement.isLeave]
  | unknown => simp [Converter.convertAtom, Statement.isLeave]

/-- The conversion of a value never leaves the case. -/
@[simp] theorem leaveCount_convert (c : Converter) : ∀ (shape : Shape) (value target label : String)
    (indent depth : Nat), leaveCount (c.convert shape value target label indent depth) = 0
  | .single atom, _, _, _, _, _ => leaveCount_convertAtom c atom ..
  | .list element, _, _, _, _, _ => by
    simp [Converter.convert, Converter.convertListWith, braced, refuse, Statement.isLeave,
      leaveCount_convert c element]
  | .either atom _, _, _, _, _, _ => leaveCount_convertAtom c atom ..

end Conversion

namespace CSharp

open Conversion (Line Statement Expr Guard tokens numbered)

/-! ## Slots

The two forms and the flag have names of their own, and numbered variables are different
from all of them.
-/

/-- The slots of a property. -/
def slotsOf (name : String) : Script.Slots :=
  ⟨slotName name, slotName (listName name), slotName (flagName name)⟩

/-- The variables of the conversion are no slots of a property. -/
theorem numbered_notMem_slots (name : String) :
    ∀ variable_ ∈ ["list", "val", "item", "obj", "json"], ∀ n,
    numbered variable_ n ∉ (slotsOf name).all := by
  intro variable_ hvariable n h
  have hhead : (numbered variable_ n).toList.head? = some '_' := by
    revert h
    generalize numbered variable_ n = slot
    revert slot
    simp [Script.Slots.all, slotsOf, slotName]
  simp [numbered] at hhead hvariable
  rcases hvariable with rfl | rfl | rfl | rfl | rfl <;> simp at hhead

theorem slotsOf_ne (name : String) : (slotsOf name).value ≠ (slotsOf name).list ∧
    (slotsOf name).value ≠ (slotsOf name).flag ∧ (slotsOf name).list ≠ (slotsOf name).flag :=
  Script.formNames_ne "_" name

/-! ## The case of a property

The runs of the case by what they are: a missing value, a refused one, or one that is
stored in one of the two slots.
-/

/-- The runs of the case of a property: a missing value, a list, or anything else. -/
inductive CaseRun (name : String) : Trace Guard Expr → Ending → Prop where
  | missing {t : Trace Guard Expr} : (slotsOf name).Hold .plain t .neither →
    CaseRun name (.tested (.isNull "value") true :: t) (.exits .breaks)
  | list {t : Trace Guard Expr} : (slotsOf name).Hold .plain t .list →
    CaseRun name (.tested (.isNull "value") false ::
      .tested (.isType "value" Conversion.anyListType) true :: t) (.exits .breaks)
  | single {t : Trace Guard Expr} : (slotsOf name).Hold .plain t .single →
    CaseRun name (.tested (.isNull "value") false ::
      .tested (.isType "value" Conversion.anyListType) false :: t) (.exits .breaks)

/-- After a run of a case one of the forms is held. -/
theorem CaseRun.exists_hold {name : String} {t : Trace Guard Expr} {e : Ending}
    (h : CaseRun name t e) :
    ∃ form, (slotsOf name).Hold .plain t form := by
  cases h with
  | missing h => exact ⟨.neither, h⟩
  | list h => exact ⟨.list, h⟩
  | single h => exact ⟨.single, h⟩

variable (o : Options) (entity : String) {p : Property} {atom : Atom} {element : Shape}
  (hp : p.shape = .either atom element)

include hp

/-- Every run of the case of a polymorphic property is one of those listed. -/
theorem ensures_caseBody (pending : Bool) :
    Ensures (runs (tokens (caseBody o entity p)) pending) (CaseRun p.name) := by
  obtain ⟨hvl, hvf, hlf⟩ := slotsOf_ne p.name
  simp only [slotsOf] at hvl hvf hlf
  have hstores := Conversion.stores_convert (converter o) (numbered_notMem_slots p.name)
  have hlist :=
    hstores (.list element) "value" (slotName (listName p.name)) (entity ++ "." ++ p.name) 6 0
  have hatom := hstores p.shape "value" (slotName p.name) (entity ++ "." ++ p.name) 5 0
  -- With these the case is parsed into its three ways.
  simp only [caseBody, hp, nullCase, Conversion.Converter.convertList] at hatom ⊢
  simp only [Conversion.braced, List.map_cons, List.map_nil,
    Conversion.tokens_append, Conversion.tokens_cons, Conversion.tokens_nil, Statement.tokens,
    List.cons_append, List.nil_append, List.append_assoc, runs, parse, hlist.braced.parse_append,
    hatom.braced.parse_append, Code.Runs, List.headD_cons, List.tail_cons]
  refine ensures_seq.2 (ensures_when.2 ⟨?missing, ensures_seq.2 (ensures_when.2 ⟨?list, ?single⟩)⟩)
  -- The value is missing: the single slot is cleared and the case is left.
  case missing =>
    simp only [ensures_seq, ensures_assign, ensures_leave, before_falls, before_exits,
      Ending.closed_exits, List.cons_append, List.nil_append]
    exact .missing (by simp [Script.Slots.Hold, slotsOf, hvl.symm, hvf.symm, hlf.symm])
  -- The value is a list: its conversion stores the list, then the flag is set.
  case list =>
    refine hlist.ensures_append _ false (fun t q ht => ?_) fun t x hx _ => hx.elim
    simp only [Code.Runs, ensures_seq, ensures_assign, ensures_leave, before_falls, before_exits,
      Ending.closed_exits, List.cons_append, List.nil_append]
    exact .list ⟨by simp [slotsOf, hvf.symm], by simp [slotsOf, ht.1, hvl, hlf.symm],
      by simp [slotsOf]⟩
  -- Any other value is stored as the single form and the flag is cleared.
  case single =>
    refine hatom.ensures_append _ true (fun t q ht => ?_) fun t x hx _ => hx.elim
    simp only [Code.Runs, ensures_seq, ensures_assign, ensures_leave, before_falls, before_exits,
      List.cons_append, List.nil_append]
    exact .single ⟨by simp [slotsOf, ht.1, hvl.symm, hvf.symm], by simp [slotsOf, hlf.symm],
      by simp [slotsOf]⟩

/-- Whether the case of a property with two forms keeps them apart. -/
structure CaseExcludes (name : String) (body : List Line) : Prop where
  /-- The braces match. -/
  braced : Braced (tokens body)
  /-- These are the runs. -/
  runs : ∀ t e, Flow.runs (tokens body) false t e → CaseRun name t e
  /-- The case is left in three places, ... -/
  leaves : Conversion.leaveCount body = 3
  /-- ... the last of which is the end, after the list slot has been emptied and the
  flag cleared. -/
  ending : [⟨5, .assign (slotsOf name).list (.plain "null")⟩,
    ⟨5, .assign (slotsOf name).flag (.plain "false")⟩, ⟨5, .leave⟩] <:+ body
  /-- However often the property is set, at most one form holds. -/
  exclusive : ∀ (calls : List (Trace Guard Expr)) (values : String → Expr),
    (∀ t ∈ calls, ∃ e, Flow.runs (tokens body) false t e) →
      (slotsOf name).Exclusive .plain values →
      (slotsOf name).Exclusive .plain (calls.foldl Script.Slots.after values)

/-- The case of a property with two forms keeps them apart. -/
theorem caseExcludes_caseBody : CaseExcludes p.name (caseBody o entity p) := by
  have hruns := ensures_caseBody o entity hp false
  have hstores := Conversion.stores_convert (converter o) (numbered_notMem_slots p.name)
  refine {
    braced := ⟨fun rest => ?_⟩
    runs := hruns
    leaves := ?_
    ending := ?_
    exclusive := fun calls values hcalls =>
    Script.Slots.exclusive_foldl calls values fun t ht => ?_ }
  · simp [caseBody, hp, nullCase, Conversion.braced, Conversion.Converter.convertList,
      Statement.tokens, parse, (hstores (.list element) _ _ _ _ _).braced.parse_append,
      (hstores (.either atom element) _ _ _ _ _).braced.parse_append, Code.append,
      Code.append_assoc]
  · simp [caseBody, hp, nullCase, Conversion.braced, Conversion.Converter.convertList,
      Statement.isLeave]
  · simp only [caseBody, hp]
    rw [List.append_assoc]
    exact List.suffix_append _ _
  -- Whatever values come in, each call ends with one of the forms.
  · obtain ⟨e, hrun⟩ := hcalls t ht
    exact Or.inr (hruns _ _ hrun).exists_hold

end CSharp

namespace Backend

/-- The two forms of a property exclude each other. -/
theorem forms_exclude (o : Options) (e : Entity) (p : Property) (hp : p.isPolymorphic = true) :
    (∃ single list,
      Script.setters (JavaScript.members o e p) =
        [(p.name, single), (Script.listName p.name, list)] ∧
      Script.SettersExclude .javaScript p.name single list) ∧
    (∃ single list,
      Script.setters (ActionScript.members o e p) =
        [(p.name, single), (Script.listName p.name, list)] ∧
      Script.SettersExclude .actionScript p.name single list) ∧
    CSharp.CaseExcludes p.name (CSharp.caseBody o e.name p) := by
  obtain ⟨atom, element, hshape⟩ := p.exists_either hp
  exact ⟨Script.settersExclude_members .javaScript (JavaScript.caster o) (JavaScript.memberDocs o e
    p) e.name hshape, Script.settersExclude_members .actionScript (ActionScript.caster o)
    (ActionScript.memberDocs o e p) e.name hshape, CSharp.caseExcludes_caseBody o e.name hshape⟩

/-- A property that holds a text or a list of texts. -/
def tagsProperty : Property :=
  .ofDef "tags" (.listed { type? := some "string" } (.plain { type? := some "string" }))

/-- An object with that property. -/
def tagsUser : Entity :=
  .ofObject "User" ⟨none,
    ⟨[("tags", .listed { type? := some "string" } (.plain { type? := some "string" }))]⟩⟩

/-- The setters `tags` and `tagsList` exclude each other, in a file that has their
lines. -/
theorem forms_exclude_tags :
    tagsProperty ∈ tagsUser.properties ∧ tagsProperty.isPolymorphic = true ∧
    (∀ b l h, ∃ file, renderEntity b l ⟨"App", .empty⟩ tagsUser h = .ok file ∧
      ∀ block ∈ b.codeBlocks ⟨"App", .empty⟩ tagsUser tagsProperty,
        ∀ line ∈ block, file.HasLine line) ∧
    ∃ single list,
      Script.setters (JavaScript.members ⟨"App", .empty⟩ tagsUser tagsProperty) =
        [("tags", single), ("tagsList", list)] ∧
      Script.SettersExclude .javaScript "tags" single list ∧
      CSharp.CaseExcludes "tags" (CSharp.caseBody ⟨"App", .empty⟩ "User" tagsProperty) := by
  have hmem : tagsProperty ∈ tagsUser.properties := List.mem_cons_self
  have hp : tagsProperty.isPolymorphic = true := by decide
  obtain ⟨⟨single, list, hsetters, hexclude⟩, -, hcase⟩ :=
    forms_exclude ⟨"App", .empty⟩ tagsUser tagsProperty hp
  refine ⟨hmem, hp, fun b l h => ?_, single, list, hsetters, hexclude, hcase⟩
  cases b <;> exact ⟨_, rfl, hasLine_of_mem_codeBlocks rfl hmem⟩

end Backend

end Classwright
