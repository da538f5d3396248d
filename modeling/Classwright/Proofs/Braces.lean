import Classwright.Proofs.Comments
import Classwright.Render.Cast
import Classwright.Render.Conversion
import Mathlib.Combinatorics.Enumerative.DyckWord

/-!
# Braces in code

Braces are nested in a text if none is closed that was not opened, and all are closed at
the end (`Text.Balanced`). Only the braces of a text matter for this: they have to form
a Dyck word (`Text.balanced_of_braces`).

A statement is made of texts that come from outside (`Statement.texts`) and of braces of
its own (`Statement.braces`). A literal has the braces of its text
(`Text.braces_quote`), so code has no other braces than its own where the texts have
none.
-/

namespace Classwright

namespace Text

/-- The step of a word that a character stands for: up for an opening brace, down for a
closing one. -/
def braceStep? (c : Char) : Option DyckStep :=
  if c = '\x7b' then some .U else if c = '\x7d' then some .D else none

/-- The braces of a text. -/
def braces (s : String) : List DyckStep :=
  s.toList.filterMap braceStep?

/-- Whether a text has no braces. -/
def IsBraceFree (s : String) : Prop :=
  '\x7b' ∉ s.toList ∧ '\x7d' ∉ s.toList

instance : DecidablePred IsBraceFree :=
  fun s => inferInstanceAs (Decidable ('\x7b' ∉ s.toList ∧ '\x7d' ∉ s.toList))

/-- Whether no front of a text closes more braces than it opens, and the text closes all
that it opens. -/
structure Balanced (s : String) : Prop where
  /-- No front closes more than it opens. -/
  opened : ∀ front, front <+: s.toList → front.count '\x7d' ≤ front.count '\x7b'
  /-- All are closed. -/
  closed : s.toList.count '\x7d' = s.toList.count '\x7b'

/-- The steps of a text count its braces of either kind. -/
theorem count_filterMap_braceStep? : ∀ cs : List Char,
    (cs.filterMap braceStep?).count .U = cs.count '\x7b' ∧
    (cs.filterMap braceStep?).count .D = cs.count '\x7d'
  | [] => ⟨rfl, rfl⟩
  | c :: cs => by
    obtain ⟨hup, hdown⟩ := count_filterMap_braceStep? cs
    rw [List.filterMap_cons, braceStep?]
    by_cases ho : c = '\x7b'
    · subst ho
      simp [hup, hdown]
    · by_cases hc : c = '\x7d'
      · subst hc
        simp [hup, hdown]
      · simp [ho, hc, hup, hdown]

/-- A text is balanced if its braces form a Dyck word. -/
theorem balanced_of_braces {s : String} {w : DyckWord} (h : braces s = w.toList) : Balanced s where
  opened front hfront := by
    have hbraces : front.filterMap braceStep? <+: w.toList := h ▸ hfront.filterMap braceStep?
    obtain ⟨hup, hdown⟩ := count_filterMap_braceStep? front
    rw [← hup, ← hdown, List.prefix_iff_eq_take.1 hbraces]
    exact w.count_D_le_count_U _
  closed := by
    obtain ⟨hup, hdown⟩ := count_filterMap_braceStep? s.toList
    rw [← hup, ← hdown, ← braces, h, w.count_U_eq_count_D]

/-- A text is free of braces exactly if it makes no step. -/
theorem isBraceFree_iff {s : String} : IsBraceFree s ↔ braces s = [] := by
  rw [IsBraceFree, braces, List.filterMap_eq_nil_iff]
  constructor
  · rintro ⟨ho, hc⟩ c hmem
    have hne : c ≠ '\x7b' ∧ c ≠ '\x7d' := ⟨fun h => ho (h ▸ hmem), fun h => hc (h ▸ hmem)⟩
    rw [braceStep?, if_neg hne.1, if_neg hne.2]
  · exact fun h =>
      ⟨fun hmem => absurd (h _ hmem) (by decide), fun hmem => absurd (h _ hmem) (by decide)⟩

/-- A text that is written out is taken as a list of characters: its bytes would have to
be decoded otherwise. -/
theorem notMem_toList_ofList {c : Char} {cs : List Char} (h : c ∉ cs) :
    c ∉ (String.ofList cs).toList := by
  rwa [String.toList_ofList]

@[simp] theorem braces_append (s t : String) : braces (s ++ t) = braces s ++ braces t := by
  rw [braces, String.toList_append, List.filterMap_append]
  rfl

/-- Line feeds make no steps, so the steps of lines are those of each in turn. -/
theorem braces_unlines (lines : List String) : braces (unlines lines) = lines.flatMap braces := by
  rw [braces, toList_unlines, List.filterMap_flatMap]
  refine congrArg lines.flatMap (funext fun line => ?_)
  rw [List.filterMap_append]
  exact List.append_nil _

@[simp] theorem braces_copies_tab (depth : Nat) : braces (copies depth "\t") = [] := by
  rw [braces, toList_copies_tab, List.filterMap_replicate_of_none (by decide)]

theorem isBraceFree_append {s t : String} :
    IsBraceFree (s ++ t) ↔ IsBraceFree s ∧ IsBraceFree t := by
  simp only [isBraceFree_iff, braces_append, List.append_eq_nil_iff]

theorem isDigit_of_mem_toString {n : Nat} : ∀ c ∈ (toString n).toList, c.isDigit := by
  rw [Nat.toString_eq_ofList_toDigits, String.toList_ofList]
  exact fun c hc => Nat.isDigit_of_mem_toDigits (by decide) (by decide) hc

theorem isBraceFree_toString (n : Nat) : IsBraceFree (toString n) :=
  ⟨fun h => absurd (isDigit_of_mem_toString _ h) (by decide),
    fun h => absurd (isDigit_of_mem_toString _ h) (by decide)⟩

theorem filterMap_encodeChar (c : Char) :
    (Quoted.encodeChar c).filterMap braceStep? = [c].filterMap braceStep? := by
  unfold Quoted.encodeChar
  split <;> rfl

/-- A literal has the braces of its text. -/
@[simp] theorem braces_quote (s : String) : braces (quote s) = braces s := by
  have hencode : ∀ cs, (Quoted.encode cs).filterMap braceStep? = cs.filterMap braceStep? := by
    intro cs
    induction cs with
    | nil => rfl
    | cons c cs ih =>
      rw [Quoted.encode, List.flatMap_cons, List.filterMap_append, filterMap_encodeChar,
        ← Quoted.encode, ih,
        ← List.filterMap_append, List.singleton_append]
  rw [braces, quote, String.toList_ofList, List.cons_append, List.filterMap_cons_none (by decide),
    List.filterMap_append, hencode]
  exact List.append_nil _

end Text

/-! ## Setters

The statements of the ECMAScript dialects, one construct after the other: an expression
has no brace of its own, and a statement only those that open and close its block.
-/

namespace Script

open Text (braces braces_append IsBraceFree isBraceFree_iff)

/-- The texts that an expression is made of. -/
def Expr.texts : Expr → List String
  | .plain s => [s]
  | .number v => [v]
  | .text v => [v]
  | .choice test yes no => [test, yes, no]
  | .construct c v => [c, v]
  | .lookup index v => [index, v]
  | .item list index => [list, index]

/-- The texts that a test is made of. -/
def Test.texts : Test → List String
  | .notType v type => [v, type]
  | .fraction v | .given v | .list v | .notList v | .notRecord v | .record v => [v]
  | .notInstance v c => [v, c]
  | .envelope v | .notNumber v | .null v | .unset v | .missing v => [v]

/-- The texts that a report is made of. -/
def Report.texts : Report → List String
  | .expects label expected v => [label, expected, v]
  | .fraction label | .unknownResult label => [label]

/-- The texts that a statement is made of. -/
def Statement.texts : Statement → List String
  | .report r | .elseReport r => r.texts
  | .check t r | .elseCheck t r => t.texts ++ r.texts
  | .assign target e => target :: e.texts
  | .assignIf t target e => t.texts ++ target :: e.texts
  | .declare name none => [name]
  | .declare name (some e) => name :: e.texts
  | .push list e => list :: e.texts
  | .next | .leave | .openElse | .close => []
  | .answer e => e.texts
  | .openIf t => t.texts
  | .openLoop i list => [i, list]

/-- The braces of a statement. -/
def Statement.braces : Statement → List DyckStep
  | .openIf _ | .openLoop _ _ => [.U]
  | .openElse => [.D, .U]
  | .close => [.D]
  | _ => []

variable (d : Dialect)

theorem braces_listTest {v : String} (h : braces v = []) : braces (listTest d v) = [] := by
  cases d <;> unfold listTest <;> simp only [braces_append, h] <;> decide

theorem braces_listOperand {v : String} (h : braces v = []) : braces (listOperand d v) = [] := by
  have htest := fun d => braces_listTest d h
  cases d <;> unfold listOperand <;> simp only [braces_append, htest]
  decide

/-- The code of a value has only the braces of the texts in it. -/
theorem Expr.braces_code {e : Expr} (h : ∀ s ∈ e.texts, IsBraceFree s) :
    braces (e.code d) = [] := by
  simp only [isBraceFree_iff] at h
  unfold Expr.texts at h
  unfold Expr.code
  cases e with
  | plain s => simpa using h
  | lookup index v =>
    simp only [List.forall_mem_cons] at h
    cases d <;> unfold lookupName <;> simp only [braces_append, h] <;> decide
  | _ =>
    simp only [List.forall_mem_cons] at h
    simp only [braces_append, h]
    decide

/-- The code of a condition has only the braces of the texts in it. -/
theorem Test.braces_code {t : Test} (h : ∀ s ∈ t.texts, IsBraceFree s) :
    braces (t.code d) = [] := by
  simp only [isBraceFree_iff] at h
  unfold Test.texts at h
  unfold Test.code
  cases t with
  | fraction v | missing v =>
    simp only [List.forall_mem_cons] at h
    cases d <;> simp only [braces_append, h] <;> decide
  | given v => exact braces_listTest d (by simpa using h)
  | list v => exact braces_listOperand d (by simpa using h)
  | _ =>
    simp only [List.forall_mem_cons] at h
    simp only [braces_append, h, braces_listOperand]
    decide

/-- The code of a report has only the braces of the texts in it. -/
theorem Report.braces_code {r : Report} (h : ∀ s ∈ r.texts, IsBraceFree s) :
    braces (r.code d) = [] := by
  simp only [isBraceFree_iff] at h
  unfold Report.texts at h
  have hmessage : braces r.messageCode = [] := by
    unfold Report.messageCode
    cases r <;> simp only [List.forall_mem_cons] at h <;> simp only [braces_append, h] <;> decide
  cases d <;> unfold Report.code <;> simp only [braces_append, hmessage] <;> decide

/-- The braces of a statement made of texts without braces are its own. -/
theorem Statement.braces_code {s : Statement} (h : ∀ t ∈ s.texts, IsBraceFree t) :
    Text.braces (s.code d) = s.braces := by
  unfold Statement.texts at h
  unfold Statement.code Statement.braces
  -- Each statement is its words with the braces of its kind and the texts in between.
  cases s with
  | report r => exact r.braces_code d h
  | elseReport r =>
    simp only [braces_append, r.braces_code d h]
    decide
  | check t r | elseCheck t r =>
    rw [List.forall_mem_append] at h
    simp only [braces_append, t.braces_code d h.1, r.braces_code d h.2]
    decide
  | assign target e | push target e =>
    rw [List.forall_mem_cons, isBraceFree_iff] at h
    simp only [braces_append, h.1, e.braces_code d h.2]
    decide
  | assignIf t target e =>
    rw [List.forall_mem_append, List.forall_mem_cons, isBraceFree_iff] at h
    simp only [braces_append, t.braces_code d h.1, h.2.1, e.braces_code d h.2.2]
    decide
  | declare name value? =>
    cases value? with
    | none =>
      rw [List.forall_mem_singleton, isBraceFree_iff] at h
      simp only [braces_append, h]
      decide
    | some e =>
      rw [List.forall_mem_cons, isBraceFree_iff] at h
      simp only [braces_append, h.1, e.braces_code d h.2]
      decide
  | answer e =>
    simp only [braces_append, e.braces_code d h]
    decide
  | openIf t =>
    simp only [braces_append, t.braces_code d h]
    decide
  | openLoop i list =>
    simp only [isBraceFree_iff, List.forall_mem_cons] at h
    simp only [braces_append, h]
    decide
  | next | leave | openElse | close =>
    dsimp only
    decide

end Script

/-! ## Conversions

The same for the statements of C#, whose guards open a block too.
-/

namespace Conversion

open Text (braces braces_append braces_quote IsBraceFree isBraceFree_iff)

/-- The texts that a test is made of. -/
def Guard.texts : Guard → List String
  | .isType v type => [v, type]
  | .isNull v | .isNumber v | .isWhole v | .isEnvelope v => [v]

/-- The texts that an expression is made of. -/
def Expr.texts : Expr → List String
  | .plain s => [s]
  | .call function v => [function, v]
  | .cast type v => [type, v]
  | .create type => [type]
  | .lookup index json => [index, json]

/-- The texts that a report is made of. -/
def Report.texts (r : Report) : List String :=
  [r.label, r.expected, r.value]

/-- The texts that a statement is made of. -/
def Statement.texts : Statement → List String
  | .branch g | .elseBranch g => g.texts
  | .report r => r.texts
  | .reportUnless g r => g.texts ++ r.texts
  | .assign target e => target :: e.texts
  | .assignIf g target e => g.texts ++ target :: e.texts
  | .declare type name => [type, name]
  | .define name e => name :: e.texts
  | .loop element list => [element, list]
  | .add list item => [list, item]
  | .decode object v => [object, v]
  | .otherwise | .openBlock | .closeBlock | .leave => []

/-- The braces of a statement. -/
def Statement.braces : Statement → List DyckStep
  | .openBlock => [.U]
  | .closeBlock => [.D]
  | _ => []

/-- The code of a guard has only the braces of the texts in it. -/
theorem Guard.braces_code {g : Guard} (h : ∀ s ∈ g.texts, IsBraceFree s) : braces g.code = [] := by
  simp only [isBraceFree_iff] at h
  unfold Guard.texts at h
  unfold Guard.code
  cases g <;> simp only [List.forall_mem_cons] at h <;> simp only [braces_append, h] <;> decide

/-- The code of a value in C# has only the braces of the texts in it. -/
theorem Expr.braces_code {e : Expr} (h : ∀ s ∈ e.texts, IsBraceFree s) : braces e.code = [] := by
  simp only [isBraceFree_iff] at h
  unfold Expr.texts at h
  unfold Expr.code
  cases e with
  | plain s => simpa using h
  | _ =>
    simp only [List.forall_mem_cons] at h
    simp only [braces_append, h]
    decide

/-- The code of a report in C# has only the braces of the texts in it. -/
theorem Report.braces_code {r : Report} (h : ∀ s ∈ r.texts, IsBraceFree s) :
    braces r.code = [] := by
  simp only [isBraceFree_iff] at h
  unfold Report.texts at h
  unfold Report.code
  simp only [List.forall_mem_cons] at h
  simp only [braces_append, braces_quote, h]
  decide

/-- The braces of a statement made of texts without braces are its own. -/
theorem Statement.braces_code {s : Statement} (h : ∀ t ∈ s.texts, IsBraceFree t) :
    Text.braces s.code = s.braces := by
  unfold Statement.texts at h
  unfold Statement.code Statement.braces
  -- Each statement is its words with the braces of its kind and the texts in between.
  cases s with
  | branch g | elseBranch g =>
    simp only [braces_append, g.braces_code h]
    decide
  | report r => exact r.braces_code h
  | reportUnless g r =>
    rw [List.forall_mem_append] at h
    simp only [braces_append, g.braces_code h.1, r.braces_code h.2]
    decide
  | assign target e | define target e =>
    rw [List.forall_mem_cons, isBraceFree_iff] at h
    simp only [braces_append, h.1, e.braces_code h.2]
    decide
  | assignIf g target e =>
    rw [List.forall_mem_append, List.forall_mem_cons, isBraceFree_iff] at h
    simp only [braces_append, g.braces_code h.1, h.2.1, e.braces_code h.2.2]
    decide
  | declare s t | loop s t | add s t | decode s t =>
    simp only [isBraceFree_iff, List.forall_mem_cons] at h
    simp only [braces_append, h]
    decide
  | otherwise | openBlock | closeBlock | leave =>
    dsimp only
    decide

end Conversion

end Classwright
