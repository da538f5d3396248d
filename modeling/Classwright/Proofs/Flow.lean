/-!
# The flow of control

Generated statements are lines; what they do is told by the blocks that the lines open
and close. `parse` finds these blocks, and `Code.Runs` says how code runs: a run is the
tests that it makes and the assignments that it does, in order, with what ends it.
Nothing is known of the tests, so that each of them can turn out either way, and a loop
is done any number of times.

To show what all runs do (`Ensures`), each construct has a rule. Statements whose braces
match (`Braced`) run before what follows them (`Code.runs_append`).
-/

namespace Classwright.Flow

/-! ## Code

A statement of either dialect comes down to a step: a guard, some assignments and an
exit. Tokens are steps and braces, and code is what the braces make of them.
-/

/-- When a statement is done. The branches of a choice after the first are done only if
none before was. -/
inductive Guard (τ : Type) where
  | always
  | when (test : τ)
  | unless (test : τ)
  | elseWhen (test : τ)
  | otherwise
deriving DecidableEq, Repr

/-- How statements can be left before their end. -/
inductive Exit where
  | continues
  | breaks
  | returns
  | throws
deriving DecidableEq, Repr

/-- A simple statement: when it is done, what it assigns, and how it leaves the
statements around it, if it does. -/
structure Step (τ ε : Type) where
  /-- When it is done. -/
  guard : Guard τ
  /-- The variables that it assigns, with their values. -/
  sets : List (String × ε)
  /-- How it leaves. -/
  exit? : Option Exit
deriving DecidableEq, Repr

/-- A simple statement, or the beginning or the end of a block. -/
inductive Token (τ ε : Type) where
  | step (s : Step τ ε)
  | block (guard : Guard τ)
  | loop
  | close
deriving DecidableEq, Repr

/-- Statements with their blocks. -/
inductive Code (τ ε : Type) where
  | done
  | step (s : Step τ ε) (next : Code τ ε)
  | block (guard : Guard τ) (body next : Code τ ε)
  | loop (body next : Code τ ε)
deriving DecidableEq, Repr

variable {τ ε : Type}

/-- One code after another. -/
def Code.append : Code τ ε → Code τ ε → Code τ ε
  | .done, b => b
  | .step s next, b => .step s (next.append b)
  | .block g body next, b => .block g body (next.append b)
  | .loop body next, b => .loop body (next.append b)

/-- The blocks of tokens: the code up to the first brace that closes no block among
them, and then the code after each such brace. -/
def parse : List (Token τ ε) → Code τ ε × List (Code τ ε)
  | [] => (.done, [])
  | .step s :: ts => (.step s (parse ts).1, (parse ts).2)
  | .block g :: ts => (.block g (parse ts).1 ((parse ts).2.headD .done), (parse ts).2.tail)
  | .loop :: ts => (.loop (parse ts).1 ((parse ts).2.headD .done), (parse ts).2.tail)
  | .close :: ts => (.done, (parse ts).1 :: (parse ts).2)

/-! ## Runs

A run is a trace of events with an ending, and a behaviour is a set of runs. Where a run
falls through, its ending tells whether a choice is still open for the next branch.
-/

/-- What is seen of a run: the results of tests, and assignments. -/
inductive Event (τ ε : Type) where
  | tested (test : τ) (holds : Bool)
  | set (variable_ : String) (value : ε)
deriving DecidableEq, Repr

/-- What a run does, in order. -/
abbrev Trace (τ ε : Type) := List (Event τ ε)

/-- How a run ends: at the end of the code, where a choice may still be open, or before. -/
inductive Ending where
  | falls (pending : Bool)
  | exits (exit : Exit)
deriving DecidableEq, Repr

/-- The ending of a block with the ending of its body: the choice that the block is a
branch of is made. -/
def Ending.closed : Ending → Ending
  | .falls _ => .falls false
  | .exits x => .exits x

@[simp] theorem Ending.closed_falls (pending : Bool) : (falls pending).closed = falls false :=
  rfl

@[simp] theorem Ending.closed_exits (x : Exit) : (exits x).closed = exits x :=
  rfl

/-- How it turns out whether a statement is done. -/
structure Choice (τ ε : Type) where
  /-- Whether it is done. -/
  taken : Bool
  /-- Whether the next branch may be done, if it is not. -/
  pending : Bool
  /-- The test, if there is one. -/
  trace : Trace τ ε

/-- How it can turn out whether a statement is done, where a choice may be open. -/
def Guard.choices (pending : Bool) : Guard τ → List (Choice τ ε)
  | .always => [⟨true, false, []⟩]
  | .when test => [⟨true, false, [.tested test true]⟩, ⟨false, true, [.tested test false]⟩]
  | .unless test => [⟨true, false, [.tested test false]⟩, ⟨false, true, [.tested test true]⟩]
  | .elseWhen test =>
    if pending then [⟨true, false, [.tested test true]⟩, ⟨false, true, [.tested test false]⟩]
    else [⟨false, false, []⟩]
  | .otherwise => [⟨pending, false, []⟩]

/-- Possible runs: what they do and how they end. -/
abbrev Behaviour (τ ε : Type) := Trace τ ε → Ending → Prop

/-- A single run. -/
def Only (trace : Trace τ ε) (ending : Ending) : Behaviour τ ε :=
  fun t e => t = trace ∧ e = ending

/-- Runs one after the other; the second is left out if the first has been left. -/
def Seq (first : Behaviour τ ε) (second : Bool → Behaviour τ ε) : Behaviour τ ε :=
  fun t e => (∃ q t₁ t₂, first t₁ (.falls q) ∧ second q t₂ e ∧ t = t₁ ++ t₂) ∨ ∃ x,
    first t (.exits x) ∧ e = .exits x

/-- Runs behind a guard. -/
def Guarded (guard : Guard τ) (pending : Bool) (body : Behaviour τ ε) : Behaviour τ ε :=
  fun t e => ∃ c ∈ guard.choices pending,
    if c.taken then ∃ t' e', body t' e' ∧ t = c.trace ++ t' ∧ e = e'.closed else t = c.trace ∧
      e = .falls c.pending

/-- Runs of a loop over the runs of its body. -/
inductive Loops (body : Behaviour τ ε) : Behaviour τ ε where
  | stop : Loops body [] (.falls false)
  | falls {t t' : Trace τ ε} {q : Bool} {e : Ending} :
      body t (.falls q) → Loops body t' e → Loops body (t ++ t') e
  | continues {t t' : Trace τ ε} {e : Ending} :
    body t (.exits .continues) → Loops body t' e → Loops body (t ++ t') e
  | breaks {t : Trace τ ε} : body t (.exits .breaks) → Loops body t (.falls false)
  | returns {t : Trace τ ε} : body t (.exits .returns) → Loops body t (.exits .returns)
  | throws {t : Trace τ ε} : body t (.exits .throws) → Loops body t (.exits .throws)

/-- What a simple statement does where it is done. -/
def Step.events (s : Step τ ε) : Trace τ ε :=
  s.sets.map fun set => .set set.1 set.2

/-- How a simple statement ends where it is done. -/
def Step.ending (s : Step τ ε) : Ending :=
  match s.exit? with
  | none => .falls false
  | some x => .exits x

/-- The runs of a simple statement, where a choice may be open. -/
def Step.Runs (s : Step τ ε) (pending : Bool) : Behaviour τ ε :=
  Guarded s.guard pending (Only s.events s.ending)

/-- The runs of code, where a choice may be open. -/
def Code.Runs : Code τ ε → Bool → Behaviour τ ε
  | .done, pending => Only [] (.falls pending)
  | .step s next, pending => Seq (s.Runs pending) next.Runs
  | .block g body next, pending => Seq (Guarded g pending (body.Runs false)) next.Runs
  | .loop body next, _ => Seq (Loops (body.Runs false)) next.Runs

/-- The runs of tokens. -/
def runs (ts : List (Token τ ε)) : Bool → Behaviour τ ε :=
  (parse ts).1.Runs

/-! ## One after the other

Putting code behind code runs the second where the first falls through.
-/

/-- Doing nothing before other code makes no difference. -/
@[simp] theorem only_nil_seq (pending : Bool) (second : Bool → Behaviour τ ε) :
    Seq (Only [] (.falls pending)) second = second pending := by
  funext t e
  refine propext ⟨?_, fun h => Or.inl ⟨pending, [], t, ⟨rfl, rfl⟩, h, rfl⟩⟩
  rintro (⟨q, t₁, t₂, ⟨rfl, hq⟩, h, rfl⟩ | ⟨x, ⟨-, hx⟩, -⟩)
  · cases hq
    exact h
  · cases hx

/-- Sequences may be regrouped. -/
theorem seq_assoc (first : Behaviour τ ε) (second third : Bool → Behaviour τ ε) :
    Seq (Seq first second) third = Seq first fun q => Seq (second q) third := by
  funext t e
  refine propext ⟨?_, ?_⟩
  · rintro (⟨q, t₁, t₂, ⟨q', t₁', t₂', h₁, h₂, rfl⟩ | ⟨x, h₁, h⟩, h₃, rfl⟩ |
      ⟨x, ⟨q, t₁, t₂, h₁, h₂, rfl⟩ | ⟨y, h₁, h⟩, rfl⟩)
    · exact Or.inl ⟨q', t₁', t₂' ++ t₂, h₁, Or.inl ⟨q, t₂', t₂, h₂, h₃, rfl⟩, List.append_assoc ..⟩
    · cases h
    · exact Or.inl ⟨q, t₁, t₂, h₁, Or.inr ⟨x, h₂, rfl⟩, rfl⟩
    · cases h
      exact Or.inr ⟨x, h₁, rfl⟩
  · rintro (⟨q, t₁, t₂, h₁, ⟨q', t₂', t₃, h₂, h₃, rfl⟩ | ⟨x, h₂, rfl⟩, rfl⟩ | ⟨x, h₁, rfl⟩)
    · exact Or.inl ⟨q', t₁ ++ t₂', t₃, Or.inl ⟨q, t₁, t₂', h₁, h₂, rfl⟩, h₃,
        (List.append_assoc ..).symm⟩
    · exact Or.inr ⟨x, Or.inl ⟨q, t₁, t₂, h₁, h₂, rfl⟩, rfl⟩
    · exact Or.inr ⟨x, Or.inr ⟨x, h₁, rfl⟩, rfl⟩

/-- The runs of code with more code behind it are the runs of the two in sequence. -/
theorem Code.runs_append :
    ∀ (a b : Code τ ε) (pending : Bool), (a.append b).Runs pending = Seq (a.Runs pending) b.Runs
  | .done, b, pending => (only_nil_seq pending b.Runs).symm
  | .step s next, b, pending => by
    rw [append, Runs, Runs, seq_assoc, funext (runs_append next b)]
  | .block g body next, b, pending => by
    rw [append, Runs, Runs, seq_assoc, funext (runs_append next b)]
  | .loop body next, b, pending => by
    rw [append, Runs, Runs, seq_assoc, funext (runs_append next b)]

@[simp] theorem Code.append_done : ∀ a : Code τ ε, a.append .done = a
  | .done => rfl
  | .step s next => congrArg (Code.step s) (append_done next)
  | .block g body next => congrArg (Code.block g body) (append_done next)
  | .loop body next => congrArg (Code.loop body) (append_done next)

/-- Code may be put together in any grouping. -/
theorem Code.append_assoc : ∀ a b c : Code τ ε, (a.append b).append c = a.append (b.append c)
  | .done, _, _ => rfl
  | .step s next, b, c => congrArg (Code.step s) (append_assoc next b c)
  | .block g body next, b, c => congrArg (Code.block g body) (append_assoc next b c)
  | .loop body next, b, c => congrArg (Code.loop body) (append_assoc next b c)

/-! ## Matching braces

Statements whose braces match are parsed the same whatever follows them.
-/

/-- Whether the braces in tokens match: what follows the tokens is in no block of
theirs. -/
structure Braced (ts : List (Token τ ε)) : Prop where
  /-- The code of what follows comes after the code of the tokens. -/
  parse_append : ∀ rest, parse (ts ++ rest) = ((parse ts).1.append (parse rest).1, (parse rest).2)

/-! ## What all runs do

A property of all runs is shown along the code: for each construct, what holds of its
runs if something holds of the runs of its parts.
-/

/-- Whether all runs are as they should be. -/
def Ensures (runs : Behaviour τ ε) (post : Trace τ ε → Ending → Prop) : Prop :=
  ∀ t e, runs t e → post t e

/-- What the first part has to ensure, for both to ensure `post`. -/
def Before (second : Bool → Behaviour τ ε) (post : Trace τ ε → Ending → Prop) (t : Trace τ ε) :
    Ending → Prop
  | .falls q => Ensures (second q) fun t' => post (t ++ t')
  | .exits x => post t (.exits x)

variable {post post' : Trace τ ε → Ending → Prop}

@[simp] theorem before_falls {second : Bool → Behaviour τ ε} {t : Trace τ ε} {q : Bool} :
    Before second post t (.falls q) ↔ Ensures (second q) fun t' => post (t ++ t') :=
  Iff.rfl

@[simp] theorem before_exits {second : Bool → Behaviour τ ε} {t : Trace τ ε} {x : Exit} :
    Before second post t (.exits x) ↔ post t (.exits x) :=
  Iff.rfl

theorem Ensures.mono {runs : Behaviour τ ε} (h : Ensures runs post)
    (hpost : ∀ t e, post t e → post' t e) :
    Ensures runs post' :=
  fun t e hrun => hpost t e (h t e hrun)

@[simp] theorem ensures_only {trace : Trace τ ε} {ending : Ending} :
    Ensures (Only trace ending) post ↔ post trace ending := by
  simp [Ensures, Only]

/-- A property of a sequence is one of its first part, given the second. -/
@[simp] theorem ensures_seq {first : Behaviour τ ε} {second : Bool → Behaviour τ ε} :
    Ensures (Seq first second) post ↔ Ensures first (Before second post) := by
  constructor
  · intro h t e hfirst
    cases e with
    | falls q => exact fun t' e' hsecond => h _ _ (Or.inl ⟨q, t, t', hfirst, hsecond, rfl⟩)
    | exits x => exact h _ _ (Or.inr ⟨x, hfirst, rfl⟩)
  · rintro h t e (⟨q, t₁, t₂, hfirst, hsecond, rfl⟩ | ⟨x, hfirst, rfl⟩)
    · exact h _ _ hfirst _ _ hsecond
    · exact h _ _ hfirst

/-- A property of guarded code, by cases on what the guard chooses. -/
theorem ensures_guarded {g : Guard τ} {pending : Bool} {body : Behaviour τ ε} :
    Ensures (Guarded g pending body) post ↔ ∀ c ∈ g.choices pending,
      if c.taken then Ensures body fun t e => post (c.trace ++ t) e.closed
        else post c.trace (.falls c.pending) := by
  -- The runs of guarded code are those of its body after the choice, or none.
  constructor
  · intro h c hc
    split
    · next ht =>
      exact fun t e hbody => h _ _ ⟨c, hc, by rw [if_pos ht]; exact ⟨t, e, hbody, rfl, rfl⟩⟩
    · next ht => exact h _ _ ⟨c, hc, by rw [if_neg ht]; exact ⟨rfl, rfl⟩⟩
  · rintro h t e ⟨c, hc, hrun⟩
    have hpost := h c hc
    split at hrun
    · next ht =>
      obtain ⟨t', e', hbody, rfl, rfl⟩ := hrun
      rw [if_pos ht] at hpost
      exact hpost _ _ hbody
    · next ht =>
      obtain ⟨rfl, rfl⟩ := hrun
      rwa [if_neg ht] at hpost

@[simp] theorem ensures_always {pending : Bool} {body : Behaviour τ ε} :
    Ensures (Guarded .always pending body) post ↔ Ensures body fun t e => post t e.closed := by
  simp [ensures_guarded, Guard.choices]

@[simp] theorem ensures_when {test : τ} {pending : Bool} {body : Behaviour τ ε} :
    Ensures (Guarded (.when test) pending body) post ↔
      (Ensures body fun t e => post (.tested test true :: t) e.closed) ∧
      post [.tested test false] (.falls true) := by
  simp [ensures_guarded, Guard.choices]

@[simp] theorem ensures_assign {target : String} {value : ε} {pending : Bool} :
    Ensures ((⟨.always, [(target, value)], none⟩ : Step τ ε).Runs pending) post ↔
      post [.set target value] (.falls false) := by
  simp [Step.Runs, Step.events, Step.ending]

@[simp] theorem ensures_leave {x : Exit} {pending : Bool} :
    Ensures ((⟨.always, [], some x⟩ : Step τ ε).Runs pending) post ↔ post [] (.exits x) := by
  simp [Step.Runs, Step.events, Step.ending]

/-- Where no branch has been taken, a later branch is like the first one. -/
@[simp] theorem guarded_elseWhen_true (test : τ) (body : Behaviour τ ε) :
    Guarded (.elseWhen test) true body = Guarded (.when test) true body :=
  rfl

@[simp] theorem guarded_otherwise_true (body : Behaviour τ ε) :
    Guarded .otherwise true body = Guarded .always true body :=
  rfl

@[simp] theorem guarded_elseWhen_false (test : τ) (body : Behaviour τ ε) :
    Guarded (.elseWhen test) false body = Only [] (.falls false) := by
  funext t e
  simp [Guarded, Guard.choices, Only]

@[simp] theorem guarded_otherwise_false (body : Behaviour τ ε) :
    Guarded .otherwise false body = Only [] (.falls false) := by
  funext t e
  simp [Guarded, Guard.choices, Only]

/-- What every pass through a loop does to the trace is done by the loop, if it can be
done any number of times. -/
theorem ensures_loops {body : Behaviour τ ε} {inv : Trace τ ε → Prop} {exits : Exit → Prop}
    (hnil : inv []) (happend : ∀ t t', inv t → inv t' → inv (t ++ t'))
    (hbody : Ensures body fun t e => inv t ∧ ∀ x,
      e = .exits x → x ≠ .continues → x ≠ .breaks → exits x) :
    Ensures (Loops body) fun t e => inv t ∧ ∀ x, e = .exits x → exits x := by
  intro t e h
  -- The invariant holds at the start and after each round, however the round ends.
  induction h with
  | stop => exact ⟨hnil, by simp⟩
  | falls hrun _ ih => exact ⟨happend _ _ (hbody _ _ hrun).1 ih.1, ih.2⟩
  | continues hrun _ ih => exact ⟨happend _ _ (hbody _ _ hrun).1 ih.1, ih.2⟩
  | breaks hrun => exact ⟨(hbody _ _ hrun).1, by simp⟩
  | returns hrun =>
    obtain ⟨hinv, hexits⟩ := hbody _ _ hrun
    exact ⟨hinv, fun x hx => hexits x hx (by cases hx; nofun) (by cases hx; nofun)⟩
  | throws hrun =>
    obtain ⟨hinv, hexits⟩ := hbody _ _ hrun
    exact ⟨hinv, fun x hx => hexits x hx (by cases hx; nofun) (by cases hx; nofun)⟩

/-! ## There are runs

Every choice has an outcome and a loop may be done no times, so what holds of all runs
holds of some.
-/

/-- A sequence has a run if its parts have. -/
theorem exists_seq {first : Behaviour τ ε} {second : Bool → Behaviour τ ε} (h : ∃ t e, first t e)
    (h' : ∀ q, ∃ t e, second q t e) : ∃ t e, Seq first second t e := by
  obtain ⟨t, e, hfirst⟩ := h
  cases e with
  | falls q =>
    obtain ⟨t', e, hsecond⟩ := h' q
    exact ⟨t ++ t', e, Or.inl ⟨q, t, t', hfirst, hsecond, rfl⟩⟩
  | exits x => exact ⟨t, .exits x, Or.inr ⟨x, hfirst, rfl⟩⟩

theorem exists_mem_choices (g : Guard τ) (pending : Bool) :
    ∃ c : Choice τ ε, c ∈ g.choices pending := by
  cases g <;> cases pending <;> exact ⟨_, List.mem_cons_self⟩

/-- Guarded code has a run if its body has. -/
theorem exists_guarded {body : Behaviour τ ε} (g : Guard τ) (pending : Bool) (h : ∃ t e, body t e) :
    ∃ t e, Guarded g pending body t e := by
  obtain ⟨t, e, hbody⟩ := h
  obtain ⟨c, hc⟩ := exists_mem_choices g pending
  cases ht : c.taken with
  | true => exact ⟨c.trace ++ t, e.closed, c, hc, by rw [if_pos ht]; exact ⟨t, e, hbody, rfl, rfl⟩⟩
  | false => exact ⟨c.trace, .falls c.pending, c, hc, by simp [ht]⟩

/-- All code has runs, so that it does not ensure something just for want of them. -/
theorem Code.exists_runs : ∀ (code : Code τ ε) (pending : Bool), ∃ t e, code.Runs pending t e
  | .done, _ => ⟨_, _, rfl, rfl⟩
  | .step s next, pending =>
    exists_seq (exists_guarded s.guard pending ⟨_, _, rfl, rfl⟩) (exists_runs next)
  | .block g body next, pending =>
    exists_seq (exists_guarded g pending (exists_runs body false)) (exists_runs next)
  | .loop _ next, _ => exists_seq ⟨_, _, .stop⟩ (exists_runs next)

end Classwright.Flow
