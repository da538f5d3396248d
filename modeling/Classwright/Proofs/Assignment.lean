import Classwright.Proofs.Flow

/-!
# What code assigns

Some variables are slots: what they hold counts after a run. Code is quiet if it assigns
no slot (`Quiet`). It stores into a variable if it assigns that one and no other slot,
and is left before its end only while no slot is assigned (`Stored`). Rules show this
for code from its parts: quiet code may stand before code that stores, and a choice
stores if each of its branches does.
-/

namespace Classwright.Flow

variable {τ ε : Type}

/-- The value that a variable has been given last. -/
def final (name : String) : Trace τ ε → Option ε
  | [] => none
  | .tested _ _ :: t => final name t
  | .set target value :: t => (final name t).or (if target = name then some value else none)

@[simp] theorem final_nil (name : String) : final name ([] : Trace τ ε) = none :=
  rfl

@[simp] theorem final_tested (name : String) (test : τ) (holds : Bool) (t : Trace τ ε) :
    final name (.tested test holds :: t) = final name t :=
  rfl

@[simp] theorem final_set (name target : String) (value : ε) (t : Trace τ ε) :
    final name (.set target value :: t) =
    (final name t).or (if target = name then some value else none) :=
  rfl

@[simp] theorem final_append (name : String) :
    ∀ t t' : Trace τ ε, final name (t ++ t') = (final name t').or (final name t)
  | [], t' => by simp
  | .tested _ _ :: t, t' => by simp [final_append name t t']
  | .set _ _ :: t, t' => by simp [final_append name t t', Option.or_assoc]

/-- The tests of a guard assign nothing. -/
theorem final_trace_choice {g : Guard τ} {pending : Bool} {c : Choice τ ε}
    (hc : c ∈ g.choices pending) (name : String) : final name c.trace = none := by
  cases g <;> cases pending <;> simp [Guard.choices] at hc <;> rcases hc with rfl | rfl <;> rfl

/-- Assignments to other names leave a name alone. -/
theorem final_sets {name : String} : ∀ {sets : List (String × ε)}, (∀ set ∈ sets, set.1 ≠ name) →
    final name (sets.map fun set => (.set set.1 set.2 : Event τ ε)) = none
  | [], _ => rfl
  | set :: sets, h => by
    rw [List.map_cons, final_set,
      final_sets fun set' hset' => h set' (List.mem_cons_of_mem set hset'),
      if_neg (h set List.mem_cons_self)]
    rfl

/-- Whether no slot is assigned, and code is left in the given ways only. -/
def Quiet (slots : List String) (exits : Exit → Prop) (t : Trace τ ε) (e : Ending) : Prop :=
  (∀ slot ∈ slots, final slot t = none) ∧ ∀ x, e = .exits x → exits x

/-- Whether the target is assigned and no other slot, or code is left in the given ways
with no slot assigned. -/
def Stored (slots : List String) (target : String) (exits : Exit → Prop) (t : Trace τ ε) :
    Ending → Prop
  | .falls _ => (final target t).isSome ∧ ∀ slot ∈ slots, slot ≠ target → final slot t = none
  | .exits x => (∀ slot ∈ slots, final slot t = none) ∧ exits x

variable {slots : List String} {target : String} {exits exits' : Exit → Prop} {t t' : Trace τ ε}
    {e : Ending}

theorem Quiet.append {q : Bool} (h : Quiet slots exits t (.falls q))
    (h' : Quiet slots exits' t' e) :
    Quiet slots exits' (t ++ t') e :=
  ⟨fun slot hslot => by rw [final_append, h.1 slot hslot, h'.1 slot hslot]; rfl, h'.2⟩

/-- Before code that stores, nothing may have been assigned. -/
theorem Stored.append (h : ∀ slot ∈ slots, final slot t = none)
    (h' : Stored slots target exits t' e) :
    Stored slots target exits (t ++ t') e := by
  cases e with
  | falls q =>
    obtain ⟨hset, hother⟩ := h'
    exact ⟨by simp [hset], fun slot hslot hne => by simp [h slot hslot, hother slot hslot hne]⟩
  | exits x =>
    obtain ⟨hnone, hx⟩ := h'
    exact ⟨fun slot hslot => by simp [h slot hslot, hnone slot hslot], hx⟩

theorem Quiet.mono (h : Quiet slots exits t e) (hexits : ∀ x, exits x → exits' x) :
    Quiet slots exits' t e :=
  ⟨h.1, fun x hx => hexits x (h.2 x hx)⟩

/-- What is stored into a variable that is no slot does not count. -/
theorem Stored.quiet (h : Stored slots target exits t e) (htarget : target ∉ slots) :
    Quiet slots exits t e := by
  cases e with
  | falls q =>
    exact ⟨fun slot hslot => h.2 slot hslot fun hname => htarget (hname ▸ hslot), by simp⟩
  | exits x =>
    refine ⟨h.1, fun y hy => ?_⟩
    cases hy
    exact h.2

variable {first body : Behaviour τ ε} {second : Bool → Behaviour τ ε}

/-! ## Quiet code

Quiet code may test, report, loop and assign local variables. It is left by one of the
given exits or falls through.
-/

theorem quiet_only (pending : Bool) :
    Ensures (Only ([] : Trace τ ε) (.falls pending)) (Quiet slots exits) :=
  ensures_only.2 ⟨fun _ _ => rfl, by simp⟩

/-- Code is quiet if both of its parts are. -/
theorem quiet_seq (h : Ensures first (Quiet slots exits))
    (h' : ∀ q, Ensures (second q) (Quiet slots exits)) :
    Ensures (Seq first second) (Quiet slots exits) := by
  refine ensures_seq.2 fun t e hfirst => ?_
  cases e with
  | falls q => exact fun t' e' hsecond => (h _ _ hfirst).append (h' q _ _ hsecond)
  | exits x => exact h _ _ hfirst

/-- Code behind a guard is quiet if it is quiet without one, as tests assign nothing. -/
theorem quiet_guarded (g : Guard τ) (pending : Bool) (h : Ensures body (Quiet slots exits)) :
    Ensures (Guarded g pending body) (Quiet slots exits) := by
  refine ensures_guarded.2 fun c hc => ?_
  split
  · intro t e hbody
    obtain ⟨hnone, hexits⟩ := h _ _ hbody
    refine ⟨fun slot hslot => by simp [hnone slot hslot, final_trace_choice hc], fun x hx => ?_⟩
    cases e with
    | falls q => cases hx
    | exits y => exact hexits x hx
  · exact ⟨fun slot _ => final_trace_choice hc slot, by simp⟩

/-- A simple statement is quiet if it assigns no slot. -/
theorem quiet_step {s : Step τ ε} (pending : Bool) (hsets : ∀ set ∈ s.sets, set.1 ∉ slots)
    (hexit : ∀ x, s.exit? = some x → exits x) :
    Ensures (s.Runs pending) (Quiet slots exits) := by
  refine quiet_guarded _ _ (ensures_only.2 ⟨fun slot hslot => ?_, fun x hx => hexit x ?_⟩)
  · exact final_sets fun set hset hname => hsets set hset (hname ▸ hslot)
  · rw [Step.ending] at hx
    split at hx
    · cases hx
    · next y hy =>
      cases hx
      exact hy

theorem quiet_idle (g : Guard τ) (pending : Bool) :
    Ensures ((⟨g, [], none⟩ : Step τ ε).Runs pending) (Quiet slots exits) :=
  quiet_step pending (by simp) (by simp)

theorem quiet_assign {name : String} (g : Guard τ) (value : ε) (pending : Bool) (h : name ∉ slots) :
    Ensures ((⟨g, [(name, value)], none⟩ : Step τ ε).Runs pending) (Quiet slots exits) :=
  quiet_step pending (by simpa using h) (by simp)

theorem quiet_leave {x : Exit} (g : Guard τ) (pending : Bool) (h : exits x) :
    Ensures ((⟨g, [], some x⟩ : Step τ ε).Runs pending) (Quiet slots exits) :=
  quiet_step pending (by simp) fun y hy => Option.some.inj hy ▸ h

/-- A loop is quiet if its body is. The body may also go on to the next pass. -/
theorem quiet_loops (h : Ensures body (Quiet slots fun x => x = .continues ∨ exits x)) :
    Ensures (Loops body) (Quiet slots exits) := by
  refine ensures_loops (fun _ _ => rfl) (fun t t' ht ht' slot hslot =>
    ?_) (h.mono fun t e he => ⟨he.1, ?_⟩)
  · simp [ht slot hslot, ht' slot hslot]
  · exact fun x hx hcontinues _ => (he.2 x hx).resolve_left hcontinues

/-! ## Code that stores

The assignment may stand anywhere, but what comes before it is quiet, and so is what
comes after it. The rules are those of the constructs, and `Stores` puts them together
with matching braces.
-/

/-- Code that stores still does so after quiet code. -/
theorem stored_of_quiet_seq (h : Ensures first (Quiet slots exits))
    (h' : ∀ q, Ensures (second q) (Stored slots target exits)) :
    Ensures (Seq first second) (Stored slots target exits) := by
  refine ensures_seq.2 fun t e hfirst => ?_
  cases e with
  | falls q => exact fun t' e' hsecond => (h' q _ _ hsecond).append (h _ _ hfirst).1
  | exits x => exact ⟨(h _ _ hfirst).1, (h _ _ hfirst).2 x rfl⟩

/-- What follows code that stores may assign no other slot, and is not left. -/
theorem stored_seq (h : Ensures first (Stored slots target exits))
    (h' : ∀ q, Ensures (second q) (Quiet (slots.filter (· ≠ target)) fun _ => False)) :
    Ensures (Seq first second) (Stored slots target exits) := by
  refine ensures_seq.2 fun t e hfirst => ?_
  have hstored := h _ _ hfirst
  cases e with
  | falls q =>
    obtain ⟨hset, hother⟩ := hstored
    -- The second part leaves every slot but the target, so the target keeps what it was
    -- given.
    intro t' e' hsecond
    obtain ⟨hnone, hexits⟩ := h' q _ _ hsecond
    cases e' with
    | falls q' =>
      refine ⟨by simp [hset], fun slot hslot hne => ?_⟩
      have hslot' : final slot t' = none := hnone slot (by simpa using ⟨hslot, hne⟩)
      simp [hslot', hother slot hslot hne]
    | exits x => exact (hexits x rfl).elim
  | exits x => exact hstored

theorem Stored.closed (h : Stored slots target exits t e) :
    Stored slots target exits t e.closed := by
  cases e with
  | falls q => exact h
  | exits x => exact h

theorem stored_always (pending : Bool) (h : Ensures body (Stored slots target exits)) :
    Ensures (Guarded .always pending body) (Stored slots target exits) :=
  ensures_always.2 (h.mono fun _ _ => Stored.closed)

theorem stored_only (value : ε) :
    Ensures (Only [(.set target value : Event τ ε)] (.falls false)) (Stored slots target exits) :=
  ensures_only.2 ⟨by simp, fun slot _ hne => by simp [hne.symm]⟩

/-- An assignment stores into the variable that it assigns. -/
theorem stored_assign (value : ε) (pending : Bool) :
    Ensures ((⟨.always, [(target, value)], none⟩ : Step τ ε).Runs pending)
    (Stored slots target exits) :=
  stored_always pending (stored_only value)

/-- So does code that ends with the assignment. -/
theorem stored_last (value : ε) (pending : Bool) :
    Ensures (Seq ((⟨.always, [(target, value)], none⟩ : Step τ ε).Runs pending) fun q =>
      Only [] (.falls q)) (Stored slots target exits) :=
  stored_seq (stored_assign value pending) quiet_only

/-- So does code that ends with the assignment, after a statement that is quiet. -/
theorem stored_after {s : Step τ ε} {pending : Bool} (value : ε)
    (h : Ensures (s.Runs pending) (Quiet slots exits)) :
    Ensures (Seq (s.Runs pending) fun q =>
      Seq ((⟨.always, [(target, value)], none⟩ : Step τ ε).Runs q) fun q => Only [] (.falls q))
        (Stored slots target exits) :=
  stored_of_quiet_seq h fun q => stored_last value q

/-- A choice stores if its first branch does, and what follows does where that is not
taken. -/
theorem stored_when {test : τ} (pending : Bool) (h : Ensures body (Stored slots target exits))
    (htaken : Ensures (second false) (Quiet (slots.filter (· ≠ target)) fun _ => False))
    (hskipped : Ensures (second true) (Stored slots target exits)) :
    Ensures (Seq (Guarded (.when test) pending body) second) (Stored slots target exits) := by
  refine ensures_seq.2 (ensures_when.2 ⟨fun t e hbody => ?_, fun t e hsecond => ?_⟩)
  · have hboth := stored_seq h fun _ => htaken
    cases e with
    | falls q =>
      intro t' e' hsecond
      have hstored := hboth (t ++ t') e' (Or.inl ⟨q, t, t', hbody, hsecond, rfl⟩)
      exact hstored.append (t := [.tested test true]) fun _ _ => rfl
    | exits x => exact (h _ _ hbody).append (t := [.tested test true]) fun _ _ => rfl
  · exact (hskipped _ _ hsecond).append (t := [.tested test false]) fun _ _ => rfl

/-- A choice between two branches stores if both do. -/
theorem stored_choice {test : τ} {body' : Behaviour τ ε} (pending : Bool)
    (h : Ensures body (Stored slots target exits))
    (h' : Ensures body' (Stored slots target exits)) :
    Ensures (Seq (Guarded (.when test) pending body) fun q =>
      Seq (Guarded .otherwise q body') fun q => Only [] (.falls q))
        (Stored slots target exits) := by
  refine stored_when pending h ?_ ?_
  · rw [guarded_otherwise_false, only_nil_seq]
    exact quiet_only false
  · rw [guarded_otherwise_true]
    exact stored_seq (stored_always true h') fun q => quiet_only q

/-- So does a choice between three branches. -/
theorem stored_threeWay {test test' : τ} {body' body'' : Behaviour τ ε} (pending : Bool)
    (h : Ensures body (Stored slots target exits)) (h' : Ensures body' (Stored slots target exits))
    (h'' : Ensures body'' (Stored slots target exits)) :
    Ensures (Seq (Guarded (.when test) pending body) fun q =>
      Seq (Guarded (.elseWhen test') q body') fun q =>
      Seq (Guarded .otherwise q body'') fun q => Only [] (.falls q))
        (Stored slots target exits) := by
  refine stored_when pending h ?_ ?_
  · rw [guarded_elseWhen_false, only_nil_seq, guarded_otherwise_false, only_nil_seq]
    exact quiet_only false
  · rw [guarded_elseWhen_true]
    exact stored_choice true h' h''

/-- Tokens whose braces match and that store. -/
structure Stores (slots : List String) (target : String) (exits : Exit → Prop)
    (ts : List (Token τ ε)) : Prop where
  /-- The braces match. -/
  braced : Braced ts
  /-- The code stores. -/
  stored : ∀ pending, Ensures (runs ts pending) (Stored slots target exits)

/-- Tokens that store, and what follows them. -/
theorem Stores.ensures_append {ts : List (Token τ ε)} (h : Stores slots target exits ts)
    (rest : Code τ ε) (pending : Bool) {post : Trace τ ε → Ending → Prop} (hfalls : ∀ t q,
      Stored slots target exits t (.falls q) → Ensures (rest.Runs q) fun t' => post (t ++ t'))
    (hexits : ∀ t x, exits x → (∀ slot ∈ slots, final slot t = none) → post t (.exits x)) :
    Ensures (((parse ts).1.append rest).Runs pending) post := by
  rw [Code.runs_append]
  refine ensures_seq.2 fun t e hrun => ?_
  have hstored := h.stored pending t e hrun
  cases e with
  | falls q => exact hfalls t q hstored
  | exits x => exact hexits t x hstored.2 hstored.1

end Classwright.Flow
