import Classwright.Failure

/-!
# Chains of steps that can fail

A chain of steps succeeds when every step does, and fails with the failure of the first
step that does not. The lemmas take chains apart: two steps one after the other
(`bind_eq_ok`), and one step for every element of a list (`mapM_eq_error_iff`,
`exists_of_mapM_eq_ok`).
-/

namespace Classwright.Outcome

variable {ε ε' α β γ : Type}

/-- Two steps succeed if the first does and the second does on its result. -/
theorem bind_eq_ok {x : Except ε α} {f : α → Except ε β} {b : β} :
    (x >>= f) = .ok b ↔ ∃ a, x = .ok a ∧ f a = .ok b := by
  cases x with
  | error e => simp [bind, Except.bind]
  | ok a => simp [bind, Except.bind]

/-- They fail if the first does, or the second on the result of the first. -/
theorem bind_eq_error {x : Except ε α} {f : α → Except ε β} {e : ε} :
    (x >>= f) = .error e ↔ x = .error e ∨ ∃ a, x = .ok a ∧ f a = .error e := by
  cases x with
  | error e' => simp [bind, Except.bind]
  | ok a => simp [bind, Except.bind]

@[simp] theorem mapError_ok (f : ε → ε') (a : α) : (Except.ok a).mapError f = .ok a :=
  rfl

theorem mapError_eq_ok {x : Except ε α} {f : ε → ε'} {a : α} :
    x.mapError f = .ok a ↔ x = .ok a := by
  cases x with
  | error e => exact iff_of_false nofun nofun
  | ok a' => simp

theorem isSome_toOption {x : Except ε α} : x.toOption.isSome ↔ ∃ a, x = .ok a := by
  cases x <;> simp [Except.toOption]

theorem toOption_eq_some {x : Except ε α} {a : α} : x.toOption = some a ↔ x = .ok a := by
  cases x <;> simp [Except.toOption]

theorem toOption_bind (x : Except ε α) (f : α → Except ε β) :
    (x >>= f).toOption = x.toOption >>= fun a => (f a).toOption := by
  cases x <;> rfl

/-- A check that the result passes shows that there is one. -/
theorem exists_of_any_toOption {x : Except ε α} {p : α → Bool} (h : x.toOption.any p) :
    ∃ a, x = .ok a ∧ p a := by
  cases x with
  | error e => cases h
  | ok a => exact ⟨a, rfl, h⟩

/-- Mapping over the results commutes with going through a list. -/
theorem map_mapM (f : α → Except ε β) (g : β → γ) :
    ∀ xs : List α, (xs.mapM f).map (List.map g) = xs.mapM fun x => (f x).map g
  | [] => rfl
  | x :: xs => by
    have ih := map_mapM f g xs
    rw [List.mapM_cons, List.mapM_cons, ← ih]
    cases f x with
    | error e => rfl
    | ok y => cases xs.mapM f <;> rfl

/-- Every element of a list gone through with success has its result among the results. -/
theorem exists_of_mapM_eq_ok {f : α → Except ε β} :
    ∀ {xs : List α} {ys : List β}, xs.mapM f = .ok ys → ∀ x ∈ xs, ∃ y ∈ ys, f x = .ok y
  | [], _, _, _, hx => absurd hx List.not_mem_nil
  | x :: xs, ys, h, x', hx => by
    rw [List.mapM_cons, bind_eq_ok] at h
    obtain ⟨y, hy, h⟩ := h
    obtain ⟨ys', hys, h⟩ := bind_eq_ok.1 h
    cases h
    rcases List.mem_cons.1 hx with rfl | hx
    · exact ⟨y, List.mem_cons_self, hy⟩
    · obtain ⟨y', hy', hf⟩ := exists_of_mapM_eq_ok hys x' hx
      exact ⟨y', List.mem_cons_of_mem y hy', hf⟩

/-- The results of a list gone through with success stand where the elements stand. -/
theorem getElem?_of_mapM_eq_ok {f : α → Except ε β} :
    ∀ {xs : List α} {ys : List β}, xs.mapM f = .ok ys → ∀ i : Nat, ys[i]? = xs[i]?.bind fun x =>
    (f x).toOption
  | [], ys, h, i => by
    cases h
    rfl
  | x :: xs, ys, h, i => by
    rw [List.mapM_cons, bind_eq_ok] at h
    obtain ⟨y, hy, h⟩ := h
    obtain ⟨ys', hys, h⟩ := bind_eq_ok.1 h
    cases h
    cases i with
    | zero => simp [hy, Except.toOption]
    | succ i => simpa using getElem?_of_mapM_eq_ok hys i

/-- Each element has one result. -/
theorem length_of_mapM_eq_ok {f : α → Except ε β} :
    ∀ {xs : List α} {ys : List β}, xs.mapM f = .ok ys → ys.length = xs.length
  | [], ys, h => by
    cases h
    rfl
  | x :: xs, ys, h => by
    rw [List.mapM_cons, bind_eq_ok] at h
    obtain ⟨y, -, h⟩ := h
    obtain ⟨ys', hys, h⟩ := bind_eq_ok.1 h
    cases h
    rw [List.length_cons, List.length_cons, length_of_mapM_eq_ok hys]

/-- Two ways to go through a list have the same results if and only if they agree on
every element. -/
theorem mapM_eq_ok_iff_forall_eq {f g : α → Except ε β} : ∀ {xs : List α} {ys : List β},
    xs.mapM f = .ok ys → (xs.mapM g = .ok ys ↔ ∀ x ∈ xs, g x = f x)
  | [], ys, h => by
    cases h
    simp [pure, Except.pure]
  | x :: xs, ys, h => by
    rw [List.mapM_cons, bind_eq_ok] at h
    obtain ⟨y, hy, h⟩ := h
    obtain ⟨ys', hys, h⟩ := bind_eq_ok.1 h
    cases h
    -- The first element agrees, and by induction so do the others.
    have ih := mapM_eq_ok_iff_forall_eq (g := g) hys
    rw [List.mapM_cons, List.forall_mem_cons, hy, ← ih, bind_eq_ok]
    constructor
    · rintro ⟨z, hz, h⟩
      obtain ⟨zs, hzs, h⟩ := bind_eq_ok.1 h
      cases h
      exact ⟨hz, hzs⟩
    · rintro ⟨hz, hzs⟩
      exact ⟨y, hz, bind_eq_ok.2 ⟨ys', hzs, rfl⟩⟩

/-- Going through a list fails at the first element that fails. -/
theorem mapM_eq_error_iff {f : α → Except ε β} {e : ε} : ∀ {xs : List α}, xs.mapM f = .error e ↔
    ∃ before x after, xs = before ++ x :: after ∧ (∀ y ∈ before, ∃ z, f y = .ok z) ∧ f x = .error e
  | [] => by
    constructor
    · intro h
      cases h
    · rintro ⟨before, x, after, h, -⟩
      simp at h
  | x :: xs => by
    rw [List.mapM_cons, bind_eq_error]
    constructor
    · rintro (h | ⟨y, hy, h⟩)
      · exact ⟨[], x, xs, rfl, by simp, h⟩
      · rcases bind_eq_error.1 h with h | ⟨ys, -, h⟩
        -- The failure is behind the first element, which has succeeded.
        · obtain ⟨before, x', after, rfl, hb, hx⟩ := mapM_eq_error_iff.1 h
          refine ⟨x :: before, x', after, rfl, ?_, hx⟩
          intro z hz
          rcases List.mem_cons.1 hz with rfl | hz
          · exact ⟨y, hy⟩
          · exact hb z hz
        · cases h
    · rintro ⟨before, x', after, h, hb, hx⟩
      cases before with
      | nil =>
        cases h
        exact Or.inl hx
      | cons y before =>
        cases h
        obtain ⟨z, hz⟩ := hb x List.mem_cons_self
        refine Or.inr ⟨z, hz, bind_eq_error.2 (Or.inl ?_)⟩
        exact mapM_eq_error_iff.2 ⟨before, x', after, rfl,
          fun w hw => hb w (List.mem_cons_of_mem x hw), hx⟩

/-! ## Steps on a state

A step that fails leaves the state as it is then, and so does the chain that it ends.
-/

variable {σ : Type} {a : ExceptT ε (StateM σ) α} {f : α → ExceptT ε (StateM σ) β} {s s' : σ}

/-- After a step that succeeds, the rest of the chain runs on the state that it leaves. -/
theorem bind_of_ok {x : α} (h : a s = (.ok x, s')) : (a >>= f) s = f x s' := by
  change ExceptT.bindCont f (a s).1 (a s).2 = f x s'
  rw [h]
  rfl

/-- After a step that fails, nothing of the chain runs. -/
theorem bind_of_error {e : ε} (h : a s = (.error e, s')) : (a >>= f) s = (.error e, s') := by
  change ExceptT.bindCont f (a s).1 (a s).2 = (.error e, s')
  rw [h]
  rfl

end Classwright.Outcome
