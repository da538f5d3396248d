import Classwright.Proofs.Grammar

/-!
# What readers consume

What a reader does is said in two ways. From the tokens in front of it follows what it
reads, or that it stops (`Json.Reader.Does`); and where it does not stop, it has passed
over certain tokens (`Json.Reader.Consumes`). Both are shown here for the readers of
marks and for readers one after the other.
-/

namespace Classwright.Json

open Cursor (isGap span)

/-! ## Cursors

What the steps of a cursor do to the text that is left.
-/

/-- What a cursor steps over by a condition on characters. -/
theorem Cursor.span_fst (p : Char → Bool) :
    ∀ (place : Place) (cs : List Char), (span p place cs).1 = cs.takeWhile p
  | _, [] => rfl
  | place, x :: cs => by
    rw [span, List.takeWhile_cons]
    split
    · rw [← span_fst p (place.after x) cs]
    · rfl

/-- What it leaves. -/
theorem Cursor.rest_span (p : Char → Bool) : ∀ (place : Place) (cs : List Char),
    (span p place cs).2.rest = cs.dropWhile p
  | _, [] => rfl
  | place, x :: cs => by
    rw [span, List.dropWhile_cons]
    split
    · rw [← rest_span p (place.after x) cs]
    · rfl

theorem Cursor.rest_skipGap (c : Cursor) : c.skipGap.rest = c.rest.dropWhile isGap :=
  rest_span isGap c.place c.rest

theorem Cursor.rest_next {c : Cursor} {x : Char} {rest : List Char} (h : c.rest = x :: rest) :
    c.next.rest = rest := by
  rw [next, h]

namespace Reader

variable {α β : Type}

/-- Two readers in sequence succeed exactly if each does, the second on what the first
leaves. -/
theorem bind_eq_ok {r : Reader α} {f : α → Reader β} {c c'' : Cursor} {y : β} :
    (r >>= f) c = .ok (y, c'') ↔ ∃ x c', r c = .ok (x, c') ∧ f x c' = .ok (y, c'') := by
  cases h : r c with
  | error stop => simp [bind, StateT.bind, Except.bind, h]
  | ok s =>
    obtain ⟨x, c'⟩ := s
    simp only [bind, StateT.bind, Except.bind, h, Except.ok.injEq, Prod.mk.injEq]
    exact ⟨fun hy => ⟨x, c', ⟨rfl, rfl⟩, hy⟩, fun ⟨_, _, ⟨hx, hc⟩, hy⟩ => hx ▸ hc ▸ hy⟩

/-- Changing the result does not change what is consumed. -/
theorem map_eq_ok {r : Reader α} {g : α → β} {c c' : Cursor} {y : β} :
    (g <$> r) c = .ok (y, c') ↔ ∃ x, r c = .ok (x, c') ∧ g x = y := by
  cases h : r c with
  | error stop => simp [Functor.map, StateT.map, Except.map, h]
  | ok s =>
    obtain ⟨x, c₁⟩ := s
    have hmap : (g <$> r) c = .ok (g x, c₁) := by
      simp only [Functor.map, StateT.map, h]
      rfl
    simp only [hmap, Except.ok.injEq, Prod.mk.injEq]
    exact ⟨fun ⟨hy, hc⟩ => ⟨x, ⟨rfl, hc⟩, hy⟩, fun ⟨_, ⟨hx, hc⟩, hy⟩ => ⟨hx ▸ hy, hc⟩⟩

theorem placedBy_eq_ok {leave : Cursor → Cursor} {r : Reader α} {c c' : Cursor} {x : α} :
    placedBy leave r c = .ok (x, c') ↔ r c = .ok (x, c') := by
  unfold placedBy
  rcases r c with (_ | _) | _ <;> simp

/-- A whole text is read where nothing but a gap is left. -/
theorem run_eq_ok_iff {body : Reader α} {text : String} {x : α} : run body text = .ok x ↔
    ∃ c, body (Cursor.start text) = .ok (x, c) ∧ c.skipGap.rest = [] := by
  unfold run
  simp only [bind, StateT.bind, Except.bind]
  -- A body that succeeds has run the whole text if nothing but a gap is left.
  cases body (Cursor.start text) with
  | error stop => cases stop <;> simp
  | ok r =>
    obtain ⟨y, c⟩ := r
    cases hc : c.skipGap.rest with
    | nil =>
      have hpeek : peekToken c = .ok (none, c.skipGap) := by rw [peekToken, hc, List.head?_nil]
      have hpure : (pure y : Reader α) c.skipGap = .ok (y, c.skipGap) := rfl
      simp only [hpeek, hpure, Except.ok.injEq, Prod.mk.injEq]
      constructor
      · exact fun h => ⟨c, ⟨h, rfl⟩, hc⟩
      · rintro ⟨_, ⟨h, -⟩, -⟩
        exact h
    | cons a rest => simp [peekToken, hc, failPeek]

/-! ## What a reader does

`Does` starts from what the text in front of the cursor is, and follows the reader as it
is written: one lemma for each of its steps.
-/

/-- Whether a reader, wherever the text that is left satisfies `P`, reads what is given
and leaves a text that satisfies `Q`, or stops if nothing is given. -/
def Does (P : List Char → Prop) (r : Reader α) (x? : Option α) (Q : List Char → Prop) : Prop :=
  ∀ c : Cursor, P c.rest →
    match x? with
    | some x => ∃ c', r c = .ok (x, c') ∧ Q c'.rest
    | none => ∃ stop, r c = .error stop

namespace Does

variable {P P' Q Q' R : List Char → Prop} {r : Reader α} {f : α → Reader β} {x : α} {x? : Option α}
  {y? : Option β} {ts : List (List Char)}

theorem pure (h : ∀ cs, P cs → Q cs) :
    Does P (pure x) (some x) Q := fun c hc => ⟨c, rfl, h c.rest hc⟩

theorem failPeek {cause : Cause} : Does P (failPeek cause : Reader α) none Q := fun _ _ => ⟨_, rfl⟩

theorem failHere {cause : Cause} : Does P (failHere cause : Reader α) none Q := fun _ _ => ⟨_, rfl⟩

theorem failUnplaced {cause : Cause} :
    Does P (failUnplaced cause : Reader α) none Q := fun _ _ => ⟨_, rfl⟩

/-- What is known before may be strengthened and what is known after weakened. -/
theorem mono (h : Does P r x? Q) (hp : ∀ cs, P' cs → P cs) (hq : ∀ cs, Q cs → Q' cs) :
    Does P' r x? Q' := by
  intro c hc
  have hr := h c (hp c.rest hc)
  cases x? with
  | none => exact hr
  | some x =>
    obtain ⟨c', hr, hc'⟩ := hr
    exact ⟨c', hr, hq c'.rest hc'⟩

/-- Readers in sequence, the second on what the first leaves. -/
theorem bind (h : Does P r (some x) Q) (hf : Does Q (f x) y? R) : Does P (r >>= f) y? R := by
  intro c hc
  obtain ⟨c', hr, hc'⟩ := h c hc
  have heq : (r >>= f) c = f x c' := by simp [Bind.bind, StateT.bind, hr, Except.bind]
  rw [heq]
  exact hf c' hc'

theorem bind_none (h : Does P r none Q) : Does P (r >>= f) none R := by
  intro c hc
  obtain ⟨stop, hr⟩ := h c hc
  exact ⟨stop, by simp [Bind.bind, StateT.bind, hr, Except.bind]⟩

/-- What is left does not count if nothing is read. -/
theorem of_none (h : Does P r none Q) : Does P r none Q' := h

/-- The next step is taken with what is read, if anything is. -/
theorem bind_bind {g : α → Option β} (h : Does P r x? Q)
    (hf : ∀ x, x? = some x → Does Q (f x) (g x) R) :
    Does P (r >>= f) (x? >>= g) R := by
  cases x? with
  | none => exact h.bind_none
  | some x => exact h.bind (hf x rfl)

/-- Changing the result does not change what is left. -/
theorem map {g : α → β} (h : Does P r x? Q) : Does P (g <$> r) (x?.map g) Q := by
  intro c hc
  have hr := h c hc
  cases x? with
  | none =>
    obtain ⟨stop, hr⟩ := hr
    exact ⟨stop, by simp [Functor.map, StateT.map, hr]; rfl⟩
  | some x =>
    obtain ⟨c', hr, hc'⟩ := hr
    exact ⟨c', by simp [Functor.map, StateT.map, hr]; rfl, hc'⟩

/-- Where a fault is placed does not change the outcome. -/
theorem placedBy {leave : Cursor → Cursor} (h : Does P r x? Q) :
    Does P (placedBy leave r) x? Q := by
  intro c hc
  have hr := h c hc
  unfold Reader.placedBy
  cases x? with
  | none =>
    obtain ⟨stop, hr⟩ := hr
    rw [hr]
    cases stop <;> exact ⟨_, rfl⟩
  | some x =>
    obtain ⟨c', hr, hc'⟩ := hr
    exact ⟨c', by rw [hr], hc'⟩

/-- The number of the characters that are left is known. -/
theorem remaining {f : Nat → Reader β} (h : ∀ n, Does (fun cs => P cs ∧ cs.length = n) (f n) y? R) :
    Does P (remaining >>= f) y? R := fun c hc => h c.rest.length c ⟨hc, rfl⟩

/-- The first character of the next token is known. -/
theorem peekToken {f : Option Char → Reader β}
    (h : Does (Standing ts) (f (ts.head?.bind List.head?)) y? R) :
    Does (Spaced ts) (peekToken >>= f) y? R := by
  intro c hc
  have hs := hc.standing
  rw [← Cursor.rest_skipGap] at hs
  have hhead : c.skipGap.rest.head? = ts.head?.bind List.head? := by
    cases ts with
    | nil => rw [show c.skipGap.rest = [] from hs]; rfl
    | cons t ts =>
      obtain ⟨x, token, rest, rfl, -, hrest, -⟩ := hs
      rw [hrest]
      rfl
  -- Skipping the gap and looking ahead is running the continuation at the first token.
  have heq : (Reader.peekToken >>= f) c = f (ts.head?.bind List.head?) c.skipGap := by
    simp [Bind.bind, StateT.bind, Reader.peekToken, hhead, Except.bind]
  rw [heq]
  exact h c.skipGap hs

/-- The next character is known. -/
theorem peek {cs : List Char} {f : Option Char → Reader β} (h : Does (· = cs) (f cs.head?) y? R) :
    Does (· = cs) (peek >>= f) y? R := by
  rintro c rfl
  exact h c rfl

theorem drop {c : Char} {cs : List Char} : Does (· = c :: cs) drop (some ()) (· = cs) :=
  fun c hc => ⟨c.next, rfl, Cursor.rest_next hc⟩

/-- What is done with the characters of a token is done where the token stands. -/
theorem token {cs : List Char}
    (h : ∀ {rest}, Spaced ts rest → Does (· = cs ++ rest) r x? (· = rest)) :
    Does (Standing (cs :: ts)) r x? (Spaced ts) := by
  rintro c ⟨x, token, rest, -, -, hc, hrest⟩
  exact ((h hrest).mono (fun _ => id) fun _ hcs => hcs.symm ▸ hrest) c hc

/-- A mark is passed over. -/
theorem dropMark {c : Char} : Does (Standing ([c] :: ts)) Reader.drop (some ()) (Spaced ts) :=
  .token fun _ => .drop

/-- Taking by a condition leaves the text from the first character that does not meet
it. -/
theorem takeWhile (p : Char → Bool) (cs : List Char) :
    Does (· = cs) (takeWhile p) (some (cs.takeWhile p)) (· = cs.dropWhile p) := by
  rintro c rfl
  refine ⟨(span p c.place c.rest).2, ?_, Cursor.rest_span p c.place c.rest⟩
  rw [← Cursor.span_fst p c.place]
  rfl

end Does

/-! ## What a reader passes over

`Consumes` starts from the result and gives back the tokens, which is what is needed to
see that a text that was read has a value in it.
-/

/-- Whether tokens, and gaps in front of them, are passed over between two places in a
text. -/
structure Passes (ts : List (List Char)) (cs rest : List Char) : Prop where
  /-- The tokens stand in front of those of the rest. -/
  spaced : ∀ {ts'}, Spaced ts' rest → Spaced (ts ++ ts') cs
  /-- They have characters of their own. -/
  shorter : ts.length + rest.length ≤ cs.length

namespace Passes

variable {ts ts' : List (List Char)} {cs mid rest : List Char}

theorem refl (cs : List Char) : Passes [] cs cs :=
  ⟨id, by simp⟩

/-- Tokens are passed one after the other. -/
theorem trans (h : Passes ts cs mid) (h' : Passes ts' mid rest) : Passes (ts ++ ts') cs rest := by
  refine ⟨fun hs => ?_, ?_⟩
  · rw [List.append_assoc]
    exact h.spaced (h'.spaced hs)
  · have := h.shorter
    have := h'.shorter
    rw [List.length_append]
    omega

theorem skipGap (c : Cursor) : Passes [] c.rest c.skipGap.rest := by
  rw [Cursor.rest_skipGap]
  exact ⟨fun hs => hs.of_dropWhile, by simpa using (List.dropWhile_sublist _).length_le⟩

/-- A token is passed over. -/
theorem token {x : Char} {token : List Char} (hx : isGap x = false) :
    Passes [x :: token] (x :: token ++ rest) rest :=
  ⟨fun hs => .cons (List.forall_mem_nil _) hx hs, by simp; omega⟩

end Passes

/-- Whether a reader that is given a text that satisfies `P`, and does not stop, has
passed over tokens that satisfy `S` together with what it has read and with the first
character that it leaves. -/
def Consumes (P : List Char → Prop) (r : Reader α) (S : List (List Char) → α → Option Char → Prop) :
    Prop :=
  ∀ ⦃c x c'⦄, P c.rest → r c = .ok (x, c') → ∃ ts, S ts x c'.rest.head? ∧ Passes ts c.rest c'.rest

namespace Consumes

variable {P P' : List Char → Prop} {r : Reader α} {f : α → Reader β}
  {R R' : List (List Char) → α → Option Char → Prop} {S : List (List Char) → β → Option Char → Prop}

theorem pure {x : α} (h : ∀ cs, P cs → R [] x cs.head?) : Consumes P (pure x) R := by
  rintro c y c' hc ⟨⟩
  exact ⟨[], h _ hc, .refl _⟩

theorem failPeek {cause : Cause} : Consumes P (failPeek cause) R :=
  nofun

theorem failHere {cause : Cause} : Consumes P (failHere cause) R :=
  nofun

theorem failUnplaced {cause : Cause} : Consumes P (failUnplaced cause) R :=
  nofun

/-- What is known before may be strengthened and what has been consumed weakened. -/
theorem mono (h : Consumes P r R) (hp : ∀ cs, P' cs → P cs)
    (hr : ∀ ts x y?, R ts x y? → R' ts x y?) :
    Consumes P' r R' := by
  intro c x c' hc hx
  obtain ⟨ts, hts, hpasses⟩ := h (hp _ hc) hx
  exact ⟨ts, hr ts x _ hts, hpasses⟩

/-- What holds wherever a reader is used holds at a certain place. -/
theorem anywhere (h : Consumes (fun _ => True) r R) : Consumes P r R :=
  h.mono (fun _ _ => trivial) fun _ _ _ => id

/-- What is known of a text can be used when tokens at its front are passed over. -/
theorem bind (h : Consumes P r R)
    (hf : ∀ ts x y?, R ts x y? →
      Consumes (fun rest => rest.head? = y? ∧ ∃ cs, P cs ∧ Passes ts cs rest) (f x) fun ts' =>
        S (ts ++ ts')) :
    Consumes P (r >>= f) S := by
  intro c y c'' hc hy
  obtain ⟨x, c', hx, hy⟩ := bind_eq_ok.1 hy
  obtain ⟨ts, hts, hpasses⟩ := h hc hx
  obtain ⟨ts', hts', hpasses'⟩ := hf ts x _ hts ⟨rfl, c.rest, hc, hpasses⟩ hy
  exact ⟨ts ++ ts', hts', hpasses.trans hpasses'⟩

theorem map {g : α → β} (h : Consumes P r fun ts x => S ts (g x)) : Consumes P (g <$> r) S := by
  intro c y c' hc hy
  obtain ⟨x, hx, rfl⟩ := map_eq_ok.1 hy
  exact h hc hx

theorem placedBy {leave : Cursor → Cursor} (h : Consumes P r R) : Consumes P (placedBy leave r) R :=
  fun _ _ _ hc hx => h hc (placedBy_eq_ok.1 hx)

theorem remaining {f : Nat → Reader β}
    (hf : ∀ n, Consumes (fun cs => P cs ∧ cs.length = n) (f n) S) :
    Consumes P (remaining >>= f) S :=
  fun c _ _ hc hy => hf c.rest.length ⟨hc, rfl⟩ hy

/-- The first character of the next token is known. -/
theorem peekToken {f : Option Char → Reader β}
    (hf : ∀ x?, Consumes (fun rest => rest.head? = x? ∧ ∃ cs, P cs ∧ Passes [] cs rest) (f x?) S) :
    Consumes P (peekToken >>= f) S := by
  intro c y c' hc hy
  have hpasses := Passes.skipGap c
  obtain ⟨ts, hts, hpasses'⟩ := hf c.skipGap.rest.head? (c := c.skipGap) ⟨rfl, c.rest,
    hc, hpasses⟩ hy
  exact ⟨ts, hts, hpasses.trans hpasses'⟩

/-- A mark is passed over. -/
theorem drop {x : Char} (hx : isGap x = false) (hp : ∀ cs, P cs → cs.head? = some x) :
    Consumes P drop fun ts _ _ => ts = [[x]] := by
  rintro c y c' hc hy
  obtain ⟨rest, hrest⟩ := List.head?_eq_some_iff.1 (hp _ hc)
  cases hy
  refine ⟨_, rfl, ?_⟩
  rw [Cursor.rest_next hrest, hrest]
  exact .token hx

end Consumes

/-! ## Marks

The marks of lists and objects are single characters, and what stands between two of
them is read by a body.
-/

section marks

open Raw (itemTokens memberTokens)

variable {ts ts' : List (List Char)} {first : Bool} {items : List Raw}
  {members : List (Literal × Raw)} {v : Raw} {k : Literal} {P Q : List Char → Prop} {x? : Option α}
  {body : Reader α} {R : List (List Char) → α → Option Char → Prop}

theorem does_colon : Does (Spaced ([':'] :: ts)) colon (some ()) (Spaced ts) :=
  .peekToken .dropMark

/-- If a colon was consumed, it was there. -/
theorem consumes_colon : Consumes P colon fun ts _ _ => ts = [[':']] := by
  refine .peekToken fun x? => ?_
  split
  · exact .failPeek
  · exact .drop (by decide) fun _ h => h.1
  · exact .failPeek

section enclosed

variable {ending : Reader Unit} {leave : Cursor → Cursor} {opening closing : Char}

/-- What stands behind an opening mark is read up to what ends it. -/
theorem does_enclosed (h : Does (Spaced ts) body x? P) (hend : Does P ending (some ()) Q) :
    Does (Standing ([opening] :: ts)) (do
      drop
      let result ← placedBy leave body
      ending
      pure result) x? Q := by
  refine .bind .dropMark ?_
  cases x? with
  | none => exact .bind_none h.placedBy
  | some x => exact .bind h.placedBy (.bind hend (.pure fun _ => id))

/-- The marks at both ends are passed over, together with what stands between them. -/
theorem consumes_enclosed (hgap : isGap opening = false) (hp : ∀ cs, P cs → cs.head? = some opening)
    (h : Consumes (fun _ => True) body R)
    (hend : Consumes (fun _ => True) ending fun ts _ _ => ts = [[closing]]) : Consumes P (do
      drop
      let result ← placedBy leave body
      ending
      pure result) fun ts x _ => ∃ inner y?, ts = [opening] :: (inner ++ [[closing]]) ∧
        R inner x y? := by
  refine .bind (.drop hgap hp) ?_
  rintro _ _ _ rfl
  refine .bind h.anywhere.placedBy fun inner x y? hinner => .bind hend.anywhere ?_
  rintro _ _ _ rfl
  exact .pure fun _ _ => ⟨inner, y?, by simp, hinner⟩

end enclosed

/-! ### Lists

The first item stands after the bracket, any other after a comma, and a reader looks for
the comma or the bracket before each item.
-/

/-- A list does not go on at its end. -/
theorem does_hasItem_nil :
    Does (Spaced ([']'] :: ts)) (hasItem first) (some false) (Spaced ([']'] :: ts)) :=
  .peekToken (.pure fun _ => Standing.spaced)

/-- Before an element, the reader goes on and has passed the comma. -/
theorem does_hasItem_cons : Does (Spaced (itemTokens first (v :: items) ++ ts)) (hasItem first)
    (some true) (Spaced (v.tokens ++ (itemTokens false items ++ ts))) := by
  -- A value starts neither with a comma nor with a bracket, so it is not taken for the
  -- end.
  obtain ⟨-, -, -, hmark⟩ := v.tokens_eq
  cases first with
  | true =>
    have hts : itemTokens true (v :: items) ++ ts = v.tokens ++ (itemTokens false items ++ ts) := by
      simp [itemTokens, comma]
    rw [hts]
    refine .peekToken ?_
    rw [Raw.head?_tokens]
    split
    · contradiction
    · next heq => simp [Option.some.inj heq] at hmark
    · exact .pure fun _ => Standing.spaced
  | false =>
    have hts : itemTokens false (v :: items) ++ ts =
        [','] :: (v.tokens ++ (itemTokens false items ++ ts)) := by
      simp [itemTokens, comma]
    rw [hts]
    refine .peekToken (.bind .dropMark (.peekToken ?_))
    rw [Raw.head?_tokens]
    split
    · contradiction
    · next heq => simp [Option.some.inj heq] at hmark
    · exact .pure fun _ => Standing.spaced

/-- Whether the reader goes on tells whether it has passed a comma. -/
theorem consumes_hasItem :
    Consumes P (hasItem first) fun ts more _ => ts = if more then comma first else [] := by
  refine .peekToken fun x? => ?_
  split
  · exact .failPeek
  · exact .pure fun _ _ => rfl
  · next x =>
    cases first with
    | true => exact .pure fun _ _ => rfl
    | false =>
      rw [if_neg Bool.false_ne_true]
      split
      · next hx =>
        obtain rfl := eq_of_beq hx
        -- Behind a comma there has to be an element.
        refine .bind (.drop (by decide) fun _ h => h.1) ?_
        rintro _ _ _ rfl
        refine .peekToken fun y? => ?_
        split
        · exact .failPeek
        · exact .failPeek
        · exact .pure fun _ _ => rfl
      · exact .failPeek

theorem does_endList : Does (Spaced ([']'] :: ts)) endList (some ()) (Spaced ts) :=
  .peekToken .dropMark

/-- A list does not end where another item follows. -/
theorem does_endList_none : Does (Spaced (itemTokens false (v :: items) ++ ts)) endList none Q := by
  refine .peekToken (.bind .dropMark (.peekToken ?_))
  split
  · exact .failPeek
  · exact .failPeek

/-- A list that has ended has passed its closing bracket. -/
theorem consumes_endList : Consumes P endList fun ts _ _ => ts = [[']']] := by
  refine .peekToken fun x? => ?_
  split
  · exact .failPeek
  · exact .drop (by decide) fun _ h => h.1
  · refine .bind (.drop (by decide) fun _ h => h.1) ?_
    rintro _ _ _ rfl
    refine .peekToken fun y? => ?_
    split
    · exact .failPeek
    · exact .failPeek
  · exact .failPeek

theorem does_inList (h : Does (Spaced ts) body x? (Spaced ([']'] :: ts'))) :
    Does (Standing (['['] :: ts)) (inList body) x? (Spaced ts') :=
  does_enclosed h does_endList

/-- A list is read up to its end. -/
theorem does_inList_none {x : α}
    (h : Does (Spaced ts) body (some x) (Spaced (itemTokens false (v :: items) ++ ts'))) :
    Does (Standing (['['] :: ts)) (inList body) none Q :=
  .bind .dropMark (.bind h.placedBy (.bind_none (does_endList_none (Q := Q))))

/-- What was read as a list stands between brackets. -/
theorem consumes_inList (hp : ∀ cs, P cs → cs.head? = some '[')
    (h : Consumes (fun _ => True) body R) :
    Consumes P (inList body) fun ts x _ =>
      ∃ inner y?, ts = ['['] :: (inner ++ [[']']]) ∧ R inner x y? :=
  consumes_enclosed (by decide) hp h consumes_endList

/-! ### Objects

Members are read like items, with a key and a colon in front of the value.
-/

/-- An object does not go on at its end. -/
theorem does_hasMember_nil :
    Does (Spaced (['\x7d'] :: ts)) (hasMember first) (some false) (Spaced (['\x7d'] :: ts)) :=
  .peekToken (.pure fun _ => Standing.spaced)

/-- Before a member, the reader goes on and has passed the comma. -/
theorem does_hasMember_cons :
    Does (Spaced (memberTokens first ((k, v) :: members) ++ ts)) (hasMember first) (some true)
    (Standing (k.chars :: [':'] :: (v.tokens ++ (memberTokens false members ++ ts)))) := by
  cases first with
  -- A member starts with a quote; before all but the first there is a comma.
  | true =>
    have hts : memberTokens true ((k, v) :: members) ++ ts =
        k.chars :: [':'] :: (v.tokens ++ (memberTokens false members ++ ts)) := by
      simp [memberTokens, comma]
    rw [hts]
    exact .peekToken (.pure fun _ => id)
  | false =>
    have hts : memberTokens false ((k, v) :: members) ++ ts =
        [','] :: k.chars :: [':'] :: (v.tokens ++ (memberTokens false members ++ ts)) := by
      simp [memberTokens, comma]
    rw [hts]
    exact .peekToken (.bind .dropMark (.peekToken (.pure fun _ => id)))

/-- Where another member follows, its key is next. -/
theorem consumes_hasMember : Consumes P (hasMember first) fun ts more y? =>
    ts = (if more then comma first else []) ∧ (more = true → y? = some '"') := by
  refine .peekToken fun x? => ?_
  split
  · exact .failPeek
  · exact .pure fun _ _ => ⟨rfl, nofun⟩
  · next x _ =>
    -- Before the first member there is no comma, before all others there is one.
    cases first with
    | true =>
      rw [if_pos rfl]
      split
      · next hx =>
        obtain rfl := eq_of_beq hx
        exact .pure fun _ h => ⟨rfl, fun _ => h.1⟩
      · exact .failPeek
    | false =>
      rw [if_neg Bool.false_ne_true]
      split
      · next hx =>
        obtain rfl := eq_of_beq hx
        refine .bind (.drop (by decide) fun _ h => h.1) ?_
        rintro _ _ _ rfl
        refine .peekToken fun y? => ?_
        split
        · exact .failPeek
        · exact .pure fun _ h => ⟨rfl, fun _ => h.1⟩
        · exact .failPeek
        · exact .failPeek
      · exact .failPeek

theorem does_endObject : Does (Spaced (['\x7d'] :: ts)) endObject (some ()) (Spaced ts) :=
  .peekToken .dropMark

/-- An object that has ended has passed its closing brace. -/
theorem consumes_endObject : Consumes P endObject fun ts _ _ => ts = [['\x7d']] := by
  refine .peekToken fun x? => ?_
  split
  · exact .failPeek
  · exact .drop (by decide) fun _ h => h.1
  · exact .failPeek
  · exact .failPeek

theorem does_inObject (h : Does (Spaced ts) body x? (Spaced (['\x7d'] :: ts'))) :
    Does (Standing (['\x7b'] :: ts)) (inObject body) x? (Spaced ts') :=
  does_enclosed h does_endObject

/-- What was read as an object stands between braces. -/
theorem consumes_inObject (hp : ∀ cs, P cs → cs.head? = some '\x7b')
    (h : Consumes (fun _ => True) body R) :
    Consumes P (inObject body) fun ts x _ => ∃ inner y?, ts = ['\x7b'] :: (inner ++ [['\x7d']]) ∧
    R inner x y? :=
  consumes_enclosed (by decide) hp h consumes_endObject

end marks

end Reader

end Classwright.Json
