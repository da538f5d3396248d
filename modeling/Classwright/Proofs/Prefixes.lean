import Classwright.Proofs.Lexemes

/-!
# What readers of scalars take

A reader of scalars that does not stop has taken a scalar from the front of the text, as
it is written (`Json.Reader.takes_scalar`, `Json.Reader.takes_skipScalar`).

`Takes` is the counterpart of what `Json.Reader.Does` says on scalars: from the result
it gives back the characters in front. The inside of a string is read with a bound on
the number of steps, and that the text is shorter than the bound is kept from each
stretch to the next.
-/

namespace Classwright.Json.Reader

variable {α β : Type}

/-! ## Taking characters

One lemma for each step of a reader, as for the readers of tokens.
-/

/-- Whether a reader that is given a text that satisfies `P`, and does not stop, has
taken characters from its front that satisfy `S` together with what it has read. -/
def Takes (P : List Char → Prop) (r : Reader α) (S : List Char → α → Prop) : Prop :=
  ∀ ⦃c x c'⦄, P c.rest → r c = .ok (x, c') → ∃ front, S front x ∧ c.rest = front ++ c'.rest

namespace Takes

variable {P P' : List Char → Prop} {r : Reader α} {f : α → Reader β} {R R' : List Char → α → Prop}
  {S : List Char → β → Prop}

theorem pure {x : α} (h : R [] x) : Takes P (pure x) R := by
  rintro c y c' - ⟨⟩
  exact ⟨[], h, rfl⟩

theorem failPeek {cause : Cause} : Takes P (failPeek cause) R :=
  nofun

theorem failHere {cause : Cause} : Takes P (failHere cause) R :=
  nofun

/-- What is known before may be strengthened and what has been taken weakened. -/
theorem mono (h : Takes P r R) (hp : ∀ cs, P' cs → P cs) (hr : ∀ front x, R front x → R' front x) :
    Takes P' r R' := by
  intro c x c' hc hx
  obtain ⟨front, hfront, hrest⟩ := h (hp _ hc) hx
  exact ⟨front, hr front x hfront, hrest⟩

/-- What is known of a text is still known of it when characters are taken from its
front. -/
theorem bind (h : Takes P r R)
    (hf : ∀ front x,
      R front x → Takes (fun cs => P (front ++ cs)) (f x) fun cs => S (front ++ cs)) :
    Takes P (r >>= f) S := by
  intro c y c'' hc hy
  obtain ⟨x, c', hx, hy⟩ := bind_eq_ok.1 hy
  obtain ⟨front, hfront, hrest⟩ := h hc hx
  obtain ⟨cs, hcs, hrest'⟩ := hf front x hfront (by rwa [hrest] at hc) hy
  exact ⟨front ++ cs, hcs, by rw [hrest, hrest', List.append_assoc]⟩

theorem map {g : α → β} (h : Takes P r fun front x => S front (g x)) : Takes P (g <$> r) S := by
  intro c y c' hc hy
  obtain ⟨x, hx, rfl⟩ := map_eq_ok.1 hy
  exact h hc hx

/-- The next character is known. -/
theorem peek {f : Option Char → Reader β}
    (hf : ∀ x?, Takes (fun cs => P cs ∧ cs.head? = x?) (f x?) S) :
    Takes P (peek >>= f) S :=
  fun c _ _ hc hy => hf c.rest.head? ⟨hc, rfl⟩ hy

theorem here {f : Place → Reader β} (hf : ∀ place, Takes P (f place) S) : Takes P (here >>= f) S :=
  fun c _ _ hc hy => hf c.place hc hy

theorem remaining {f : Nat → Reader β} (hf : ∀ n, Takes (fun cs => P cs ∧ cs.length = n) (f n) S) :
    Takes P (remaining >>= f) S :=
  fun c _ _ hc hy => hf c.rest.length ⟨hc, rfl⟩ hy

/-- Dropping takes the character that is next. -/
theorem drop {x : Char} (hp : ∀ cs, P cs → cs.head? = some x) :
    Takes P drop fun front _ => front = [x] := by
  rintro c y c' hc hy
  obtain ⟨rest, hrest⟩ := List.head?_eq_some_iff.1 (hp _ hc)
  cases hy
  exact ⟨[x], rfl, by rw [Cursor.rest_next hrest, hrest]; rfl⟩

/-- Taking by a condition takes characters that meet it, and returns them. -/
theorem takeWhile (p : Char → Bool) :
    Takes P (takeWhile p) fun front taken => front = taken ∧ ∀ c ∈ taken, p c := by
  rintro c x c' - hx
  obtain ⟨rfl, rfl⟩ := Prod.mk.inj (Except.ok.inj hx)
  rw [Cursor.span_fst, Cursor.rest_span]
  exact ⟨_, ⟨rfl, fun d hd => List.all_eq_true.1 List.all_takeWhile d hd⟩,
    List.takeWhile_append_dropWhile.symm⟩

end Takes

/-! ## Numbers

The parts of a number are taken from the left, and put together they are a figure.
-/

section numbers

variable {P : List Char → Prop} {atEnd : Cause}

/-- What has been taken as digits are some digits. -/
theorem takes_digits : Takes P (digits atEnd) fun front ds => front = ds ∧ IsDigits ds := by
  intro c ds c' _ h
  obtain ⟨x?, c₁, hpeek, h⟩ := bind_eq_ok.1 h
  cases hpeek
  -- Without a character there are no digits.
  cases hrest : c.rest with
  | nil =>
    rw [hrest] at h
    cases h
  | cons d rest =>
    simp only [hrest, List.head?_cons] at h
    split at h
    · next hdigit =>
      obtain ⟨front, ⟨rfl, hall⟩, hfront⟩ :=
        Takes.takeWhile (P := fun _ => True) Char.isDigit trivial h
      -- What has been taken is the longest run of digits.
      have htaken : front = c.rest.takeWhile Char.isDigit := by
        rw [← Cursor.span_fst Char.isDigit c.place]
        exact (Prod.mk.inj (Except.ok.inj h)).1.symm
      rw [hrest, List.takeWhile_cons_of_pos hdigit] at htaken
      exact ⟨_, ⟨rfl, by simp [htaken], hall⟩, hrest ▸ hfront⟩
    · cases h

/-- What has been taken as a fraction is a point with digits, or nothing. -/
theorem takes_fraction : Takes P (fraction atEnd) fun front _ =>
    front = [] ∨ ∃ ds, front = '.' :: ds ∧ IsDigits ds := by
  refine .peek fun x? => ?_
  split
  · next hpoint =>
    obtain rfl := eq_of_beq hpoint
    refine .bind (.drop fun _ h => h.2) ?_
    rintro _ _ rfl
    refine .map (takes_digits.mono (fun _ => id) ?_)
    rintro _ ds ⟨rfl, hds⟩
    exact Or.inr ⟨_, rfl, hds⟩
  · exact .pure (Or.inl rfl)

/-- Whether characters are a sign, which need not be there, and digits. -/
def IsSigned (cs : List Char) : Prop :=
  ∃ sign ∈ [[], ['+'], ['-']], ∃ ds, cs = sign ++ ds ∧ IsDigits ds

/-- What has been taken behind the mark of an exponent are digits, perhaps with a sign. -/
theorem takes_signedDigits : Takes P (signedDigits atEnd) fun front _ => IsSigned front := by
  -- Behind the sign, or without one, come digits.
  have hend : ∀ {P : List Char → Prop} {sign} {down : Bool}, sign ∈ [[], ['+'], ['-']] → Takes P (do
      let place ← here
      let ds ← digits atEnd
      pure (some (down, ds, place)) : Reader _) fun front _ => IsSigned (sign ++ front) := by
    intro P sign down hsign
    refine .here fun place => .bind takes_digits ?_
    rintro _ ds ⟨rfl, hds⟩
    exact .pure ⟨sign, hsign, _, by simp, hds⟩
  refine .peek fun x? => ?_
  split
  · next hsign =>
    rw [Bool.or_eq_true] at hsign
    rcases hsign with hsign | hsign
    · obtain rfl := eq_of_beq hsign
      refine .bind (.drop fun _ h => h.2) ?_
      rintro _ _ rfl
      exact hend (by decide)
    · obtain rfl := eq_of_beq hsign
      refine .bind (.drop fun _ h => h.2) ?_
      rintro _ _ rfl
      exact hend (by decide)
  · exact hend List.mem_cons_self

/-- What has been taken as an exponent is a mark with signed digits, or nothing. -/
theorem takes_exponent : Takes P (exponent atEnd) fun front _ => front = [] ∨
    ∃ mark ∈ ['e', 'E'], ∃ sign ∈ [[], ['+'], ['-']], ∃ ds, front = mark :: (sign ++ ds) ∧
    IsDigits ds := by
  -- Behind the mark comes an optional sign and digits.
  have hmarked : ∀ mark ∈ ['e', 'E'], Takes (fun cs => P cs ∧ cs.head? = some mark) (do
      drop
      signedDigits atEnd) fun front _ => front = [] ∨
        ∃ mark ∈ ['e', 'E'], ∃ sign ∈ [[], ['+'], ['-']], ∃ ds, front = mark :: (sign ++ ds) ∧
        IsDigits ds := by
    intro mark hmark
    refine .bind (.drop fun _ h => h.2) ?_
    rintro _ _ rfl
    refine takes_signedDigits.mono (fun _ => id) ?_
    rintro _ _ ⟨sign, hsign, ds, rfl, hds⟩
    exact Or.inr ⟨mark, hmark, sign, hsign, ds, rfl, hds⟩
  refine .peek fun x? => ?_
  split
  · exact hmarked 'e' (by decide)
  · exact hmarked 'E' (by decide)
  · exact .pure (Or.inl rfl)

/-- A whole part without a needless zero and what is taken behind it make a number. -/
theorem takes_afterWhole {whole : List Char}
    (hwhole : whole = ['0'] ∨ IsDigits whole ∧ whole.head? ≠ some '0') :
    Takes P (afterWhole atEnd whole) fun front _ =>
      ∀ negative, ∃ n : Figure, n.negative = negative ∧ whole ++ front = n.unsigned := by
  refine .bind takes_fraction fun fraction _ hfraction =>
    .bind takes_exponent fun exponent _ hexponent => ?_
  exact .pure fun negative =>
    ⟨⟨negative, whole, fraction, exponent, hwhole, hfraction, hexponent⟩, rfl,
    by simp [Figure.unsigned]⟩

/-- What is read as a number is one as it is written, with any sign. -/
theorem takes_numeral : Takes P (numeral atEnd) fun front _ =>
    ∀ negative, ∃ n : Figure, n.negative = negative ∧ front = n.unsigned := by
  refine .peek fun x? => ?_
  split
  · exact .failPeek
  · refine .bind (.drop fun _ h => h.2) ?_
    rintro _ _ rfl
    refine .peek fun y? => ?_
    split
    · exact .bind (R := fun _ _ => False) .failPeek fun _ _ h => h.elim
    · exact takes_afterWhole (Or.inl rfl)
  · next d hnot =>
    refine .bind takes_digits ?_
    rintro front _ ⟨rfl, hdigits⟩
    -- The first of the digits is the one that is looked at, and that is no zero.
    refine .mono (P := fun cs => (front ++ cs).head? = some d) ?_ (fun _ h => h.2) fun _ _ => id
    obtain ⟨x, xs, rfl⟩ := List.exists_cons_of_ne_nil hdigits.1
    intro c m c' hc hm
    have hzero : (x :: xs).head? ≠ some '0' := by
      rintro heq
      exact hnot (Option.some.inj (hc.symm.trans heq))
    exact takes_afterWhole (P := fun _ => True) (Or.inr ⟨hdigits, hzero⟩) trivial hm

/-- What has been taken as a number is one, without its sign. -/
theorem takes_number {negative : Bool} : Takes P (number negative) fun front _ =>
    ∃ n : Figure, n.negative = negative ∧ front = n.unsigned := by
  refine .bind takes_numeral fun front m hfront => .here fun place => ?_
  split
  · exact .pure (by simpa using hfront negative)
  · exact nofun

end numbers

/-! ## Strings

A stretch of plain characters, an escape, and by induction the rest up to the quote.
-/

section strings

variable {P : List Char → Prop}

/-- What has been taken as a code unit are four hexadecimal digits. -/
theorem takes_hexFour : Takes P hexFour fun front _ =>
    ∃ a b c d, front = [a, b, c, d] ∧ IsHex a ∧ IsHex b ∧ IsHex c ∧ IsHex d := by
  intro c n c' _ h
  unfold hexFour at h
  split at h
  · cases h
  · split at h
    · next hfour =>
      cases h
      exact ⟨c.rest.take 4, hexFour?_eq_some hfour, (List.take_append_drop 4 c.rest).symm⟩
    · cases h

/-- What has been taken as a mark is that mark. -/
theorem takes_pairMark {mark : Char} : Takes P (pairMark mark) fun front _ => front = [mark] := by
  refine .peek fun x? => ?_
  split
  · exact .failPeek
  · split
    · next hmark =>
      obtain rfl := eq_of_beq hmark
      exact .drop fun _ h => h.2
    · exact .failPeek

/-- Whether characters can stand after a backslash in a string, whatever follows them
there. -/
def IsEscape (front : List Char) : Prop :=
  ∀ {cs}, IsQuoted cs → IsQuoted ('\\' :: (front ++ cs))

/-- What has been taken behind `u` makes an escape, of one code unit or of a pair. -/
theorem takes_numericEscape : Takes P numericEscape fun front _ => IsEscape ('u' :: front) := by
  rw [numericEscape_eq]
  refine .bind takes_hexFour ?_
  rintro _ n ⟨a, b, c, d, rfl, ha, hb, hc, hd⟩
  split
  · exact .failHere
  · split
    · refine .bind takes_pairMark ?_
      rintro _ _ rfl
      refine .bind takes_pairMark ?_
      rintro _ _ rfl
      refine .bind takes_hexFour ?_
      rintro _ m ⟨a', b', c', d', rfl, ha', hb', hc', hd'⟩
      split
      · exact .pure fun h => .code ha hb hc hd (.code ha' hb' hc' hd' h)
      · exact .failHere
    · exact .pure fun h => .code ha hb hc hd h

/-- What has been taken behind a backslash makes an escape. -/
theorem takes_escape : Takes P escape fun front _ => IsEscape front := by
  refine .peek fun x? => ?_
  split
  · exact .failPeek
  · refine .bind (.drop fun _ h => h.2) ?_
    rintro _ _ rfl
    exact takes_numericEscape
  · split
    · next he =>
      refine .bind (.drop fun _ h => h.2) ?_
      rintro _ _ rfl
      exact .pure fun h => .escape (isSome_unescape?_iff.1 (by rw [he]; rfl)) h
    · exact .failPeek

/-- The same when it is skipped. -/
theorem takes_skipEscape : Takes P skipEscape fun front _ => IsEscape front := by
  refine .peek fun x? => ?_
  split
  · exact .failPeek
  · refine .bind (.drop fun _ h => h.2) ?_
    rintro _ _ rfl
    refine .bind takes_hexFour ?_
    rintro _ n ⟨a, b, c, d, rfl, ha, hb, hc, hd⟩
    exact .pure fun h => .code ha hb hc hd h
  · split
    · next he =>
      refine .mono (.drop fun _ h => h.2) (fun _ => id) ?_
      rintro _ _ rfl
      exact fun h => .escape (isSome_unescape?_iff.1 he) h
    · exact .failPeek

/-- Plain characters may stand before the inside of a string. -/
theorem isQuoted_append {plain cs : List Char} (hplain : ∀ c ∈ plain, isPlain c) (h : IsQuoted cs) :
    IsQuoted (plain ++ cs) := by
  induction plain with
  | nil => exact h
  | cons c plain ih =>
    obtain ⟨hc, hrest⟩ := List.forall_mem_cons.1 hplain
    obtain ⟨hquote, hslash, hcontrol⟩ := isPlain_iff.1 hc
    exact .plain hquote hslash hcontrol (ih hrest)

/-- A backslash, what it escapes and the inside of a string are the inside of a string. -/
theorem takes_escaped {plain : List Char} {fuel : Nat} {escaped : Reader α} {inside : α → Reader β}
    (hplain : ∀ c ∈ plain, isPlain c)
    (hescaped : ∀ P, Takes P escaped fun front _ => IsEscape front)
    (hinside : ∀ x, Takes (fun cs => cs.length < fuel) (inside x) fun front _ => IsQuoted front) :
    Takes (fun cs => (plain ++ cs).length < fuel + 1 ∧ cs.head? = some '\\') (do
      drop
      inside (← escaped)) fun front _ => IsQuoted (plain ++ front) := by
  refine .bind (.drop fun _ h => h.2) ?_
  rintro _ _ rfl
  refine .bind (hescaped _) fun front x hfront => (hinside x).mono ?_ fun behind _ hbehind => ?_
  · rintro cs ⟨hlength, -⟩
    simp only [List.length_append, List.length_cons] at hlength
    omega
  · simpa using isQuoted_append hplain (hfront hbehind)

/-- What has been taken as the inside of a string is one, up to its closing quote; the
fuel bounds the length of the text. -/
theorem takes_stringParts :
    ∀ fuel : Nat, Takes (fun cs => cs.length < fuel) (stringParts fuel) fun front _ =>
    IsQuoted front
  | 0 => fun _ _ _ hc _ => absurd hc (Nat.not_lt_zero _)
  | fuel + 1 => by
    refine .bind (.takeWhile isPlain) ?_
    rintro _ plain ⟨rfl, hplain⟩
    refine .peek fun x? => ?_
    split
    · exact .failPeek
    · refine .bind (.drop fun _ h => h.2) ?_
      rintro _ _ rfl
      exact .pure (isQuoted_append hplain .close)
    · refine takes_escaped hplain (fun _ => takes_escape) fun x =>
        .bind (takes_stringParts fuel) fun front _ hfront => .pure ?_
      rwa [List.append_nil]
    · exact .failPeek

/-- The same when it is skipped. -/
theorem takes_skipParts :
    ∀ fuel : Nat, Takes (fun cs => cs.length < fuel) (skipParts fuel) fun front _ =>
    IsQuoted front
  | 0 => fun _ _ _ hc _ => absurd hc (Nat.not_lt_zero _)
  | fuel + 1 => by
    refine .bind (.takeWhile isPlain) ?_
    rintro plain _ ⟨rfl, hplain⟩
    refine .peek fun x? => ?_
    split
    · exact .failPeek
    · refine .mono (.drop fun _ h => h.2) (fun _ => id) ?_
      rintro _ _ rfl
      exact isQuoted_append hplain .close
    · exact takes_escaped hplain (fun _ => takes_skipEscape) fun _ => takes_skipParts fuel
    · exact .failHere

/-- From the opening quote to the closing one is a string, as there are fewer characters
left than the fuel. -/
theorem takes_quoted {inside : Nat → Reader α} (hp : ∀ cs, P cs → cs.head? = some '"')
    (h : ∀ fuel, Takes (fun cs => cs.length < fuel) (inside fuel) fun front _ => IsQuoted front) :
    Takes P (do
      drop
      inside ((← remaining) + 1)) fun front _ => ∃ l : Literal, front = l.chars := by
  refine .bind (.drop hp) ?_
  rintro _ _ rfl
  refine .remaining fun n => (h (n + 1)).mono ?_ fun front _ hfront => ?_
  · rintro cs ⟨-, rfl⟩
    exact Nat.lt_succ_self _
  · exact ⟨⟨front, hfront⟩, by simp [Literal.chars]⟩

/-- A string is read from its opening quote on. -/
theorem takes_string (hp : ∀ cs, P cs → cs.head? = some '"') : Takes P string fun front _ =>
    ∃ l : Literal, front = l.chars := by
  have hinside : ∀ fuel, Takes (fun cs => cs.length < fuel) (do
      let chars ← stringParts fuel
      pure (String.ofList chars) : Reader String) fun front _ => IsQuoted front := fun fuel =>
    .bind (takes_stringParts fuel) fun front _ hfront => .pure (by rwa [List.append_nil])
  exact takes_quoted hp hinside

theorem takes_skipString (hp : ∀ cs, P cs → cs.head? = some '"') : Takes P skipString fun front _ =>
    ∃ l : Literal, front = l.chars :=
  takes_quoted hp takes_skipParts

end strings

/-! ## Scalars

The first character decides between words, numbers and strings.
-/

section scalars

variable {P : List Char → Prop}

/-- What has been taken as a fixed word is that word. -/
theorem takes_word :
    ∀ {P : List Char → Prop} (cs : List Char), Takes P (word cs) fun front _ => front = cs
  | _, [] => .pure rfl
  | _, x :: cs => by
    refine .peek fun y? => ?_
    split
    · exact .failPeek
    · split
      · next hx =>
        obtain rfl := eq_of_beq hx
        refine .bind (.drop fun _ h => h.2) ?_
        rintro _ _ rfl
        refine (takes_word cs).mono (fun _ => id) ?_
        rintro _ _ rfl
        rfl
      · exact .failPeek

/-- A constant that is moved over is one as it is written. -/
theorem takes_skipWord {c : Char} (hp : ∀ cs, P cs → cs.head? = some c) (s : Scalar)
    {cs : List Char} (hs : s.chars = c :: cs) : Takes P (do
      drop
      word cs) fun front _ => ∃ s : Scalar, front = s.chars := by
  refine .bind (.drop hp) ?_
  rintro _ _ rfl
  refine (takes_word cs).mono (fun _ => id) ?_
  rintro _ _ rfl
  exact ⟨s, by simp [hs]⟩

/-- So is one that is read. -/
theorem takes_readWord {c : Char} (hp : ∀ cs, P cs → cs.head? = some c) (s : Scalar)
    {cs : List Char} (hs : s.chars = c :: cs) (v : Json) : Takes P (do
      drop
      word cs
      pure v) fun front _ => ∃ s : Scalar, front = s.chars := by
  refine .bind (.drop hp) ?_
  rintro _ _ rfl
  refine .bind (takes_word cs) ?_
  rintro _ _ rfl
  exact .pure ⟨s, by simp [hs]⟩

/-- A number that is moved over is one as it is written; its sign stands before it. -/
theorem takes_skipNumber (negative : Bool) : Takes P (do
    let _ ← numeral .invalidNumber) fun front _ =>
      ∃ s : Scalar, (if negative then ['-'] else []) ++ front = s.chars := by
  refine .bind takes_numeral fun front m hfront => .pure ?_
  obtain ⟨n, hn, rfl⟩ := hfront negative
  exact ⟨.number n, by simp [Scalar.chars, Figure.chars, hn]⟩

/-- So is one that is read. -/
theorem takes_readNumber (negative : Bool) :
    Takes P (Json.number <$> number negative) fun front _ =>
    ∃ s : Scalar, (if negative then ['-'] else []) ++ front = s.chars := by
  refine .map (takes_number.mono (fun _ => id) ?_)
  rintro _ _ ⟨n, hn, rfl⟩
  exact ⟨.number n, by simp [Scalar.chars, Figure.chars, hn]⟩

/-- What is read as a scalar is one as it is written. -/
theorem takes_scalar {c : Char} (hp : ∀ cs, P cs → cs.head? = some c) :
    Takes P (scalar c) fun front _ =>
    ∃ s : Scalar, front = s.chars := by
  -- The first character tells the kind of the scalar.
  unfold scalar
  split
  · next h => exact takes_readWord hp .null (by rw [eq_of_beq h]; rfl) _
  split
  · next h => exact takes_readWord hp (.bool true) (by rw [eq_of_beq h]; rfl) _
  split
  · next h => exact takes_readWord hp (.bool false) (by rw [eq_of_beq h]; rfl) _
  split
  · next h =>
    rw [eq_of_beq h] at hp
    refine .bind (.drop hp) ?_
    rintro _ _ rfl
    exact takes_readNumber true
  split
  · exact takes_readNumber false
  split
  · next h =>
    rw [eq_of_beq h] at hp
    refine .map ((takes_string hp).mono (fun _ => id) ?_)
    rintro _ _ ⟨l, rfl⟩
    exact ⟨.text l, rfl⟩
  · exact .failPeek

/-- What is moved over as a scalar is one as it is written. -/
theorem takes_skipScalar {c : Char} (hp : ∀ cs, P cs → cs.head? = some c) :
    Takes P (skipScalar c) fun front _ =>
    ∃ s : Scalar, front = s.chars := by
  -- The first character tells the kind of the scalar.
  unfold skipScalar
  split
  · next h => exact takes_skipWord hp .null (by rw [eq_of_beq h]; rfl)
  split
  · next h => exact takes_skipWord hp (.bool true) (by rw [eq_of_beq h]; rfl)
  split
  · next h => exact takes_skipWord hp (.bool false) (by rw [eq_of_beq h]; rfl)
  split
  · next h =>
    rw [eq_of_beq h] at hp
    refine .bind (.drop hp) ?_
    rintro _ _ rfl
    exact takes_skipNumber true
  split
  · exact takes_skipNumber false
  split
  · next h =>
    rw [eq_of_beq h] at hp
    refine (takes_skipString hp).mono (fun _ => id) ?_
    rintro _ _ ⟨l, rfl⟩
    exact ⟨.text l, rfl⟩
  · exact .failPeek

end scalars

end Classwright.Json.Reader
