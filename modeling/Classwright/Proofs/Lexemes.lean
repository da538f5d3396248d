import Classwright.Proofs.Consumption

/-!
# Reading scalars

In front of anything that a scalar can be followed by, a scalar of the grammar is read
as the value that it stands for on its own (`Json.Reader.does_scalar`), and any scalar
can be moved over (`Json.Reader.does_skipScalar`).

Scalars are read character by character with a bound on the number of steps, the number
of bytes that are left. What is read depends on the tokens only, while the places in it
depend on where the token stands, so the places are quantified away
(`Json.Reader.Gives`).
-/

namespace Classwright.Json

open Cursor (isGap span)

/-! ## What scalars stand for

A literal stands for a text unless it has a lone surrogate, and a figure for a number
unless that is too large.
-/

/-- The text that a string stands for, unless it has half of a surrogate pair. -/
def Literal.text? (l : Literal) : Option String :=
  (Reader.string.run' ⟨l.chars, ⟨1, 0⟩⟩).toOption

/-- The value that a number stands for, unless it is out of range. -/
def Figure.value? (n : Figure) : Option Number :=
  ((Reader.number n.negative).run' ⟨n.unsigned, ⟨1, 0⟩⟩).toOption

/-- The value that a scalar stands for, if it stands for one. -/
def Scalar.value? : Scalar → Option Json
  | .null => some .null
  | .bool b => some (.bool b)
  | .number n => n.value?.map .number
  | .text l => l.text?.map .text

namespace Reader

/-- What a reader does on a whole text is what running it gives. -/
theorem Does.toOption_run' {α : Type} {r : Reader α} {x? : Option α} {cs : List Char}
    {Q : List Char → Prop} (h : Does (· = cs) r x? Q) : (r.run' ⟨cs, ⟨1, 0⟩⟩).toOption = x? := by
  have hr := h ⟨cs, ⟨1, 0⟩⟩ rfl
  rw [StateT.run']
  cases x? with
  | none =>
    obtain ⟨stop, hr⟩ := hr
    rw [hr]
    rfl
  | some x =>
    obtain ⟨c', hr, -⟩ := hr
    rw [hr]
    rfl

/-! ## Results that depend on places

`Gives` is `Does` with a set of results in place of one.
-/

section gives

variable {α β : Type} {P Q R : List Char → Prop} {S : α → Prop} {T : β → Prop} {r : Reader α}
    {f : α → Reader β}

/-- Whether a reader, wherever the text that is left satisfies `P`, reads what satisfies
`S` and leaves a text that satisfies `Q`. -/
def Gives (P : List Char → Prop) (r : Reader α) (S : α → Prop) (Q : List Char → Prop) : Prop :=
  ∀ c : Cursor, P c.rest → ∃ x c', r c = .ok (x, c') ∧ S x ∧ Q c'.rest

theorem Does.gives {x : α} (h : Does P r (some x) Q) : Gives P r (· = x) Q := by
  intro c hc
  obtain ⟨c', hr, hc'⟩ := h c hc
  exact ⟨x, c', hr, rfl, hc'⟩

namespace Gives

theorem pure {x : α} (h : S x) : Gives P (pure x) S P := fun c hc => ⟨x, c, rfl, h, hc⟩

/-- Readers in sequence, where the second only relies on what the first gives. -/
theorem bind (h : Gives P r S Q) (hf : ∀ x, S x → Gives Q (f x) T R) : Gives P (r >>= f) T R := by
  intro c hc
  obtain ⟨x, c', hr, hx, hc'⟩ := h c hc
  obtain ⟨y, c'', hf, hy, hc''⟩ := hf x hx c' hc'
  exact ⟨y, c'', bind_eq_ok.2 ⟨x, c', hr, hf⟩, hy, hc''⟩

/-- Their outcome, if it does not depend on which value the first gives. -/
theorem does_bind {y? : Option β} (h : Gives P r S Q) (hf : ∀ x, S x → Does Q (f x) y? R) :
    Does P (r >>= f) y? R := by
  intro c hc
  obtain ⟨x, c', hr, hx, hc'⟩ := h c hc
  have heq : (r >>= f) c = f x c' := by simp [Bind.bind, StateT.bind, hr, Except.bind]
  rw [heq]
  exact hf x hx c' hc'

theorem here : Gives P here (fun _ => True) P := fun c hc => ⟨c.place, c, rfl, trivial, hc⟩

theorem peek {cs : List Char} {f : Option Char → Reader β} (h : Gives (· = cs) (f cs.head?) T R) :
    Gives (· = cs) (peek >>= f) T R := by
  rintro c rfl
  exact h c rfl

end Gives

end gives

/-! ## Numbers

The parts of a number are read from the left, each up to the first character that does
not belong to it.
-/

section numbers

variable (atEnd : Cause) {ds rest : List Char}

theorem isDigit_of_delimited (h : Delimited rest) :
    ∀ c ∈ rest.head?, c.isDigit = false := fun c hc => (h c hc).1

/-- Digits are read up to what is none. -/
theorem does_digits (hds : IsDigits ds) (hrest : ∀ c ∈ rest.head?, c.isDigit = false) :
    Does (· = ds ++ rest) (digits atEnd) (some ds) (· = rest) := by
  obtain ⟨hne, hdigits⟩ := hds
  obtain ⟨d, ds, rfl⟩ := List.exists_cons_of_ne_nil hne
  -- All digits are taken and nothing behind them.
  have htake : (d :: ds ++ rest).takeWhile Char.isDigit = d :: ds := by
    rw [List.takeWhile_append_of_pos hdigits]
    cases rest with
    | nil => simp
    | cons c rest => simp [hrest c rfl]
  have hdrop : (d :: ds ++ rest).dropWhile Char.isDigit = rest := by
    rw [List.dropWhile_append_of_pos hdigits]
    cases rest with
    | nil => simp
    | cons c rest => simp [hrest c rfl]
  refine .peek ?_
  simp only [List.cons_append, List.head?_cons, hdigits d List.mem_cons_self, if_true]
  have h := Does.takeWhile Char.isDigit (d :: ds ++ rest)
  rwa [htake, hdrop] at h

/-- A fraction is read, or that there is none. -/
theorem does_fraction (n : Figure) :
    ∃ fraction? : Option (List Char), ∀ {rest}, (∀ c ∈ rest.head?, c.isDigit = false ∧ c ≠ '.') →
    Does (· = n.fraction ++ rest) (fraction atEnd) (some fraction?) (· = rest) := by
  rcases n.isFraction with h | ⟨ds, h, hds⟩
  · refine ⟨none, fun {rest} hrest => ?_⟩
    rw [h, List.nil_append]
    refine .peek ?_
    -- Without a fraction no point follows.
    have hnot : (rest.head? == some '.') = false := by
      cases rest with
      | nil => rfl
      | cons c rest => simpa using (hrest c rfl).2
    simp only [hnot]
    exact .pure fun _ => id
  · refine ⟨some ds, fun {rest} hrest => ?_⟩
    rw [h]
    refine .peek (.bind .drop ?_)
    exact (does_digits atEnd hds fun c hc => (hrest c hc).1).map

/-- The exponent of a numeral, but for its place. -/
def atPlace (place : Place) (parts : Bool × List Char) : Bool × List Char × Place :=
  (parts.1, parts.2, place)

/-- Reads what follows the mark of an exponent. -/
def signedDigits (atEnd : Cause) : Reader (Option (Bool × List Char × Place)) := do
  let sign ← peek
  if sign == some '+' || sign == some '-' then drop
  let place ← here
  let ds ← digits atEnd
  pure (some (sign == some '-', ds, place))

/-- An exponent gives its sign and its digits, at the place where it starts. -/
theorem gives_signedDigits {sign : List Char} (hsign : sign ∈ [[], ['+'], ['-']])
    (hds : IsDigits ds) (hrest : ∀ c ∈ rest.head?, c.isDigit = false) :
    Gives (· = sign ++ (ds ++ rest)) (signedDigits atEnd)
      (fun e? => ∃ place, e? = (some (sign == ['-'], ds)).map (atPlace place)) (· = rest) := by
  -- Behind the sign come the digits, which end where what follows is no digit.
  have hend : ∀ {down : Bool}, Gives (· = ds ++ rest) (do
      let place ← here
      let ds ← digits atEnd
      pure (some (down, ds, place)) : Reader _)
        (fun e? => ∃ place, e? = (some (down, ds)).map (atPlace place))
      (· = rest) := by
    intro down
    refine .bind .here fun place _ => .bind (does_digits atEnd hds hrest).gives ?_
    rintro _ rfl
    exact .pure ⟨place, rfl⟩
  simp only [List.mem_cons, List.not_mem_nil, or_false] at hsign
  rcases hsign with rfl | rfl | rfl
  -- Without a sign the first digit is taken for none.
  · obtain ⟨d, ds', rfl⟩ := List.exists_cons_of_ne_nil hds.1
    have hdigit := hds.2 d List.mem_cons_self
    have hplus : d ≠ '+' := by
      rintro rfl
      exact absurd hdigit (by decide)
    have hminus : d ≠ '-' := by
      rintro rfl
      exact absurd hdigit (by decide)
    have hpositive : (some d == some '-') = false := by simpa using hminus
    refine .peek ?_
    simpa [hplus, hpositive] using @hend false
  · exact .peek (.bind Does.drop.gives fun _ _ => hend)
  · exact .peek (.bind Does.drop.gives fun _ _ => hend)

/-- An exponent is read, or that there is none. -/
theorem gives_exponent (n : Figure) :
    ∃ parts : Option (Bool × List Char), ∀ {rest}, Delimited rest →
      Gives (· = n.exponent ++ rest) (exponent atEnd)
        (fun e? => ∃ place, e? = parts.map (atPlace place)) (· = rest) := by
  rcases n.isExponent with h | ⟨mark, hmark, sign, hsign, ds, h, hds⟩
  · refine ⟨none, fun {rest} hrest => ?_⟩
    rw [h, List.nil_append]
    refine .peek ?_
    -- What delimits a number is no mark of an exponent.
    split
    · next hhead => exact absurd rfl (hrest _ hhead).2.2.1
    · next hhead => exact absurd rfl (hrest _ hhead).2.2.2
    · exact .pure ⟨⟨0, 0⟩, rfl⟩
  · refine ⟨some (sign == ['-'], ds), fun {rest} hrest => ?_⟩
    have hsigned := gives_signedDigits atEnd hsign hds (isDigit_of_delimited hrest)
    rw [h, List.cons_append, List.append_assoc]
    simp only [List.mem_cons, List.not_mem_nil, or_false] at hmark
    rcases hmark with rfl | rfl
    · exact .peek (.bind Does.drop.gives fun _ _ => hsigned)
    · exact .peek (.bind Does.drop.gives fun _ _ => hsigned)

/-- Reads what follows the whole part of a number. -/
def afterWhole (atEnd : Cause) (whole : List Char) : Reader Numeral := do
  pure ⟨whole, ← fraction atEnd, ← exponent atEnd⟩

/-- What stands after the fraction of a number goes on neither with it nor with a digit. -/
theorem head?_exponent_append (n : Figure) (hrest : Delimited rest) :
    ∀ c ∈ (n.exponent ++ rest).head?, c.isDigit = false ∧ c ≠ '.' := by
  rcases n.isExponent with h | ⟨mark, hmark, sign, -, ds, h, -⟩
  · rw [h]
    exact fun c hc => ⟨(hrest c hc).1, (hrest c hc).2.1⟩
  · rw [h]
    rintro c hc
    obtain rfl : mark = c := by simpa using hc
    have hall : ∀ mark ∈ ['e', 'E'], mark.isDigit = false ∧ mark ≠ '.' := by simp
    exact hall mark hmark

/-- What stands after the whole part of a number is no digit. -/
theorem head?_fraction_append (n : Figure) (hrest : Delimited rest) :
    ∀ c ∈ (n.fraction ++ (n.exponent ++ rest)).head?, c.isDigit = false := by
  rcases n.isFraction with h | ⟨ds, h, -⟩
  · rw [h]
    exact fun c hc => (head?_exponent_append n hrest c hc).1
  · rw [h]
    rintro c hc
    obtain rfl : '.' = c := by simpa using hc
    decide

/-- A number is read up to what cannot go on with it. -/
theorem gives_numeral (n : Figure) :
    ∃ fraction? : Option (List Char), ∃ parts : Option (Bool × List Char),
      ∀ {rest}, Delimited rest →
        Gives (· = n.unsigned ++ rest) (numeral atEnd)
          (fun m => ∃ place, m = ⟨n.whole, fraction?, parts.map (atPlace place)⟩) (· = rest) := by
  obtain ⟨fraction?, hfraction⟩ := does_fraction atEnd n
  obtain ⟨parts, hexponent⟩ := gives_exponent atEnd n
  refine ⟨fraction?, parts, fun {rest} hrest => ?_⟩
  -- Behind the whole part come the fraction and the exponent.
  have hafter : Gives (· = n.fraction ++ (n.exponent ++ rest)) (afterWhole atEnd n.whole)
      (fun m => ∃ place, m = ⟨n.whole, fraction?, parts.map (atPlace place)⟩) (· = rest) := by
    refine .bind (hfraction (head?_exponent_append n hrest)).gives ?_
    rintro _ rfl
    refine .bind (hexponent hrest) ?_
    rintro _ ⟨place, rfl⟩
    exact .pure ⟨place, rfl⟩
  have hwhole : n.unsigned ++ rest = n.whole ++ (n.fraction ++ (n.exponent ++ rest)) := by
    simp [Figure.unsigned]
  rw [hwhole]
  -- The whole part is a zero with no digit behind it, or starts with another digit.
  rcases n.isWhole with h | ⟨hdigits, hzero⟩
  · rw [h] at hafter ⊢
    rw [List.singleton_append]
    refine .peek (.bind Does.drop.gives fun _ _ => .peek ?_)
    have hnot : (n.fraction ++ (n.exponent ++ rest)).head?.any Char.isDigit = false := by
      rw [Option.any_eq_false]
      exact head?_fraction_append n hrest
    rw [hnot]
    exact hafter
  · obtain ⟨d, ds, hd⟩ := List.exists_cons_of_ne_nil hdigits.1
    have hread : Gives (· = n.whole ++ (n.fraction ++ (n.exponent ++ rest))) (digits atEnd >>=
        afterWhole atEnd) (fun m => ∃ place, m = ⟨n.whole, fraction?, parts.map (atPlace place)⟩)
        (· = rest) := by
      refine .bind (does_digits atEnd hdigits (head?_fraction_append n hrest)).gives ?_
      rintro _ rfl
      exact hafter
    refine .peek ?_
    rw [hd] at hzero ⊢
    split
    · contradiction
    · next heq => exact absurd heq hzero
    · rw [← hd]
      exact hread

/-- The value of a number does not depend on its place. -/
theorem toOption_value_atPlace (negative : Bool) (whole : List Char)
    (fraction? : Option (List Char)) (parts : Option (Bool × List Char))
    (place finish place' finish' : Place) :
    (Numeral.value negative ⟨whole, fraction?, parts.map (atPlace place)⟩ finish).toOption =
    (Numeral.value negative ⟨whole, fraction?, parts.map (atPlace place')⟩ finish').toOption := by
  -- Where the number stands only matters to the place of a fault.
  have hdouble :
      ∀ significand power, (Numeral.value.double negative finish significand power).toOption =
      (Numeral.value.double negative finish' significand power).toOption := by
    intro significand power
    unfold Numeral.value.double
    split <;> rfl
  unfold Numeral.value
  cases parts with
  | none =>
    cases fraction? with
    | none =>
      simp only [Option.map_none]
      split
      · rfl
      · exact hdouble _ _
    | some ds => exact hdouble _ _
  | some parts =>
    simp only [Option.map_some, atPlace]
    split
    · exact hdouble _ _
    · split <;> rfl

/-- A number is read as a value, or not at all, up to what cannot go on with it. -/
theorem exists_does_number (n : Figure) : ∃ x? : Option Number, ∀ {rest}, Delimited rest →
    Does (· = n.unsigned ++ rest) (number n.negative) x? (· = rest) := by
  obtain ⟨fraction?, parts, hnumeral⟩ := gives_numeral .endInValue n
  refine ⟨(Numeral.value n.negative ⟨n.whole, fraction?, parts.map (atPlace ⟨0, 0⟩)⟩ ⟨0,
    0⟩).toOption,
    fun {rest} hrest => ?_⟩
  refine (hnumeral hrest).does_bind ?_
  rintro _ ⟨place, rfl⟩
  refine Gives.here.does_bind fun finish _ => ?_
  rw [toOption_value_atPlace n.negative n.whole fraction? parts ⟨0, 0⟩ ⟨0, 0⟩ place finish]
  cases Numeral.value n.negative ⟨n.whole, fraction?, parts.map (atPlace place)⟩ finish with
  | ok x => exact .pure fun _ => id
  | error place => exact fun _ _ => ⟨_, rfl⟩

/-- A number is read as its value, if what follows delimits it. -/
theorem does_number (n : Figure) (hrest : Delimited rest) :
    Does (· = n.unsigned ++ rest) (number n.negative) n.value? (· = rest) := by
  obtain ⟨x?, hread⟩ := exists_does_number n
  have halone := @hread [] nofun
  rw [List.append_nil] at halone
  rw [Figure.value?, halone.toOption_run']
  exact hread hrest

end numbers

/-! ## Strings

The inside of a string is read in stretches of plain characters with an escape between
each two. An escape that is half of a pair reads the other half as well.
-/

section strings

variable {rest : List Char} {c : Char}

theorem isPlain_iff : isPlain c = true ↔ c ≠ '"' ∧ c ≠ '\\' ∧ 0x20 ≤ c.toNat := by
  simp [isPlain, and_assoc]

theorem isSome_hexValue?_iff : (hexValue? c).isSome ↔ IsHex c := by
  unfold hexValue? IsHex
  simp only [Bool.and_eq_true, decide_eq_true_eq]
  split_ifs with h₁ h₂ h₃ <;> simp_all

theorem isSome_unescape?_iff :
    (unescape? c).isSome ↔ c ∈ ['"', '\\', '/', 'b', 'f', 'n', 'r', 't'] := by
  unfold unescape?
  split <;> simp_all

/-- A code unit is written with four hexadecimal digits. -/
theorem hexFour?_eq_some {cs : List Char} {n : Nat} (h : hexFour? cs = some n) :
    ∃ a b c d, cs = [a, b, c, d] ∧ IsHex a ∧ IsHex b ∧ IsHex c ∧ IsHex d := by
  unfold hexFour? at h
  split at h
  · next a b c d =>
    simp only [Option.bind_eq_bind, Option.bind_eq_some_iff] at h
    obtain ⟨i, ha, j, hb, k, hc, l, hd, -⟩ := h
    simp only [← isSome_hexValue?_iff]
    exact ⟨a, b, c, d, rfl, by simp [ha], by simp [hb], by simp [hc], by simp [hd]⟩
  · cases h

/-- Any four of them make one. -/
theorem exists_hexFour? {a b c d : Char} (ha : IsHex a) (hb : IsHex b) (hc : IsHex c)
    (hd : IsHex d) :
    ∃ n, hexFour? [a, b, c, d] = some n := by
  obtain ⟨i, ha⟩ := Option.isSome_iff_exists.1 (isSome_hexValue?_iff.2 ha)
  obtain ⟨j, hb⟩ := Option.isSome_iff_exists.1 (isSome_hexValue?_iff.2 hb)
  obtain ⟨k, hc⟩ := Option.isSome_iff_exists.1 (isSome_hexValue?_iff.2 hc)
  obtain ⟨l, hd⟩ := Option.isSome_iff_exists.1 (isSome_hexValue?_iff.2 hd)
  exact ⟨((i * 16 + j) * 16 + k) * 16 + l, by simp [hexFour?, ha, hb, hc, hd]⟩

/-- A text has at least as many bytes as characters. -/
theorem le_byteLength (cs : List Char) : cs.length ≤ Text.byteLength cs := by
  have hfold : ∀ (cs : List Char)
      (n : Nat), n + cs.length ≤ cs.foldl (fun n c => n + c.utf8Size) n := by
    intro cs
    induction cs with
    | nil => simp
    | cons c cs ih =>
      intro n
      have hpos := c.utf8Size_pos
      have hrest := ih (n + c.utf8Size)
      rw [List.length_cons, List.foldl_cons]
      omega
  have h := hfold cs 0
  rwa [Nat.zero_add] at h

/-- Four digits in base sixteen are read. -/
theorem does_hexFour {a b c d : Char} {n : Nat} (h : hexFour? [a, b, c, d] = some n) :
    Does (· = a :: b :: c :: d :: rest) hexFour (some n) (· = rest) := by
  intro cursor hc
  have hlong : ¬Text.byteLength (a :: b :: c :: d :: rest) < 4 := by
    have hle := le_byteLength (a :: b :: c :: d :: rest)
    simp only [List.length_cons] at hle
    omega
  refine ⟨⟨rest, ⟨cursor.place.line, cursor.place.column + 4⟩⟩, ?_, rfl⟩
  simp [hexFour, hc, hlong, h]

/-- A string starts with characters that stand for themselves, up to the quote or a
backslash. -/
theorem exists_plain {body : List Char} (h : IsQuoted body) : ∃ plain tail, body = plain ++ tail ∧
    (∀ c ∈ plain, isPlain c) ∧ IsQuoted tail ∧ (tail = ['"'] ∨ ∃ cs, tail = '\\' :: cs) := by
  induction h with
  | close => exact ⟨[], ['"'], rfl, nofun, .close, Or.inl rfl⟩
  | @plain c cs hquote hslash hcontrol _ ih =>
    obtain ⟨plain, tail, rfl, hplain, htail⟩ := ih
    exact ⟨c :: plain, tail, rfl, List.forall_mem_cons.2 ⟨isPlain_iff.2 ⟨hquote, hslash, hcontrol⟩,
      hplain⟩, htail⟩
  | escape hc h => exact ⟨[], _, rfl, nofun, .escape hc h, Or.inr ⟨_, rfl⟩⟩
  | code ha hb hc hd h => exact ⟨[], _, rfl, nofun, .code ha hb hc hd h, Or.inr ⟨_, rfl⟩⟩

/-- The characters that stand for themselves are taken together. -/
theorem does_takeWhile_plain {plain tail : List Char} {c : Char} (hplain : ∀ c ∈ plain, isPlain c)
    (hc : isPlain c = false) :
    Does (· = plain ++ c :: tail) (takeWhile isPlain) (some plain) (· = c :: tail) := by
  have h := Does.takeWhile isPlain (plain ++ c :: tail)
  rw [List.takeWhile_append_of_pos hplain, List.dropWhile_append_of_pos hplain,
    List.takeWhile_cons_of_neg (by simp [hc]), List.dropWhile_cons_of_neg (by simp [hc]),
    List.append_nil] at h
  exact h

/-- The mark of the second half of a pair is consumed. -/
theorem does_pairMark {mark : Char} :
    Does (· = mark :: rest) (pairMark mark) (some ()) (· = rest) := by
  refine .peek ?_
  simp only [List.head?_cons, beq_self_eq_true, if_true]
  exact .drop

/-- Without it the reading fails. -/
theorem does_pairMark_none {mark : Char} {Q : List Char → Prop} (hc : c ≠ mark) :
    Does (· = c :: rest) (pairMark mark) none Q := by
  refine .peek ?_
  simp only [List.head?_cons, beq_iff_eq, hc, if_false]
  exact .failPeek

/-- Reads the second half of a surrogate pair. -/
def secondHalf (n : Nat) : Reader Char := do
  pairMark '\\'
  pairMark 'u'
  let m ← hexFour
  if 0xdc00 ≤ m && m ≤ 0xdfff then pure (Char.ofNat ((n - 0xd800) * 0x400 + (m - 0xdc00) + 0x10000))
  else failHere .loneSurrogate

/-- A numeric escape is a code unit, or the first half of a pair with the second behind
it. -/
theorem numericEscape_eq : numericEscape = (do
    let n ← hexFour
    if 0xdc00 ≤ n && n ≤ 0xdfff then failHere .loneSurrogate
    else if 0xd800 ≤ n && n ≤ 0xdbff then secondHalf n
    else pure (Char.ofNat n)) :=
  rfl

/-- Whether a reader in front of the inside of a string reads a character and leaves the
inside of a string, or stops. -/
def ReadsInside (r : Reader Char) (cs : List Char) : Prop :=
  (∀ {rest Q}, Does (· = cs ++ rest) r none Q) ∨
    ∃ e cs', cs'.length ≤ cs.length ∧ IsQuoted cs' ∧ ∀ {rest},
    Does (· = cs ++ rest) r (some e) (· = cs' ++ rest)

/-- The second half of a pair is read, or refused, and the string goes on behind it. -/
theorem readsInside_secondHalf {n : Nat} {cs : List Char} (h : IsQuoted cs) :
    ReadsInside (secondHalf n) cs := by
  cases h with
  | close => exact Or.inl (.bind_none (does_pairMark_none (Q := fun _ => True) (by decide)))
  | plain _ hslash _ _ => exact Or.inl (.bind_none (does_pairMark_none (Q := fun _ => True) hslash))
  | @escape c cs hc _ =>
    -- Only `u` starts the escape of a second half.
    have hu : c ≠ 'u' := by
      rintro rfl
      exact absurd hc (by decide)
    exact Or.inl (.bind does_pairMark (.bind_none (does_pairMark_none (Q := fun _ => True) hu)))
  | @code a b c d cs ha hb hc hd h =>
    obtain ⟨m, hm⟩ := exists_hexFour? ha hb hc hd
    -- A code unit outside the range of second halves is refused.
    by_cases hrange : (0xdc00 ≤ m && m ≤ 0xdfff) = true
    · refine Or.inr ⟨Char.ofNat ((n - 0xd800) * 0x400 + (m - 0xdc00) + 0x10000), cs, ?_, h,
        .bind does_pairMark (.bind does_pairMark (.bind (does_hexFour hm) ?_))⟩
      · simp only [List.length_cons]
        omega
      · rw [if_pos hrange]
        exact .pure fun _ => id
    · refine Or.inl (.bind does_pairMark (.bind does_pairMark (.bind (does_hexFour hm) ?_)))
      rw [if_neg hrange]
      exact .failHere

/-- An escape is read as a character, together with the next one where they make up a
pair. -/
theorem readsInside_escape {cs : List Char} (h : IsQuoted ('\\' :: cs)) :
    ReadsInside escape cs := by
  generalize heq : '\\' :: cs = body at h
  cases h with
  | close => cases heq
  | plain _ hslash _ _ =>
    cases heq
    exact absurd rfl hslash
  | @escape c cs hc h =>
    cases heq
    obtain ⟨e, he⟩ := Option.isSome_iff_exists.1 (isSome_unescape?_iff.2 hc)
    -- This escape has a meaning of its own, so it is none of a code unit.
    have hu : c ≠ 'u' := by
      rintro rfl
      exact absurd hc (by decide)
    refine Or.inr ⟨e, cs, by simp, h, fun {rest} => .peek ?_⟩
    simp only [List.cons_append, List.head?_cons, he]
    exact .bind .drop (.pure fun _ => id)
  | @code a b c d cs ha hb hc hd h =>
    cases heq
    obtain ⟨n, hn⟩ := exists_hexFour? ha hb hc hd
    have hlength : cs.length ≤ ('u' :: a :: b :: c :: d :: cs).length := by
      simp only [List.length_cons]
      omega
    -- A second half on its own is refused, and a first half needs one behind it.
    by_cases hlow : (0xdc00 ≤ n && n ≤ 0xdfff) = true
    · refine Or.inl fun {rest Q} => .peek (.bind .drop (.bind (does_hexFour hn) ?_))
      rw [if_pos hlow]
      exact .failHere
    by_cases hhigh : (0xd800 ≤ n && n ≤ 0xdbff) = true
    · rcases readsInside_secondHalf (n := n) h with hnone | ⟨e, cs', hle, hquoted, hsome⟩
      · refine Or.inl fun {rest Q} => .peek (.bind .drop (.bind (does_hexFour hn) ?_))
        rw [if_neg hlow, if_pos hhigh]
        exact hnone
      · refine Or.inr ⟨e, cs', hle.trans hlength, hquoted, fun {rest} =>
          .peek (.bind .drop (.bind (does_hexFour hn) ?_))⟩
        rw [if_neg hlow, if_pos hhigh]
        exact hsome
    · refine Or.inr ⟨Char.ofNat n, cs, hlength, h,
        fun {rest} => .peek (.bind .drop (.bind (does_hexFour hn) ?_))⟩
      rw [if_neg hlow, if_neg hhigh]
      exact .pure fun _ => id

/-- Enough fuel for a text is enough for a step and what is left of the text. -/
theorem exists_eq_succ {plain : List Char} {cs : List Char} {fuel : Nat}
    (h : (plain ++ c :: cs).length ≤ fuel) : ∃ fuel', fuel = fuel' + 1 ∧ cs.length ≤ fuel' := by
  rw [List.length_append, List.length_cons] at h
  obtain ⟨fuel, rfl⟩ : ∃ fuel', fuel = fuel' + 1 := ⟨fuel - 1, by omega⟩
  exact ⟨fuel, rfl, by omega⟩

/-- The inside of a string is read as characters, or not at all. -/
theorem exists_does_stringParts (body : List Char) (h : IsQuoted body) :
    ∃ chars? : Option (List Char),
    ∀ {fuel rest}, body.length ≤ fuel →
    Does (· = body ++ rest) (stringParts fuel) chars? (· = rest) := by
  obtain ⟨plain, tail, rfl, hplain, htail, rfl | ⟨cs, rfl⟩⟩ := exists_plain h
  · refine ⟨some plain, fun {fuel rest} hfuel => ?_⟩
    obtain ⟨fuel, rfl, -⟩ := exists_eq_succ hfuel
    rw [List.append_assoc]
    exact .bind (does_takeWhile_plain hplain (by decide)) (.peek (.bind .drop (.pure fun _ => id)))
  -- The induction is on the length: what is behind the escape is shorter than the text.
  · rcases readsInside_escape htail with hnone | ⟨e, cs', hle, hquoted, hsome⟩
    · refine ⟨none, fun {fuel rest} hfuel => ?_⟩
      obtain ⟨fuel, rfl, -⟩ := exists_eq_succ hfuel
      rw [List.append_assoc]
      exact .bind (does_takeWhile_plain hplain (by decide))
        (.peek (.bind .drop (.bind_none (hnone (Q := fun _ => True)))))
    · have hshorter : cs'.length < (plain ++ '\\' :: cs).length := by
        rw [List.length_append, List.length_cons]
        omega
      obtain ⟨chars?, hrest⟩ := exists_does_stringParts cs' hquoted
      refine ⟨chars?.map fun chars => plain ++ e :: chars, fun {fuel rest} hfuel => ?_⟩
      obtain ⟨fuel, rfl, henough⟩ := exists_eq_succ hfuel
      rw [List.append_assoc]
      refine .bind (does_takeWhile_plain hplain (by decide)) (.peek (.bind .drop (.bind hsome ?_)))
      have hinner := @hrest fuel rest (hle.trans henough)
      cases chars? with
      | none => exact .bind_none hinner
      | some chars => exact .bind hinner (.pure fun _ => id)
termination_by body.length

/-- A string is read as its text, or refused if an escape makes no character. -/
theorem does_string (l : Literal) : Does (· = l.chars ++ rest) string l.text? (· = rest) := by
  obtain ⟨chars?, hparts⟩ := exists_does_stringParts l.inside l.quoted
  have hread :
      ∀ {rest}, Does (· = l.chars ++ rest) string (chars?.map String.ofList) (· = rest) := by
    intro rest
    refine .bind .drop (.remaining fun n => ?_)
    -- The fuel is the length of the text that is left, which is enough for the string.
    have hinner : Does (fun cs => cs = l.inside ++ rest ∧
        cs.length = n) (stringParts (n + 1)) chars? (· = rest) := by
      rintro c ⟨hc, hlength⟩
      refine hparts ?_ c hc
      rw [hc, List.length_append] at hlength
      omega
    cases chars? with
    | none => exact .bind_none hinner
    | some chars => exact .bind hinner (.pure fun _ => id)
  -- Alone, the string is read to the same text.
  have htext : l.text? = chars?.map String.ofList := by
    have halone := @hread []
    rw [List.append_nil] at halone
    exact halone.toOption_run'
  rw [htext]
  exact hread

/-- An escape can be moved over. -/
theorem exists_does_skipEscape {cs : List Char} (h : IsQuoted ('\\' :: cs)) :
    ∃ cs', cs'.length ≤ cs.length ∧
    IsQuoted cs' ∧ ∀ {rest}, Does (· = cs ++ rest) skipEscape (some ()) (· = cs' ++ rest) := by
  generalize heq : '\\' :: cs = body at h
  cases h with
  | close => cases heq
  | plain _ hslash _ _ =>
    cases heq
    exact absurd rfl hslash
  | @escape c cs hc h =>
    cases heq
    -- Skipping an escape only asks whether it has a meaning.
    have he := isSome_unescape?_iff.2 hc
    have hu : c ≠ 'u' := by
      rintro rfl
      exact absurd hc (by decide)
    refine ⟨cs, by simp, h, fun {rest} => .peek ?_⟩
    simp only [List.cons_append, List.head?_cons, he, if_true]
    exact .drop
  | @code a b c d cs ha hb hc hd h =>
    cases heq
    obtain ⟨n, hn⟩ := exists_hexFour? ha hb hc hd
    refine ⟨cs, ?_, h, .peek (.bind .drop (.bind (does_hexFour hn) (.pure fun _ => id)))⟩
    simp only [List.length_cons]
    omega

/-- The inside of a string can be moved over. -/
theorem does_skipParts {fuel : Nat} (body : List Char) (h : IsQuoted body)
    (hfuel : body.length ≤ fuel) :
    Does (· = body ++ rest) (skipParts fuel) (some ()) (· = rest) := by
  obtain ⟨plain, tail, rfl, hplain, htail, rfl | ⟨cs, rfl⟩⟩ := exists_plain h
  · obtain ⟨fuel, rfl, -⟩ := exists_eq_succ hfuel
    rw [List.append_assoc]
    exact .bind (does_takeWhile_plain hplain (by decide)) (.peek .drop)
  · obtain ⟨cs', hle, hquoted, hescape⟩ := exists_does_skipEscape htail
    have hshorter : cs'.length < (plain ++ '\\' :: cs).length := by
      rw [List.length_append, List.length_cons]
      omega
    obtain ⟨fuel, rfl, henough⟩ := exists_eq_succ hfuel
    rw [List.append_assoc]
    exact .bind (does_takeWhile_plain hplain (by decide))
      (.peek (.bind .drop (.bind hescape (does_skipParts cs' hquoted (hle.trans henough)))))
termination_by body.length

/-- A string is skipped without looking at what its escapes stand for. -/
theorem does_skipString (l : Literal) :
    Does (· = l.chars ++ rest) skipString (some ()) (· = rest) := by
  refine .bind .drop (.remaining fun n => ?_)
  rintro c ⟨hc, hlength⟩
  refine does_skipParts l.inside l.quoted ?_ c hc
  have hle : (l.inside ++ rest).length = n := by
    rw [← hlength, hc]
    rfl
  rw [List.length_append] at hle
  omega

end strings

/-! ## Scalars

The first character decides which of the readers is used.
-/

section scalars

variable {rest : List Char}

/-- A fixed word is consumed. -/
theorem does_word : ∀ (cs : List Char), Does (· = cs ++ rest) (word cs) (some ()) (· = rest)
  | [] => .pure fun _ => id
  | c :: cs => by
    refine .peek ?_
    simp only [List.cons_append, List.head?_cons, beq_self_eq_true, if_true]
    exact .bind .drop (does_word cs)

/-- No word and no sign starts with a digit. -/
theorem beq_eq_false_of_isDigit {c : Char} (hc : c.isDigit) :
    (c == 'n') = false ∧ (c == 't') = false ∧ (c == 'f') = false ∧ (c == '-') = false := by
  have hnot : ∀ x ∈ ['n', 't', 'f', '-'], (c == x) = false := by
    intro x hx
    rw [beq_eq_false_iff_ne]
    rintro rfl
    have hall : ∀ x ∈ ['n', 't', 'f', '-'], x.isDigit = false := by simp
    rw [hall c hx] at hc
    cases hc
  exact ⟨hnot 'n' (by decide), hnot 't' (by decide), hnot 'f' (by decide), hnot '-' (by decide)⟩

theorem scalar_of_isDigit {c : Char} (hc : c.isDigit) : scalar c = .number <$> number false := by
  obtain ⟨hnull, htrue, hfalse, hminus⟩ := beq_eq_false_of_isDigit hc
  simp [scalar, hnull, htrue, hfalse, hminus, hc]

theorem skipScalar_of_isDigit {c : Char} (hc : c.isDigit) : skipScalar c = (do
    let _ ← numeral .invalidNumber) := by
  obtain ⟨hnull, htrue, hfalse, hminus⟩ := beq_eq_false_of_isDigit hc
  simp [skipScalar, hnull, htrue, hfalse, hminus, hc]

theorem isDigit_headD_unsigned (n : Figure) : (n.unsigned.headD ' ').isDigit := by
  obtain ⟨d, ds, hd, hdigit⟩ := n.exists_unsigned
  rw [hd]
  exact hdigit

/-- A scalar is read as the value that it stands for, up to what cannot go on with it. -/
theorem does_scalar (s : Scalar) (hrest : Delimited rest) :
    Does (· = s.chars ++ rest) (scalar s.first) s.value? (· = rest) := by
  cases s with
  | null => exact .bind .drop (.bind (does_word ['u', 'l', 'l']) (.pure fun _ => id))
  | bool b =>
    cases b with
    | true => exact .bind .drop (.bind (does_word ['r', 'u', 'e']) (.pure fun _ => id))
    | false => exact .bind .drop (.bind (does_word ['a', 'l', 's', 'e']) (.pure fun _ => id))
  | text l => exact (does_string l).map
  | number n =>
    -- Only a minus sign is read apart from the number.
    have hread := does_number n hrest
    rw [Scalar.first, Scalar.chars, Scalar.value?, Figure.chars]
    cases hnegative : n.negative with
    | true =>
      rw [hnegative] at hread
      exact .bind .drop hread.map
    | false =>
      rw [hnegative] at hread
      rw [if_neg Bool.false_ne_true, List.nil_append, scalar_of_isDigit (isDigit_headD_unsigned n)]
      exact hread.map

/-- A scalar can be moved over. -/
theorem does_skipScalar (s : Scalar) (hrest : Delimited rest) :
    Does (· = s.chars ++ rest) (skipScalar s.first) (some ()) (· = rest) := by
  cases s with
  | null => exact .bind .drop (does_word ['u', 'l', 'l'])
  | bool b =>
    cases b with
    | true => exact .bind .drop (does_word ['r', 'u', 'e'])
    | false => exact .bind .drop (does_word ['a', 'l', 's', 'e'])
  | text l => exact does_skipString l
  | number n =>
    obtain ⟨fraction?, parts, hnumeral⟩ := gives_numeral .invalidNumber n
    -- Skipping a number reads it and forgets it.
    have hread : Does (· = n.unsigned ++ rest) (do
        let _ ← numeral .invalidNumber) (some ()) (· = rest) :=
      (hnumeral hrest).does_bind fun _ _ => .pure fun _ => id
    rw [Scalar.first, Scalar.chars, Figure.chars]
    cases n.negative with
    | true => exact .bind .drop hread
    | false =>
      rw [if_neg Bool.false_ne_true, List.nil_append,
        skipScalar_of_isDigit (isDigit_headD_unsigned n)]
      exact hread

end scalars

end Reader

end Classwright.Json
