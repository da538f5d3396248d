import Classwright.Json.Reader
import Mathlib.Data.List.TakeWhile

/-!
# The grammar of JSON texts

A JSON text is a scalar, a list or an object as it is written (`Json.Raw`), token for
token, with gaps in front of the tokens and at the end (`Json.Raw.Spells`). Numbers,
strings and words are tokens, and so are the marks of lists and objects.

The tokens of a value are a list of lists of characters. `Spaced` puts gaps in front of
them, so a text is a value if its characters are the spaced tokens.
-/

namespace Classwright.Json

open Cursor (isGap)

/-! ## Scalars

Strings are in three layers: characters that stand for themselves, escapes, and quotes
around them. A number is a sign, digits, a fraction and an exponent.
-/

/-- Whether a character is a digit in base sixteen. -/
def IsHex (c : Char) : Prop :=
  '0' ≤ c ∧ c ≤ '9' ∨ 'a' ≤ c ∧ c ≤ 'f' ∨ 'A' ≤ c ∧ c ≤ 'F'

/-- Whether characters are the inside of a string and its closing quote. -/
inductive IsQuoted : List Char → Prop
  | close : IsQuoted ['"']
  | plain {c : Char} {cs : List Char} (hquote : c ≠ '"') (hescape : c ≠ '\\')
      (hcontrol : 0x20 ≤ c.toNat) (h : IsQuoted cs) : IsQuoted (c :: cs)
  | escape {c : Char} {cs : List Char} (hc : c ∈ ['"', '\\', '/', 'b', 'f', 'n', 'r', 't'])
      (h : IsQuoted cs) :
      IsQuoted ('\\' :: c :: cs)
  | code {a b c d : Char} {cs : List Char} (ha : IsHex a) (hb : IsHex b) (hc : IsHex c)
      (hd : IsHex d) (h : IsQuoted cs) : IsQuoted ('\\' :: 'u' :: a :: b :: c :: d :: cs)

/-- A string as it is written. -/
structure Literal where
  /-- What follows the opening quote. -/
  inside : List Char
  /-- It is the inside of a string and its closing quote. -/
  quoted : IsQuoted inside

/-- The characters of a string. -/
def Literal.chars (l : Literal) : List Char :=
  '"' :: l.inside

/-- Whether characters are digits, at least one. -/
def IsDigits (ds : List Char) : Prop :=
  ds ≠ [] ∧ ∀ d ∈ ds, d.isDigit

/-- A number as it is written. -/
structure Figure where
  /-- Whether there is a minus. -/
  negative : Bool
  /-- What is in front of the point. -/
  whole : List Char
  /-- The point and what follows it, if there is one. -/
  fraction : List Char
  /-- The exponent with its mark, if there is one. -/
  exponent : List Char
  /-- Only a zero starts with one. -/
  isWhole : whole = ['0'] ∨ IsDigits whole ∧ whole.head? ≠ some '0'
  /-- Digits follow the point. -/
  isFraction : fraction = [] ∨ ∃ ds, fraction = '.' :: ds ∧ IsDigits ds
  /-- A sign can stand in front of the digits of the exponent. -/
  isExponent : exponent = [] ∨ ∃ mark ∈ ['e', 'E'], ∃ sign ∈ [[], ['+'], ['-']], ∃ ds,
    exponent = mark :: (sign ++ ds) ∧ IsDigits ds

/-- The characters of a number after its sign. -/
def Figure.unsigned (n : Figure) : List Char :=
  n.whole ++ n.fraction ++ n.exponent

/-- The characters of a number. -/
def Figure.chars (n : Figure) : List Char :=
  (if n.negative then ['-'] else []) ++ n.unsigned

/-- A value that is a single token. -/
inductive Scalar where
  | null
  | bool (b : Bool)
  | number (n : Figure)
  | text (l : Literal)

/-- The characters of a scalar. -/
def Scalar.chars : Scalar → List Char
  | .null => ['n', 'u', 'l', 'l']
  | .bool true => ['t', 'r', 'u', 'e']
  | .bool false => ['f', 'a', 'l', 's', 'e']
  | .number n => n.chars
  | .text l => l.chars

/-! ## Lists and objects

Items and members are written with a comma in front of each but the first.
-/

/-- A value as it is written, but for the gaps. -/
inductive Raw where
  | scalar (s : Scalar)
  | list (items : List Raw)
  | object (members : List (Literal × Raw))

/-- The comma in front of what is not the first one in a list or object. -/
def comma : Bool → List (List Char)
  | true => []
  | false => [[',']]

namespace Raw

mutual

/-- The tokens of a value. -/
def tokens : Raw → List (List Char)
  | .scalar s => [s.chars]
  | .list items => ['['] :: (itemTokens true items ++ [[']']])
  | .object members => ['\x7b'] :: (memberTokens true members ++ [['\x7d']])

/-- The tokens of the items of a list, of the first one on or of later ones. -/
def itemTokens : Bool → List Raw → List (List Char)
  | _, [] => []
  | first, v :: rest => comma first ++ v.tokens ++ itemTokens false rest

/-- The tokens of the members of an object, of the first one on or of later ones. -/
def memberTokens : Bool → List (Literal × Raw) → List (List Char)
  | _, [] => []
  | first, (k, v) :: rest => comma first ++ [k.chars, [':']] ++ v.tokens ++ memberTokens false rest

end

end Raw

/-! ## First characters

The first character of a token tells what kind of token it is, so a reader needs to look
at no more.
-/

/-- The first character of a scalar. -/
def Scalar.first (s : Scalar) : Char :=
  s.chars.headD ' '

/-- A number has a digit after its sign. -/
theorem Figure.exists_unsigned (n : Figure) : ∃ d ds, n.unsigned = d :: ds ∧ d.isDigit := by
  rw [unsigned, List.append_assoc]
  rcases n.isWhole with h | ⟨⟨hne, hdigits⟩, -⟩
  · exact ⟨'0', _, by rw [h]; rfl, by decide⟩
  · obtain ⟨d, rest, h⟩ := List.exists_cons_of_ne_nil hne
    exact ⟨d, _, by rw [h]; rfl, hdigits d (by simp [h])⟩

/-- A number starts with a minus sign or a digit. -/
theorem Figure.exists_chars (n : Figure) :
    ∃ c rest, n.chars = c :: rest ∧ (c = '-' ∨ c.isDigit) := by
  obtain ⟨d, ds, hd, hdigit⟩ := n.exists_unsigned
  rw [chars, hd]
  cases n.negative with
  | false => exact ⟨d, ds, rfl, Or.inr hdigit⟩
  | true => exact ⟨'-', d :: ds, rfl, Or.inl rfl⟩

/-- The characters that no scalar starts with. -/
def marks : List Char :=
  [' ', '\n', '\t', '\r', '[', ']', '\x7b', '\x7d', ',', ':']

/-- A scalar has a first character. -/
theorem Scalar.chars_eq (s : Scalar) : s.chars = s.first :: s.chars.tail ∧ s.first ∉ marks := by
  cases s with
  | null => exact ⟨rfl, by decide⟩
  | bool b => cases b <;> exact ⟨rfl, by decide⟩
  | text l =>
    have hmark : '"' ∉ marks := by decide
    exact ⟨rfl, hmark⟩
  | number n =>
    obtain ⟨c, rest, hchars, hc⟩ := n.exists_chars
    have hfirst : (Scalar.number n).first = c := by rw [first, chars, hchars]; rfl
    refine ⟨by rw [hfirst, chars, hchars]; rfl, fun hmark => ?_⟩
    rw [hfirst] at hmark
    have hnot : ∀ c ∈ marks, ¬(c = '-' ∨ c.isDigit) := by simp [marks]
    exact hnot c hmark hc

theorem Scalar.first_ne (s : Scalar) {c : Char} (hc : c ∈ marks) : s.first ≠ c := by
  rintro rfl
  exact s.chars_eq.2 hc

/-- The first character of a value. -/
def Raw.first : Raw → Char
  | .scalar s => s.first
  | .list _ => '['
  | .object _ => '\x7b'

/-- A value starts with a character that is neither blank nor ends anything. -/
theorem Raw.tokens_eq (v : Raw) : ∃ token vs, v.tokens = (v.first :: token) :: vs ∧
    v.first ∉ [' ', '\n', '\t', '\r', ']', '\x7d', ',', ':'] := by
  cases v with
  | scalar s =>
    obtain ⟨hchars, hmark⟩ := s.chars_eq
    have hsubset : ∀ c ∈ [' ', '\n', '\t', '\r', ']', '\x7d', ',', ':'], c ∈ marks := by
      simp [marks]
    exact ⟨s.chars.tail, [], by rw [tokens, hchars]; rfl, fun hin => hmark (hsubset _ hin)⟩
  | list items =>
    have hmark : '[' ∉ [' ', '\n', '\t', '\r', ']', '\x7d', ',', ':'] := by decide
    exact ⟨[], _, rfl, hmark⟩
  | object members =>
    have hmark : '\x7b' ∉ [' ', '\n', '\t', '\r', ']', '\x7d', ',', ':'] := by decide
    exact ⟨[], _, rfl, hmark⟩

/-- The first character of a value is that of its first token. -/
theorem Raw.head?_tokens (v : Raw) (ts : List (List Char)) :
    (v.tokens ++ ts).head?.bind List.head? = some v.first := by
  obtain ⟨token, vs, htokens, -⟩ := v.tokens_eq
  rw [htokens]
  rfl

/-- Whether characters are tokens with gaps in front of them and at the end. -/
inductive Spaced : List (List Char) → List Char → Prop
  | nil {gap : List Char} (hgap : ∀ c ∈ gap, isGap c) : Spaced [] gap
  | cons {gap : List Char} {x : Char} {token cs : List Char} {ts : List (List Char)}
      (hgap : ∀ c ∈ gap, isGap c) (hx : isGap x = false) (h : Spaced ts cs) :
      Spaced ((x :: token) :: ts) (gap ++ x :: token ++ cs)

/-- Whether a text is a value written in some way. -/
def Raw.Spells (raw : Raw) (text : String) : Prop :=
  Spaced raw.tokens text.toList

section tokens

variable {t : List Char}

theorem Literal.exists_chars (l : Literal) (h : t = l.chars) :
    ∃ x token, t = x :: token ∧ isGap x = false :=
  ⟨'"', l.inside, h, by decide⟩

theorem Scalar.exists_chars (s : Scalar) (h : t = s.chars) :
    ∃ x token, t = x :: token ∧ isGap x = false := by
  obtain ⟨hchars, hmark⟩ := s.chars_eq
  refine ⟨s.first, s.chars.tail, h.trans hchars, ?_⟩
  rw [← Bool.not_eq_true]
  intro hgap
  simp only [isGap, Bool.or_eq_true, beq_iff_eq] at hgap
  refine hmark ?_
  rcases hgap with ((h | h) | h) | h <;> rw [h] <;> decide

theorem exists_comma {first : Bool} (h : t ∈ comma first) :
    ∃ x token, t = x :: token ∧ isGap x = false := by
  cases first with
  | true => cases h
  | false => exact ⟨',', [], List.mem_singleton.1 h, by decide⟩

mutual

/-- A token starts with a character of its own. -/
theorem Raw.exists_token : ∀ v : Raw, t ∈ v.tokens → ∃ x token, t = x :: token ∧ isGap x = false
  | .scalar s, h => s.exists_chars (List.mem_singleton.1 h)
  | .list items, h => by
    simp only [tokens, List.mem_cons, List.mem_append, List.not_mem_nil, or_false] at h
    rcases h with rfl | h | rfl
    · exact ⟨'[', [], rfl, by decide⟩
    · exact exists_itemToken true items h
    · exact ⟨']', [], rfl, by decide⟩
  | .object members, h => by
    simp only [tokens, List.mem_cons, List.mem_append, List.not_mem_nil, or_false] at h
    rcases h with rfl | h | rfl
    · exact ⟨'\x7b', [], rfl, by decide⟩
    · exact exists_memberToken true members h
    · exact ⟨'\x7d', [], rfl, by decide⟩

/-- No token of the elements of a list starts with a blank. -/
theorem Raw.exists_itemToken : ∀ (first : Bool) (items : List Raw), t ∈ itemTokens first items →
    ∃ x token, t = x :: token ∧ isGap x = false
  | _, [], h => nomatch h
  | first, v :: items, h => by
    simp only [itemTokens, List.mem_append] at h
    rcases h with (h | h) | h
    · exact exists_comma h
    · exact exists_token v h
    · exact exists_itemToken false items h

/-- Nor does one of the members of an object. -/
theorem Raw.exists_memberToken : ∀ (first : Bool) (members : List (Literal × Raw)),
    t ∈ memberTokens first members → ∃ x token, t = x :: token ∧ isGap x = false
  | _, [], h => nomatch h
  | first, (k, v) :: members, h => by
    simp only [memberTokens, List.mem_append, List.mem_cons, List.not_mem_nil, or_false] at h
    rcases h with ((h | h | rfl) | h) | h
    · exact exists_comma h
    · exact k.exists_chars h
    · exact ⟨':', [], rfl, by decide⟩
    · exact exists_token v h
    · exact exists_memberToken false members h

end

/-- Tokens written without anything between them are spaced. -/
theorem spaced_flatten :
    ∀ {ts : List (List Char)}, (∀ t ∈ ts, ∃ x token, t = x :: token ∧ isGap x = false) →
    Spaced ts ts.flatten
  | [], _ => .nil nofun
  | t :: ts, h => by
    obtain ⟨⟨x, token, rfl, hx⟩, hrest⟩ := List.forall_mem_cons.1 h
    exact .cons (List.forall_mem_nil _) hx (spaced_flatten hrest)

/-- A value is written without gaps. -/
theorem Raw.spells_of_flatten {v : Raw} {text : String} (h : text.toList = v.tokens.flatten) :
    v.Spells text := by
  rw [Spells, h]
  exact spaced_flatten fun _ ht => v.exists_token ht

end tokens

/-! ## Gaps

A gap may stand in front of a token and at the end, and numbers and words are ended by
what follows them.
-/

/-- Whether characters start with the first of the given tokens, without a gap, or end
if there is none. -/
def Standing : List (List Char) → List Char → Prop
  | [], cs => cs = []
  | t :: ts, cs =>
    ∃ x token rest, t = x :: token ∧ isGap x = false ∧ cs = t ++ rest ∧ Spaced ts rest

section spaced

variable {ts : List (List Char)} {cs rest gap : List Char} {x : Char}

/-- Blanks may come before spaced tokens. -/
theorem Spaced.append_gap (h : Spaced ts cs) (hgap : ∀ c ∈ gap, isGap c) :
    Spaced ts (gap ++ cs) := by
  cases h with
  | nil hend => exact .nil (List.forall_mem_append.2 ⟨hgap, hend⟩)
  | cons hfront hx h =>
    rw [← List.append_assoc, ← List.append_assoc]
    exact .cons (List.forall_mem_append.2 ⟨hgap, hfront⟩) hx h

/-- Tokens at which a reader stands are spaced. -/
theorem Standing.spaced : ∀ {ts : List (List Char)}, Standing ts cs → Spaced ts cs
  | [], h => by
    rw [Standing] at h
    exact h ▸ .nil nofun
  | _ :: _, ⟨_, _, _, ht, hx, hcs, h⟩ => by
    subst ht hcs
    exact .cons (List.forall_mem_nil _) hx h

/-- A gap can stand in front of tokens. -/
theorem Spaced.of_dropWhile (h : Spaced ts (cs.dropWhile isGap)) : Spaced ts cs := by
  rw [← List.takeWhile_append_dropWhile (p := isGap) (l := cs)]
  exact h.append_gap fun c hc => List.all_eq_true.1 List.all_takeWhile c hc

/-- Without the gap at its start a text starts with a token. -/
theorem Spaced.standing (h : Spaced ts cs) : Standing ts (cs.dropWhile isGap) := by
  cases h with
  | nil hgap => exact List.dropWhile_eq_nil_iff.2 hgap
  | @cons gap x token cs ts hgap hx h =>
    rw [List.append_assoc, List.dropWhile_append_of_pos hgap, List.cons_append,
      List.dropWhile_cons_of_neg (by simp [hx])]
    exact ⟨x, token, cs, rfl, hx, rfl, h⟩

/-- There are at least as many characters as tokens. -/
theorem Spaced.length_le (h : Spaced ts cs) : ts.length ≤ cs.length := by
  induction h with
  | nil => simp
  | cons _ _ _ ih =>
    simp only [List.length_cons, List.length_append]
    omega

end spaced

/-- Whether the first of the given tokens, if there is one, is a mark that can follow a
value. -/
def Closed (ts : List (List Char)) : Prop :=
  ∀ t ∈ ts.head?, t ∈ [[','], [']'], ['\x7d'], [':']]

/-- Whether characters do not start with one that can go on a number. -/
def Delimited (cs : List Char) : Prop :=
  ∀ c ∈ cs.head?, c.isDigit = false ∧ c ≠ '.' ∧ c ≠ 'e' ∧ c ≠ 'E'

/-- A number ends at a gap and at a mark. -/
theorem Closed.delimited {ts : List (List Char)} {cs : List Char} (hc : Closed ts)
    (h : Spaced ts cs) :
    Delimited cs := by
  -- A blank delimits, as does the end of the text.
  have hgaps : ∀ {gap : List Char}, (∀ c ∈ gap, isGap c) → Delimited gap := by
    intro gap hgap c hhead
    have hgapped := hgap c (List.mem_of_mem_head? hhead)
    simp only [isGap, Bool.or_eq_true, beq_iff_eq] at hgapped
    rcases hgapped with ((rfl | rfl) | rfl) | rfl <;> decide
  cases h with
  | nil hgap => exact hgaps hgap
  | @cons gap x token cs ts hgap hx h =>
    cases gap with
    | cons c gap => exact fun c' hc' => hgaps hgap c' hc'
    | nil =>
      intro c hhead
      obtain rfl : x = c := by simpa using hhead
      -- Without a gap the next token starts right away, with one of the closing marks.
      have hmark := hc _ rfl
      simp only [List.mem_cons, List.cons.injEq, List.not_mem_nil, or_false] at hmark
      rcases hmark with ⟨rfl, -⟩ | ⟨rfl, -⟩ | ⟨rfl, -⟩ | ⟨rfl, -⟩ <;> decide

end Classwright.Json
