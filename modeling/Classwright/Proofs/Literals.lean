import Classwright.Json.Reader
import Classwright.Proofs.Descriptions
import Classwright.Target.Layout
import Classwright.Text.Quoted

/-!
# String literals

Whether characters between two quotes are the inside of a string literal, and of which
text, is up to the language (`LiteralRules.Inside`): characters that end a line do not
stand for themselves, and the languages have different escapes. The literals that are
written have only escapes that mean the same in all of them
(`LiteralRules.ReadsShorts`), so their insides are read back as the text wherever its
characters may stand for themselves (`LiteralRules.inside_encode_iff`). Characters that
end a line, other than line feed and carriage return, are written as they are, and what
is written for a text that has one is no literal (`Text.quote_spells_iff`).
-/

namespace Classwright

/-! ## Literals of the languages

A language says which characters end a line and which escapes there are. The inside of a
literal spells code units, since a character outside the basic plane can be written as
two of them.
-/

/-- The units of sixteen bits that a code point is made of. -/
def units (n : Nat) : List Nat :=
  if n < 0x10000 then [n] else [0xd800 + (n - 0x10000) / 0x400, 0xdc00 + (n - 0x10000) % 0x400]

/-- The units of a text. -/
def unitsOf (cs : List Char) : List Nat :=
  cs.flatMap fun c => units c.toNat

/-- What characters between the quotes of a literal mean in a language. -/
structure LiteralRules where
  /-- The characters other than a quote and a backslash that stand for themselves. -/
  Plain : Char → Prop
  /-- The escapes: what follows the backslash, what follows the escape, and the units
  that it stands for. -/
  Escape : List Char → List Char → List Nat → Prop

/-- Whether characters are the inside of a literal of a text with the given units. -/
inductive LiteralRules.Inside (r : LiteralRules) : List Char → List Nat → Prop
  | nil : Inside r [] []
  | plain {c : Char} {cs : List Char} {us : List Nat} (hquote : c ≠ '"') (hslash : c ≠ '\\')
      (hc : r.Plain c) (h : Inside r cs us) : Inside r (c :: cs) (units c.toNat ++ us)
  | escape {e cs : List Char} {us us' : List Nat} (he : r.Escape e cs us) (h : Inside r cs us') :
      Inside r ('\\' :: (e ++ cs)) (us ++ us')

/-- Whether a text is one literal of a text with the given units. -/
def LiteralRules.Spells (r : LiteralRules) (text : String) (us : List Nat) : Prop :=
  ∃ inside, text.toList = '"' :: inside ++ ['"'] ∧ r.Inside inside us

/-- The rules of a language in which any character may stand for itself. -/
def LiteralRules.overLines (r : LiteralRules) : LiteralRules :=
  { r with Plain := fun _ => True }

/-- The number that digits in base sixteen stand for. -/
def hexNumber? (ds : List Char) : Option Nat :=
  ds.foldlM (fun n d => (Json.Reader.hexValue? d).map (n * 16 + ·)) 0

/-- The characters that are escapes of C# on their own, with what they stand for. -/
def CSharp.simpleEscapes : List (Char × Nat) :=
  [('\'', 0x27), ('"', 0x22), ('\\', 0x5c), ('0', 0), ('a', 7), ('b', 8), ('f', 0xc), ('n', 0xa),
    ('r', 0xd), ('t', 9), ('v', 0xb)]

/-- The escapes of C#. -/
inductive CSharp.Escape : List Char → List Char → List Nat → Prop
  | simple {c : Char} {n : Nat} {behind : List Char} (h : (c, n) ∈ simpleEscapes) :
      Escape [c] behind [n]
  | digits {ds behind : List Char} {n : Nat} (h : hexNumber? ds = some n) (hlength : ds.length ∈ [1,
      2, 3, 4]) (hend : ds.length = 4 ∨ ∀ c ∈ behind.head?, Json.Reader.hexValue? c = none) :
      Escape ('x' :: ds) behind [n]
  | short {ds behind : List Char} {n : Nat} (h : hexNumber? ds = some n) (hlength : ds.length = 4) :
      Escape ('u' :: ds) behind [n]
  | long {ds behind : List Char} {n : Nat} (h : hexNumber? ds = some n) (hlength : ds.length = 8)
      (hn : n ≤ 0x10ffff) : Escape ('U' :: ds) behind (units n)

/-- Whether a character ends a line in ECMAScript. -/
def Script.isTerminator (c : Char) : Bool :=
  c == '\n' || c == '\r' || c == '\u2028' || c == '\u2029'

/-- The characters that are escapes of ECMAScript on their own, with what they stand
for. -/
def Script.simpleEscapes : List (Char × Nat) :=
  [('\'', 0x27), ('"', 0x22), ('\\', 0x5c), ('b', 8), ('f', 0xc), ('n', 0xa), ('r', 0xd),
    ('t', 9), ('v', 0xb)]

/-- The escapes of ECMAScript. -/
inductive Script.Escape : List Char → List Char → List Nat → Prop
  | simple {c : Char} {n : Nat} {behind : List Char} (h : (c, n) ∈ simpleEscapes) :
      Escape [c] behind [n]
  | other {c : Char} {behind : List Char} (h : c ∉ simpleEscapes.map Prod.fst)
      (hmark : c ∉ ['x', 'u']) (hdigit : c.isDigit = false) (hend : isTerminator c = false) :
      Escape [c] behind (units c.toNat)
  | zero {behind : List Char} (hend : ∀ c ∈ behind.head?, c.isDigit = false) :
      Escape ['0'] behind [0]
  | digits {ds behind : List Char} {n : Nat} (h : hexNumber? ds = some n)
      (hlength : ds.length = 2) :
      Escape ('x' :: ds) behind [n]
  | short {ds behind : List Char} {n : Nat} (h : hexNumber? ds = some n) (hlength : ds.length = 4) :
      Escape ('u' :: ds) behind [n]
  | long {ds behind : List Char} {n : Nat} (h : hexNumber? ds = some n) (hds : ds ≠ [])
      (hn : n ≤ 0x10ffff) :
      Escape ('u' :: '\x7b' :: (ds ++ ['\x7d'])) behind (units n)
  | continued {line behind : List Char} (h : line ∈ [['\n'], ['\r'], ['\r', '\n'], ['\u2028'],
      ['\u2029']]) (hend : line = ['\r'] → behind.head? ≠ some '\n') : Escape line behind []

namespace Backend

/-- Whether a character ends a line in the language of a back-end. -/
def endsLine : Backend → Char → Bool
  | .cSharp => Text.isTerminator
  | .javaScript | .actionScript => Script.isTerminator

/-- The escapes in the language of a back-end. -/
def Escape : Backend → List Char → List Char → List Nat → Prop
  | .cSharp => CSharp.Escape
  | .javaScript | .actionScript => Script.Escape

/-- The literals of the language of a back-end: none of them has a character that ends a
line. -/
def literalRules (b : Backend) : LiteralRules :=
  ⟨fun c => b.endsLine c = false, b.Escape⟩

end Backend

/-- The literals of later editions of ECMAScript: all that may not stand for themselves
are line feed and carriage return. -/
def Script.laterRules : LiteralRules :=
  ⟨fun c => c ≠ '\n' ∧ c ≠ '\r', Script.Escape⟩

/-! ## Short escapes

A backslash and one character: the escapes that are written are short, and each language
reads them as the same character.
-/

namespace Text.Quoted

/-- The characters that are written after a backslash, with those that they are written
for. -/
def shorts : List (Char × Char) :=
  [('"', '"'), ('\\', '\\'), ('n', '\n'), ('r', '\r'), ('t', '\t')]

/-- A character is written as an escape of two or as itself. -/
theorem encodeChar_cases (c : Char) :
    (∃ e, (e, c) ∈ shorts ∧ encodeChar c = ['\\', e]) ∨
      c ∉ shorts.map Prod.snd ∧ encodeChar c = [c] := by
  by_cases h : c ∈ shorts.map Prod.snd
  · obtain ⟨⟨e, c⟩, hmem, rfl⟩ := List.mem_map.1 h
    refine Or.inl ⟨e, hmem, ?_⟩
    revert hmem
    simp only [shorts, List.mem_cons, Prod.mk.injEq, List.not_mem_nil, or_false]
    rintro (⟨rfl, rfl⟩ | ⟨rfl, rfl⟩ | ⟨rfl, rfl⟩ | ⟨rfl, rfl⟩ | ⟨rfl, rfl⟩) <;> rfl
  · refine Or.inr ⟨h, ?_⟩
    unfold encodeChar
    split
    all_goals first | rfl | exact absurd (by decide) h

theorem units_short {e c : Char} (h : (e, c) ∈ shorts) : units c.toNat = [c.toNat] := by
  have hall : ∀ p ∈ shorts, units p.2.toNat = [p.2.toNat] := by decide
  exact hall _ h

end Text.Quoted

open Text.Quoted (shorts encode encodeChar)

/-- Whether the escapes that are written mean in a language what they are written for,
and only that. -/
structure LiteralRules.ReadsShorts (r : LiteralRules) : Prop where
  /-- Something follows the backslash of an escape. -/
  nonempty : ∀ behind us, ¬r.Escape [] behind us
  /-- A short escape ends after its character, and stands for the character that it is
  written for. -/
  short : ∀ e c, (e, c) ∈ shorts → ∀ front behind us, r.Escape (e :: front) behind us ↔ front = [] ∧
    us = units c.toNat

/-- Whether a table of escapes has the short ones, each with what it is written for and
with nothing else. -/
def HasShorts (table : List (Char × Nat)) : Prop :=
  ∀ p ∈ shorts, (p.1, p.2.toNat) ∈ table ∧ ∀ q ∈ table, q.1 = p.1 → q.2 = p.2.toNat

instance (table : List (Char × Nat)) : Decidable (HasShorts table) :=
  inferInstanceAs (Decidable (∀ p ∈ shorts, (p.1, p.2.toNat) ∈ table ∧ ∀ q ∈ table,
    q.1 = p.1 → q.2 = p.2.toNat))

/-- A table with the short escapes has one entry for each of them. -/
theorem HasShorts.mem_iff {table : List (Char × Nat)} (ht : HasShorts table) {e c : Char}
    (h : (e, c) ∈ shorts) {n : Nat} : (e, n) ∈ table ↔ [n] = units c.toNat := by
  obtain ⟨hmem, honly⟩ := ht _ h
  rw [Text.Quoted.units_short h, List.singleton_inj]
  constructor
  · exact fun hn => honly _ hn rfl
  · rintro rfl
    exact hmem

/-- In C# a short escape spells its character and nothing else. -/
theorem CSharp.escape_short_iff {e c : Char} (h : (e, c) ∈ shorts) {front behind : List Char}
    {us : List Nat} : CSharp.Escape (e :: front) behind us ↔ front = [] ∧ us = units c.toNat := by
  have hmarks : e ∉ ['x', 'u', 'U'] := (by decide : ∀ p ∈ shorts, p.1 ∉ ['x', 'u', 'U']) _ h
  have hshorts : HasShorts simpleEscapes := by decide
  constructor
  · intro hescape
    cases hescape with
    | simple hn => exact ⟨rfl, (hshorts.mem_iff h).1 hn⟩
    | digits => exact absurd (by decide) hmarks
    | short => exact absurd (by decide) hmarks
    | long => exact absurd (by decide) hmarks
  · rintro ⟨rfl, rfl⟩
    rw [Text.Quoted.units_short h]
    exact .simple ((hshorts.mem_iff h).2 (Text.Quoted.units_short h).symm)

/-- In a script too. -/
theorem Script.escape_short_iff {e c : Char} (h : (e, c) ∈ shorts) {front behind : List Char}
    {us : List Nat} : Script.Escape (e :: front) behind us ↔ front = [] ∧ us = units c.toNat := by
  -- A letter of a short escape starts no other escape and ends no line.
  have hmarks : e ∉ ['x', 'u', '0'] := (by decide : ∀ p ∈ shorts, p.1 ∉ ['x', 'u', '0']) _ h
  have hline : isTerminator e = false := (by decide : ∀ p ∈ shorts, isTerminator p.1 = false) _ h
  have hshorts : HasShorts simpleEscapes := by decide
  have hmem : (e, c.toNat) ∈ simpleEscapes := (hshorts.mem_iff h).2 (Text.Quoted.units_short h).symm
  constructor
  -- Each other form of an escape starts with one of the letters that are excluded.
  · intro hescape
    cases hescape with
    | simple hn => exact ⟨rfl, (hshorts.mem_iff h).1 hn⟩
    | other hother => exact absurd (List.mem_map_of_mem hmem) hother
    | zero => exact absurd (by decide) hmarks
    | digits => exact absurd (by decide) hmarks
    | short => exact absurd (by decide) hmarks
    | long => exact absurd (by decide) hmarks
    | continued hcontinued =>
      have hends : ∀ line ∈ [['\n'], ['\r'], ['\r', '\n'], ['\u2028'], ['\u2029']],
          ∀ c ∈ line.head?, isTerminator c := by simp [isTerminator]
      exact absurd (hends _ hcontinued e rfl) (by simp [hline])
  · rintro ⟨rfl, rfl⟩
    rw [Text.Quoted.units_short h]
    exact .simple hmem

theorem CSharp.not_escape_nil {behind : List Char} {us : List Nat} : ¬CSharp.Escape [] behind us :=
  nofun

theorem Script.not_escape_nil {behind : List Char} {us : List Nat} :
    ¬Script.Escape [] behind us := by
  intro h
  cases h with
  | continued hcontinued => exact absurd hcontinued (by decide)

/-- The short escapes mean the same in all languages. -/
theorem Backend.readsShorts (b : Backend) : b.literalRules.ReadsShorts := by
  cases b
  case cSharp =>
    exact ⟨fun _ _ => CSharp.not_escape_nil, fun _ _ h _ _ _ => CSharp.escape_short_iff h⟩
  all_goals exact ⟨fun _ _ => Script.not_escape_nil, fun _ _ h _ _ _ => Script.escape_short_iff h⟩

theorem Script.readsShorts_laterRules : laterRules.ReadsShorts :=
  ⟨fun _ _ => not_escape_nil, fun _ _ h _ _ _ => escape_short_iff h⟩

/-! ## Insides of literals

What is written for the first character is read in one way, and by induction the rest
is.
-/

namespace LiteralRules

variable {r : LiteralRules} {c e : Char} {cs : List Char} {us : List Nat}

/-- The empty inside spells the empty text. -/
theorem inside_nil_iff : r.Inside [] us ↔ us = [] := by
  constructor
  · rintro ⟨⟩
    rfl
  · rintro rfl
    exact .nil

/-- A character that is no backslash spells itself, if it is plain. -/
theorem inside_cons_iff (hslash : c ≠ '\\') :
    r.Inside (c :: cs) us ↔ c ≠ '"' ∧ r.Plain c ∧ ∃ us', r.Inside cs us' ∧
    us = units c.toNat ++ us' := by
  constructor
  · intro h
    cases h with
    | plain hquote _ hc h => exact ⟨hquote, hc, _, h, rfl⟩
    | escape => exact absurd rfl hslash
  · rintro ⟨hquote, hc, us', h, rfl⟩
    exact .plain hquote hslash hc h

/-- A short escape is read as what it is written for. -/
theorem inside_short_iff (hr : r.ReadsShorts) (h : (e, c) ∈ shorts) :
    r.Inside ('\\' :: e :: cs) us ↔ ∃ us', r.Inside cs us' ∧ us = units c.toNat ++ us' := by
  constructor
  -- The inside starts with an escape, which has to be this one.
  · intro hinside
    generalize htext : '\\' :: e :: cs = text at hinside
    cases hinside with
    | nil => cases htext
    | plain _ hslash => exact absurd (List.cons.inj htext).1.symm hslash
    | @escape front behind us₁ us₂ hescape hinside =>
      have hsplit : e :: cs = front ++ behind := (List.cons.inj htext).2
      cases front with
      | nil => exact absurd hescape (hr.nonempty _ _)
      | cons e' front =>
        obtain ⟨rfl, hcs⟩ := List.cons.inj hsplit
        obtain ⟨rfl, rfl⟩ := (hr.short _ _ h _ _ _).1 hescape
        exact ⟨us₂, hcs ▸ hinside, rfl⟩
  · rintro ⟨us', hinside, rfl⟩
    exact .escape ((hr.short _ _ h [] cs _).2 ⟨rfl, rfl⟩) hinside

/-- What is written for a text is read as this text, and as no other, if its characters
may stand for themselves. -/
theorem inside_encode_iff (hr : r.ReadsShorts) :
    ∀ {cs : List Char} {us : List Nat}, r.Inside (encode cs) us ↔
    us = unitsOf cs ∧ ∀ c ∈ cs, c ∉ shorts.map Prod.snd → r.Plain c
  | [], us => by simp [encode, unitsOf, inside_nil_iff]
  | c :: cs, us => by
    have hencode : encode (c :: cs) = encodeChar c ++ encode cs := rfl
    have hunits : unitsOf (c :: cs) = units c.toNat ++ unitsOf cs := rfl
    rw [hencode, hunits, List.forall_mem_cons]
    -- A character has a short escape, or is written as itself.
    rcases Text.Quoted.encodeChar_cases c with ⟨e, hshort, hchar⟩ | ⟨hplain, hchar⟩
    · have hmem : c ∈ shorts.map Prod.snd := List.mem_map.2 ⟨_, hshort, rfl⟩
      rw [hchar, List.cons_append, List.cons_append, List.nil_append, inside_short_iff hr hshort]
      constructor
      · rintro ⟨us', hinside, rfl⟩
        obtain ⟨rfl, hall⟩ := (inside_encode_iff hr).1 hinside
        exact ⟨rfl, fun hc => absurd hmem hc, hall⟩
      · rintro ⟨rfl, -, hall⟩
        exact ⟨_, (inside_encode_iff hr).2 ⟨rfl, hall⟩, rfl⟩
    -- The quote and the backslash have short escapes.
    · have hquote : c ≠ '"' := by
        rintro rfl
        exact hplain (by decide)
      have hslash : c ≠ '\\' := by
        rintro rfl
        exact hplain (by decide)
      rw [hchar, List.cons_append, List.nil_append, inside_cons_iff hslash]
      constructor
      · rintro ⟨-, hc, us', hinside, rfl⟩
        obtain ⟨rfl, hall⟩ := (inside_encode_iff hr).1 hinside
        exact ⟨rfl, fun _ => hc, hall⟩
      · rintro ⟨rfl, hc, hall⟩
        exact ⟨hquote, hc hplain, _, (inside_encode_iff hr).2 ⟨rfl, hall⟩, rfl⟩

end LiteralRules

/-! ## Lines in literals

Line feeds and carriage returns are escaped, and all other characters that end a line
stand for themselves, which a language may forbid.
-/

/-- What ends a line in any of the languages is a line terminator. -/
theorem Backend.isTerminator_of_endsLine {b : Backend} {c : Char} (h : b.endsLine c) :
    Text.isTerminator c := by
  cases b
  case cSharp => exact h
  all_goals
    simp only [endsLine, Script.isTerminator, Bool.or_eq_true, beq_iff_eq] at h
    rcases h with ((rfl | rfl) | rfl) | rfl <;> decide

namespace Text

/-- A character is in an encoded text if it was in the text and has no short escape. -/
theorem mem_encode_iff {c : Char} {cs : List Char} (hslash : c ≠ '\\')
    (hletter : c ∉ shorts.map Prod.fst) :
    c ∈ encode cs ↔ c ∈ cs ∧ c ∉ shorts.map Prod.snd := by
  -- No character of an escape is the one in question, neither the backslash nor the
  -- letter.
  have hchar : ∀ d, c ∈ encodeChar d ↔ c = d ∧ c ∉ shorts.map Prod.snd := by
    intro d
    rcases Quoted.encodeChar_cases d with ⟨e, hshort, hd⟩ | ⟨hplain, hd⟩
    · have hce : c ≠ e := by
        rintro rfl
        exact hletter (List.mem_map.2 ⟨_, hshort, rfl⟩)
      have hmem : d ∈ shorts.map Prod.snd := List.mem_map.2 ⟨_, hshort, rfl⟩
      rw [hd]
      constructor
      · intro hc
        simp [hslash, hce] at hc
      · rintro ⟨rfl, hc⟩
        exact absurd hmem hc
    · rw [hd, List.mem_singleton]
      exact ⟨fun h => ⟨h, h ▸ hplain⟩, And.left⟩
  simp only [encode, List.mem_flatMap, hchar]
  constructor
  · rintro ⟨d, hd, rfl, hc⟩
    exact ⟨hd, hc⟩
  · rintro ⟨hc, hplain⟩
    exact ⟨c, hc, rfl, hplain⟩

/-- A quoted text spells what its encoded text spells as an inside. -/
theorem spells_quote_iff_inside {r : LiteralRules} {s : String} {us : List Nat} :
    r.Spells (quote s) us ↔ r.Inside (encode s.toList) us := by
  have hquote : (quote s).toList = '"' :: encode s.toList ++ ['"'] := String.toList_ofList
  constructor
  · rintro ⟨inside, htext, hinside⟩
    rw [hquote, List.append_cancel_right_eq] at htext
    exact (List.cons.inj htext).2 ▸ hinside
  · exact fun hinside => ⟨_, hquote, hinside⟩

/-- Of the characters that end a line, line feed and carriage return have an escape. -/
theorem mem_shorts_iff_of_isTerminator {c : Char} (h : isTerminator c) :
    c ∈ shorts.map Prod.snd ↔ c = '\n' ∨ c = '\r' := by
  simp only [isTerminator, Bool.or_eq_true, beq_iff_eq] at h
  rcases h with (((rfl | rfl) | rfl) | rfl) | rfl <;> decide

/-- A literal has the line terminators of its text but for those with a short escape. -/
theorem mem_quote_iff_of_isTerminator {c : Char} (h : isTerminator c) {s : String} :
    c ∈ (quote s).toList ↔ c ∈ s.toList ∧ c ≠ '\n' ∧ c ≠ '\r' := by
  have hquote : c ≠ '"' := by
    rintro rfl
    exact absurd h (by decide)
  have hslash : c ≠ '\\' := by
    rintro rfl
    exact absurd h (by decide)
  have hletter : c ∉ shorts.map Prod.fst := fun hmem => by
    have hall : ∀ e ∈ shorts.map Prod.fst, isTerminator e = false := by simp [shorts, isTerminator]
    exact absurd h (by simp [hall c hmem])
  rw [← not_or, ← mem_shorts_iff_of_isTerminator h, ← mem_encode_iff hslash hletter, quote,
    String.toList_ofList]
  simp [hquote]

/-- What is written for a text is read as the text in every language, but for the ends
of lines: the characters that end a line are there as they are, except line feed and
carriage return. So it is a literal exactly if the text has no such characters; and in
later editions of ECMAScript it always is. -/
theorem quote_spells_iff (s : String) :
    (∀ (b : Backend) (us : List Nat),
      b.literalRules.overLines.Spells (quote s) us ↔ us = unitsOf s.toList) ∧
    (∀ (b : Backend) (c : Char), b.endsLine c →
      (c ∈ (quote s).toList ↔ c ∈ s.toList ∧ c ≠ '\n' ∧ c ≠ '\r')) ∧
    (∀ (b : Backend) (us : List Nat), b.literalRules.Spells (quote s) us ↔
      us = unitsOf s.toList ∧ ∀ c ∈ s.toList, b.endsLine c → c = '\n' ∨ c = '\r') ∧
    ∀ us : List Nat, Script.laterRules.Spells (quote s) us ↔ us = unitsOf s.toList := by
  refine ⟨fun b us => ?_, fun b c hc => ?_, fun b us => ?_, fun us => ?_⟩
  -- If lines may continue, every character is plain that is written as itself.
  · have hover : b.literalRules.overLines.ReadsShorts :=
      ⟨b.readsShorts.nonempty, b.readsShorts.short⟩
    rw [spells_quote_iff_inside, LiteralRules.inside_encode_iff hover]
    exact and_iff_left fun _ _ _ => trivial
  · exact mem_quote_iff_of_isTerminator (Backend.isTerminator_of_endsLine hc)
  · rw [spells_quote_iff_inside, LiteralRules.inside_encode_iff b.readsShorts]
    refine and_congr_right fun _ => forall₂_congr fun c _ => ?_
    -- What ends a line is not plain, unless it is escaped.
    constructor
    · intro hplain hends
      refine (mem_shorts_iff_of_isTerminator (Backend.isTerminator_of_endsLine hends)).1 ?_
      refine Decidable.byContradiction fun hshort => ?_
      have hfalse : b.endsLine c = false := hplain hshort
      exact absurd hends (by simp [hfalse])
    · intro hends hshort
      refine Bool.eq_false_iff.2 fun hc => hshort ?_
      exact (mem_shorts_iff_of_isTerminator (Backend.isTerminator_of_endsLine hc)).2 (hends hc)
  · rw [spells_quote_iff_inside, LiteralRules.inside_encode_iff Script.readsShorts_laterRules]
    refine and_iff_left fun c _ hshort => ?_
    constructor <;> rintro rfl <;> exact hshort (by decide)

/-- A text with quotes, a backslash and a line feed has a literal of one line in every
language. -/
theorem spells_quote_lineFeed :
    (∀ b : Backend, b.literalRules.Spells (quote "\"a\\b\"\n") (unitsOf "\"a\\b\"\n".toList)) ∧
      '\n' ∉ (quote "\"a\\b\"\n").toList := by
  constructor
  · intro b
    refine ((quote_spells_iff _).2.2.1 b _).2 ⟨rfl, ?_⟩
    cases b <;> simp [Backend.endsLine, isTerminator, Script.isTerminator]
  · intro h
    exact (((quote_spells_iff _).2.1 .cSharp '\n' (by decide)).1 h).2.1 rfl

/-- A line separator is written as it is, so what is written is no literal in any of the
languages; neither is it one of C# for a next line. -/
theorem not_spells_quote_separator :
    (∀ (b : Backend) (us : List Nat), ¬b.literalRules.Spells (quote "a\u2028b") us) ∧
      ∀ us : List Nat, ¬Backend.cSharp.literalRules.Spells (quote "a\u0085b") us := by
  have hnot : ∀ (b : Backend) (s : String) (us : List Nat) (c : Char), c ∈ s.toList →
      c ∉ shorts.map Prod.snd → b.endsLine c = true → ¬b.literalRules.Spells (quote s) us := by
    intro b s us c hc hshort hends hspells
    obtain ⟨-, hplain⟩ :=
      (LiteralRules.inside_encode_iff b.readsShorts).1 (spells_quote_iff_inside.1 hspells)
    exact absurd hends (by simpa [Backend.literalRules] using hplain c hc hshort)
  constructor
  · intro b us
    exact hnot b _ us '\u2028' (by decide) (by decide) (by cases b <;> decide)
  · intro us
    exact hnot .cSharp _ us '\u0085' (by decide) (by decide) (by decide)

end Text

end Classwright
