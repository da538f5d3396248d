import Classwright.Proofs.Listing
import Classwright.Proofs.Literals

/-!
# Lists of literals

A list is written as literals with a comma and a space between each two. A scanner that
knows quotes, escapes and what stands between two literals reads the items back
(`Text.readList?`). Nothing that is written for an item ends its literal, so in every
language the text falls into literals in one way only
(`LiteralRules.spellsList_quoteList_iff`), and different lists are written differently
(`Text.quoteList_reads_uniquely`).
-/

namespace Classwright

open Text.Quoted (shorts encode encodeChar decode)
open Text (quote quoteList joinWith)

/-! ## Texts between separators

What is written for a list are its items between commas, and what is written for an item
begins and ends with a quote.
-/

namespace Text

/-- The characters of texts with a comma and a space before each. -/
def listed (texts : List String) : List Char :=
  texts.flatMap fun s => ',' :: ' ' :: s.toList

/-- A list of texts with commas, as characters. -/
theorem toList_intercalate_cons (s : String) : ∀ texts : List String,
    (", ".intercalate (s :: texts)).toList = s.toList ++ listed texts
  | [] => by rw [String.intercalate_singleton, listed, List.flatMap_nil, List.append_nil]
  | next :: rest => by
    have hrest := toList_intercalate_cons next rest
    rw [String.intercalate_cons_cons, String.toList_append, String.toList_append, hrest]
    simp [listed]

theorem toList_quote (s : String) : (quote s).toList = '"' :: (encode s.toList ++ ['"']) :=
  String.toList_ofList

/-- A list of literals, as characters. -/
theorem toList_quoteList_cons (s : String) (items : List String) :
    (quoteList (s :: items)).toList =
    '"' :: (encode s.toList ++ '"' :: listed (items.map quote)) := by
  rw [quoteList, joinWith_eq_intercalate, List.map_cons, toList_intercalate_cons, toList_quote]
  simp

/-! ## A scanner

The scanner decodes one literal and goes on behind the separator. Each literal takes at
least one character, which bounds the number of steps.
-/

/-- A literal has at least its closing quote. -/
theorem Quoted.length_lt_of_decode {cs item rest : List Char} (h : decode cs = some (item, rest)) :
    rest.length < cs.length := by
  -- Each case consumes at least one character.
  induction cs using decode.induct generalizing item with
  | case1 => cases h
  | case2 behind =>
    obtain ⟨-, rfl⟩ := Prod.mk.inj (Option.some.inj h)
    exact Nat.lt_succ_self _
  | case3 e behind ih =>
    simp only [decode, Option.bind_eq_bind, Option.bind_eq_some_iff] at h
    obtain ⟨c, -, ⟨item', rest'⟩, hread, hpair⟩ := h
    obtain ⟨-, rfl⟩ := Prod.mk.inj (Option.some.inj hpair)
    exact Nat.lt_succ_of_lt (Nat.lt_succ_of_lt (ih hread))
  | case4 c behind hquote hescape ih =>
    rw [decode] at h
    · simp only [Option.bind_eq_bind, Option.bind_eq_some_iff] at h
      obtain ⟨⟨item', rest'⟩, hread, hpair⟩ := h
      obtain ⟨-, rfl⟩ := Prod.mk.inj (Option.some.inj hpair)
      exact Nat.lt_succ_of_lt (ih hread)
    · exact hquote
    · exact hescape

/-- Reads literals up to the end of a text, with a comma and a space between each two. -/
def Quoted.decodeList : List Char → Option (List String)
  | '"' :: inside =>
    match _ : decode inside with
    | some (item, []) => some [String.ofList item]
    | some (item, ',' :: ' ' :: rest) => (decodeList rest).map (String.ofList item :: ·)
    | _ => none
  | _ => none
termination_by cs => cs.length
decreasing_by
  have hlength := length_lt_of_decode ‹_›
  simp only [List.length_cons] at hlength ⊢
  omega

/-- The texts that a list of literals stands for. An empty text is the empty list. -/
def readList? (text : String) : Option (List String) :=
  if text.isEmpty then some [] else Quoted.decodeList text.toList

/-- Decoding a list of literals gives their texts back, by induction on the list. -/
theorem decodeList_listed (s : String) : ∀ items : List String,
    Quoted.decodeList ('"' :: (encode s.toList ++ '"' :: listed (items.map quote))) =
    some (s :: items)
  | [] => by
    rw [List.map_nil, listed, List.flatMap_nil, Quoted.decodeList, Quoted.decode_encode]
    simp
  | next :: items => by
    have hlisted : listed ((next :: items).map quote) =
        ',' :: ' ' :: '"' :: (encode next.toList ++ '"' :: listed (items.map quote)) := by
      simp [listed, toList_quote]
    rw [hlisted, Quoted.decodeList, Quoted.decode_encode]
    simp [decodeList_listed next items]

/-- Reading a list of literals gives their texts back. -/
theorem readList?_quoteList : ∀ items : List String, readList? (quoteList items) = some items
  | [] => by simp [readList?, quoteList, joinWith]
  | s :: items => by
    rw [readList?, toList_quoteList_cons, decodeList_listed, if_neg]
    simp [← String.toList_eq_nil_iff, toList_quoteList_cons]

end Text

/-! ## Literals one after the other

The inside of a literal ends at the first quote that is not escaped, so the first
literal is found in one way only, and by induction all of them are.
-/

/-- What is written for the first character of a text: a short escape, or the character
itself, which is no quote and no backslash. -/
theorem Text.Quoted.encode_cons_cases (c : Char) (cs : List Char) :
    (∃ e, (e, c) ∈ shorts ∧ encode (c :: cs) = '\\' :: e :: encode cs) ∨
      (c ≠ '"' ∧ c ≠ '\\') ∧ encode (c :: cs) = c :: encode cs := by
  have hencode : encode (c :: cs) = encodeChar c ++ encode cs := rfl
  rcases encodeChar_cases c with ⟨e, hshort, hchar⟩ | ⟨hplain, hchar⟩
  · exact Or.inl ⟨e, hshort, by rw [hencode, hchar]; rfl⟩
  · refine Or.inr ⟨⟨?_, ?_⟩, by rw [hencode, hchar]; rfl⟩
    all_goals
      rintro rfl
      exact hplain (by decide)

namespace LiteralRules

variable {r : LiteralRules} {inside cs behind behind' : List Char} {us : List Nat}
    {uss : List (List Nat)}

/-- An inside with a quote behind it ends where that of a written literal ends. -/
theorem Inside.eq_encode (hr : r.ReadsShorts) (h : r.Inside inside us)
    (heq : inside ++ '"' :: behind = encode cs ++ '"' :: behind') : inside = encode cs ∧
    behind = behind' := by
  -- What stands first on either side is the closing quote, a backslash before an
  -- escape, or neither.
  induction h generalizing cs with
  | nil =>
    cases cs with
    | nil => exact ⟨rfl, (List.cons.inj heq).2⟩
    | cons d ds =>
      rcases Text.Quoted.encode_cons_cases d ds with ⟨e, -, hd⟩ | ⟨⟨hquote, -⟩, hd⟩
      · rw [hd] at heq
        cases heq
      · rw [hd] at heq
        exact absurd (List.cons.inj heq).1.symm hquote
  | @plain c front us' hquote hslash _ _ ih =>
    cases cs with
    | nil => exact absurd (List.cons.inj heq).1 hquote
    | cons d ds =>
      rcases Text.Quoted.encode_cons_cases d ds with ⟨e, -, hd⟩ | ⟨-, hd⟩
      · rw [hd] at heq
        exact absurd (List.cons.inj heq).1 hslash
      · rw [hd] at heq ⊢
        obtain ⟨rfl, htail⟩ := List.cons.inj heq
        obtain ⟨rfl, hbehind⟩ := ih htail
        exact ⟨rfl, hbehind⟩
  | @escape e front us₁ us₂ hescape _ ih =>
    cases cs with
    | nil => cases heq
    | cons d ds =>
      rcases Text.Quoted.encode_cons_cases d ds with ⟨e', hshort, hd⟩ | ⟨⟨-, hslash⟩, hd⟩
      · rw [hd] at heq ⊢
        cases e with
        | nil => exact absurd hescape (hr.nonempty _ _)
        | cons e₀ es =>
          obtain ⟨rfl, htail⟩ := List.cons.inj (List.cons.inj heq).2
          obtain ⟨rfl, -⟩ := (hr.short _ _ hshort _ _ _).1 hescape
          obtain ⟨rfl, hbehind⟩ := ih htail
          exact ⟨rfl, hbehind⟩
      · rw [hd] at heq
        exact absurd (List.cons.inj heq).1.symm hslash

/-- A literal at the front of a text that starts with a written one is the written one. -/
theorem Spells.eq_quote (hr : r.ReadsShorts) {literal s : String} (h : r.Spells literal us)
    (heq : literal.toList ++ behind = (quote s).toList ++ behind') : literal = quote s ∧
    behind = behind' := by
  obtain ⟨inside, htext, hinside⟩ := h
  rw [htext, Text.toList_quote] at heq
  have hbehind : inside ++ '"' :: behind = encode s.toList ++ '"' :: behind' := by simpa using heq
  obtain ⟨rfl, rfl⟩ := hinside.eq_encode hr hbehind
  exact ⟨String.toList_inj.1 (by rw [htext, Text.toList_quote]; rfl), rfl⟩

/-- Whether a text is literals with a comma and a space between each two, of texts with
the given units. -/
def SpellsList (r : LiteralRules) (text : String) (uss : List (List Nat)) : Prop :=
  ∃ literals : List String, List.Forall₂ r.Spells literals uss ∧ text = ", ".intercalate literals

/-- Where literals are put together to the text of quoted ones, they are these. -/
theorem eq_map_quote_of_listed (hr : r.ReadsShorts) :
    ∀ {literals items : List String} {uss : List (List Nat)}, List.Forall₂ r.Spells literals uss →
    Text.listed literals = Text.listed (items.map quote) →
      literals = items.map quote
  | [], [], _, _, _ => rfl
  | [], _ :: _, _, _, h => nomatch h
  | _ :: _, [], _, _, h => nomatch h
  | literal :: literals, s :: items, _, .cons hliteral hrest, h => by
    have hbehind : literal.toList ++ Text.listed literals = (quote s).toList ++
        Text.listed (items.map quote) := by
      simpa [Text.listed] using h
    obtain ⟨rfl, htail⟩ := hliteral.eq_quote hr hbehind
    rw [eq_map_quote_of_listed hr hrest htail, List.map_cons]

/-- A written list falls into literals in one way only. -/
theorem eq_map_quote_of_quoteList_eq (hr : r.ReadsShorts) {literals items : List String}
    (h : List.Forall₂ r.Spells literals uss) (htext : quoteList items = ", ".intercalate literals) :
    literals = items.map quote := by
  have hchars : (quoteList items).toList = (", ".intercalate literals).toList := by rw [htext]
  cases h with
  | nil =>
    cases items with
    | nil => rfl
    | cons s items =>
      rw [Text.toList_quoteList_cons] at hchars
      cases hchars
  | @cons literal us literals uss hliteral hrest =>
    rw [Text.toList_intercalate_cons] at hchars
    -- The list and the literals have the same length, or one of the texts would be
    -- empty.
    cases items with
    | nil =>
      obtain ⟨inside, hquotes, -⟩ := hliteral
      rw [hquotes] at hchars
      cases hchars
    | cons s items =>
      have hbehind : literal.toList ++ Text.listed literals =
          (quote s).toList ++ Text.listed (items.map quote) := by
        rw [← hchars, quoteList, Text.joinWith_eq_intercalate, List.map_cons,
          Text.toList_intercalate_cons]
      obtain ⟨rfl, htail⟩ := hliteral.eq_quote hr hbehind
      rw [eq_map_quote_of_listed hr hrest htail, List.map_cons]

/-- A list of literals spells what its literals spell one by one. -/
theorem spellsList_quoteList_iff (hr : r.ReadsShorts) {items : List String} :
    r.SpellsList (quoteList items) uss ↔ List.Forall₂ r.Spells (items.map quote) uss := by
  constructor
  · rintro ⟨literals, hspells, htext⟩
    exact eq_map_quote_of_quoteList_eq hr hspells htext ▸ hspells
  · exact fun h => ⟨_, h, Text.joinWith_eq_intercalate ", " _⟩

/-- Where any character may stand for itself, the written list is read as the items, and
as nothing else. -/
theorem spellsList_quoteList_iff_eq (hr : r.ReadsShorts) (hplain : ∀ c, r.Plain c)
    {items : List String} :
    r.SpellsList (quoteList items) uss ↔ uss = items.map fun s => unitsOf s.toList := by
  rw [spellsList_quoteList_iff hr, List.forall₂_map_left_iff]
  refine forall₂_iff_eq_map fun s us => ?_
  rw [Text.spells_quote_iff_inside, inside_encode_iff hr]
  exact and_iff_left fun c _ _ => hplain c

end LiteralRules

namespace Text

/-- A written list is read back by the scanner. In every language, where characters that
end a line may stand in a literal, it is a list of literals of the items in their order,
and of nothing else. So no two lists are written the same. -/
theorem quoteList_reads_uniquely (items : List String) :
    readList? (quoteList items) = some items ∧
      (∀ (b : Backend) (uss : List (List Nat)),
        b.literalRules.overLines.SpellsList (quoteList items) uss ↔
          uss = items.map fun s => unitsOf s.toList) ∧
      ∀ others : List String, quoteList others = quoteList items ↔ others = items := by
  refine ⟨readList?_quoteList items, fun b uss => ?_,
    fun others => ⟨fun h => ?_, congrArg quoteList⟩⟩
  · have hshorts : b.literalRules.overLines.ReadsShorts :=
      ⟨b.readsShorts.nonempty, b.readsShorts.short⟩
    exact LiteralRules.spellsList_quoteList_iff_eq hshorts fun _ => trivial
  · have hread : some others = some items := by
      rw [← readList?_quoteList others, h, readList?_quoteList]
    exact Option.some.inj hread

/-- A backslash at the end of an item and quotes in one that looks like what stands
between two are escaped. -/
example : quoteList ["a\\", "\", \"", ""] = "\"a\\\\\", \"\\\", \\\"\", \"\"" := by decide

/-- No item is not the same as an empty one. -/
example : readList? "" = some [] ∧ readList? "\"\"" = some [""] := by cbv

end Text

end Classwright
