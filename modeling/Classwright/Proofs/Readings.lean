import Classwright.Proofs.Derivation
import Classwright.Proofs.Outcome
import Classwright.Schema.Reader

/-!
# What documents stand for

`Schema.Written.document?` gives the document that a value of the grammar stands for, if
it has the form of one. The reader of documents makes the same of every text that is
this value (`Schema.toOption_ofText`).

The functions in `Schema.Written` follow the readers one by one, on values in place of
texts, so each reader has one lemma: from a text that spells a value, it does what its
function gives for the value, and stops where the function gives nothing.
-/

namespace Classwright

open Json (Raw Literal Scalar Closed Spaced Standing)
open Json.Raw (itemTokens memberTokens)
open Json.Reader

/-- Whether a value is `null`. -/
def Json.Raw.isNull : Raw → Bool
  | .scalar .null => true
  | _ => false

namespace Schema

/-! ## Documents as they are written

The functions are structural in the value, with a limit on the depth where the readers
have one.
-/

namespace Written

variable {α δ φ : Type}

/-- The text that a value stands for, if it is one. -/
def text? : Raw → Option String
  | .scalar (.text l) => l.text?
  | _ => none

/-- What a value stands for that may be `null`. -/
def optional? (read? : Raw → Option α) (v : Raw) : Option (Option α) :=
  if v.isNull then some none else (read? v).map some

/-- The map that a value stands for; `null` and an empty list stand for the empty map. -/
def map? (read? : Nat → Raw → Option α) : Nat → Raw → Option (OrderedMap α)
  | _, .scalar .null => some .empty
  | _ + 1, .list [] => some .empty
  | levels + 1, .object members => (Raw.members? (read? levels) members).map .ofList
  | _, _ => none

/-- The record that a value stands for: `ofMembers?` for an object, `ofItems?` for a
list. -/
def record? (ofMembers? : Nat → List (Literal × Raw) → Option α)
    (ofItems? : Nat → List Raw → Option α) :
    Nat → Raw → Option α
  | levels + 1, .object members => ofMembers? levels members
  | levels + 1, .list items => ofItems? levels items
  | _, _ => none

/-- Folds members into a draft. A field may not be there twice; a member without a field
is passed over. -/
def fields? (field? : String → Option φ) (seen : δ → φ → Bool) (read? : δ → φ → Raw → Option δ) :
    List (Literal × Raw) → δ → Option δ
  | [], draft => some draft
  | (k, v) :: rest, draft => do
    match field? (← k.text?) with
    | none => fields? field? seen read? rest draft
    | some field =>
      if seen draft field then none
      else fields? field? seen read? rest (← read? draft field v)

/-- Folds items into a draft, one for each field; there may not be more items than
fields. -/
def itemFields? (read? : δ → φ → Raw → Option δ) : List φ → List Raw → δ → Option δ
  | _, [], draft => some draft
  | [], _ :: _, _ => none
  | field :: fields, v :: rest, draft => do itemFields? read? fields rest (← read? draft field v)

/-- What a value stands for as a field of a property. -/
def propertyValue? (levels : Nat) (v : Raw) : PropertyField → Option Json
  | .type | .object | .description => (optional? text? v).map fun s? => s?.elim .null .text
  | .array | .required | .default => v.json? levels

/-- Takes a field of a property into a draft. -/
def propertyField? (levels : Nat) (draft : PropertyDraft) (field : PropertyField) (v : Raw) :
    Option PropertyDraft := do
  let value ← propertyValue? levels v field
  (draft.set field value fun _ => elementOf value).toOption

/-- The property that a value stands for. -/
def property? : Nat → Raw → Option PropertyDef :=
  record?
    (fun levels members => do
      return (← fields? PropertyField.ofName? (fun d f => d.seen.contains f) (propertyField? levels)
        members {}).finish)
    (fun levels items => do
      return (← itemFields? (propertyField? levels) PropertyField.all items {}).finish)

/-- Takes a field of an object into a draft. -/
def objectField? (levels : Nat) (draft : Read.ObjectDraft) (field : Read.ObjectField) (v : Raw) :
    Option Read.ObjectDraft :=
  let seen := field :: draft.seen
  match field with
  | .description => do return ⟨{ draft.object with description? := ← optional? text? v }, seen⟩
  | .properties => do return ⟨{ draft.object with properties := ← map? property? levels v }, seen⟩

/-- The object that a value stands for. -/
def object? : Nat → Raw → Option ObjectDef :=
  record?
    (fun levels members => do
      let draft ← fields? Read.ObjectField.ofName? (fun d f => d.seen.contains f)
        (objectField? levels) members {}
      return draft.object)
    (fun levels items => do
      return (← itemFields? (objectField? levels) [.description, .properties] items {}).object)

/-- The namespace that a value stands for. -/
def namespace? (levels : Nat) (v : Raw) : Option Namespace := do
  Namespace.ofJson? (← v.json? levels)

/-- Takes a part of a document into a draft. -/
def documentField? (levels : Nat) (draft : Read.DocumentDraft)
    (field : Read.DocumentField) (v : Raw) :
    Option Read.DocumentDraft :=
  let seen := field :: draft.seen
  match field with
  | .objects => do return { draft with objects? := ← optional? (map? object? levels) v, seen }
  | .components =>
    do return { draft with components? := ← optional? (map? namespace? levels) v, seen }

/-- The parts of a document that a value stands for; a list has to have both parts. -/
def draft? : Nat → Raw → Option Read.DocumentDraft :=
  record?
    (fun levels members => do
      fields? Read.DocumentField.ofName? (fun d f => d.seen.contains f)
        (documentField? levels) members {})
    (fun levels items => do
      let draft ← itemFields? (documentField? levels) [.objects, .components] items {}
      if draft.seen.length < 2 then none else some draft)

/-- The document that a value stands for: both parts have to be there. -/
def document? (v : Raw) : Option Document := do
  let draft ← draft? maxLevels v
  return ⟨← draft.objects?, ← draft.components?⟩

end Written

/-! ## Whole texts

Behind the value that a text spells there is nothing but a gap.
-/

/-- What is read from a text is what the value that it is stands for. -/
theorem toOption_run {α : Type} {r : Json.Reader α} {read? : Raw → Option α} (h : Reads r read?)
    {text : String} {v : Raw} (hv : v.Spells text) : (run r text).toOption = read? v := by
  -- Nothing stands behind the value, so its reading ends the text.
  have hread := @h v [] nofun (Json.Cursor.start text) (by rw [List.append_nil]; exact hv)
  cases hx : read? v with
  | none =>
    rw [hx] at hread
    obtain ⟨stop, hstop⟩ := hread
    cases hrun : run r text with
    | error fault => rfl
    | ok x =>
      obtain ⟨c, hc, -⟩ := run_eq_ok_iff.1 hrun
      rw [hstop] at hc
      cases hc
  | some x =>
    rw [hx] at hread
    obtain ⟨c, hc, hspaced⟩ := hread
    rw [run_eq_ok_iff.2 ⟨c, hc, Json.Cursor.rest_skipGap c ▸ hspaced.standing⟩]
    rfl

/-! ## What the readers do

The first character decides what a reader expects to find.
-/

/-- Of the scalars only `null` starts with its first letter, and only strings start with
a quote. -/
theorem eq_of_first (s : Scalar) :
    (s.first = 'n' → s = .null) ∧ (s.first = '"' → ∃ l, s = .text l) := by
  cases s with
  | null => exact ⟨fun _ => rfl, fun h => absurd h (by decide)⟩
  | bool b => cases b <;> exact ⟨fun h => absurd h (by decide), fun h => absurd h (by decide)⟩
  | text l =>
    -- A text starts with a quote.
    have hquote : (Scalar.text l).first ≠ 'n' := by
      intro h
      cases h
    exact ⟨fun h => absurd h hquote, fun _ => ⟨l, rfl⟩⟩
  | number n =>
    -- A number starts with its sign or a digit.
    obtain ⟨c, rest, hchars, hc⟩ := n.exists_chars
    have hfirst : (Scalar.number n).first = c := by
      rw [Scalar.first, Scalar.chars, hchars]
      rfl
    rw [hfirst]
    have hnot : ¬('n' = '-' ∨ 'n'.isDigit) ∧ ¬('"' = '-' ∨ '"'.isDigit) := by decide
    constructor
    · rintro rfl
      exact absurd hc hnot.1
    · rintro rfl
      exact absurd hc hnot.2

namespace Read

open Written (text? optional? map? record? fields? itemFields?)

variable {α δ φ : Type} {ts : List (List Char)} {P : List Char → Prop}

theorem does_pure {x : α} : Does P (pure x) (some x) P :=
  .pure fun _ => id

/-- A scalar of the wrong kind is refused. -/
theorem does_refuse {s : Scalar} {expected : Json.Expected} {Q : List Char → Prop}
    (hts : Closed ts) :
    Does (Standing ((Raw.scalar s).tokens ++ ts)) (refuse expected s.first : Json.Reader α)
    none Q := by
  have hread := does_scalarToken s hts
  cases hvalue : s.value? with
  | none =>
    rw [hvalue] at hread
    exact .bind_none hread
  | some v =>
    rw [hvalue] at hread
    exact .bind hread .failHere

/-- A text is read from a string. -/
theorem reads_text : Reads text text? := by
  intro v ts hts
  refine .peekToken ?_
  rw [Raw.head?_tokens]
  -- The first letter decides what is read: a quote starts a text, anything else is
  -- refused.
  cases v with
  | list items => exact .failHere
  | object members => exact .failHere
  | scalar s =>
    split
    · contradiction
    · next heq =>
      obtain ⟨l, rfl⟩ := (eq_of_first s).2 (Option.some.inj heq)
      exact does_stringToken l
    · next heq => exact absurd (Option.some.inj heq) (s.first_ne (by decide))
    · next heq => exact absurd (Option.some.inj heq) (s.first_ne (by decide))
    · next hquote _ _ heq =>
      obtain rfl := Option.some.inj heq
      -- What starts with no quote is no text.
      have hnone : text? (.scalar s) = none := by
        cases s with
        | text l => exact absurd rfl hquote
        | null => rfl
        | bool b => rfl
        | number n => rfl
      rw [hnone]
      exact does_refuse hts

theorem does_null : Does (Standing ((Raw.scalar .null).tokens ++ ts)) null (some ()) (Spaced ts) :=
  .token fun _ => .bind .drop (does_word ['u', 'l', 'l'])

/-- A value that may be absent is read from `null` or as it is. -/
theorem reads_optional {read : Json.Reader α} {read? : Raw → Option α} (h : Reads read read?) :
    Reads (optional read) (optional? read?) := by
  intro v ts hts
  refine .peekToken ?_
  rw [Raw.head?_tokens]
  -- Only `null` starts with the letter that is looked for.
  by_cases hnull : v.isNull
  · obtain rfl : v = .scalar .null := by
      unfold Raw.isNull at hnull
      split at hnull
      · rfl
      · cases hnull
    exact .bind does_null does_pure
  · have hfirst : v.first ≠ 'n' := by
      intro hn
      cases v with
      | scalar s =>
        obtain rfl := (eq_of_first s).1 hn
        exact hnull rfl
      | list items => cases hn
      | object members => cases hn
    rw [optional?, if_neg hnull]
    split
    · next heq => exact absurd (Option.some.inj heq) hfirst
    · exact ((h hts).mono (fun _ => Standing.spaced) fun _ => id).map

/-- No list or object is opened if none may be. -/
theorem does_enter_zero {Q : List Char → Prop} {f : Nat → Json.Reader α} :
    Does P (enter 0 >>= f) none Q :=
  .bind_none (Q := Q) .failPeek

theorem map?_null (read? : Nat → Raw → Option α) (levels : Nat) :
    map? read? levels (.scalar .null) = some .empty := by
  cases levels <;> rfl

/-- No other scalar stands for a map. -/
theorem map?_scalar (read? : Nat → Raw → Option α) {s : Scalar} (hs : s ≠ .null) (levels : Nat) :
    map? read? levels (.scalar s) = none := by
  cases s with
  | null => exact absurd rfl hs
  | text l => cases levels <;> rfl
  | bool b => cases levels <;> rfl
  | number n => cases levels <;> rfl

/-- A map is read from `null`, and from no other scalar. -/
theorem reads_map_scalar {read : Nat → Json.Reader α} {read? : Nat → Raw → Option α} (levels : Nat)
    (s : Scalar) {ts : List (List Char)} (hts : Json.Closed ts) :
    Does (Spaced ((Raw.scalar s).tokens ++ ts)) (map read levels) (map? read? levels (.scalar s))
    (Spaced ts) := by
  refine .peekToken ?_
  rw [Raw.head?_tokens]
  -- Of the scalars only `null` stands for a map.
  split
  · contradiction
  · next heq =>
    obtain rfl := (eq_of_first s).1 (Option.some.inj heq)
    rw [map?_null]
    exact .bind does_null does_pure
  · next heq => exact absurd (Option.some.inj heq) (s.first_ne (by decide))
  · next heq => exact absurd (Option.some.inj heq) (s.first_ne (by decide))
  · next hnull _ _ heq =>
    obtain rfl := Option.some.inj heq
    have hs : s ≠ .null := by
      rintro rfl
      exact hnull rfl
    rw [map?_scalar read? hs]
    exact does_refuse hts

/-- A list with an item in it is read to its end, and refused. -/
theorem does_map_items (v : Raw) (items : List Raw) (ts : List (List Char)) :
    Does (Spaced (itemTokens true (v :: items) ++ [']'] :: ts)) (do
      if ← hasItem true then
        skip
        failUnplaced (.mismatch .list .object)
      else pure (.empty : OrderedMap α)) none (Spaced ([']'] :: ts)) :=
  .bind does_hasItem_cons (.bind (reads_skip Json.closed_itemTokens) .failUnplaced)

/-- A map is read from `null`, from an empty list, and from an object. -/
theorem reads_map {read : Nat → Json.Reader α} {read? : Nat → Raw → Option α}
    (h : ∀ levels, Reads (read levels) (read? levels)) :
    ∀ levels, Reads (map read levels) (map? read? levels)
  | levels, .scalar s, _, hts => reads_map_scalar levels s hts
  | 0, .list items, _, _ => by
    have hnone : map? read? 0 (.list items) = none := by cases items <;> rfl
    rw [hnone]
    exact .peekToken does_enter_zero
  | 0, .object _, _, _ => .peekToken does_enter_zero
  | levels + 1, .list [], _, _ =>
    .peekToken (.bind does_pure (does_inList (.bind does_hasItem_nil does_pure)))
  | levels + 1, .list (v :: items), ts, _ => by
    rw [Raw.tokens_list]
    exact .peekToken (.bind does_pure (does_inList (does_map_items v items ts)))
  | levels + 1, .object members, ts, _ => by
    -- The members are read in turn and then put into a map.
    have hmap : map? read? (levels + 1) (.object members) =
        (Raw.members? (read? levels) members) >>= fun ms => some (.ofList ms) := by
      rw [map?, Option.map_eq_bind]
      rfl
    rw [Raw.tokens_object, hmap]
    refine .peekToken (.bind does_pure (does_inObject (.remaining fun n => ?_)))
    exact .bind_bind (does_allMembers (h levels)) fun ms _ => does_pure

/-! ### Records

The fields of a record are read in any order from an object, and in their order from a
list. The draft keeps the fields that were read.
-/

section drafts

variable {read : δ → φ → Json.Reader δ} {read? : δ → φ → Raw → Option δ}
  (h : ∀ draft field, Reads (read draft field) (read? draft field))

include h

/-- The members of an object are folded one by one. -/
theorem does_fields {field? : String → Option φ} {name : φ → String} {seen : δ → φ → Bool} :
    ∀ {members : List (Literal × Raw)} {fuel : Nat} {first : Bool}
    {draft : δ}, members.length < fuel →
      Does (Spaced (memberTokens first members ++ ['\x7d'] :: ts))
        (fields field? name seen read fuel first draft) (fields? field? seen read? members draft)
        (Spaced (['\x7d'] :: ts))
  | [], fuel + 1, first, draft, _ => .bind does_hasMember_nil does_pure
  | (k, v) :: members, fuel + 1, first, draft, hfuel => by
    refine .bind does_hasMember_cons (.bind_bind (does_stringToken k) fun key _ => ?_)
    have hlength := Nat.lt_of_succ_lt_succ hfuel
    -- An unknown field is passed over, one that was seen is a fault, any other is read.
    cases hfield : field? key with
    | none =>
      exact .bind does_colon (.bind (reads_skip Json.closed_memberTokens) (does_fields hlength))
    | some field =>
      by_cases hseen : seen draft field = true
      · simp only [hseen, if_true]
        exact .bind_none (Q := fun _ => True) .failUnplaced
      · simp only [hseen]
        exact .bind does_colon (.bind_bind (h draft field Json.closed_memberTokens) fun draft' _ =>
          does_fields hlength)

/-- The items of a list are folded one by one if there are not too many. -/
theorem does_itemFields : ∀ {fs : List φ} {items : List Raw} {first : Bool}
    {draft : δ}, items.length ≤ fs.length → Does (Spaced (itemTokens first items ++ [']'] :: ts))
    (itemFields read fs first draft) (itemFields? read? fs items draft) (Spaced ([']'] :: ts))
  | [], [], _, _, _ => does_pure
  | _ :: _, [], _, _, _ => .bind does_hasItem_nil does_pure
  | field :: _, _ :: _, _, draft, hlength =>
    .bind does_hasItem_cons (.bind_bind (h draft field Json.closed_itemTokens) fun _ _ =>
      does_itemFields (Nat.le_of_succ_le_succ hlength))

/-- Where there are too many items, some are left. -/
theorem exists_does_itemFields : ∀ {fs : List φ} {items : List Raw} {first : Bool} {draft : δ},
    fs.length < items.length → (first = true → fs ≠ []) → ∃ draft? v rest, ∀ {ts},
      Does (Spaced (itemTokens first items ++ [']'] :: ts)) (itemFields read fs first draft) draft?
        (Spaced (itemTokens false (v :: rest) ++ [']'] :: ts))
  | [], v :: items, false, draft, _, _ => ⟨some draft, v, items, does_pure⟩
  | [], _ :: _, true, _, _, hfirst => absurd rfl (hfirst rfl)
  | field :: fs, v :: items, first, draft, hlength, _ => by
    -- If the item is none of its field, the reading ends here; if it is, the next field
    -- follows.
    cases hread : read? draft field v with
    | none =>
      refine ⟨none, v, [], fun {ts} => ?_⟩
      have hv := @h draft field v (itemTokens false items ++ [']'] :: ts) Json.closed_itemTokens
      rw [hread] at hv
      exact .bind does_hasItem_cons hv.bind_none
    | some draft' =>
      obtain ⟨draft?, w, rest, hrest⟩ :=
        @exists_does_itemFields fs items false draft' (Nat.lt_of_succ_lt_succ hlength) nofun
      refine ⟨draft?, w, rest, fun {ts} => ?_⟩
      have hv := @h draft field v (itemTokens false items ++ [']'] :: ts) Json.closed_itemTokens
      rw [hread] at hv
      exact .bind does_hasItem_cons (.bind hv hrest)

omit h in
/-- A list with more items than there are fields is refused. -/
theorem itemFields?_eq_none :
    ∀ {fs : List φ} {items : List Raw} {draft : δ}, fs.length < items.length →
    itemFields? read? fs items draft = none
  | [], _ :: _, _, _ => rfl
  | field :: fs, v :: items, draft, hlength => by
    rw [itemFields?]
    cases read? draft field v with
    | none => rfl
    | some draft' => exact itemFields?_eq_none (Nat.lt_of_succ_lt_succ hlength)

/-- The items of a list are read as a record with all its fields at most. -/
theorem does_itemRecord {finish : δ → Json.Reader α} {finish? : δ → Option α}
    (hfinish : ∀ d P, Does P (finish d) (finish? d) P) {fs : List φ} (hfs : fs ≠ [])
    {items : List Raw} {draft : δ} : Does (Standing ((Raw.list items).tokens ++ ts))
    (inList (itemFields read fs true draft >>= finish)) (itemFields? read? fs items draft >>=
      finish?) (Spaced ts) := by
  rw [Raw.tokens_list]
  -- More items than fields leave one unread, and then the list does not end where it
  -- should.
  rcases Nat.lt_or_ge fs.length items.length with hmany | hle
  · obtain ⟨draft?, v, rest, hread⟩ := exists_does_itemFields h hmany fun _ => hfs
    rw [itemFields?_eq_none hmany]
    cases draft? with
    | none => exact does_inList hread.bind_none
    | some d =>
      -- The fields are filled, yet an item stands where the bracket should.
      have hbody : Does (Spaced (itemTokens true items ++ [']'] :: ts)) (itemFields read fs true
          draft >>= finish) (finish? d) (Spaced (itemTokens false (v :: rest) ++ [']'] :: ts)) :=
          .bind hread (hfinish d _)
      cases hd : finish? d with
      | none =>
        rw [hd] at hbody
        exact does_inList (Does.of_none hbody)
      | some x =>
        rw [hd] at hbody
        exact does_inList_none hbody
  · exact does_inList (.bind_bind (does_itemFields h hle) fun d _ => hfinish d _)

/-- The members of an object are folded, as there are no more of them than characters. -/
theorem does_allFields {field? : String → Option φ} {name : φ → String} {seen : δ → φ → Bool}
    {members : List (Literal × Raw)} {draft : δ} {n : Nat} :
    Does (fun cs => Spaced (memberTokens true members ++ ['\x7d'] :: ts) cs ∧ cs.length = n)
      (fields field? name seen read (n + 1) true draft) (fields? field? seen read? members draft)
      (Spaced (['\x7d'] :: ts)) := by
  rintro c ⟨hc, rfl⟩
  exact does_fields h (lt_of_spaced_members hc) c hc

end drafts

/-- A record is read from an object and from a list. -/
theorem reads_record {name : String} {ofMembers ofItems : Nat → Json.Reader α}
    {ofMembers? : Nat → List (Literal × Raw) → Option α} {ofItems? : Nat → List Raw → Option α}
    (hm : ∀ levels members ts, Does (Spaced (memberTokens true members ++ ['\x7d'] :: ts))
      (ofMembers levels) (ofMembers? levels members) (Spaced (['\x7d'] :: ts)))
    (hi : ∀ levels items ts, Does (Standing ((Raw.list items).tokens ++ ts))
      (inList (ofItems levels)) (ofItems? levels items) (Spaced ts)) :
    ∀ levels, Reads (record name ofMembers ofItems levels) (record? ofMembers? ofItems? levels)
  | levels, .scalar s, ts, hts => by
    have hnone : record? ofMembers? ofItems? levels (.scalar s) = none := by cases levels <;> rfl
    rw [hnone]
    refine .peekToken ?_
    rw [Raw.head?_tokens]
    -- A scalar starts neither a list nor an object.
    split
    · contradiction
    · next heq => exact absurd (Option.some.inj heq) (s.first_ne (by decide))
    · next heq => exact absurd (Option.some.inj heq) (s.first_ne (by decide))
    · next heq =>
      obtain rfl := Option.some.inj heq
      exact does_refuse hts
  | 0, .list _, _, _ => .peekToken does_enter_zero
  | 0, .object _, _, _ => .peekToken does_enter_zero
  | levels + 1, .list items, ts, _ => .peekToken (.bind does_pure (hi levels items ts))
  | levels + 1, .object members, ts, _ => by
    rw [Raw.tokens_object]
    exact .peekToken (.bind does_pure (does_inObject (hm levels members ts)))

/-! ### Parts of documents

Properties and objects are records of their fields, and a namespace is decoded from the
value that is read first. A document is a record of its two parts.
-/

theorem does_orUnplaced {x : Except Json.Cause α} : Does P (orUnplaced x) x.toOption P := by
  cases x with
  | ok x => exact does_pure
  | error cause => exact .failUnplaced

/-- Takes a text or `null` into a field of a property. -/
def textField (draft : PropertyDraft) (field : PropertyField) : Json.Reader PropertyDraft := do
  match ← optional text with
  | none => orUnplaced (draft.set field .null fun _ => elementOf .null)
  | some s => orUnplaced (draft.set field (.text s) fun _ => elementOf (.text s))

/-- A field of a property is read as its written value stands for. -/
theorem reads_propertyField (levels : Nat) (draft : PropertyDraft) (field : PropertyField) :
    Reads (propertyField levels draft field) (Written.propertyField? levels draft field) := by
  intro v ts hts
  -- Three fields have a text or nothing, and the others any value.
  have htext : ∀ field, Does (Spaced (v.tokens ++ ts)) (textField draft field) (do
      let value ← (optional? text? v).map fun s? => s?.elim .null .text
      (draft.set field value fun _ => elementOf value).toOption) (Spaced ts) := by
    intro field
    have hread := reads_optional reads_text (v := v) hts
    cases hs : optional? text? v with
    | none =>
      rw [hs] at hread
      exact hread.bind_none
    | some s? =>
      rw [hs] at hread
      refine .bind hread ?_
      cases s? <;> exact does_orUnplaced
  have hvalue := reads_value levels (v := v) hts
  cases field with
  | type | object | description => exact htext _
  | array | required | default => exact .bind_bind hvalue fun _ _ => does_orUnplaced

/-- A property is read as its written value stands for. -/
theorem reads_property : ∀ levels, Reads (property levels) (Written.property? levels) :=
  reads_record
    (fun levels _ _ => .remaining fun _ =>
      .bind_bind (does_allFields (reads_propertyField levels)) fun _ _ => does_pure)
    (fun levels _ _ =>
      does_itemRecord (reads_propertyField levels) (fun _ _ => does_pure) (by decide))

/-- A field of an object is read as its written value stands for. -/
theorem reads_objectField (levels : Nat) (draft : ObjectDraft) (field : ObjectField) :
    Reads (objectField levels draft field) (Written.objectField? levels draft field) := by
  intro v ts hts
  cases field with
  | description => exact .bind_bind (reads_optional reads_text hts) fun _ _ => does_pure
  | properties => exact .bind_bind (reads_map reads_property levels hts) fun _ _ => does_pure

/-- An object is read as its written value stands for. -/
theorem reads_object : ∀ levels, Reads (object levels) (Written.object? levels) :=
  reads_record
    (fun levels _ _ => .remaining fun _ =>
      .bind_bind (does_allFields (reads_objectField levels)) fun _ _ => does_pure)
    (fun levels _ _ =>
      does_itemRecord (reads_objectField levels) (fun _ _ => does_pure) (by decide))

/-- A namespace is read as its written value stands for. -/
theorem reads_namespace (levels : Nat) :
    Reads (namespaceDef levels) (Written.namespace? levels) := by
  intro v ts hts
  refine .bind_bind (reads_value levels hts) fun value _ => ?_
  cases Namespace.ofJson? value with
  | none => exact .failUnplaced
  | some ns => exact does_pure

/-- A part of a document is read as its written value stands for. -/
theorem reads_documentField (levels : Nat) (draft : DocumentDraft) (field : DocumentField) :
    Reads (documentField levels draft field) (Written.documentField? levels draft field) := by
  intro v ts hts
  cases field with
  | objects =>
    exact .bind_bind (reads_optional (reads_map reads_object levels) hts) fun _ _ => does_pure
  | components =>
    exact .bind_bind (reads_optional (reads_map reads_namespace levels) hts) fun _ _ => does_pure

/-- A document is read as its written value stands for. -/
theorem reads_document : Reads document (Written.draft? maxLevels) := by
  refine reads_record (fun levels _ _ => .remaining fun _ =>
    does_allFields (reads_documentField levels)) (fun levels _ _ =>
    does_itemRecord (reads_documentField levels) (fun d P => ?_) (by decide)) maxLevels
  by_cases hlength : d.seen.length < 2
  · simp only [hlength, if_true]
    exact .bind_none (Q := P) .failUnplaced
  · simp only [hlength, if_false]
    exact does_pure

end Read

/-! ## Documents

A draft of a document has to have both parts in the end.
-/

/-- What is made of a text is what is made of the value that it is. -/
theorem toOption_ofText {text : String} {v : Raw} (h : v.Spells text) :
    (Document.ofText text).toOption = Written.document? v := by
  have hread := toOption_run Read.reads_document h
  unfold Document.ofText Written.document?
  -- A document that was drafted is finished the same way by both.
  cases hrun : run Read.document text with
  | error fault =>
    rw [hrun] at hread
    rw [← hread]
    rfl
  | ok draft =>
    rw [hrun] at hread
    rw [← hread]
    obtain ⟨objects?, components?, -⟩ := draft
    cases objects? <;> cases components? <;> rfl

end Schema

end Classwright
