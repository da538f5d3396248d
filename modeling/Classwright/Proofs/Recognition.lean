import Classwright.Proofs.Readings

/-!
# Which texts are documents

What is read as a document is a value of the grammar (`Schema.exists_spells`), so the
texts that are read as a document are the values that stand for one
(`Schema.ofText_eq_ok_iff`).

Together with what the readers do from a given value (`Schema.toOption_ofText`), this
makes reading an equivalence: a text is read as a document exactly if it spells a value
that stands for it.
-/

namespace Classwright.Schema

open Json (Raw Literal Spaced)
open Json.Raw (itemTokens memberTokens)
open Json.Reader

/-! ## What the readers consume

For each of the readers, what it has consumed is a value, or the items or members of
one. The inductions are those of the readers.
-/

namespace Read

variable {α β δ φ : Type} {P : List Char → Prop}

/-- What is made of what is read is of no matter for what is consumed. -/
theorem consumes_bind_pure {r : Json.Reader α} {g : α → β} {S : List (List Char) → Prop}
    (h : Consumes P r fun ts _ _ => S ts) :
    Consumes P (r >>= fun x => pure (g x)) fun ts _ _ => S ts :=
  .bind h fun ts _ _ hts => .pure fun _ _ => by rwa [List.append_nil]

/-- Entering a value looks at its first character and consumes nothing. -/
theorem consumes_enter {x : Char} {levels : Nat} (hp : ∀ cs, P cs → cs.head? = some x) :
    Consumes P (enter levels) fun ts _ y? => ts = [] ∧ y? = some x := by
  cases levels with
  | zero => exact .failPeek
  | succ inner => exact .pure fun cs hcs => ⟨rfl, hp cs hcs⟩

theorem consumes_refuse {expected : Json.Expected} {x : Char}
    {S : List (List Char) → α → Option Char → Prop} (hp : ∀ cs, P cs → cs.head? = some x) :
    Consumes P (refuse expected x) S :=
  .bind (takes_scalar hp).consumes_scalar fun _ _ _ _ => .failHere

/-- What has been read as a text is a written value. -/
theorem consumes_text : Consumes P text fun ts _ _ => ∃ v : Raw, ts = v.tokens := by
  refine .peekToken fun x? => ?_
  split
  · exact .failPeek
  · refine (takes_string fun _ h => h.1).consumes_literal.mono (fun _ => id) ?_
    rintro _ _ _ ⟨l, rfl⟩
    exact ⟨.scalar (.text l), rfl⟩
  · exact .failHere
  · exact .failHere
  · exact consumes_refuse fun _ h => h.1

/-- What has been read as `null` is that word. -/
theorem consumes_null (hp : ∀ cs, P cs → cs.head? = some 'n') :
    Consumes P null fun ts _ _ => ts = (Raw.scalar .null).tokens := by
  have htakes : Takes P null fun front _ => front = ['n', 'u', 'l', 'l'] := by
    refine .bind (.drop hp) ?_
    rintro _ _ rfl
    refine (takes_word ['u', 'l', 'l']).mono (fun _ => id) ?_
    rintro _ _ rfl
    rfl
  refine (htakes.consumes ?_).mono (fun _ => id) ?_
  · rintro _ rfl
    exact ⟨'n', ['u', 'l', 'l'], rfl, by decide⟩
  · rintro _ _ _ ⟨_, rfl, rfl⟩
    rfl

/-- What has been read as a value that may be absent is a written value. -/
theorem consumes_optional {read : Json.Reader α}
    (h : Consumes (fun _ => True) read fun ts _ _ => ∃ v : Raw, ts = v.tokens) :
    Consumes P (optional read) fun ts _ _ => ∃ v : Raw, ts = v.tokens := by
  refine .peekToken fun x? => ?_
  split
  · refine .bind (consumes_null fun _ h => h.1) ?_
    rintro _ _ _ rfl
    exact .pure fun _ _ => ⟨_, List.append_nil _⟩
  · exact .map h.anywhere

/-- What has been read as a map is a written value, an object or an empty list. -/
theorem consumes_map {read : Nat → Json.Reader α} {levels : Nat}
    (h : ∀ levels, Consumes (fun _ => True) (read levels) fun ts _ _ => ∃ v : Raw, ts = v.tokens) :
    Consumes P (map read levels) fun ts _ _ => ∃ v : Raw, ts = v.tokens := by
  refine .peekToken fun x? => ?_
  -- The first letter decides between `null`, a list and an object.
  split
  · exact .failPeek
  · refine .bind (consumes_null fun _ h => h.1) ?_
    rintro _ _ _ rfl
    exact .pure fun _ _ => ⟨_, List.append_nil _⟩
  · refine .bind (consumes_enter fun _ h => h.1) ?_
    rintro _ _ _ ⟨rfl, rfl⟩
    -- A list stands for a map only if nothing is in it.
    have hbody : Consumes (fun _ => True) (do
        if ← hasItem true then
          skip
          failUnplaced (.mismatch .list .object)
        else pure (.empty : OrderedMap α)) fun ts _ _ => ts = [] := by
      refine .bind consumes_hasItem fun ts more _ hts => ?_
      subst hts
      cases more with
      | true => exact .bind consumes_skip fun _ _ _ _ => .failUnplaced
      | false => exact .pure fun _ _ => rfl
    refine (consumes_inList (fun _ h => h.1) hbody).mono (fun _ => id) ?_
    rintro _ _ _ ⟨_, _, rfl, rfl⟩
    exact ⟨.list [], rfl⟩
  · refine .bind (consumes_enter fun _ h => h.1) ?_
    rintro _ inner _ ⟨rfl, rfl⟩
    refine (consumes_inObject (fun _ h => h.1) (.remaining fun _ =>
      consumes_bind_pure (consumes_members (h inner)))).mono (fun _ => id) ?_
    rintro _ _ _ ⟨_, _, rfl, ms, rfl⟩
    exact ⟨.object ms, rfl⟩
  · exact consumes_refuse fun _ h => h.1

section drafts

variable {read : δ → φ → Json.Reader δ}
  (h : ∀ draft field, Consumes (fun _ => True) (read draft field) fun ts _ _ => ∃ v : Raw,
    ts = v.tokens)

include h

/-- What has been read as fields are written members, known ones or not. -/
theorem consumes_fields {field? : String → Option φ} {name : φ → String} {seen : δ → φ → Bool} :
    ∀ {fuel : Nat} {first : Bool} {draft : δ} {P : List Char → Prop},
      Consumes P (fields field? name seen read fuel first draft) fun ts _ _ =>
        ∃ ms : List (Literal × Raw), ts = memberTokens first ms
  | 0, _, _, _ => .pure fun _ _ => ⟨[], rfl⟩
  | fuel + 1, first, draft, P => by
    refine .bind consumes_hasMember ?_
    rintro _ more y? ⟨rfl, hkey⟩
    cases more with
    | false => exact .pure fun _ _ => ⟨[], rfl⟩
    | true =>
      obtain rfl := hkey rfl
      refine .bind (takes_string fun _ h => h.1).consumes_literal ?_
      rintro _ key _ ⟨k, rfl⟩
      -- Whether the field is known or not, a value is consumed behind the key.
      cases hfield : field? key with
      | none =>
        refine .bind consumes_colon ?_
        rintro _ _ _ rfl
        refine .bind consumes_skip ?_
        rintro _ _ _ ⟨v, rfl⟩
        refine consumes_fields.mono (fun _ => id) ?_
        rintro _ _ _ ⟨ms, rfl⟩
        exact ⟨(k, v) :: ms, by simp [memberTokens]⟩
      | some field =>
        by_cases hseen : seen draft field = true
        · simp only [hseen, if_true]
          exact .bind (R := fun _ _ _ => False) .failUnplaced nofun
        · simp only [hseen]
          refine .bind consumes_colon ?_
          rintro _ _ _ rfl
          refine .bind (h draft field).anywhere ?_
          rintro _ draft' _ ⟨v, rfl⟩
          refine consumes_fields.mono (fun _ => id) ?_
          rintro _ _ _ ⟨ms, rfl⟩
          exact ⟨(k, v) :: ms, by simp [memberTokens]⟩

/-- What has been read as the items of a record are written values. -/
theorem consumes_itemFields : ∀ {fs : List φ} {first : Bool} {draft : δ} {P : List Char → Prop},
    Consumes P (itemFields read fs first draft) fun ts _ _ =>
      ∃ vs : List Raw, ts = itemTokens first vs
  | [], _, _, _ => .pure fun _ _ => ⟨[], rfl⟩
  | field :: fs, first, draft, P => by
    refine .bind consumes_hasItem fun ts more _ hts => ?_
    subst hts
    cases more with
    | false => exact .pure fun _ _ => ⟨[], rfl⟩
    | true =>
      -- An item is consumed, and by induction those behind it.
      refine .bind (h draft field).anywhere ?_
      rintro _ draft' _ ⟨v, rfl⟩
      refine consumes_itemFields.mono (fun _ => id) ?_
      rintro _ _ _ ⟨vs, rfl⟩
      exact ⟨v :: vs, by simp [itemTokens]⟩

end drafts

/-- What has been read as a record is a written value, an object or a list. -/
theorem consumes_record {name : String} {ofMembers ofItems : Nat → Json.Reader α} {levels : Nat}
    (hm : ∀ levels, Consumes (fun _ => True) (ofMembers levels) fun ts _ _ =>
      ∃ ms : List (Literal × Raw), ts = memberTokens true ms)
    (hi : ∀ levels, Consumes (fun _ => True) (ofItems levels) fun ts _ _ =>
      ∃ vs : List Raw, ts = itemTokens true vs) :
    Consumes P (record name ofMembers ofItems levels) fun ts _ _ => ∃ v : Raw, ts = v.tokens := by
  refine .peekToken fun x? => ?_
  -- A record is written as a list or as an object.
  split
  · exact .failPeek
  · refine .bind (consumes_enter fun _ h => h.1) ?_
    rintro _ inner _ ⟨rfl, rfl⟩
    refine (consumes_inList (fun _ h => h.1) (hi inner)).mono (fun _ => id) ?_
    rintro _ _ _ ⟨_, _, rfl, vs, rfl⟩
    exact ⟨.list vs, rfl⟩
  · refine .bind (consumes_enter fun _ h => h.1) ?_
    rintro _ inner _ ⟨rfl, rfl⟩
    refine (consumes_inObject (fun _ h => h.1) (hm inner)).mono (fun _ => id) ?_
    rintro _ _ _ ⟨_, _, rfl, ms, rfl⟩
    exact ⟨.object ms, rfl⟩
  · exact consumes_refuse fun _ h => h.1

/-- A failure that has no place consumes nothing. -/
theorem consumes_orUnplaced {x : Except Json.Cause α} :
    Consumes P (orUnplaced x) fun ts _ _ => ts = [] := by
  cases x with
  | ok x => exact .pure fun _ _ => rfl
  | error cause => exact .failUnplaced

/-- What has been read as a field of a property is a written value. -/
theorem consumes_propertyField (levels : Nat) (draft : PropertyDraft) (field : PropertyField) :
    Consumes P (propertyField levels draft field) fun ts _ _ => ∃ v : Raw, ts = v.tokens := by
  -- Storing what was read consumes nothing.
  have hset : ∀ {v : Raw} {value : Json} {P : List Char → Prop},
      Consumes P (orUnplaced (draft.set field value fun _ => elementOf value)) fun ts _ _ =>
        ∃ w : Raw, v.tokens ++ ts = w.tokens := by
    intro v value P
    refine consumes_orUnplaced.mono (fun _ => id) ?_
    rintro _ _ _ rfl
    exact ⟨v, List.append_nil _⟩
  -- A text or `null` is a value, and so is what any other field takes.
  have htext : ∀ {P : List Char → Prop}, Consumes P (textField draft field) fun ts _ _ =>
      ∃ v : Raw, ts = v.tokens := by
    intro P
    refine .bind (consumes_optional consumes_text) ?_
    rintro _ s? _ ⟨v, rfl⟩
    cases s? <;> exact hset
  have hvalue : ∀ {P : List Char → Prop}, Consumes P (do
      let value ← value levels
      orUnplaced (draft.set field value fun _ => elementOf value)) fun ts _ _ =>
        ∃ v : Raw, ts = v.tokens := by
    intro P
    refine .bind consumes_value ?_
    rintro _ value _ ⟨v, rfl⟩
    exact hset
  cases field with
  | type | object | description => exact htext
  | array | required | default => exact hvalue

/-- What has been read as a property is a written value, by induction on the levels. -/
theorem consumes_property {levels : Nat} :
    Consumes P (property levels) fun ts _ _ => ∃ v : Raw, ts = v.tokens :=
  consumes_record
    (fun levels => .remaining fun _ =>
      consumes_bind_pure (consumes_fields (consumes_propertyField levels)))
    fun levels => consumes_bind_pure (consumes_itemFields (consumes_propertyField levels))

/-- What has been read as a field of an object is a written value. -/
theorem consumes_objectField (levels : Nat) (draft : ObjectDraft) (field : ObjectField) :
    Consumes P (objectField levels draft field) fun ts _ _ => ∃ v : Raw, ts = v.tokens := by
  cases field with
  | description => exact consumes_bind_pure (consumes_optional consumes_text)
  | properties => exact consumes_bind_pure (consumes_map fun _ => consumes_property)

/-- What has been read as an object is a written value. -/
theorem consumes_object {levels : Nat} :
    Consumes P (object levels) fun ts _ _ => ∃ v : Raw, ts = v.tokens :=
  consumes_record
    (fun levels => .remaining fun _ =>
      consumes_bind_pure (consumes_fields (consumes_objectField levels)))
    fun levels => consumes_bind_pure (consumes_itemFields (consumes_objectField levels))

/-- What has been read as a namespace is a written value. -/
theorem consumes_namespace {levels : Nat} :
    Consumes P (namespaceDef levels) fun ts _ _ => ∃ v : Raw, ts = v.tokens := by
  refine .bind consumes_value ?_
  rintro _ value _ ⟨v, rfl⟩
  cases Namespace.ofJson? value with
  | none => exact .failUnplaced
  | some ns => exact .pure fun _ _ => ⟨v, List.append_nil _⟩

/-- What has been read as a part of a document is a written value. -/
theorem consumes_documentField (levels : Nat) (draft : DocumentDraft) (field : DocumentField) :
    Consumes P (documentField levels draft field) fun ts _ _ => ∃ v : Raw, ts = v.tokens := by
  cases field with
  | objects => exact consumes_bind_pure (consumes_optional (consumes_map fun _ => consumes_object))
  | components =>
    exact consumes_bind_pure (consumes_optional (consumes_map fun _ => consumes_namespace))

/-- What is read as a document is a value of the grammar. -/
theorem consumes_document : Consumes P document fun ts _ _ => ∃ v : Raw, ts = v.tokens := by
  refine consumes_record (fun levels => .remaining fun _ =>
    consumes_fields (consumes_documentField levels))
    fun levels => .bind (consumes_itemFields (consumes_documentField levels)) ?_
  rintro _ d _ ⟨vs, rfl⟩
  by_cases hlength : d.seen.length < 2
  · simp only [hlength, if_true]
    exact .bind (R := fun _ _ _ => False) .failUnplaced nofun
  · simp only [hlength, if_false]
    exact .pure fun _ _ => ⟨vs, List.append_nil _⟩

end Read

/-- Only values of the grammar are read as documents. -/
theorem exists_spells {text : String} {d : Document} (h : Document.ofText text = .ok d) :
    ∃ v : Raw, v.Spells text := by
  unfold Document.ofText at h
  cases hrun : run Read.document text with
  | error fault =>
    rw [hrun] at h
    cases h
  | ok draft =>
    -- The reader consumed a value and only blanks are left.
    obtain ⟨c, hread, hend⟩ := run_eq_ok_iff.1 hrun
    obtain ⟨_, ⟨v, rfl⟩, hpasses⟩ := Read.consumes_document (P := fun _ => True) trivial hread
    have hspaced : Spaced [] c.rest := by
      rw [Json.Cursor.rest_skipGap] at hend
      exact .of_dropWhile (hend ▸ .nil nofun)
    refine ⟨v, ?_⟩
    rw [Raw.Spells, ← List.append_nil v.tokens]
    exact hpasses.spaced hspaced

/-- A value is read as the document that it stands for. -/
theorem ofText_eq_ok_iff_of_spells {text : String} {d : Document} {v : Raw} (h : v.Spells text) :
    Document.ofText text = .ok d ↔ Written.document? v = some d := by
  rw [← toOption_ofText h, Outcome.toOption_eq_some]

/-- The texts that are read as a certain document are those that are a value with its
form. -/
theorem ofText_eq_ok_iff {text : String} {d : Document} :
    Document.ofText text = .ok d ↔ ∃ v : Raw, v.Spells text ∧ Written.document? v = some d := by
  constructor
  · intro h
    obtain ⟨v, hv⟩ := exists_spells h
    exact ⟨v, hv, (ofText_eq_ok_iff_of_spells hv).1 h⟩
  · rintro ⟨v, hv, hd⟩
    exact (ofText_eq_ok_iff_of_spells hv).2 hd

end Classwright.Schema
