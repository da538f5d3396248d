import Classwright.Failure
import Classwright.Proofs.Recognition
import Mathlib.Data.List.Basic

/-!
# Which values are documents

A document is read from an object with both parts, of which neither is `null`, and also
from a list of the two parts, as records are; any other text is refused with its origin
(`Schema.ofSource_accepts`).

What is read as a document is drafted part by part, and every part that a draft has came
from a member or an item that is not `null` (`Schema.hasParts_or_listsParts`). A list is
read by the same steps as the object with the two parts, so both are accepted or neither
is (`Schema.document?_list`).
-/

namespace Classwright

open Json (Raw Literal)

/-- Whether a value is an object that has both parts of a document, neither of them
`null`. -/
def Json.Raw.HasParts : Raw → Prop
  | .object members =>
    ∀ name ∈ ["objects", "components"], ∃ m ∈ members, m.1.text? = some name ∧ ¬m.2.isNull
  | _ => False

/-- Whether a value is a list of the parts of a document, neither of them `null`. -/
def Json.Raw.ListsParts : Raw → Prop
  | .list [objects, components] => ¬objects.isNull ∧ ¬components.isNull
  | _ => False

namespace Schema

open Read (DocumentDraft DocumentField)
open Written (optional? fields? itemFields? documentField? draft? document? record?)

variable {α : Type} {levels : Nat} {v w : Raw}

/-- Whether a part of a document is in a draft. -/
def Read.DocumentDraft.has (draft : DocumentDraft) : DocumentField → Bool
  | .objects => draft.objects?.isSome
  | .components => draft.components?.isSome

/-- A field that has been read as a value that is there was not `null`. -/
theorem not_isNull_of_optional? {read? : Raw → Option α} {x? : Option α}
    (h : optional? read? v = some x?) (hx : x?.isSome) : ¬v.isNull := by
  intro hnull
  rw [optional?, if_pos hnull] at h
  cases h
  cases hx

/-- A part that was not there before comes from the field that is taken in. -/
theorem has_of_documentField? {draft draft' : DocumentDraft} {field part : DocumentField}
    (h : documentField? levels draft field v = some draft') (hpart : draft'.has part) :
    draft.has part ∨ part = field ∧ ¬v.isNull := by
  cases field with
  | objects =>
    obtain ⟨objects?, hobjects, h⟩ := Option.bind_eq_some_iff.1 h
    cases h
    cases part with
    | objects => exact Or.inr ⟨rfl, not_isNull_of_optional? hobjects hpart⟩
    | components => exact Or.inl hpart
  | components =>
    obtain ⟨components?, hcomponents, h⟩ := Option.bind_eq_some_iff.1 h
    cases h
    cases part with
    | objects => exact Or.inl hpart
    | components => exact Or.inr ⟨rfl, not_isNull_of_optional? hcomponents hpart⟩

/-- Reading a part of a document records that the part has been seen. -/
theorem seen_of_documentField? {draft draft' : DocumentDraft} {field : DocumentField}
    (h : documentField? levels draft field v = some draft') :
    draft'.seen = field :: draft.seen := by
  cases field with
  | objects =>
    obtain ⟨objects?, -, h⟩ := Option.bind_eq_some_iff.1 h
    cases h
    rfl
  | components =>
    obtain ⟨components?, -, h⟩ := Option.bind_eq_some_iff.1 h
    cases h
    rfl

/-- As many items are taken in as there are, and no more than there are fields. -/
theorem length_of_itemFields? {draft' : DocumentDraft} :
    ∀ {fs : List DocumentField} {items : List Raw} {draft : DocumentDraft},
    itemFields? (documentField? levels) fs items draft = some draft' →
      draft'.seen.length = draft.seen.length + items.length ∧ items.length ≤ fs.length
  | [], [], draft, h => by
    cases h
    exact ⟨rfl, Nat.zero_le _⟩
  | _ :: _, [], draft, h => by
    cases h
    exact ⟨rfl, Nat.zero_le _⟩
  -- Each item adds its own field to those seen and uses one up.
  | field :: fs, v :: items, draft, h => by
    obtain ⟨draft₁, hread, h⟩ := Option.bind_eq_some_iff.1 h
    obtain ⟨hseen, hle⟩ := length_of_itemFields? h
    rw [hseen, seen_of_documentField? hread]
    simp only [List.length_cons]
    omega

theorem name_of_ofName? {key : String} {field : DocumentField}
    (h : DocumentField.ofName? key = some field) :
    key = field.name :=
  (eq_of_beq (List.find?_some (p := fun f : DocumentField => f.name == key) h)).symm

/-- A part that was not there before comes from a member with its name. -/
theorem has_of_fields? {seen : DocumentDraft → DocumentField → Bool} {draft' : DocumentDraft}
    {part : DocumentField} : ∀ {members : List (Literal × Raw)} {draft : DocumentDraft},
      fields? DocumentField.ofName? seen (documentField? levels) members draft = some draft' →
        draft'.has part → draft.has part ∨ ∃ m ∈ members, m.1.text? = some part.name ∧ ¬m.2.isNull
  | [], draft, h, hpart => by
    cases h
    exact Or.inl hpart
  | (k, v) :: members, draft, h, hpart => by
    obtain ⟨key, hkey, h⟩ := Option.bind_eq_some_iff.1 h
    -- What the other members give the draft, they give it whatever this one has left.
    have hrest : ∀ {draft₁},
        fields? DocumentField.ofName? seen (documentField? levels) members draft₁ = some draft' →
        draft₁.has part ∨ ∃ m ∈ (k, v) :: members, m.1.text? = some part.name ∧ ¬m.2.isNull := by
      intro draft₁ h₁
      refine (has_of_fields? h₁ hpart).imp_right ?_
      rintro ⟨m, hm, hmember⟩
      exact ⟨m, List.mem_cons_of_mem _ hm, hmember⟩
    cases hfield : DocumentField.ofName? key with
    | none =>
      rw [hfield] at h
      exact hrest h
    | some field =>
      simp only [hfield] at h
      split at h
      · cases h
      · obtain ⟨draft₁, hread, h⟩ := Option.bind_eq_some_iff.1 h
        rcases hrest h with hdraft | hmember
        · refine (has_of_documentField? hread hdraft).imp_right ?_
          rintro ⟨rfl, hnull⟩
          exact ⟨(k, v), List.mem_cons_self, by rw [hkey, name_of_ofName? hfield], hnull⟩
        · exact Or.inr hmember

/-- An object that is drafted with both parts has a member for each of them. -/
theorem hasParts_of_draft? {members : List (Literal × Raw)} {draft : DocumentDraft}
    (h : draft? (levels + 1) (.object members) = some draft) (hparts : ∀ part, draft.has part) :
    (Raw.object members).HasParts := by
  -- The draft starts without parts, so each of them comes from a member.
  have hpart : ∀ part : DocumentField, ∃ m ∈ members, m.1.text? = some part.name ∧
      ¬m.2.isNull := by
    intro part
    refine (has_of_fields? h (hparts part)).resolve_left ?_
    cases part <;> nofun
  intro name hname
  rcases List.mem_cons.1 hname with rfl | hname
  · exact hpart .objects
  · obtain rfl := List.mem_singleton.1 hname
    exact hpart .components

/-- A list that is drafted with both parts has an item for each of them and no other. -/
theorem listsParts_of_draft? {items : List Raw} {draft : DocumentDraft}
    (h : draft? (levels + 1) (.list items) = some draft) (hparts : ∀ part, draft.has part) :
    (Raw.list items).ListsParts := by
  obtain ⟨draft₂, hitems, h⟩ := Option.bind_eq_some_iff.1 h
  split at h
  · cases h
  next hlength =>
  cases h
  obtain ⟨hseen, hle⟩ := length_of_itemFields? hitems
  -- A list sets one part for each item, so it has exactly two.
  obtain ⟨objects, components, rfl⟩ : ∃ objects components, items = [objects, components] := by
    refine List.length_eq_two.1 ?_
    simp only [List.length_cons, List.length_nil] at hseen hle
    omega
  obtain ⟨draft₁, hobjects, hitems⟩ := Option.bind_eq_some_iff.1 hitems
  obtain ⟨draft₂, hcomponents, hitems⟩ := Option.bind_eq_some_iff.1 hitems
  cases hitems
  -- The second item does not set the first part, and the first does not set the second.
  constructor
  · have hdraft :=
      (has_of_documentField? hcomponents (hparts .objects)).resolve_right (by rintro ⟨⟨⟩, -⟩)
    exact ((has_of_documentField? hobjects hdraft).resolve_left nofun).2
  · have hparts' := has_of_documentField? hcomponents (hparts .components)
    refine (hparts'.resolve_left fun hdraft => ?_).2
    exact (has_of_documentField? hobjects hdraft).elim nofun (by rintro ⟨⟨⟩, -⟩)

/-- A value that stands for a document is an object or a list with both parts. -/
theorem hasParts_or_listsParts (h : (document? v).isSome) : v.HasParts ∨ v.ListsParts := by
  obtain ⟨d, h⟩ := Option.isSome_iff_exists.1 h
  obtain ⟨draft, hdraft, h⟩ := Option.bind_eq_some_iff.1 h
  -- Both parts are read off the finished draft, so both were set on the way to it.
  have hparts : ∀ part, draft.has part := by
    obtain ⟨objects, hobjects, h⟩ := Option.bind_eq_some_iff.1 h
    obtain ⟨components, hcomponents, -⟩ := Option.bind_eq_some_iff.1 h
    rintro ⟨⟩
    · exact Option.isSome_of_eq_some hobjects
    · exact Option.isSome_of_eq_some hcomponents
  cases v with
  | scalar s => cases hdraft
  | object members => exact Or.inl (hasParts_of_draft? hdraft hparts)
  | list items => exact Or.inr (listsParts_of_draft? hdraft hparts)

/-- A list of the parts stands for the same as an object with the parts. -/
theorem document?_list {k l : Literal} (hk : k.text? = some "objects")
    (hl : l.text? = some "components") :
    document? (.list [v, w]) = document? (.object [(k, v), (l, w)]) := by
  have hobjects : DocumentField.ofName? "objects" = some .objects := by decide
  have hcomponents : DocumentField.ofName? "components" = some .components := by decide
  -- Either spelling sets the first part and then the second, with the same failures.
  have hdraft : ∀ n, draft? (n + 1) (.list [v, w]) = draft? (n + 1) (.object [(k, v), (l, w)]) := by
    intro n
    simp only [draft?, record?, itemFields?, fields?, hk, hl, hobjects, hcomponents,
      Option.bind_eq_bind, Option.bind_some]
    cases hfirst : documentField? n {} .objects v with
    | none => rfl
    | some draft₁ =>
      have hseen₁ := seen_of_documentField? hfirst
      cases hsecond : documentField? n draft₁ .components w with
      | none => simp [hseen₁, hsecond]
      | some draft₂ => simp [hseen₁, hsecond, seen_of_documentField? hsecond]
  exact congrArg (fun draft => draft >>= _) (hdraft (Json.Reader.maxLevels - 1))

/-- A text that is accepted is an object with both parts or a list of them, and the list
is accepted as the object is. Any other text is rejected with its origin. -/
theorem ofSource_accepts (text origin : String) :
    (∀ d, Document.ofSource text origin = .ok d →
      ∃ v : Raw, v.Spells text ∧ (v.HasParts ∨ v.ListsParts)) ∧
    ((∀ d, Document.ofSource text origin ≠ .ok d) →
      ∃ fault, Document.ofSource text origin = .error (.schemaInvalid origin fault)) ∧
    ∀ (v w : Raw) (k l : Literal) (text' : String), (Raw.list [v, w]).Spells text →
      k.text? = some "objects" → l.text? = some "components" →
      (Raw.object [(k, v), (l, w)]).Spells text' →
        ∀ d, Document.ofSource text origin = .ok d ↔ Document.ofSource text' origin = .ok d := by
  refine ⟨fun d h => ?_, fun h => ?_, fun v w k l text' hlist hk hl hobject d => ?_⟩
  · obtain ⟨v, hv, hd⟩ := ofText_eq_ok_iff.1 (Outcome.mapError_eq_ok.1 h)
    exact ⟨v, hv, hasParts_or_listsParts (Option.isSome_of_eq_some hd)⟩
  · cases hread : Document.ofText text with
    | error fault => exact ⟨fault, by rw [Document.ofSource, hread]; rfl⟩
    | ok d => exact absurd (Outcome.mapError_eq_ok.2 hread) (h d)
  -- Both texts are read as what their values stand for, and these stand for the same.
  · rw [Document.ofSource, Document.ofSource, Outcome.mapError_eq_ok, Outcome.mapError_eq_ok,
      ofText_eq_ok_iff_of_spells hlist, ofText_eq_ok_iff_of_spells hobject, document?_list hk hl]

/-- A list of two empty maps. -/
def pairText : String :=
  "[\x7b\x7d,\x7b\x7d]"

/-- An object of two empty maps. -/
def partsText : String :=
  "\x7b\"objects\":\x7b\x7d,\"components\":\x7b\x7d\x7d"

/-- The list and the object are accepted as the same document. -/
theorem ofSource_accepts_pairText : ∃ d, Document.ofSource partsText "test" = .ok d ∧
    Document.ofSource pairText "test" = .ok d ∧
    ∃ v : Raw, v.Spells pairText ∧ (v.HasParts ∨ v.ListsParts) := by
  have hread : (Document.ofSource partsText "test").toOption.isSome := by decide +kernel
  obtain ⟨d, hobject⟩ := Outcome.isSome_toOption.1 hread
  let k := Literal.plain ['o', 'b', 'j', 'e', 'c', 't', 's'] (by decide)
  let l := Literal.plain ['c', 'o', 'm', 'p', 'o', 'n', 'e', 'n', 't', 's'] (by decide)
  have hpair : (Raw.list [.object [], .object []]).Spells pairText :=
    Raw.spells_of_flatten (by decide +kernel)
  have hparts : (Raw.object [(k, .object []), (l, .object [])]).Spells partsText :=
    Raw.spells_of_flatten (by decide +kernel)
  have hlist : Document.ofSource pairText "test" = .ok d :=
    ((ofSource_accepts pairText "test").2.2 _ _ k l _ hpair (Literal.text?_plain _)
      (Literal.text?_plain _) hparts d).2 hobject
  exact ⟨d, hobject, hlist, (ofSource_accepts pairText "test").1 d hlist⟩

/-- It is accepted, and is no object. -/
theorem not_ofSource_hasParts_pairText :
    ¬∀ text origin d, Document.ofSource text origin = .ok d →
      ∃ v : Raw, v.Spells text ∧ v.HasParts := by
  intro h
  have hread : Document.ofSource pairText "test" = .ok ⟨.empty, .empty⟩ := by rfl
  obtain ⟨v, hv, hparts⟩ := h _ _ _ hread
  cases v with
  | scalar s => cases hparts
  | list items => cases hparts
  | object members =>
    -- The text starts with a bracket, which starts no object.
    obtain ⟨x, token, rest, htoken, -, hrest, -⟩ := hv.standing
    have hfirst : pairText.toList.dropWhile Json.Cursor.isGap =
        ['[', '\x7b', '\x7d', ',', '\x7b', '\x7d', ']'] := by
      decide
    rw [hfirst] at hrest
    cases htoken
    cases hrest

end Schema

end Classwright
