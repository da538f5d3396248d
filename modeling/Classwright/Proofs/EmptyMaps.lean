import Classwright.Proofs.Respelling

/-!
# Empty maps as empty lists

A document with empty lists for its empty maps is read as before, unless an empty
description of elements is written so, which is lost (`Schema.ofText_respelled`).

Where the readers take an empty list for an empty map, the two spellings are read alike,
and this goes through every reader that passes a value on: one lemma of congruence for
each of them. Descriptions of elements are the one place where the reader tells an empty
list from an empty map.
-/

namespace Classwright.Schema

open Json (Raw Literal)
open Outcome (toOption_bind)
open Respelled

/-! ## Documents

From values upwards to the document, each reader is shown to read respelled values
alike.
-/

section documents

open Json.Reader (maxLevels)
open Written (optional? map? record? fields? itemFields? object? objectField? documentField? draft?
  document?)

variable {α δ φ : Type} {v v' : Raw} {members members' : List (Literal × Raw)}
    {items items' : List Raw}

theorem optional?_congr {read? : Raw → Option α} (hnull : v.isNull = v'.isNull)
    (h : read? v = read? v') :
    optional? read? v = optional? read? v' := by
  rw [optional?, optional?, hnull, h]

theorem Respelled.AsMap.isNull_eq {R : Raw → Raw → Prop} (h : AsMap R v v') :
    v.isNull = v'.isNull := by
  cases h <;> rfl

/-- A map is read alike if its values are, also where it is an empty list. -/
theorem map?_congr {R : Raw → Raw → Prop} {read? : Nat → Raw → Option α}
    (hR : ∀ levels v v', R v v' → read? levels v = read? levels v') (h : AsMap R v v') :
    ∀ levels, map? read? levels v = map? read? levels v' := by
  intro levels
  cases h with
  | same => rfl
  | emptied => cases levels <;> rfl
  | object h =>
    cases levels with
    | zero => rfl
    | succ levels =>
      -- The members are read one by one, each like the other.
      have hmembers : ∀ {ms ms'}, List.Forall₂ (fun m m' => m.1 = m'.1 ∧ R m.2 m'.2) ms ms' →
          Raw.members? (read? levels) ms = Raw.members? (read? levels) ms' := by
        intro ms ms' h
        unfold Raw.members?
        induction h with
        | nil => rfl
        | cons hm _ ih => rw [List.mapM_cons, List.mapM_cons, hm.1, hR levels _ _ hm.2, ih]
      rw [map?, map?, hmembers h]

section records

variable {field? : String → Option φ} {fields : List φ} {seen : δ → φ → Bool}
  {read? : δ → φ → Raw → Option δ} {R : φ → Raw → Raw → Prop}
  (hR : ∀ draft field v v', R field v v' → read? draft field v = read? draft field v')

include hR

/-- An object of fields is read alike if each field is: the induction is on the members,
for any draft. -/
theorem fields?_congr
    (h : List.Forall₂ (fun m m' => m.1 = m'.1 ∧
      (m.2 = m'.2 ∨ ∃ key field, m.1.text? = some key ∧ field? key = some field ∧ R field m.2 m'.2))
      members members') :
    ∀ draft,
      fields? field? seen read? members draft = fields? field? seen read? members' draft := by
  induction h with
  | nil => exact fun _ => rfl
  | @cons m m' members members' hm _ ih =>
    intro draft
    obtain ⟨k, v⟩ := m
    obtain ⟨_, v'⟩ := m'
    obtain ⟨rfl, hv⟩ := hm
    simp only [fields?]
    cases hkey : k.text? with
    | none => rfl
    | some key =>
      simp only [Option.bind_eq_bind, Option.bind_some]
      cases hfield : field? key with
      | none => exact ih draft
      | some field =>
        -- Of a known field the values are read alike, by hypothesis or because they are
        -- the same.
        have hread : read? draft field v = read? draft field v' := by
          rcases hv with hv | ⟨key', field', hkey', hfield', hv⟩
          · exact congrArg (read? draft field) hv
          · obtain rfl := Option.some.inj (hkey.symm.trans hkey')
            obtain rfl := Option.some.inj (hfield.symm.trans hfield')
            exact hR draft field _ _ hv
        simp only [hread, ih]

/-- A list of fields is read alike if each item is. -/
theorem itemFields?_congr
    (h : Items (fun field v v' => v = v' ∨ R field v v') fields items items') :
    ∀ draft, itemFields? read? fields items draft = itemFields? read? fields items' draft := by
  induction h with
  | nil => exact fun _ => rfl
  | cons hv _ ih =>
    intro draft
    rw [itemFields?, itemFields?]
    rcases hv with rfl | hv
    · simp only [ih]
    · simp only [hR draft _ _ _ hv, ih]

end records

/-- A property is read alike when maps in it are respelled. -/
theorem property?_congr (levels : Nat) (v v' : Raw) (h : AsProperty (fun _ _ => False) v v') :
    Written.property? levels v = Written.property? levels v' := by
  rcases eq_or_emptied_of_property h with rfl | ⟨rfl, rfl⟩
  · rfl
  · cases levels <;> rfl

/-- So is a field of an object. -/
theorem objectField?_congr (levels : Nat) (draft : Read.ObjectDraft) (field : Read.ObjectField)
    (v v' : Raw) (h : InObject (fun _ _ => False) field v v') :
    objectField? levels draft field v = objectField? levels draft field v' := by
  cases field with
  | description => cases h
  | properties => rw [objectField?, objectField?, map?_congr property?_congr h]

/-- So is an object, as an object of fields or as a list of them. -/
theorem object?_congr (levels : Nat) (v v' : Raw) (h : AsObject (fun _ _ => False) v v') :
    object? levels v = object? levels v' := by
  cases h with
  | same => rfl
  | emptied => cases levels <;> rfl
  | object h =>
    cases levels with
    | zero => rfl
    | succ levels => simp only [object?, record?, fields?_congr (objectField?_congr levels) h]
  | list h =>
    cases levels with
    | zero => rfl
    | succ levels => simp only [object?, record?, itemFields?_congr (objectField?_congr levels) h]

/-- So is a namespace, with or without a member around its methods. -/
theorem namespace?_congr (levels : Nat) (v v' : Raw) (h : AsNamespace (fun _ _ => False) v v') :
    Written.namespace? levels v = Written.namespace? levels v' := by
  have hlevel := stand_of_namespace h levels
  unfold Written.namespace?
  generalize v.json? levels = x at hlevel ⊢
  generalize v'.json? levels = x' at hlevel ⊢
  cases hlevel with
  | none => rfl
  | some ha => exact ha

/-- So is a part of a document. -/
theorem documentField?_congr (levels : Nat) (draft : Read.DocumentDraft)
    (field : Read.DocumentField) (v v' : Raw) (h : InDocument (fun _ _ => False) field v v') :
    documentField? levels draft field v = documentField? levels draft field v' := by
  cases field with
  | objects =>
    have hpart := optional?_congr (AsMap.isNull_eq h) (map?_congr object?_congr h levels)
    rw [documentField?, documentField?, hpart]
  | components =>
    have hpart := optional?_congr (AsMap.isNull_eq h) (map?_congr namespace?_congr h levels)
    rw [documentField?, documentField?, hpart]

/-- A document stands for the same with empty lists for empty maps. -/
theorem document?_congr (h : AsDocument (fun _ _ => False) v v') : document? v = document? v' := by
  cases h with
  | same => rfl
  | emptied => rfl
  | object h =>
    simp only [document?, draft?, record?, maxLevels, fields?_congr (documentField?_congr _) h]
  | list h =>
    simp only [document?, draft?, record?, maxLevels, itemFields?_congr (documentField?_congr _) h]

end documents

/-! ## Descriptions of elements

The key of the description is set, whatever stands before and behind it in the object.
-/

section elements

open Written (fields? propertyField? property?)

variable {levels : Nat} {before after : List (Literal × Raw)} {k : Literal}

/-- Fields are read one after the other, each with what the earlier ones have left in
the draft. -/
theorem fields?_append {δ φ : Type} {field? : String → Option φ} {seen : δ → φ → Bool}
    {read? : δ → φ → Raw → Option δ} (after : List (Literal × Raw)) :
      ∀ (before : List (Literal × Raw))
      (draft : δ), fields? field? seen read? (before ++ after) draft =
        fields? field? seen read? before draft >>= fields? field? seen read? after
  | [], _ => rfl
  -- Whatever the member is, it is passed to the same draft either way.
  | (k, v) :: before, draft => by
    simp only [List.cons_append, fields?]
    cases k.text? with
    | none => rfl
    | some key =>
      simp only [Option.bind_eq_bind, Option.bind_some]
      cases field? key with
      | none => exact fields?_append after before draft
      | some field =>
        simp only
        split
        · rfl
        · cases read? draft field v with
          | none => rfl
          | some draft' => exact fields?_append after before draft'

/-- A field other than the description of elements leaves that as it is. -/
theorem set_element {draft draft' : PropertyDraft} {field : PropertyField} {value : Json}
    {element : Unit → Except Json.Cause (Option PropertyDef)} (element? : Option PropertyDef)
    (hfield : field ≠ .array) (h : (draft.set field value element).toOption = some draft') :
    draft'.element? = draft.element? ∧ draft'.seen = field :: draft.seen ∧
      (PropertyDraft.set { draft with element? } field value element).toOption =
      some { draft' with element? } := by
  cases field with
  | array => exact absurd rfl hfield
  | required | default =>
    cases h
    exact ⟨rfl, rfl, rfl⟩
  | type | object | description =>
    simp only [PropertyDraft.set, toOption_bind] at h ⊢
    cases htext : (textOf value).toOption <;> rw [htext] at h <;> cases h
    exact ⟨rfl, rfl, rfl⟩

/-- Once there is a description of elements, the other fields leave it as it is. -/
theorem fields?_element (element? : Option PropertyDef) {draft' : PropertyDraft} :
    ∀ {members : List (Literal × Raw)} {draft : PropertyDraft}, .array ∈ draft.seen →
      fields? PropertyField.ofName? (fun d f => d.seen.contains f) (propertyField? levels) members
        draft = some draft' → draft'.element? = draft.element? ∧
        fields? PropertyField.ofName? (fun d f => d.seen.contains f) (propertyField? levels) members
          { draft with element? } = some { draft' with element? }
  | [], draft, _, h => by
    cases h
    exact ⟨rfl, rfl⟩
  | (k, v) :: members, draft, hseen, h => by
    simp only [fields?] at h ⊢
    cases hkey : k.text? with
    | none =>
      rw [hkey] at h
      cases h
    | some key =>
      simp only [hkey, Option.bind_eq_bind, Option.bind_some] at h ⊢
      cases hfield : PropertyField.ofName? key with
      | none =>
        simp only [hfield] at h
        exact fields?_element element? hseen h
      | some field =>
        simp only [hfield] at h
        split at h
        · cases h
        next hnew =>
        obtain ⟨draft₁, hread, h⟩ := Option.bind_eq_some_iff.1 h
        obtain ⟨value, hvalue, hset⟩ := Option.bind_eq_some_iff.1 hread
        -- The element description has been seen, so no later member sets it again.
        have hother : field ≠ .array := by
          rintro rfl
          exact hnew (List.contains_iff_mem.2 hseen)
        obtain ⟨hsame, hseen₁, hset'⟩ := set_element element? hother hset
        have hmem : .array ∈ draft₁.seen := by
          rw [hseen₁]
          exact List.mem_cons_of_mem field hseen
        obtain ⟨helement, hrest⟩ := fields?_element element? hmem h
        refine ⟨helement.trans hsame, ?_⟩
        -- The field is read into the draft without the description in the same way.
        have hread' : propertyField? levels { draft with element? } field v =
            some { draft₁ with element? } := by
          rw [propertyField?, hvalue]
          exact hset'
        simp only [hnew, hread']
        exact hrest

/-- An empty description of elements is one, and it is lost where it is written as an
empty list. -/
theorem property?_element (levels : Nat) {p : PropertyDef} (hk : k.text? = some "array")
    (h : property? (levels + 2) (.object (before ++ (k, .object []) :: after)) = some p) :
    p.element? = some (.plain {}) ∧
      property? (levels + 2) (.object (before ++ (k, .list []) :: after)) =
      some (.plain p.own) := by
  have harray : PropertyField.ofName? "array" = some .array := by decide
  simp only [property?, Written.record?, fields?_append] at h ⊢
  obtain ⟨draft, hdraft, h⟩ := Option.bind_eq_some_iff.1 h
  cases h
  -- The members before the description do not change; it is then set or left out.
  obtain ⟨draft₁, hbefore, hafter⟩ := Option.bind_eq_some_iff.1 hdraft
  rw [hbefore]
  simp only [fields?, hk, harray, Option.bind_eq_bind, Option.bind_some] at hafter ⊢
  split at hafter
  · cases hafter
  next hnew =>
  obtain ⟨draft₂, hread, hafter⟩ := Option.bind_eq_some_iff.1 hafter
  -- The empty object describes an element, the empty list none.
  obtain rfl :
    { draft₁ with element? := some (.plain {}), seen := .array :: draft₁.seen } = draft₂ :=
    Option.some.inj hread
  -- What comes after it keeps the description, or its absence.
  obtain ⟨helement, hrest⟩ := fields?_element none List.mem_cons_self hafter
  have hread' : propertyField? (levels + 1) draft₁ .array (.list []) =
      some { draft₁ with element? := none, seen := .array :: draft₁.seen } := rfl
  obtain ⟨own, element?, seen⟩ := draft
  obtain rfl : element? = some (.plain {}) := helement
  simp only [hnew, hread']
  exact ⟨rfl, Option.bind_eq_some_iff.2 ⟨_, hrest, rfl⟩⟩

end elements

/-- A document is read as before with empty lists for empty maps, if no description of
elements is written so. An empty description of elements is lost where it is. -/
theorem ofText_respelled (text text' : String) :
    (∀ d, Document.ofText text = .ok d → ∃ v : Raw, v.Spells text) ∧
    (∀ d v v', Document.ofText text = .ok d → v.Spells text → AsDocument (fun _ _ => False) v v' →
      v'.Spells text' → Document.ofText text' = .ok d) ∧
    ∀ p before after k, PropertyDef.ofText text = .ok p → k.text? = some "array" →
      (Raw.object (before ++ (k, .object []) :: after)).Spells text →
      (Raw.object (before ++ (k, .list []) :: after)).Spells text' →
        p.element? = some (.plain {}) ∧ PropertyDef.ofText text' = .ok (.plain p.own) := by
  -- Both texts are read as their values, which are respelled.
  refine ⟨fun d => exists_spells, fun d v v' h hv hrespelled hv' => ?_,
    fun p before after k h hk hv hv' => ?_⟩
  · rw [ofText_eq_ok_iff_of_spells hv']
    rw [ofText_eq_ok_iff_of_spells hv, document?_congr hrespelled] at h
    exact h
  · have hproperty := Read.reads_property Json.Reader.maxLevels
    rw [PropertyDef.ofText, ← Outcome.toOption_eq_some, toOption_run hproperty hv] at h
    rw [PropertyDef.ofText, ← Outcome.toOption_eq_some, toOption_run hproperty hv']
    exact property?_element (Json.Reader.maxLevels - 2) hk h

/-- A document with one object and one method, which has parameters. -/
def sampleDocument (object params : Raw) : Raw :=
  .object [
    (.plain ['o', 'b', 'j', 'e', 'c', 't', 's'] (by decide),
      .object [(.plain ['A'] (by decide), object)]),
    (.plain ['c', 'o', 'm', 'p', 'o', 'n', 'e', 'n', 't', 's'] (by decide),
      .object [(.plain ['B'] (by decide), .object [(.plain ['c'] (by decide),
        .object [(.plain ['p', 'a', 'r', 'a', 'm', 's'] (by decide), params)])])])]

/-- The sample is respelled by respelling its object and its parameters. -/
theorem asDocument_sampleDocument {E : Raw → Raw → Prop} {object object' params params' : Raw}
    (hobject : AsObject E object object') (hparams : AsMap (AsProperty E) params params') :
    AsDocument E (sampleDocument object params) (sampleDocument object' params') := by
  refine .object (.cons ⟨rfl,
    Or.inr ⟨"objects", .objects, Literal.text?_plain (by decide), by decide, ?_⟩⟩ (.cons ⟨rfl,
      Or.inr ⟨"components", .components, Literal.text?_plain (by decide), by decide, ?_⟩⟩ .nil))
  · exact .object (.cons ⟨rfl, hobject⟩ .nil)
  · refine .object (.cons ⟨rfl, .bare (.object (.cons ⟨rfl, ?_⟩ .nil))⟩ .nil)
    exact .object (.cons ⟨rfl, Or.inr ⟨"params", .params, Literal.text?_plain (by decide),
      by decide, hparams⟩⟩ .nil)

/-- A document with an empty object and an empty map of parameters. -/
def emptiesText : String :=
  "\x7b\"objects\":\x7b\"A\":\x7b\x7d\x7d,\"components\":" ++
    "\x7b\"B\":\x7b\"c\":\x7b\"params\":\x7b\x7d\x7d\x7d\x7d\x7d"

/-- The document with empty lists for both. -/
def listsText : String :=
  "\x7b\"objects\":\x7b\"A\":[]\x7d,\"components\":" ++
    "\x7b\"B\":\x7b\"c\":\x7b\"params\":[]\x7d\x7d\x7d\x7d"

/-- Both are read alike. -/
theorem ofText_respelled_emptiesText :
    ∃ d, Document.ofText emptiesText = .ok d ∧ Document.ofText listsText = .ok d := by
  have hread : (Document.ofText emptiesText).toOption.isSome := by decide +kernel
  obtain ⟨d, hd⟩ := Outcome.isSome_toOption.1 hread
  have hv : (sampleDocument (.object []) (.object [])).Spells emptiesText :=
    Raw.spells_of_flatten (by decide +kernel)
  have hv' : (sampleDocument (.list []) (.list [])).Spells listsText :=
    Raw.spells_of_flatten (by decide +kernel)
  have hrespelled : AsDocument (fun _ _ => False) (sampleDocument (.object []) (.object []))
      (sampleDocument (.list []) (.list [])) := asDocument_sampleDocument .emptied .emptied
  exact ⟨d, hd, (ofText_respelled emptiesText listsText).2.1 d _ _ hd hv hrespelled hv'⟩

/-- An object with a list, whose elements are described. -/
def listingObject (element : Raw) : Raw :=
  .object [(.plain ['p', 'r', 'o', 'p', 'e', 'r', 't', 'i', 'e', 's'] (by decide),
    .object [(.plain ['p'] (by decide),
      .object [(.plain ['a', 'r', 'r', 'a', 'y'] (by decide), element)])])]

/-- Whether the elements of the list are described. -/
def Document.describesElements (d : Document) : Bool :=
  (d.objects.get? "A").any fun object => (object.properties.get? "p").any fun p => p.element?.isSome

/-- A document with an empty description of elements. -/
def elementText : String :=
  "\x7b\"objects\":\x7b\"A\":\x7b\"properties\":\x7b\"p\":\x7b\"array\":\x7b\x7d\x7d\x7d\x7d\x7d,"
    ++ "\"components\":\x7b\"B\":\x7b\"c\":\x7b\"params\":\x7b\x7d\x7d\x7d\x7d\x7d"

/-- The document with an empty list as the description. -/
def lostText : String :=
  "\x7b\"objects\":\x7b\"A\":\x7b\"properties\":\x7b\"p\":\x7b\"array\":[]\x7d\x7d\x7d\x7d," ++
    "\"components\":\x7b\"B\":\x7b\"c\":\x7b\"params\":\x7b\x7d\x7d\x7d\x7d\x7d"

/-- They are read differently: the elements are not described any more. -/
theorem not_ofText_respelled_elementText :
    ¬∀ text text' d v v', Document.ofText text = .ok d → v.Spells text →
      AsDocument AsElement v v' → v'.Spells text' → Document.ofText text' = .ok d := by
  intro h
  -- The reading of both texts is computed: one describes elements, the other does not.
  have hread : (Document.ofText elementText).toOption.any Document.describesElements := by
    decide +kernel
  have hlost : (Document.ofText lostText).toOption.any fun d => !d.describesElements := by
    decide +kernel
  obtain ⟨d, hd, hdescribes⟩ := Outcome.exists_of_any_toOption hread
  obtain ⟨d', hd', hnot⟩ := Outcome.exists_of_any_toOption hlost
  have hproperty : AsProperty AsElement (.object [(.plain ['a', 'r', 'r', 'a', 'y'] (by decide),
      .object [])]) (.object [(.plain ['a', 'r', 'r', 'a', 'y'] (by decide), .list [])]) :=
    .object (.cons ⟨rfl, Or.inr ⟨"array", .array, Literal.text?_plain (by decide), by decide,
      .emptied⟩⟩ .nil)
  -- The values differ in the element description only.
  have hobject : AsObject AsElement (listingObject (.object [])) (listingObject (.list [])) := by
    refine .object (.cons ⟨rfl, Or.inr ⟨"properties", .properties, ?_, by decide, ?_⟩⟩ .nil)
    · exact Literal.text?_plain (by decide)
    · exact .object (.cons ⟨rfl, hproperty⟩ .nil)
  have hsame := h elementText lostText d _ _ hd (Raw.spells_of_flatten (by decide +kernel))
    (asDocument_sampleDocument hobject (.same (.object [])))
    (Raw.spells_of_flatten (by decide +kernel))
  obtain rfl := Except.ok.inj (hd'.symm.trans hsame)
  rw [hdescribes] at hnot
  cases hnot

end Classwright.Schema
