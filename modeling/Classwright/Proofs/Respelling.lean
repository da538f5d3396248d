import Classwright.Proofs.Recognition
import Mathlib.Data.List.Forall2

/-!
# Writing empty maps as empty lists

`Schema.Respelled.AsDocument` says which values of a document can be written as empty
lists: those that are empty and stand for maps and records, at any depth. Where the
parts of a document are decoded from values, they are decoded as before
(`Schema.stand_of_namespace`), also where a method is taken for a map of methods or the
other way round.
-/

namespace Classwright.Schema

open Json (Raw Literal)
open Outcome (toOption_bind)

/-! ## Writing empty maps as empty lists

The relations follow the readers of a document: one for maps, one for records, and one
for each kind of field.
-/

namespace Respelled

variable {α φ : Type}

/-- Whether the items of two lists, one for each field, are related as the fields ask. -/
inductive Items (R : φ → α → α → Prop) : List φ → List α → List α → Prop
  | nil {fields : List φ} : Items R fields [] []
  | cons {field : φ} {fields : List φ} {v v' : α} {items items' : List α} (h : R field v v')
      (hrest : Items R fields items items') : Items R (field :: fields) (v :: items) (v' :: items')

/-- Whether a map is the same or written as an empty list, or has values that are
related. -/
inductive AsMap (R : Raw → Raw → Prop) : Raw → Raw → Prop
  | same (v : Raw) : AsMap R v v
  | emptied : AsMap R (.object []) (.list [])
  | object {members members' : List (Literal × Raw)}
      (h : List.Forall₂ (fun m m' => m.1 = m'.1 ∧ R m.2 m'.2) members members') :
      AsMap R (.object members) (.object members')

/-- Whether a record is the same or written as an empty list, or has values that are the
same or related as their fields ask. -/
inductive AsRecord (field? : String → Option φ) (fields : List φ) (R : φ → Raw → Raw → Prop) :
    Raw → Raw → Prop
  | same (v : Raw) : AsRecord field? fields R v v
  | emptied : AsRecord field? fields R (.object []) (.list [])
  | object {members members' : List (Literal × Raw)}
      (h : List.Forall₂ (fun m m' => m.1 = m'.1 ∧
        (m.2 = m'.2 ∨ ∃ key field,
          m.1.text? = some key ∧ field? key = some field ∧ R field m.2 m'.2))
        members members') :
      AsRecord field? fields R (.object members) (.object members')
  | list {items items' : List Raw}
      (h : Items (fun field v v' => v = v' ∨ R field v v') fields items items') :
      AsRecord field? fields R (.list items) (.list items')

/-- Whether a description of elements is written as an empty list, or has one in it that
is. -/
inductive AsElement : Raw → Raw → Prop
  | emptied : AsElement (.object []) (.list [])
  | inner {before after : List (Literal × Raw)} {k : Literal} {v v' : Raw}
      (hk : k.text? = some "array") (h : AsElement v v') :
      AsElement (.object (before ++ (k, v) :: after)) (.object (before ++ (k, v') :: after))

/-- Whether a namespace is read as one with a member around its methods. -/
def IsWrapped (v : Raw) : Prop :=
  ∀ levels value, v.json? levels = some value → (wrappedMethods? value).isSome

section documents

-- What may be done to the descriptions of elements.
variable (E : Raw → Raw → Prop)

/-- What is related in a field of a property. -/
def InProperty : PropertyField → Raw → Raw → Prop
  | .array => E
  | _ => fun _ _ => False

/-- Whether a property is written with empty lists for empty maps. -/
def AsProperty : Raw → Raw → Prop :=
  AsRecord PropertyField.ofName? PropertyField.all (InProperty E)

/-- What is related in a field of an object. -/
def InObject : Read.ObjectField → Raw → Raw → Prop
  | .properties => AsMap (AsProperty E)
  | .description => fun _ _ => False

/-- Whether an object is written with empty lists for empty maps. -/
def AsObject : Raw → Raw → Prop :=
  AsRecord Read.ObjectField.ofName? [.description, .properties] (InObject E)

/-- What is related in a field of a method. -/
def InMethod : MethodField → Raw → Raw → Prop
  | .params | .returns => AsMap (AsProperty E)
  | _ => fun _ _ => False

/-- Whether a method is written with empty lists for empty maps. -/
def AsMethod : Raw → Raw → Prop :=
  AsRecord MethodField.ofName? MethodField.all (InMethod E)

/-- Whether a namespace is written with empty lists for empty maps. -/
inductive AsNamespace : Raw → Raw → Prop
  | bare {v v' : Raw} (h : AsMap (AsMethod E) v v') : AsNamespace v v'
  | wrapped {members members' : List (Literal × Raw)} (hwrapped : IsWrapped (.object members))
      (h : List.Forall₂ (fun m m' => m.1 = m'.1 ∧
        (m.2 = m'.2 ∨ m.1.text? = some "methods" ∧ AsMap (AsMethod E) m.2 m'.2)) members members') :
      AsNamespace (.object members) (.object members')

/-- What is related in a part of a document. -/
def InDocument : Read.DocumentField → Raw → Raw → Prop
  | .objects => AsMap (AsObject E)
  | .components => AsMap (AsNamespace E)

/-- Whether a document is written with empty lists for empty maps. -/
def AsDocument : Raw → Raw → Prop :=
  AsRecord Read.DocumentField.ofName? [.objects, .components] (InDocument E)

end documents

end Respelled

open Respelled

/-! ## Values that are decoded alike

Namespaces are decoded from values that were read before, so these values are compared
and not their texts.
-/

section decoding

variable {β : Type} {f : Json → Except Json.Cause β} {ps ps' : List (String × Json)}
    {as as' : List Json}

/-- Whether a decoder makes the same of two values, or nothing of either. -/
def Alike (f : Json → Except Json.Cause β) (a a' : Json) : Prop :=
  (f a).toOption = (f a').toOption

theorem Alike.refl (a : Json) : Alike f a a :=
  rfl

/-- Values that are taken alike one by one are so together. -/
theorem alike_valuesOf (h : List.Forall₂ (fun p p' => p.1 = p'.1 ∧ Alike f p.2 p'.2) ps ps') :
    (valuesOf f ps).toOption = (valuesOf f ps').toOption := by
  induction h with
  | nil => rfl
  | @cons p p' ps ps' hp _ ih =>
    obtain ⟨key, a⟩ := p
    obtain ⟨_, a'⟩ := p'
    obtain ⟨rfl, ha⟩ := hp
    simp only [Alike, valuesOf, toOption_bind] at ha ih ⊢
    rw [ha, ih]

theorem alike_mapOf (h : List.Forall₂ (fun p p' => p.1 = p'.1 ∧ Alike f p.2 p'.2) ps ps') :
    Alike (mapOf f) (.object ps) (.object ps') := by
  simp only [Alike, mapOf, toOption_bind, alike_valuesOf h]

/-- A list is a map only if it is empty. -/
theorem alike_mapOf_list (h : as.length = as'.length) : Alike (mapOf f) (.list as) (.list as') := by
  cases as with
  | nil =>
    obtain rfl := List.length_eq_zero_iff.1 h.symm
    rfl
  | cons a as =>
    obtain ⟨a', as', rfl⟩ := List.exists_cons_of_length_eq_add_one h.symm
    rfl

/-- So are maps that may be absent. -/
theorem alike_optionalMapOf (h : List.Forall₂ (fun p p' => p.1 = p'.1 ∧ Alike f p.2 p'.2) ps ps') :
    Alike (optionalMapOf f) (.object ps) (.object ps') := by
  have hmap := alike_mapOf h
  simp only [Alike, optionalMapOf, map_eq_pure_bind, toOption_bind] at hmap ⊢
  rw [hmap]

/-- Whether two values are taken into a method alike under a key. -/
def TakenAlike (key : String) (a a' : Json) : Prop :=
  ∀ field ∈ MethodField.ofName? key, ∀ draft : MethodDraft, Alike (draft.set field) a a'

/-- Methods are taken alike, if their fields are. -/
theorem alike_method (h : List.Forall₂ (fun p p' => p.1 = p'.1 ∧ TakenAlike p.1 p.2 p'.2) ps ps') :
    Alike MethodDef.ofJson (.object ps) (.object ps') := by
  -- The drafts are filled alike: a member that names no field is skipped by both.
  have hmembers : ∀ draft,
      (MethodDraft.addMembers ps draft).toOption = (MethodDraft.addMembers ps' draft).toOption := by
    induction h with
    | nil => exact fun _ => rfl
    | @cons p p' ps ps' hp _ ih =>
      intro draft
      obtain ⟨key, a⟩ := p
      obtain ⟨_, a'⟩ := p'
      obtain ⟨rfl, ha⟩ := hp
      simp only [MethodDraft.addMembers]
      cases hfield : MethodField.ofName? key with
      | none => exact ih draft
      | some field =>
        have hset : (draft.set field a).toOption = (draft.set field a').toOption :=
          ha field hfield draft
        simp only
        split
        · rfl
        · simp only [toOption_bind, hset, ih]
  simp only [Alike, MethodDef.ofJson, toOption_bind, hmembers]

/-- So are methods that are written as lists of fields. -/
theorem alike_method_list
    (h : Items (fun field a a' => ∀ draft : MethodDraft,
      Alike (draft.set field) a a') MethodField.all as as') :
    Alike MethodDef.ofJson (.list as) (.list as') := by
  -- The fields are filled in their order, by induction on the items.
  have hitems : ∀ {fields} {as as' : List Json},
      Items (fun field a a' => ∀ draft : MethodDraft, Alike (draft.set field) a a') fields as as' →
        ∀ draft,
          (MethodDraft.addItems fields as draft).toOption =
          (MethodDraft.addItems fields as' draft).toOption := by
    intro fields as as' h
    induction h with
    | nil => exact fun _ => rfl
    | @cons field fields a a' as as' ha _ ih =>
      intro draft
      have hset : (draft.set field a).toOption = (draft.set field a').toOption := ha draft
      simp only [MethodDraft.addItems, toOption_bind, hset, ih]
  simp only [Alike, MethodDef.ofJson, toOption_bind, hitems h]

/-- Namespaces wrap the same methods, if what they have under `methods` is taken alike. -/
theorem wrappedMethods?_congr (h : List.Forall₂ (fun p p' => p.1 = p'.1 ∧
      (p.1 = "methods" → Alike (mapOf MethodDef.ofJson) p.2 p'.2)) ps ps') :
    wrappedMethods? (.object ps) = wrappedMethods? (.object ps') := by
  -- The members named `methods` correspond, and there is one or there is none that
  -- counts.
  have hfilter : List.Forall₂ (fun p p' => Alike (mapOf MethodDef.ofJson) p.2 p'.2)
      (ps.filter fun p => p.1 == "methods") (ps'.filter fun p => p.1 == "methods") := by
    induction h with
    | nil => exact .nil
    | @cons p p' ps ps' hp _ ih =>
      rw [List.filter_cons, List.filter_cons, ← hp.1]
      split
      · next hkey => exact .cons (hp.2 (eq_of_beq hkey)) ih
      · exact ih
  simp only [wrappedMethods?]
  generalize (ps.filter fun p => p.1 == "methods") = qs, (ps'.filter fun p => p.1 == "methods") =
    qs' at hfilter ⊢
  cases hfilter with
  | nil => rfl
  | cons hp hrest =>
    cases hrest with
    | nil => exact hp
    | cons _ _ => rfl

end decoding

/-! ## What respelled values stand for

Two written values stand for values that are related, or neither stands for any.
-/

section values

variable {α β φ : Type} {v v' : Raw} {members members' : List (Literal × Raw)}
    {items items' : List Raw}

/-- Whether two values stand for values that are related, or both for none. -/
def Stand (T : Json → Json → Prop) (v v' : Raw) : Prop :=
  ∀ levels, Option.Rel T (v.json? levels) (v'.json? levels)

/-- A written value stands for what it stands for. -/
theorem Stand.refl {T : Json → Json → Prop} (hT : ∀ a, T a a) (v : Raw) : Stand T v v := by
  intro levels
  cases v.json? levels with
  | none => exact .none
  | some a => exact .some (hT a)

/-- What is required of the values may be weakened. -/
theorem Stand.mono {T T' : Json → Json → Prop} (h : Stand T v v') (hT : ∀ a a', T a a' → T' a a') :
    Stand T' v v' := by
  intro levels
  have hlevel := h levels
  generalize v.json? levels = x at hlevel ⊢
  generalize v'.json? levels = x' at hlevel ⊢
  cases hlevel with
  | none => exact .none
  | some ha => exact .some (hT _ _ ha)

/-- Two requirements may be put together. -/
theorem Stand.and {T T' : Json → Json → Prop} (h : Stand T v v') (h' : Stand T' v v') :
    Stand (fun a a' => T a a' ∧ T' a a') v v' := by
  intro levels
  have hlevel := h levels
  have hlevel' := h' levels
  generalize v.json? levels = x at hlevel hlevel' ⊢
  generalize v'.json? levels = x' at hlevel hlevel' ⊢
  cases hlevel with
  | none => exact .none
  | some ha =>
    cases hlevel' with
    | some ha' => exact .some ⟨ha, ha'⟩

theorem Stand.emptied {T : Json → Json → Prop} (hT : T (.object []) (.list [])) :
    Stand T (.object []) (.list [])
  | 0 => .none
  | _ + 1 => .some hT

/-- Steps that correspond have results that correspond. -/
theorem rel_bind {γ δ : Type} {S : α → β → Prop} {T : γ → δ → Prop} {x : Option α} {y : Option β}
    {f : α → Option γ} {g : β → Option δ} (h : Option.Rel S x y)
    (hf : ∀ a b, S a b → Option.Rel T (f a) (g b)) :
    Option.Rel T (x >>= f) (y >>= g) := by
  cases h with
  | none => exact .none
  | some ha => exact hf _ _ ha

/-- Objects stand for corresponding values, if their members do. -/
theorem Stand.object {S : String → Json → Json → Prop} {T : Json → Json → Prop}
    (hT : ∀ ps ps', List.Forall₂ (fun p p' => p.1 = p'.1 ∧ S p.1 p.2 p'.2) ps ps' →
      T (.object ps) (.object ps'))
    (h : List.Forall₂
      (fun m m' => m.1 = m'.1 ∧ ∀ key, m.1.text? = some key → Stand (S key) m.2 m'.2)
      members members') :
    Stand T (.object members) (.object members')
  | 0 => .none
  | levels + 1 => by
    -- The members are read in their order, and one that cannot be read is none for
    -- both.
    have hmembers : Option.Rel (List.Forall₂ fun p p' => p.1 = p'.1 ∧ S p.1 p.2 p'.2)
        (Raw.members? (Raw.json? levels) members) (Raw.members? (Raw.json? levels) members') := by
      unfold Raw.members?
      induction h with
      | nil => exact .some .nil
      | @cons m m' members members' hm _ ih =>
        obtain ⟨k, v⟩ := m
        obtain ⟨_, v'⟩ := m'
        obtain ⟨rfl, hv⟩ := hm
        rw [List.mapM_cons, List.mapM_cons]
        refine rel_bind (S := fun p p' => p.1 = p'.1 ∧ S p.1 p.2 p'.2) ?_ fun p p' hp =>
          rel_bind ih fun ps ps' hps => .some (.cons hp hps)
        cases hkey : k.text? with
        | none => exact .none
        | some key =>
          have hmember : Option.Rel (fun p p' : String × Json => p.1 = p'.1 ∧ S p.1 p.2 p'.2)
              (v.json? levels >>= fun a => some (key, a)) (v'.json? levels >>= fun a =>
                some (key, a)) :=
            rel_bind (hv key hkey levels) fun a a' ha => .some ⟨rfl, ha⟩
          exact hmember
    rw [Raw.json?, Raw.json?, Option.map_eq_bind, Option.map_eq_bind]
    exact rel_bind hmembers fun ps ps' hps => .some (hT ps ps' hps)

/-- Maps whose values stand for related values stand for related maps, whether an empty
one is an object or a list. -/
theorem Stand.of_asMap {R : Raw → Raw → Prop} {S : String → Json → Json → Prop}
    {T : Json → Json → Prop} (hrefl : ∀ a, T a a) (hempty : T (.object []) (.list []))
    (hT : ∀ ps ps',
      List.Forall₂ (fun p p' => p.1 = p'.1 ∧ S p.1 p.2 p'.2) ps ps' → T (.object ps) (.object ps'))
    (hR : ∀ {v v'}, R v v' → ∀ key, Stand (S key) v v') (h : AsMap R v v') : Stand T v v' := by
  cases h with
  | same => exact .refl hrefl _
  | emptied => exact .emptied hempty
  | object h => exact .object hT (h.imp fun m m' hm => ⟨hm.1, fun key _ => hR hm.2 key⟩)

/-- Lists of fields stand for corresponding values, if their items do. -/
theorem Stand.list {S : φ → Json → Json → Prop} {T : Json → Json → Prop} {fields : List φ}
    (hT : ∀ as as', Items S fields as as' → T (.list as) (.list as'))
    (h : Items (fun field => Stand (S field)) fields items items') :
    Stand T (.list items) (.list items')
  | 0 => .none
  | levels + 1 => by
    -- The items are read in their order.
    have hitems : Option.Rel (Items S fields) (items.mapM (Raw.json? levels))
        (items'.mapM (Raw.json? levels)) := by
      clear hT
      induction h with
      | nil => exact .some .nil
      | cons hv _ ih =>
        rw [List.mapM_cons, List.mapM_cons]
        exact rel_bind (hv levels) fun a a' ha => rel_bind ih fun as as' has => .some (.cons ha has)
    rw [Raw.json?, Raw.json?, Option.map_eq_bind, Option.map_eq_bind]
    exact rel_bind hitems fun as as' has => .some (hT as as' has)

/-- What is required of the items may be weakened. -/
theorem Respelled.Items.imp {R R' : φ → α → α → Prop} {fields : List φ} {xs xs' : List α}
    (h : Items R fields xs xs') (hR : ∀ field x x', R field x x' → R' field x x') :
    Items R' fields xs xs' := by
  induction h with
  | nil => exact .nil
  | cons hx _ ih => exact .cons (hR _ _ _ hx) ih

/-- Lists of items have the same length. -/
theorem Respelled.Items.length_eq {R : φ → α → α → Prop} {fields : List φ} {xs xs' : List α}
    (h : Items R fields xs xs') : xs.length = xs'.length := by
  induction h with
  | nil => rfl
  | cons _ _ ih => exact congrArg Nat.succ ih

/-- Without any way to respell an item, nothing is respelled. -/
theorem Respelled.Items.eq {R : φ → Raw → Raw → Prop} {fields : List φ}
    (hR : ∀ field v v', ¬R field v v')
    (h : Items (fun field v v' => v = v' ∨ R field v v') fields items items') : items = items' := by
  induction h with
  | nil => rfl
  | cons hv _ ih => rw [hv.resolve_right (hR _ _ _), ih]

/-- Where nothing may be done to the values of a record, it can only be written as an
empty list itself. -/
theorem Respelled.AsRecord.eq_or_emptied {field? : String → Option φ} {fields : List φ}
    {R : φ → Raw → Raw → Prop} (hR : ∀ field v v', ¬R field v v')
    (h : AsRecord field? fields R v v') :
    v = v' ∨ v = .object [] ∧ v' = .list [] := by
  cases h with
  | same => exact Or.inl rfl
  | emptied => exact Or.inr ⟨rfl, rfl⟩
  | list h => exact Or.inl (congrArg Raw.list (h.eq hR))
  | object h =>
    refine Or.inl
      (congrArg Raw.object (List.forall₂_eq_eq_eq ▸ h.imp fun m m' hm => Prod.ext hm.1 ?_))
    refine hm.2.resolve_right ?_
    rintro ⟨_, _, -, -, hv⟩
    exact hR _ _ _ hv

theorem eq_or_emptied_of_property (h : AsProperty (fun _ _ => False) v v') :
    v = v' ∨ v = .object [] ∧ v' = .list [] := by
  refine AsRecord.eq_or_emptied (fun field _ _ => ?_) h
  cases field <;> exact id

/-- A property is decoded alike by what takes an empty object and an empty list alike. -/
theorem stand_of_property {T : Json → Json → Prop} (h : AsProperty (fun _ _ => False) v v')
    (hT : ∀ a, T a a) (hempty : T (.object []) (.list [])) : Stand T v v' := by
  rcases eq_or_emptied_of_property h with rfl | ⟨rfl, rfl⟩
  · exact .refl hT v
  · exact .emptied hempty

theorem stand_of_params (h : AsMap (AsProperty fun _ _ => False) v v') :
    Stand (Alike (optionalMapOf PropertyDef.ofJson)) v v' :=
  .of_asMap (S := fun _ => Alike PropertyDef.ofJson) Alike.refl rfl (fun _ _ => alike_optionalMapOf)
    (fun hv _ => stand_of_property hv Alike.refl rfl) h

/-- A map of properties that is taken for a method is decoded alike as well. -/
theorem stand_method_of_params (h : AsMap (AsProperty fun _ _ => False) v v') :
    Stand (Alike MethodDef.ofJson) v v' := by
  refine .of_asMap (S := TakenAlike) Alike.refl rfl (fun _ _ => alike_method) (fun hv key => ?_) h
  refine stand_of_property hv (fun _ _ _ _ => rfl) fun field _ draft => ?_
  cases field <;> rfl

/-- Respelled fields of a method are taken alike. -/
theorem stand_of_inMethod {field : MethodField} (h : InMethod (fun _ _ => False) field v v') :
    Stand (fun a a' => ∀ draft : MethodDraft, Alike (draft.set field) a a') v v' := by
  cases field with
  | description | secure | requireSession | redirect => cases h
  | params | returns =>
    refine (stand_of_params h).mono fun a a' ha draft => ?_
    simp only [Alike, MethodDraft.set, toOption_bind] at ha ⊢
    rw [ha]

/-- Respelled methods are taken alike. -/
theorem stand_of_method (h : AsMethod (fun _ _ => False) v v') :
    Stand (Alike MethodDef.ofJson) v v' := by
  cases h with
  | same => exact .refl Alike.refl _
  | emptied => exact .emptied rfl
  -- A member is the same, or its key names the field that is respelled.
  | object h =>
    refine .object (S := TakenAlike) (fun _ _ => alike_method) (h.imp fun m m' hm => ⟨hm.1,
      fun key hkey => ?_⟩)
    rcases hm.2 with hv | ⟨_, field, hkey', hfield, hv⟩
    · rw [hv]
      exact .refl (fun _ _ _ _ => rfl) _
    · obtain rfl := Option.some.inj (hkey.symm.trans hkey')
      refine (stand_of_inMethod hv).mono fun a a' ha field' hfield' => ?_
      obtain rfl := Option.some.inj (hfield.symm.trans hfield')
      exact ha
  | list h =>
    refine .list (fun _ _ => alike_method_list) (h.imp fun field v v' hv => ?_)
    rcases hv with rfl | hv
    · exact .refl (fun _ _ => rfl) _
    · exact stand_of_inMethod hv

/-- A method that is taken for a map of methods is decoded alike as well. -/
theorem stand_methods_of_method (h : AsMethod (fun _ _ => False) v v') :
    Stand (Alike (mapOf MethodDef.ofJson)) v v' := by
  cases h with
  | same => exact .refl Alike.refl _
  | emptied => exact .emptied rfl
  | object h =>
    refine .object (S := fun _ => Alike MethodDef.ofJson) (fun _ _ => alike_mapOf)
      (h.imp fun m m' hm => ⟨hm.1, fun _ _ => ?_⟩)
    rcases hm.2 with hv | ⟨_, field, -, -, hv⟩
    · rw [hv]
      exact .refl Alike.refl _
    -- Only maps of properties are respelled, and they are no methods.
    · cases field with
      | params | returns => exact stand_method_of_params hv
      | description | secure | requireSession | redirect => cases hv
  | list h =>
    refine .list (S := fun _ _ _ => True) (fun _ _ h => alike_mapOf_list h.length_eq)
      (h.imp fun field v v' hv => ?_)
    rcases hv with rfl | hv
    · exact .refl (fun _ => trivial) _
    · exact (stand_of_inMethod hv).mono fun _ _ _ => trivial

theorem stand_of_methods (h : AsMap (AsMethod fun _ _ => False) v v') :
    Stand (Alike (mapOf MethodDef.ofJson)) v v' :=
  .of_asMap (S := fun _ => Alike MethodDef.ofJson) Alike.refl rfl (fun _ _ => alike_mapOf)
    (fun hv _ => stand_of_method hv) h

/-- A map of methods is taken for a wrapped one alike. -/
theorem stand_wrappedMethods_of_asMap (h : AsMap (AsMethod fun _ _ => False) v v') :
    Stand (fun a a' => wrappedMethods? a = wrappedMethods? a') v v' :=
  .of_asMap (S := fun key a a' => key = "methods" → Alike (mapOf MethodDef.ofJson) a a')
    (fun _ => rfl) rfl (fun _ _ => wrappedMethods?_congr) (fun hv _ =>
      (stand_methods_of_method hv).mono fun _ _ ha _ => ha) h

/-- So is an object whose map of methods is respelled. -/
theorem stand_wrappedMethods_of_members
    (h : List.Forall₂ (fun m m' => m.1 = m'.1 ∧
      (m.2 = m'.2 ∨ m.1.text? = some "methods" ∧ AsMap (AsMethod fun _ _ => False) m.2 m'.2))
      members members') :
    Stand (fun a a' => wrappedMethods? a = wrappedMethods? a') (.object members)
      (.object members') := by
  refine .object (S := fun key a a' => key = "methods" → Alike (mapOf MethodDef.ofJson) a a')
    (fun _ _ => wrappedMethods?_congr) (h.imp fun m m' hm => ⟨hm.1, fun key _ => ?_⟩)
  rcases hm.2 with hv | ⟨-, hv⟩
  · rw [hv]
    exact .refl (fun _ _ => rfl) _
  · exact (stand_of_methods hv).mono fun _ _ ha _ => ha

/-- A wrapped namespace is decoded from its wrapped methods alone. -/
theorem ofJson?_congr_of_wrapped {a a' : Json} (h : wrappedMethods? a = wrappedMethods? a')
    (hwrapped : (wrappedMethods? a).isSome) : Namespace.ofJson? a = Namespace.ofJson? a' := by
  obtain ⟨methods, hmethods⟩ := Option.isSome_iff_exists.1 hwrapped
  rw [Namespace.ofJson?, Namespace.ofJson?, ← h, hmethods]
  rfl

/-- A namespace is decoded alike in either layout. -/
theorem stand_of_namespace (h : AsNamespace (fun _ _ => False) v v') :
    Stand (fun a a' => Namespace.ofJson? a = Namespace.ofJson? a') v v' := by
  cases h with
  -- Both ways of reading give the same.
  | bare h =>
    refine ((stand_wrappedMethods_of_asMap h).and (stand_of_methods h)).mono fun a a' ha => ?_
    rw [Namespace.ofJson?, Namespace.ofJson?, ha.1]
    exact congrArg (fun methods => ((wrappedMethods? a').or methods).map Namespace.mk) ha.2
  -- The members are a map of methods in any spelling, so the other way is not tried.
  | @wrapped members members' hwrapped h =>
    intro levels
    have hlevel := stand_wrappedMethods_of_members h levels
    have hsome := hwrapped levels
    generalize Raw.json? levels (.object members) = x at hlevel hsome ⊢
    generalize Raw.json? levels (.object members') = x' at hlevel ⊢
    cases hlevel with
    | none => exact .none
    | some ha => exact .some (ofJson?_congr_of_wrapped ha (hsome _ rfl))

end values

end Classwright.Schema
