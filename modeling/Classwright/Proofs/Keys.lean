import Classwright.Model.Entity
import Classwright.Proofs.Layouts

/-!
# Distinct keys

A map that is made from pairs has distinct keys, whatever keys the pairs have. So all
maps of a document that was read have distinct keys (`Schema.keysDistinct_of_ofText`),
and no two of the methods that are collected from it have both the same namespace and
the same name (`Model.nodup_map_methods`).
-/

namespace Classwright

/-! ## Maps from pairs

Insertions never add a key that is there, so a map from pairs has each key once.
-/

namespace OrderedMap

variable {α : Type}

/-- A key that is new comes last, and any other stays in its place. -/
theorem map_fst_put (key : String) (value : α) : ∀ entries : List (String × α),
    (put key value entries).map Prod.fst =
      if key ∈ entries.map Prod.fst then entries.map Prod.fst else entries.map Prod.fst ++ [key]
  | [] => rfl
  | (k, v) :: rest => by
    have ih := map_fst_put key value rest
    by_cases h : k = key
    · simp [put, h]
    · have hne : key ≠ k := Ne.symm h
      simp only [put, beq_iff_eq, h, if_false, List.map_cons, ih, List.mem_cons, hne, false_or]
      split <;> rfl

/-- Setting a key adds no other entry. -/
theorem put_subset {key : String} {value : α} :
    ∀ {entries : List (String × α)} {entry : String × α},
    entry ∈ put key value entries → entry = (key, value) ∨ entry ∈ entries
  | [], _, h => Or.inl (List.mem_singleton.1 h)
  | (k, v) :: rest, entry, h => by
    unfold put at h
    split at h
    · next hk =>
      rcases List.mem_cons.1 h with rfl | h
      · exact Or.inl (by rw [eq_of_beq hk])
      · exact Or.inr (List.mem_cons_of_mem _ h)
    · rcases List.mem_cons.1 h with rfl | h
      · exact Or.inr List.mem_cons_self
      · exact (put_subset h).imp id (List.mem_cons_of_mem _)

/-- What an insertion does to a map with distinct keys, done for every pair. -/
theorem foldl_insert : ∀ (pairs : List (String × α)) (m : OrderedMap α), m.keys.Nodup →
    (pairs.foldl (fun m p => m.insert p.1 p.2) m).keys.Nodup ∧
      ∀ entry ∈ (pairs.foldl (fun m p => m.insert p.1 p.2) m).entries, entry ∈ m.entries ∨
      entry ∈ pairs
  | [], m, h => ⟨h, fun _ => Or.inl⟩
  | (key, value) :: pairs, m, h => by
    -- Inserting keeps the keys distinct, and adds no entry but the new one.
    have hkeys : (m.insert key value).keys.Nodup := by
      rw [keys, insert, map_fst_put]
      split
      · exact h
      · next hk =>
        exact List.nodup_append'.2 ⟨h, List.nodup_singleton key, List.disjoint_singleton.2 hk⟩
    obtain ⟨hnodup, hentries⟩ := foldl_insert pairs (m.insert key value) hkeys
    refine ⟨hnodup, fun entry he => ?_⟩
    rcases hentries entry he with he | he
    · rcases put_subset he with rfl | he
      · exact Or.inr List.mem_cons_self
      · exact Or.inl he
    · exact Or.inr (List.mem_cons_of_mem _ he)

theorem keys_nodup_ofList (pairs : List (String × α)) : (ofList pairs).keys.Nodup :=
  (foldl_insert pairs empty List.nodup_nil).1

theorem mem_of_mem_ofList {pairs : List (String × α)} {entry : String × α}
    (h : entry ∈ (ofList pairs).entries) : entry ∈ pairs :=
  ((foldl_insert pairs empty List.nodup_nil).2 entry h).resolve_left List.not_mem_nil

end OrderedMap

/-! ## What readers read

`Yields` says what holds of whatever a reader reads, and follows the reader as it is
written.
-/

namespace Json.Reader

variable {α β : Type} {P : α → Prop} {Q : β → Prop} {r : Reader α} {f : α → Reader β}

/-- Whether all that a reader may read has a property. -/
def Yields (P : α → Prop) (r : Reader α) : Prop :=
  ∀ ⦃c x c'⦄, r c = .ok (x, c') → P x

namespace Yields

theorem pure {x : α} (h : P x) : Yields P (pure x) := by
  rintro c y c' ⟨⟩
  exact h

theorem failPeek {cause : Cause} : Yields P (failPeek cause) :=
  nofun

theorem failHere {cause : Cause} : Yields P (failHere cause) :=
  nofun

theorem failUnplaced {cause : Cause} : Yields P (failUnplaced cause) :=
  nofun

theorem bind (h : Yields P r) (hf : ∀ x, P x → Yields Q (f x)) : Yields Q (r >>= f) := by
  intro c y c' hy
  obtain ⟨x, c₁, hx, hy⟩ := bind_eq_ok.1 hy
  exact hf x (h hx) hy

/-- The property of what is read last is all that counts. -/
theorem of_bind (hf : ∀ x, Yields Q (f x)) : Yields Q (r >>= f) :=
  bind (P := fun _ => True) (fun _ _ _ _ => trivial) fun x _ => hf x

theorem map {g : α → β} (h : Yields (fun x => Q (g x)) r) : Yields Q (g <$> r) := by
  intro c y c' hy
  obtain ⟨x, hx, rfl⟩ := map_eq_ok.1 hy
  exact h hx

theorem placedBy {leave : Cursor → Cursor} (h : Yields P r) : Yields P (placedBy leave r) :=
  fun _ _ _ hx => h (placedBy_eq_ok.1 hx)

theorem inList (h : Yields P r) : Yields P (inList r) :=
  of_bind fun _ => bind h.placedBy fun _ hx => of_bind fun _ => pure hx

theorem inObject (h : Yields P r) : Yields P (inObject r) :=
  of_bind fun _ => bind h.placedBy fun _ hx => of_bind fun _ => pure hx

/-- If the reader of a member yields entries with a property, all members have it. -/
theorem members (h : Yields P r) :
    ∀ (fuel : Nat) (first : Bool), Yields (∀ x ∈ ·, P x) (members r fuel first)
  | 0, _ => pure fun _ hx => absurd hx List.not_mem_nil
  | fuel + 1, first => by
    refine of_bind fun more => ?_
    cases more with
    | false => exact pure fun _ hx => absurd hx List.not_mem_nil
    | true =>
      refine bind h fun x hx => bind (members h fuel false) fun xs hxs => pure ?_
      exact List.forall_mem_cons.2 ⟨hx, hxs⟩

end Yields

end Json.Reader

namespace Schema.Read

open Json Reader

variable {α δ φ : Type} {P : α → Prop}

/-- A value that may be absent has the property if it is there. -/
theorem yields_optional {r : Reader α} (h : Yields P r) : Yields (∀ x ∈ ·, P x) (optional r) := by
  refine .of_bind fun c? => ?_
  split
  · exact .of_bind fun _ => .pure nofun
  · exact .map (by simpa using h)

/-- The maps that are read have distinct keys, and values like those that are read on
their own. -/
theorem yields_map {read : Nat → Reader α} (h : ∀ levels, Yields P (read levels)) (levels : Nat) :
    Yields (fun m => m.keys.Nodup ∧ ∀ entry ∈ m.entries, P entry.2) (map read levels) := by
  have hempty : (OrderedMap.empty : OrderedMap α).keys.Nodup ∧ ∀ entry ∈ OrderedMap.empty.entries,
      P entry.2 :=
    ⟨List.nodup_nil, nofun⟩
  -- An empty list and an empty object make the empty map.
  refine .of_bind fun c? => ?_
  split
  · exact .failPeek
  · exact .of_bind fun _ => .pure hempty
  · refine .of_bind fun _ => .inList (.of_bind fun more => ?_)
    cases more with
    | false => exact .pure hempty
    | true => exact .of_bind fun _ => .failUnplaced
  · refine .of_bind fun inner => .inObject (.of_bind fun fuel => ?_)
    -- A member of the object is a key with a value, which has the property.
    have hmember : Yields (fun entry => P entry.2) (do
        let key ← string
        colon
        Pure.pure (key, ← read inner)) :=
      .of_bind fun key => .of_bind fun _ => .bind (h inner) fun x hx => .pure hx
    refine .bind (.members hmember _ _) fun pairs hpairs =>
      .pure ⟨OrderedMap.keys_nodup_ofList pairs, ?_⟩
    exact fun entry he => hpairs entry (OrderedMap.mem_of_mem_ofList he)
  · exact .of_bind fun _ => .failHere

/-- A record has the property, read from members or from items. -/
theorem yields_record {name : String} {ofMembers ofItems : Nat → Reader α}
    (hm : ∀ levels, Yields P (ofMembers levels)) (hi : ∀ levels, Yields P (ofItems levels))
    (levels : Nat) : Yields P (record name ofMembers ofItems levels) := by
  refine .of_bind fun c? => ?_
  split
  · exact .failPeek
  · exact .of_bind fun inner => .inList (hi inner)
  · exact .of_bind fun inner => .inObject (hm inner)
  · exact .of_bind fun _ => .failHere

section drafts

variable {I : δ → Prop} {read : δ → φ → Reader δ}

/-- What every field of an object preserves holds of the draft in the end. -/
theorem yields_fields {field? : String → Option φ} {name : φ → String} {seen : δ → φ → Bool}
    (h : ∀ draft, I draft → ∀ field, Yields I (read draft field)) : ∀ (fuel : Nat) (first : Bool)
      (draft : δ), I draft → Yields I (fields field? name seen read fuel first draft)
  | 0, _, _, hd => .pure hd
  | fuel + 1, first, draft, hd => by
    refine .of_bind fun more => ?_
    cases more with
    | false => exact .pure hd
    | true =>
      refine .of_bind fun key => ?_
      split
      · exact .of_bind fun _ => .of_bind fun _ => yields_fields h fuel false draft hd
      · next field _ =>
        -- A field that is read keeps the invariant, and so do those behind it.
        have hnext : Yields I (do
            colon
            fields field? name seen read fuel false (← read draft field)) :=
          .of_bind fun _ => .bind (h draft hd field) fun draft hd =>
            yields_fields h fuel false draft hd
        split
        · exact .of_bind fun _ => hnext
        · exact hnext

/-- An invariant of a draft survives the reading of items. -/
theorem yields_itemFields (h : ∀ draft, I draft → ∀ field, Yields I (read draft field)) :
    ∀ (fs : List φ) (first : Bool) (draft : δ), I draft → Yields I (itemFields read fs first draft)
  | [], _, _, hd => .pure hd
  | field :: fs, first, draft, hd => by
    refine .of_bind fun more => ?_
    cases more with
    | false => exact .pure hd
    | true => exact .bind (h draft hd field) fun draft hd => yields_itemFields h fs false draft hd

end drafts

end Schema.Read

/-! ## Documents

All maps in a document are read by the same reader, and each of them has distinct keys.
-/

namespace Schema

open Json Reader

/-- A map that has been read has distinct keys. -/
theorem keys_nodup_of_mapOf {α : Type} {read : Json → Except Cause α} {v : Json} {m : OrderedMap α}
    (h : mapOf read v = .ok m) : m.keys.Nodup := by
  unfold mapOf at h
  split at h
  · obtain ⟨pairs, -, h⟩ := Outcome.bind_eq_ok.1 h
    cases h
    exact OrderedMap.keys_nodup_ofList pairs
  · cases h
    exact List.nodup_nil
  · cases h
    exact List.nodup_nil
  · cases h

/-- A namespace that has been read has distinct methods. -/
theorem Namespace.keys_nodup_of_ofJson? {v : Json} {ns : Namespace} (h : ofJson? v = some ns) :
    ns.methods.keys.Nodup := by
  obtain ⟨methods, hm, rfl⟩ := Option.map_eq_some_iff.1 h
  -- Either way the methods are a map that has been read.
  have hof : ∀ v, (mapOf MethodDef.ofJson v).toOption = some methods → methods.keys.Nodup := by
    intro v hv
    cases hr : mapOf MethodDef.ofJson v with
    | error cause => simp [hr, Except.toOption] at hv
    | ok m =>
      simp only [hr, Except.toOption, Option.some.injEq] at hv
      exact hv ▸ keys_nodup_of_mapOf hr
  rcases Option.or_eq_some_iff.1 hm with hm | ⟨-, hm⟩
  · unfold wrappedMethods? at hm
    split at hm
    · split at hm
      · exact hof _ hm
      · cases hm
    · cases hm
  · exact hof v hm

/-- Whether the maps of a document have distinct keys. -/
structure Document.KeysDistinct (d : Document) : Prop where
  /-- The objects have different names. -/
  objects : d.objects.keys.Nodup
  /-- The namespaces have different names. -/
  namespaces : d.components.keys.Nodup
  /-- The methods of a namespace have different names. -/
  methods : ∀ ns ∈ d.components.entries, ns.2.methods.keys.Nodup

/-- Whether the maps that were read of a document have distinct keys. -/
structure Read.DocumentDraft.KeysDistinct (draft : DocumentDraft) : Prop where
  /-- The objects have different names. -/
  objects : ∀ m ∈ draft.objects?, m.keys.Nodup
  /-- The namespaces have different names, and so have the methods of each. -/
  components : ∀ m ∈ draft.components?, m.keys.Nodup ∧ ∀ ns ∈ m.entries, ns.2.methods.keys.Nodup

/-- So has one that is read directly from the text. -/
theorem Read.yields_namespaceDef (levels : Nat) :
    Yields (fun ns : Namespace => ns.methods.keys.Nodup) (namespaceDef levels) := by
  refine .of_bind fun v => ?_
  split
  · next h => exact .pure (Namespace.keys_nodup_of_ofJson? h)
  · exact .failUnplaced

/-- Reading a part of a document keeps its keys distinct. -/
theorem Read.yields_documentField (levels : Nat) (draft : DocumentDraft) (hd : draft.KeysDistinct)
    (field : DocumentField) :
    Yields DocumentDraft.KeysDistinct (documentField levels draft field) := by
  cases field with
  | objects =>
    have hobject : ∀ levels, Yields (fun _ : ObjectDef => True) (object levels) :=
      fun _ _ _ _ _ => trivial
    refine .bind (yields_optional (yields_map hobject levels)) fun objects? ho =>
      .pure ⟨?_, hd.components⟩
    exact fun m hm => (ho m hm).1
  | components =>
    refine .bind (yields_optional (yields_map yields_namespaceDef levels)) fun components? hc =>
      .pure ⟨hd.objects, ?_⟩
    exact hc

/-- The maps of a document that was read have distinct keys. -/
theorem keysDistinct_of_ofText {text : String} {d : Document} (h : Document.ofText text = .ok d) :
    d.KeysDistinct := by
  -- The draft starts without parts, and each field keeps the keys distinct.
  have hempty : Read.DocumentDraft.KeysDistinct {} := ⟨nofun, nofun⟩
  have hdraft : Yields Read.DocumentDraft.KeysDistinct Read.document := by
    refine Read.yields_record (fun levels => ?_) (fun levels => ?_) maxLevels
    · exact .of_bind fun fuel => Read.yields_fields (Read.yields_documentField levels) _ _ _ hempty
    · refine .bind (Read.yields_itemFields (Read.yields_documentField levels) _ _ _ hempty)
        fun draft hd => ?_
      split
      · exact .of_bind fun _ => .pure hd
      · exact .pure hd
  unfold Document.ofText at h
  split at h
  · cases h
  -- The finished document takes its parts from the draft.
  · next draft hr =>
    obtain ⟨c, hr, -⟩ := run_eq_ok_iff.1 hr
    have hkeys := hdraft hr
    split at h
    · cases h
    · cases h
    · next objects components ho hc =>
      cases h
      obtain ⟨hnamespaces, hmethods⟩ := hkeys.components components hc
      exact ⟨hkeys.objects objects ho, hnamespaces, hmethods⟩

end Schema

/-! ## Collected methods

A method is named by two keys, and two methods by different pairs of keys.
-/

namespace Model

theorem nodup_map_fst_generated {α : Type} {m : OrderedMap α} (h : m.keys.Nodup) :
    ((generated m).map Prod.fst).Nodup :=
  (List.filter_sublist.map Prod.fst).nodup h

/-- No two methods have both the same namespace and the same name. -/
theorem nodup_map_methods {d : Schema.Document} (hd : d.KeysDistinct) :
    ((methods d).map fun m => (m.1, m.2.1)).Nodup := by
  rw [methods, List.map_flatMap, List.nodup_flatMap]
  constructor
  -- Within a namespace the methods are distinct.
  · intro ns hns
    have hkeys := hd.methods ns (List.mem_filter.1 hns).1
    have hpairs : (ns.2.methods.entries.map fun m => (ns.1, m.1)) =
        ns.2.methods.keys.map (Prod.mk ns.1) := by
      rw [OrderedMap.keys, List.map_map]
      rfl
    rw [List.map_map]
    exact hpairs ▸ hkeys.map fun _ _ h => congrArg Prod.snd h
  -- And the names of namespaces are distinct, so no two namespaces share a pair.
  · have hns := nodup_map_fst_generated hd.namespaces
    rw [List.Nodup, List.pairwise_map] at hns
    refine hns.imp fun hne => List.disjoint_left.2 fun x hx hx' => ?_
    simp only [List.map_map, List.mem_map, Function.comp_apply] at hx hx'
    obtain ⟨m, -, rfl⟩ := hx
    obtain ⟨m', -, h⟩ := hx'
    exact hne (congrArg Prod.fst h).symm

end Model

end Classwright
