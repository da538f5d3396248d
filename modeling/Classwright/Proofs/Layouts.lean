import Mathlib
import Classwright.Proofs.Consumption
import Classwright.Proofs.Outcome
import Classwright.Schema.Reader

/-!
# The two layouts of a namespace

The methods of a namespace stand in an object, either bare or wrapped into a member
`methods`. Where every method can be read, both layouts give the same methods in the
order of the text. Where one cannot, the bare layout is refused; the wrapped one is then
tried as a bare one, with a single method that is called `methods` and has the object as
its descriptor, and the members of a descriptor that are no fields are passed over
(`Namespace.ofJson?_wrapped`). So the layouts part exactly on objects that are no map of
methods and yet a descriptor (`Namespace.layouts_agree_iff`).
-/

namespace Classwright

/-! ## Maps from pairs with distinct keys

Pairs with distinct keys are the entries of the map that they make.
-/

namespace OrderedMap

variable {α : Type}

/-- A new key goes to the end. -/
theorem put_of_notMem {key : String} (value : α) :
    ∀ {entries : List (String × α)}, key ∉ entries.map Prod.fst →
    put key value entries = entries ++ [(key, value)]
  | [], _ => rfl
  | (k, v) :: rest, h => by
    rw [List.map_cons, List.mem_cons, not_or] at h
    rw [put, if_neg (by simpa using Ne.symm h.1), put_of_notMem value h.2, List.cons_append]

/-- Inserting distinct keys lists them in their order. -/
theorem foldl_insert_of_nodup : ∀ {pairs : List (String × α)} {m : OrderedMap α},
    (m.keys ++ pairs.map Prod.fst).Nodup →
      pairs.foldl (fun m p => m.insert p.1 p.2) m = ⟨m.entries ++ pairs⟩
  | [], m, _ => by simp
  | (k, v) :: rest, m, h => by
    have hk : k ∉ m.keys := fun hk => (List.nodup_append.1 h).2.2 k hk k (by simp) rfl
    have hm : m.insert k v = ⟨m.entries ++ [(k, v)]⟩ := congrArg OrderedMap.mk (put_of_notMem v hk)
    rw [List.foldl_cons, hm, foldl_insert_of_nodup (by simpa [keys] using h)]
    simp

/-- Pairs with distinct keys are the entries of the map that they make. -/
theorem ofList_of_nodup {pairs : List (String × α)} (h : (pairs.map Prod.fst).Nodup) :
    ofList pairs = ⟨pairs⟩ :=
  foldl_insert_of_nodup h

end OrderedMap

/-! ## Reading a whole text

What stands behind a value is read, and then the value is turned into something, or
refused without a place.
-/

namespace Json.Reader

variable {α β : Type} {body : Reader α} {f : α → Reader β} {text : String} {x : α}

/-- A text is read completely before its value is taken. -/
theorem run_bind_pure {y : β} (h : run body text = .ok x) (hf : f x = pure y) :
    run (body >>= f) text = .ok y := by
  obtain ⟨c, hbody, hc⟩ := run_eq_ok_iff.1 h
  refine run_eq_ok_iff.2 ⟨c, ?_, hc⟩
  simp [bind, StateT.bind, Except.bind, hbody, hf, pure, StateT.pure, Except.pure]

/-- A failure after a text has been read has no place in it. -/
theorem run_bind_failUnplaced {cause : Cause} (h : run body text = .ok x)
    (hf : f x = failUnplaced cause) :
    run (body >>= f) text = .error ⟨cause, none⟩ := by
  obtain ⟨c, hbody, -⟩ := run_eq_ok_iff.1 h
  simp [run, bind, StateT.bind, Except.bind, hbody, hf, failUnplaced]

end Json.Reader

namespace Schema

open Json (Cause)
open Json.Reader

/-! ## Maps of values

A map is decoded if all of its values are, each for itself.
-/

section maps

variable {α : Type} {read : Json → Except Cause α} {members : List (String × Json)}

/-- The values of a map are read one by one, in order. -/
theorem valuesOf_eq_ok_iff : ∀ {members : List (String × Json)} {pairs : List (String × α)},
    valuesOf read members = .ok pairs ↔
      List.Forall₂ (fun m p => p.1 = m.1 ∧ read m.2 = .ok p.2) members pairs
  | [], pairs => by simp [valuesOf, eq_comm]
  | (key, value) :: rest, pairs => by
    simp only [valuesOf, Outcome.bind_eq_ok, valuesOf_eq_ok_iff, pure, Except.pure, Except.ok.injEq]
    constructor
    · rintro ⟨x, hx, pairs', hp, rfl⟩
      exact .cons ⟨rfl, hx⟩ hp
    · rintro (_ | ⟨⟨hk, hx⟩, hp⟩)
      exact ⟨_, hx, _, hp, congrArg (· :: _) (Prod.ext hk.symm rfl)⟩

/-- Reading the values of members keeps their keys. -/
theorem map_fst_of_valuesOf {pairs : List (String × α)} (h : valuesOf read members = .ok pairs) :
    pairs.map Prod.fst = members.map Prod.fst := by
  have hall := List.forall₂_map_left_iff.2 (List.forall₂_map_right_iff.2
    ((valuesOf_eq_ok_iff.1 h).imp fun m p hp => hp.1.symm))
  exact (List.forall₂_eq_eq_eq ▸ hall : members.map Prod.fst = pairs.map Prod.fst).symm

/-- All values can be read exactly if each can. -/
theorem exists_valuesOf_iff : ∀ {members : List (String × Json)},
    (∃ pairs, valuesOf read members = .ok pairs) ↔ ∀ m ∈ members, ∃ x, read m.2 = .ok x
  | [] => by simp [valuesOf]
  | (key, value) :: rest => by
    simp only [valuesOf, Outcome.bind_eq_ok, List.forall_mem_cons, ← exists_valuesOf_iff]
    constructor
    · rintro ⟨_, x, hx, pairs, hp, -⟩
      exact ⟨⟨x, hx⟩, pairs, hp⟩
    · rintro ⟨⟨x, hx⟩, pairs, hp⟩
      exact ⟨_, x, hx, pairs, hp, rfl⟩

/-- With distinct keys, an object becomes the map of its members in their order. -/
theorem mapOf_object (hkeys : (members.map Prod.fst).Nodup) :
    mapOf read (.object members) = (valuesOf read members).map OrderedMap.mk := by
  rw [mapOf]
  cases h : valuesOf read members with
  | error cause => rfl
  | ok pairs =>
    refine congrArg Except.ok (OrderedMap.ofList_of_nodup ?_)
    rwa [map_fst_of_valuesOf h]

end maps

/-- Whether a value describes a method. -/
def IsMethod (v : Json) : Prop :=
  ∃ method, MethodDef.ofJson v = .ok method

namespace Namespace

variable {members : List (String × Json)}

/-! ## Values

A bare value is tried as a map of methods after the wrapped reading has failed.
-/

/-- An object without a member `methods` wraps nothing. -/
theorem wrappedMethods?_object (hm : "methods" ∉ members.map Prod.fst) :
    wrappedMethods? (.object members) = none := by
  have hfilter : (members.filter fun m => m.1 == "methods") = [] := by
    refine List.filter_eq_nil_iff.2 fun m h hk => hm ?_
    rw [← eq_of_beq hk]
    exact List.mem_map_of_mem h
  rw [wrappedMethods?, hfilter]

/-- A bare namespace is the map of its members, if all of them are methods. -/
theorem ofJson?_bare (hkeys : (members.map Prod.fst).Nodup)
    (hm : "methods" ∉ members.map Prod.fst) :
    ofJson? (.object members) =
      (valuesOf MethodDef.ofJson members).toOption.map fun methods => ⟨⟨methods⟩⟩ := by
  rw [ofJson?, wrappedMethods?_object hm, Option.none_or, bareMethods?, mapOf_object hkeys]
  cases valuesOf MethodDef.ofJson members <;> rfl

/-- An object in the member `methods` is read as a map of methods, and else as the
descriptor of a method. -/
theorem ofJson?_wrapped (hkeys : (members.map Prod.fst).Nodup) :
    ofJson? (.object [("methods", .object members)]) =
      ((valuesOf MethodDef.ofJson members).toOption.map fun methods => ⟨⟨methods⟩⟩).or
        ((MethodDef.ofJson (.object members)).toOption.map fun method =>
          ⟨⟨[("methods", method)]⟩⟩) := by
  have hwrapped : wrappedMethods? (.object [("methods", .object members)]) =
      (mapOf MethodDef.ofJson (.object members)).toOption := rfl
  have hbare : bareMethods? (.object [("methods", .object members)]) =
      (MethodDef.ofJson (.object members)).toOption.map fun method => ⟨[("methods", method)]⟩ := by
    rw [bareMethods?, mapOf_object (by simp)]
    cases h : MethodDef.ofJson (.object members) <;> simp [valuesOf, h] <;> rfl
  rw [ofJson?, hwrapped, hbare, mapOf_object hkeys]
  cases valuesOf MethodDef.ofJson members with
  | ok methods => rfl
  | error cause => cases MethodDef.ofJson (.object members) <;> rfl

/-! ## Texts

Both texts are read as values first, so only what the values are decoded as is left to
compare.
-/

/-- Reads the text of one namespace. -/
def ofText (text : String) : Except Json.Fault Namespace :=
  run (Read.namespaceDef maxLevels) text

/-- A namespace in a text is what its value stands for. -/
theorem ofText_eq {text : String} {v : Json} (h : Json.read text = .ok v) :
    ofText text = (ofJson? v).elim (.error ⟨.noVariant "RawNamespace", none⟩) .ok := by
  unfold ofText Read.namespaceDef
  cases hv : ofJson? v with
  | some ns => exact run_bind_pure h (by rw [hv])
  | none => exact run_bind_failUnplaced h (by rw [hv])

/-- Both layouts of a namespace are read as the same methods, in the order of the text,
when all of them can be read. When one of them cannot, the bare layout is refused, and
so is the wrapped one, unless the object with the methods can be read as a method
itself: then it is read as a namespace whose only method is called `methods`. -/
theorem layouts_agree_iff {bare wrapped : String} (hb : Json.read bare = .ok (.object members))
    (hw : Json.read wrapped = .ok (.object [("methods", .object members)]))
    (hkeys : (members.map Prod.fst).Nodup) (hm : "methods" ∉ members.map Prod.fst) :
    ((ofText wrapped).toOption = (ofText bare).toOption ↔
      (∀ m ∈ members, IsMethod m.2) ∨ ¬IsMethod (.object members)) ∧
    ((∀ m ∈ members, IsMethod m.2) →
      ∃ methods, ofText bare = .ok ⟨⟨methods⟩⟩ ∧ ofText wrapped = .ok ⟨⟨methods⟩⟩ ∧
        List.Forall₂ (fun m p => p.1 = m.1 ∧ MethodDef.ofJson m.2 = .ok p.2) members methods) ∧
    ((∃ m ∈ members, ¬IsMethod m.2) →
      (ofText bare).toOption = none ∧
      ∀ method, MethodDef.ofJson (.object members) = .ok method →
        ofText wrapped = .ok ⟨⟨[("methods", method)]⟩⟩) := by
  rw [ofText_eq hb, ofText_eq hw, ofJson?_bare hkeys hm, ofJson?_wrapped hkeys]
  -- If all members are methods, both layouts give them, in the order of the members.
  cases h : valuesOf MethodDef.ofJson members with
  | ok methods =>
    have hall : ∀ m ∈ members, IsMethod m.2 := exists_valuesOf_iff.1 ⟨methods, h⟩
    refine ⟨iff_of_true rfl (Or.inl hall), fun _ => ⟨methods, rfl, rfl, valuesOf_eq_ok_iff.1 h⟩, ?_⟩
    rintro ⟨m, hm, hn⟩
    exact absurd (hall m hm) hn
  -- Otherwise the bare layout gives nothing, and the wrapped one only a method of that
  -- name.
  | error cause =>
    have hnot : ¬∀ m ∈ members, IsMethod m.2 := by
      intro hall
      obtain ⟨methods, hok⟩ := exists_valuesOf_iff.2 hall
      rw [h] at hok
      cases hok
    refine ⟨?_, fun hall => absurd hall hnot,
      fun _ => ⟨rfl, fun method hmethod => by rw [hmethod]; rfl⟩⟩
    cases hmethod : MethodDef.ofJson (.object members) with
    | error cause' =>
      refine iff_of_true rfl (Or.inr ?_)
      rintro ⟨method, hok⟩
      rw [hmethod] at hok
      cases hok
    | ok method =>
      refine iff_of_false ?_ (not_or.2 ⟨hnot, not_not.2 ⟨method, hmethod⟩⟩)
      intro he
      cases he

/-! ## Two namespaces

One whose method is well formed in both layouts, and one whose method is not.
-/

/-- The members of a namespace with one method. -/
def pingMembers (params : Json) : List (String × Json) :=
  [("ping", .object [("params", params)])]

set_option maxRecDepth 2000 in
/-- Both layouts of a namespace with a method without parameters are read alike. -/
theorem layouts_agree_ping :
    Json.read "\x7b\"ping\":\x7b\"params\":[]\x7d\x7d" = .ok (.object (pingMembers (.list []))) ∧
    Json.read "\x7b\"methods\":\x7b\"ping\":\x7b\"params\":[]\x7d\x7d\x7d" =
      .ok (.object [("methods", .object (pingMembers (.list [])))]) ∧
    ((pingMembers (.list [])).map Prod.fst).Nodup ∧
    "methods" ∉ (pingMembers (.list [])).map Prod.fst ∧
    (ofText "\x7b\"methods\":\x7b\"ping\":\x7b\"params\":[]\x7d\x7d\x7d").toOption =
      (ofText "\x7b\"ping\":\x7b\"params\":[]\x7d\x7d").toOption := by
  have hb : Json.read "\x7b\"ping\":\x7b\"params\":[]\x7d\x7d" =
      .ok (.object (pingMembers (.list []))) := by
    cbv
  have hw : Json.read "\x7b\"methods\":\x7b\"ping\":\x7b\"params\":[]\x7d\x7d\x7d" =
      .ok (.object [("methods", .object (pingMembers (.list [])))]) := by cbv
  have hkeys : ((pingMembers (.list [])).map Prod.fst).Nodup := by decide
  have hm : "methods" ∉ (pingMembers (.list [])).map Prod.fst := by decide
  refine ⟨hb, hw, hkeys, hm, (layouts_agree_iff hb hw hkeys hm).1.2 (Or.inl fun m h => ?_)⟩
  obtain rfl := List.mem_singleton.1 h
  exact ⟨⟨none, false, false, false, some .empty, none⟩, rfl⟩

/-- The layouts of a namespace whose method has a text for its parameters are not read
alike: only one is refused. -/
theorem not_layouts_agree_ping :
    Json.read "\x7b\"ping\":\x7b\"params\":\"none\"\x7d\x7d" =
      .ok (.object (pingMembers (.text "none"))) ∧
    Json.read "\x7b\"methods\":\x7b\"ping\":\x7b\"params\":\"none\"\x7d\x7d\x7d" =
      .ok (.object [("methods", .object (pingMembers (.text "none")))]) ∧
    ((pingMembers (.text "none")).map Prod.fst).Nodup ∧
    "methods" ∉ (pingMembers (.text "none")).map Prod.fst ∧
    (ofText "\x7b\"ping\":\x7b\"params\":\"none\"\x7d\x7d").toOption.isSome = false ∧
    ((ofText "\x7b\"methods\":\x7b\"ping\":\x7b\"params\":\"none\"\x7d\x7d\x7d").toOption.map
      fun ns => ns.methods.keys) = some ["methods"] :=
  ⟨by cbv, by cbv, by decide, by decide, by cbv, by cbv⟩

end Namespace

end Schema

end Classwright
