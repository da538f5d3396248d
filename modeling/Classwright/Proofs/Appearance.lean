import Classwright.Proofs.Keys
import Classwright.Proofs.Readings

/-!
# First-seen order

A map that is made from pairs has each key once, where it was first given, with the
value that it was last given (`OrderedMap.Represents`). It does not matter whether the
pairs were inserted, collected, or read as the members of an object
(`OrderedMap.MadeFrom`): all of these insert one pair after the other, and an insertion
leaves every key in its place and every other value as it is (`OrderedMap.Updates`).
-/

namespace Classwright

namespace OrderedMap

open Json (Raw Literal Closed Spaced)
open Json.Reader (Reads)

variable {α : Type}

/-! ## What a map is of its pairs

The pairs are what was given, in the order in which it was given. `MadeFrom` has one
constructor for each way in which the program makes a map.
-/

/-- Whether a map is made from pairs, given in this order. -/
inductive MadeFrom : List (String × α) → OrderedMap α → Prop where
  /-- No pairs are given. -/
  | empty : MadeFrom [] .empty
  /-- One more pair is inserted. -/
  | insert {pairs : List (String × α)} {m : OrderedMap α} (h : MadeFrom pairs m) (key : String)
      (value : α) :
    MadeFrom (pairs ++ [(key, value)]) (m.insert key value)
  /-- The pairs are collected. -/
  | collect (pairs : List (String × α)) : MadeFrom pairs (.ofList pairs)
  /-- The pairs are the members of an object, with what is read from their values. -/
  | ofObject {read : Json → Except Json.Cause α} {members pairs m}
    (hpairs : List.Forall₂ (fun x p => p.1 = x.1 ∧ read x.2 = .ok p.2) members pairs)
    (hm : Schema.mapOf read (.object members) = .ok m) : MadeFrom pairs m
  /-- The pairs are the members of an object in a text, with what is read from their
  values. -/
  | ofText {read : Nat → Json.Reader α} {read? : Nat → Raw → Option α}
    {levels members ts c c' pairs m} (hread : ∀ levels, Reads (read levels) (read? levels))
    (hts : Closed ts) (hc : Spaced ((Raw.object members).tokens ++ ts) c.rest)
    (hpairs :
      List.Forall₂ (fun x p => x.1.text? = some p.1 ∧ read? levels x.2 = some p.2) members pairs)
    (hm : Schema.Read.map read (levels + 1) c = .ok (m, c')) : MadeFrom pairs m

/-- Whether a pair is given and its key is not given again. -/
def GivenLast (entry : String × α) (pairs : List (String × α)) : Prop :=
  ∃ before after, pairs = before ++ entry :: after ∧ entry.1 ∉ after.map Prod.fst

/-- What a map has to do with the pairs that it is made from. -/
structure Represents (m : OrderedMap α) (pairs : List (String × α)) : Prop where
  /-- No key is there twice. -/
  distinct : m.keys.Nodup
  /-- The keys stand in the order in which they are first given. -/
  order : m.keys = (pairs.map Prod.fst).eraseDups
  /-- Each key has the value that it is given last. -/
  last : ∀ entry, entry ∈ m.entries ↔ GivenLast entry pairs

/-- Whether what can be asked of a map is what its entries say. -/
structure Agrees (m : OrderedMap α) : Prop where
  /-- The value of a key is that of its entry. -/
  value : ∀ key value, m.get? key = some value ↔ (key, value) ∈ m.entries
  /-- A key is there if it has an entry. -/
  contained : ∀ key, m.contains key = true ↔ ∃ value, (key, value) ∈ m.entries
  /-- The keys are those of the entries, in order. -/
  keys : m.keys = m.entries.map Prod.fst
  /-- There are as many keys as entries. -/
  size : m.size = m.entries.length
  /-- There are no keys if there are no entries. -/
  isEmpty : m.isEmpty = true ↔ m.entries = []

/-- What an insertion makes of a map. -/
structure Updates (m : OrderedMap α) (key : String) (value : α) (m' : OrderedMap α) : Prop where
  /-- A key that is there gets the value where it is; one that is not comes last. -/
  entries : m'.entries =
    if m.contains key then m.entries.map fun e => if e.1 = key then (key, value) else e
    else m.entries ++ [(key, value)]
  /-- The keys that are there stay where they are. -/
  places : m.keys <+: m'.keys
  /-- The key has the value, and no other key another than before. -/
  values : ∀ other, m'.get? other = if other = key then some value else m.get? other

variable {m : OrderedMap α} {pairs : List (String × α)}

/-! ## Lookups and insertions

Looking up, containing and the list of keys all read the same entries, so they agree. An
insertion puts the new value where the key stands, or at the end.
-/

/-- With distinct keys, the value of a key is the one it is entered with. -/
theorem get?_eq_some_iff (h : m.keys.Nodup) {key : String} {value : α} :
    m.get? key = some value ↔ (key, value) ∈ m.entries := by
  rw [get?, Option.map_eq_some_iff]
  constructor
  · rintro ⟨⟨k, v⟩, hfind, rfl⟩
    obtain rfl : k = key := by simpa using List.find?_some hfind
    exact List.mem_of_find?_eq_some hfind
  · intro hmem
    have hsome : (m.entries.find? (·.1 == key)).isSome :=
      List.find?_isSome.2 ⟨_, hmem, beq_self_eq_true key⟩
    obtain ⟨entry, hfind⟩ := Option.isSome_iff_exists.1 hsome
    have hkey : entry.1 = key := by simpa using List.find?_some hfind
    exact ⟨entry, hfind,
      congrArg Prod.snd (List.inj_on_of_nodup_map h (List.mem_of_find?_eq_some hfind) hmem hkey)⟩

theorem contains_eq_true_iff {key : String} :
    m.contains key = true ↔ ∃ value, (key, value) ∈ m.entries := by
  simp [contains, get?]

theorem contains_iff_mem_keys {key : String} : m.contains key = true ↔ key ∈ m.keys := by
  simp [contains_eq_true_iff, keys]

/-- What can be asked of a map whose keys are distinct is what its entries say. -/
theorem agrees (h : m.keys.Nodup) : m.Agrees where
  value _ _ := get?_eq_some_iff h
  contained _ := contains_eq_true_iff
  keys := rfl
  size := rfl
  isEmpty := List.isEmpty_iff

/-- A key that is there already gets its value in place; the other entries stay. -/
theorem put_of_mem {key : String} (value : α) :
    ∀ {entries : List (String × α)}, (entries.map Prod.fst).Nodup →
    key ∈ entries.map Prod.fst → put key value entries = entries.map fun e =>
    if e.1 = key then (key, value) else e
  | [], _, hk => absurd hk List.not_mem_nil
  | (k, v) :: rest, h, hk => by
    obtain ⟨hfresh, hrest⟩ := List.nodup_cons.1 h
    rw [put, List.map_cons]
    -- The key is found here; it is not in the rest, where its entry would be replaced
    -- too.
    by_cases heq : k = key
    · subst heq
      have hothers : ∀ e ∈ rest, (if e.1 = k then (k, value) else e) = e := by
        intro e he
        exact if_neg fun hek => hfresh (List.mem_map.2 ⟨e, he, hek⟩)
      rw [List.map_congr_left hothers, List.map_id']
      simp
    · have hmem : key ∈ rest.map Prod.fst := (List.mem_cons.1 hk).resolve_left (Ne.symm heq)
      simp only [beq_iff_eq, heq, if_false, put_of_mem value hrest hmem]

theorem keys_insert (m : OrderedMap α) (key : String) (value : α) :
    (m.insert key value).keys = if key ∈ m.keys then m.keys else m.keys ++ [key] :=
  map_fst_put key value m.entries

theorem nodup_keys_insert (h : m.keys.Nodup) (key : String) (value : α) :
    (m.insert key value).keys.Nodup :=
  (foldl_insert [(key, value)] m h).1

/-- An insertion into a map whose keys are distinct changes the value of its key only. -/
theorem updates_insert (h : m.keys.Nodup) (key : String) (value : α) :
    m.Updates key value (m.insert key value) where
  entries := by
    split
    · next hk => exact put_of_mem value h (contains_iff_mem_keys.1 hk)
    · next hk => exact put_of_notMem value fun hmem => hk (contains_iff_mem_keys.2 hmem)
  places := by
    rw [keys_insert]
    split
    · exact List.prefix_rfl
    · exact List.prefix_append _ _
  values other := by simp only [get?_insert, eq_comm]

/-- The entries after an insertion are the new one and those of other keys. -/
theorem mem_entries_insert (h : m.keys.Nodup) {key : String} {value : α} {entry : String × α} :
    entry ∈ (m.insert key value).entries ↔ entry = (key, value) ∨ entry.1 ≠ key ∧
    entry ∈ m.entries := by
  obtain ⟨k, v⟩ := entry
  rw [← get?_eq_some_iff (nodup_keys_insert h key value), ← get?_eq_some_iff h, get?_insert]
  by_cases hk : key = k
  · simp [hk, eq_comm]
  · simp [hk, Ne.symm hk]

/-! ## One pair after the other

The pairs are taken from the left: a map that represents some of them represents one
more of them after an insertion.
-/

theorem not_givenLast_nil {entry : String × α} : ¬GivenLast entry [] := by
  rintro ⟨before, after, h, -⟩
  simp at h

/-- Of one more pair, the key is given last, and that of any other pair is where it is
another key. -/
theorem givenLast_concat {entry pair : String × α} :
    GivenLast entry (pairs ++ [pair]) ↔ entry = pair ∨ entry.1 ≠ pair.1 ∧
    GivenLast entry pairs := by
  constructor
  -- The entry that counts is the last pair, or counts among those before it.
  · rintro ⟨before, after, hpairs, hafter⟩
    rcases List.eq_nil_or_concat after with rfl | ⟨after, x, rfl⟩
    · obtain ⟨-, hentry⟩ := List.append_inj' hpairs rfl
      exact Or.inl (List.singleton_inj.1 hentry).symm
    · rw [List.concat_eq_append, ← List.cons_append, ← List.append_assoc] at hpairs
      obtain ⟨hbefore, hx⟩ := List.append_inj' hpairs rfl
      obtain rfl := List.singleton_inj.1 hx
      simp only [List.concat_eq_append, List.map_append, List.mem_append, not_or] at hafter
      exact Or.inr ⟨by simpa using hafter.2, before, after, hbefore, hafter.1⟩
  · rintro (rfl | ⟨hne, before, after, rfl, hafter⟩)
    · exact ⟨pairs, [], rfl, List.not_mem_nil⟩
    · refine ⟨before, after ++ [pair], by simp, ?_⟩
      rw [List.map_append, List.mem_append, not_or]
      exact ⟨hafter, by simpa using hne⟩

theorem represents_empty : (empty : OrderedMap α).Represents [] where
  distinct := List.nodup_nil
  order := rfl
  last _ := iff_of_false List.not_mem_nil not_givenLast_nil

/-- A map with one more pair represents one more pair. -/
theorem Represents.insert (h : m.Represents pairs) (key : String) (value : α) :
    (m.insert key value).Represents (pairs ++ [(key, value)]) where
  distinct := nodup_keys_insert h.distinct key value
  order := by
    have hmem : key ∈ m.keys ↔ key ∈ pairs.map Prod.fst := by rw [h.order, List.mem_eraseDups]
    rw [keys_insert, List.map_append, List.eraseDups_append, ← h.order, List.removeAll]
    by_cases hk : key ∈ pairs.map Prod.fst
    · simp [hmem.2 hk, List.mem_map.1 hk]
    · have hfresh : ([key].filter fun x => !(pairs.map Prod.fst).elem x) = [key] := by simp [hk]
      simp only [hmem, hk, if_false, List.map_cons, List.map_nil, hfresh]
      rfl
  last entry := by rw [mem_entries_insert h.distinct, givenLast_concat, h.last]

/-- Pairs that are inserted one after the other are represented. -/
theorem Represents.foldl :
    ∀ {more : List (String × α)} {m : OrderedMap α} {pairs : List (String × α)},
    m.Represents pairs → (more.foldl (fun m p => m.insert p.1 p.2) m).Represents (pairs ++ more)
  | [], _, _, h => by simpa using h
  | (key, value) :: more, m, pairs, h => by
    rw [List.append_cons]
    exact (h.insert key value).foldl

theorem represents_ofList (pairs : List (String × α)) : (ofList pairs).Represents pairs :=
  represents_empty.foldl

/-! ## Members of an object

A decoded object is read as a list of pairs, and a text token by token. Both end with
the same insertions.
-/

/-- An object whose members can all be read becomes the map of their pairs. -/
theorem mapOf_object_eq {read : Json → Except Json.Cause α} {members : List (String × Json)}
    (hpairs : List.Forall₂ (fun x p => p.1 = x.1 ∧ read x.2 = .ok p.2) members pairs) :
    Schema.mapOf read (.object members) = .ok (.ofList pairs) := by
  rw [Schema.mapOf, Schema.valuesOf_eq_ok_iff.2 hpairs]
  rfl

/-- The members of a written object are read one by one, in their order. -/
theorem members?_eq_some {read? : Raw → Option α} {members : List (Literal × Raw)}
    (h : List.Forall₂ (fun x p => x.1.text? = some p.1 ∧ read? x.2 = some p.2) members pairs) :
    Raw.members? read? members = some pairs := by
  induction h with
  | nil => rfl
  | cons hfirst _ ih =>
    rw [Raw.members?] at ih ⊢
    rw [List.mapM_cons, ih, hfirst.1, hfirst.2]
    rfl

section text

variable {read : Nat → Json.Reader α} {read? : Nat → Raw → Option α} {levels : Nat}
  {members : List (Literal × Raw)} {ts : List (List Char)} {c : Json.Cursor}

/-- The map that is read from an object in a text has its members inserted in order. -/
theorem exists_read_map (hread : ∀ levels, Reads (read levels) (read? levels)) (hts : Closed ts)
    (hc : Spaced ((Raw.object members).tokens ++ ts) c.rest)
    (hpairs : List.Forall₂ (fun x p => x.1.text? = some p.1 ∧ read? levels x.2 = some p.2)
      members pairs) :
    ∃ c', Schema.Read.map read (levels + 1) c = .ok (.ofList pairs, c') ∧ Spaced ts c'.rest := by
  have hmap : Schema.Written.map? read? (levels + 1) (.object members) = some (.ofList pairs) := by
    rw [Schema.Written.map?, members?_eq_some hpairs]
    rfl
  have hdoes := Schema.Read.reads_map hread (levels + 1) hts c hc
  rw [hmap] at hdoes
  exact hdoes

end text

/-- All ways to make a map from pairs insert one pair after the other. -/
theorem MadeFrom.represents :
    ∀ {pairs : List (String × α)} {m : OrderedMap α}, MadeFrom pairs m → m.Represents pairs
  | _, _, .empty => represents_empty
  | _, _, .insert h key value => h.represents.insert key value
  | _, _, .collect pairs => represents_ofList pairs
  | pairs, m, .ofObject hpairs hm => by
    obtain rfl : OrderedMap.ofList pairs = m :=
      Except.ok.inj ((mapOf_object_eq hpairs).symm.trans hm)
    exact represents_ofList pairs
  | pairs, m, .ofText hread hts hc hpairs hm => by
    obtain ⟨c', hread, -⟩ := exists_read_map hread hts hc hpairs
    rw [hread] at hm
    cases hm
    exact represents_ofList pairs

/-- A map that is made from pairs represents them and is what its entries say, and an
insertion changes it at the key only. Where all members of an object can be read, a map
is made from them. -/
theorem represents_madeFrom :
    (∀ (pairs : List (String × α)) (m : OrderedMap α), MadeFrom pairs m →
      m.Represents pairs ∧ m.Agrees ∧ ∀ key value, m.Updates key value (m.insert key value)) ∧
    (∀ (read : Json → Except Json.Cause α) (members : List (String × Json))
      (pairs : List (String × α)),
      List.Forall₂ (fun x p => p.1 = x.1 ∧ read x.2 = .ok p.2) members pairs →
        ∃ m, Schema.mapOf read (.object members) = .ok m ∧ MadeFrom pairs m) ∧
    ∀ (read : Nat → Json.Reader α) (read? : Nat → Raw → Option α) (levels : Nat)
      (members : List (Literal × Raw)) (pairs : List (String × α)) (ts : List (List Char))
      (c : Json.Cursor), (∀ levels, Reads (read levels) (read? levels)) → Closed ts →
      Spaced ((Raw.object members).tokens ++ ts) c.rest →
      List.Forall₂ (fun x p => x.1.text? = some p.1 ∧ read? levels x.2 = some p.2) members pairs →
        ∃ m c', Schema.Read.map read (levels + 1) c = .ok (m, c') ∧ Spaced ts c'.rest ∧
          MadeFrom pairs m := by
  refine ⟨fun pairs m h => ?_, fun read members pairs hpairs => ?_, ?_⟩
  · have hrepresents := h.represents
    exact ⟨hrepresents, agrees hrepresents.distinct, updates_insert hrepresents.distinct⟩
  · have hm := mapOf_object_eq hpairs
    exact ⟨_, hm, .ofObject hpairs hm⟩
  · intro read read? levels members pairs ts c hread hts hc hpairs
    obtain ⟨c', hm, hrest⟩ := exists_read_map hread hts hc hpairs
    exact ⟨_, c', hm, hrest, .ofText hread hts hc hpairs hm⟩

/-- Members with a repeated key. -/
def repeatedMembers : List (String × Json) :=
  [("b", .bool true), ("a", .null), ("b", .bool false)]

/-- The same members as they are written. -/
def writtenMembers : List (Literal × Raw) :=
  [(.plain ['b'] (by decide), .scalar (.bool true)), (.plain ['a'] (by decide), .scalar .null),
    (.plain ['b'] (by decide), .scalar (.bool false))]

/-- The text of these members. -/
def repeatedText : String :=
  "\x7b\"b\":true,\"a\":null,\"b\":false\x7d"

theorem spells_repeatedText : (Raw.object writtenMembers).Spells repeatedText :=
  Raw.spells_of_flatten (by decide +kernel)

/-- A key that is repeated keeps its place and has the value that it was given last,
when it is read and thereafter. -/
theorem represents_repeatedMembers :
    (∃ m, Schema.mapOf .ok (.object repeatedMembers) = .ok m ∧
      (m.insert "a" (.bool true)).Represents (repeatedMembers ++ [("a", .bool true)])) ∧
    ∃ m c', Schema.Read.map Json.Reader.value 1 (.start repeatedText) = .ok (m, c') ∧
      m.Represents repeatedMembers ∧ m.contains "a" := by
  constructor
  · have hpairs : List.Forall₂
        (fun x p : String × Json => p.1 = x.1 ∧ (.ok x.2 : Except Json.Cause Json) = .ok p.2)
        repeatedMembers repeatedMembers := List.forall₂_same.2 fun _ _ => ⟨rfl, rfl⟩
    obtain ⟨m, hm, hmade⟩ := represents_madeFrom.2.1 .ok repeatedMembers repeatedMembers hpairs
    have hmore := hmade.insert "a" (.bool true)
    exact ⟨m, hm, (represents_madeFrom.1 _ _ hmore).1⟩
  · have hpairs : List.Forall₂ (fun x p => x.1.text? = some p.1 ∧ Raw.json? 0 x.2 = some p.2)
        writtenMembers repeatedMembers :=
      .cons ⟨Literal.text?_plain (by decide), rfl⟩ (.cons ⟨Literal.text?_plain (by decide), rfl⟩
        (.cons ⟨Literal.text?_plain (by decide), rfl⟩ .nil))
    have hc : Spaced ((Raw.object writtenMembers).tokens ++ [])
        (Json.Cursor.start repeatedText).rest := by
      rw [List.append_nil]
      exact spells_repeatedText
    obtain ⟨m, c', hm, -, hmade⟩ :=
      represents_madeFrom.2.2 Json.Reader.value Raw.json? 0 writtenMembers
      repeatedMembers [] (.start repeatedText) Json.Reader.reads_value nofun hc hpairs
    obtain ⟨hrepresents, hagrees, -⟩ := represents_madeFrom.1 _ _ hmade
    refine ⟨m, c', hm, hrepresents, (hagrees.contained "a").2 ⟨.null, (hrepresents.last _).2 ?_⟩⟩
    exact ⟨[("b", .bool true)], [("b", .bool false)], rfl, by decide⟩

end OrderedMap

end Classwright
