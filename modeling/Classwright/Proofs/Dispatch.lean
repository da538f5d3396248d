import Mathlib.Data.List.Nodup
import Classwright.Model.Index

/-!
# The tables of the index

A table is made by going through the entities of a kind, passing over those that are
written by hand and those whose key is taken. What comes of it is faithful to the
entities (`Dispatches`): the rows stand in their order, no key comes twice, and every
name has its key. Looking a name up in the table is looking for the first entity that
answers to it (`Index.find?_table`), so it does not matter which names clash.
-/

namespace Classwright

/-- Whether an entity has a name, up to the case of letters, and a class that is
generated. -/
def Entity.answersTo (name : String) (e : Entity) : Bool :=
  !isSentinel e.name && Text.lowercase e.name == Text.lowercase name

/-- Whether rows make a table of generated entities. -/
structure IndexTable (rows : List IndexEntry) : Prop where
  /-- The key of a row is the name of its entity in small letters. -/
  keyed : ∀ row ∈ rows, row.key = Text.lowercase row.entity.name
  /-- No key comes twice. -/
  distinct : (rows.map IndexEntry.key).Nodup
  /-- No entity is one that is written by hand. -/
  generated : ∀ row ∈ rows, row.entity.name ≠ "Result" ∧ row.entity.name ≠ "Execute"

/-- Whether a table is that of a list of entities. -/
structure Dispatches (entities : List Entity) (rows : List IndexEntry) :
    Prop extends IndexTable rows where
  /-- The rows are in the order of the entities. -/
  ordered : (rows.map IndexEntry.entity).Sublist entities
  /-- Every entity that is generated has its key in the table. -/
  complete : ∀ e ∈ entities, e.name ≠ "Result" → e.name ≠ "Execute" →
    Text.lowercase e.name ∈ rows.map IndexEntry.key

namespace Index

/-! ## One entity

Adding an entity leaves the table as it is, or adds one row with a key that is new.
-/

/-- An entity is passed over, or its row is added at the end. -/
theorem addEntry_cases (rows : List IndexEntry) (e : Entity) :
    addEntry rows e = rows ∧ (isSentinel e.name = true ∨ e.indexKey ∈ rows.map IndexEntry.key) ∨
    addEntry rows e = rows ++ [⟨e.indexKey, e⟩] ∧ isSentinel e.name = false ∧
      e.indexKey ∉ rows.map IndexEntry.key := by
  have hkey : rows.any (fun row => row.key == e.indexKey) = true ↔
      e.indexKey ∈ rows.map IndexEntry.key := by
    simp only [List.any_eq_true, beq_iff_eq, List.mem_map]
  unfold addEntry
  split
  · next h =>
    rw [Bool.or_eq_true, hkey] at h
    exact Or.inl ⟨rfl, h⟩
  · next h =>
    rw [Bool.or_eq_true, hkey, not_or, Bool.not_eq_true] at h
    exact Or.inr ⟨rfl, h⟩

/-- A table stays one when an entity is added: its keys are distinct and fit the names. -/
theorem indexTable_addEntry {rows : List IndexEntry} (h : IndexTable rows) (e : Entity) :
    IndexTable (addEntry rows e) := by
  rcases addEntry_cases rows e with ⟨hadd, -⟩ | ⟨hadd, hs, hkey⟩
  · rwa [hadd]
  · rw [hadd]
    refine ⟨?_, ?_, ?_⟩
    · rw [List.forall_mem_append, List.forall_mem_singleton]
      exact ⟨h.keyed, rfl⟩
    · rw [List.map_append, List.map_singleton]
      exact List.Nodup.append h.distinct (List.nodup_singleton _) (by simpa using hkey)
    · rw [List.forall_mem_append, List.forall_mem_singleton]
      exact ⟨h.generated, isSentinel_eq_false_iff.1 hs⟩

theorem isSome_find?_iff {rows : List IndexEntry} {name : String} :
    (find? rows name).isSome ↔ Text.lowercase name ∈ rows.map IndexEntry.key := by
  simp [find?]

/-- An entity is found by the names that it answers to, unless another one is found
already. -/
theorem find?_addEntry (rows : List IndexEntry) (e : Entity) (name : String) :
    find? (addEntry rows e) name =
    (find? rows name).or (if e.answersTo name then some e else none) := by
  rcases addEntry_cases rows e with ⟨hadd, hs⟩ | ⟨hadd, hs, -⟩
  · rw [hadd]
    split
    · next ha =>
      -- The entity answers to the name, so its key must have been taken.
      rw [Entity.answersTo, Bool.and_eq_true, Bool.not_eq_true', beq_iff_eq] at ha
      have hkey : e.indexKey ∈ rows.map IndexEntry.key := hs.resolve_left (by simp [ha.1])
      rw [Entity.indexKey, ha.2, ← isSome_find?_iff] at hkey
      rw [Option.or_of_isSome hkey]
    · rw [Option.or_none]
  · have hrow : find? [⟨e.indexKey, e⟩] name = if e.answersTo name then some e else none := by
      simp only [find?, Entity.answersTo, Entity.indexKey, hs, List.find?_singleton, Bool.not_false,
        Bool.true_and]
      split <;> rfl
    rw [hadd, ← hrow, find?, List.find?_append, Option.map_or]
    rfl

/-! ## All entities

The invariant of the loop says what the table knows of the entities gone through so far.
It holds of the empty table and is kept by each of them.
-/

theorem indexTable_foldl : ∀ (es : List Entity) {rows : List IndexEntry}, IndexTable rows →
    IndexTable (es.foldl addEntry rows)
  | [], _, h => h
  | e :: es, _, h => indexTable_foldl es (indexTable_addEntry h e)

theorem indexTable_table (es : List Entity) : IndexTable (table es) :=
  indexTable_foldl es ⟨by simp, List.nodup_nil, by simp⟩

/-- A name is found in the rows that were there or else at the first entity that answers
to it: the invariant of building a table. -/
theorem find?_foldl : ∀ (es : List Entity) (rows : List IndexEntry) (name : String),
    find? (es.foldl addEntry rows) name = (find? rows name).or (es.find? (Entity.answersTo name))
  | [], rows, name => by simp
  | e :: es, rows, name => by
    have hcons : (e :: es).find? (Entity.answersTo name) =
        (if e.answersTo name then some e else none).or (es.find? (Entity.answersTo name)) := by
      rw [List.find?_cons]
      split <;> simp [*]
    rw [List.foldl_cons, find?_foldl es, find?_addEntry, hcons, Option.or_assoc]

/-- A name is looked up as if there were no table: the first entity that answers to it
is found. -/
theorem find?_table (es : List Entity) (name : String) :
    find? (table es) name = es.find? (Entity.answersTo name) := by
  rw [table, find?_foldl]
  rfl

/-- The rows are a selection of the entities, in their order. -/
theorem foldl_addEntry_sublist : ∀ (es : List Entity) (acc : List IndexEntry),
    ((es.foldl addEntry acc).map IndexEntry.entity).Sublist (acc.map IndexEntry.entity ++ es)
  | [], acc => by simp
  | x :: es, acc => by
    refine (foldl_addEntry_sublist es (addEntry acc x)).trans ?_
    rcases addEntry_cases acc x with ⟨hadd, -⟩ | ⟨hadd, -⟩
    · rw [hadd]
      exact (List.sublist_cons_self x es).append_left _
    · simp [hadd]

/-- The entities of a table are some of those that it was made from, in their order. -/
theorem table_sublist (entities : List Entity) :
    ((table entities).map IndexEntry.entity).Sublist entities :=
  foldl_addEntry_sublist entities []

theorem entries_sublist (m : Model) :
    ((ofModel m).entries.map IndexEntry.entity).Sublist m.entities := by
  simp only [entries, ofModel, List.map_append]
  exact ((table_sublist _).append (table_sublist _)).append (table_sublist _)

/-- The rows of a table are rows of its entities. -/
theorem mem_of_mem_table {entities : List Entity} {entry : IndexEntry}
    (h : entry ∈ table entities) :
    entry.entity ∈ entities :=
  (table_sublist entities).subset (List.mem_map_of_mem h)

/-- A table finds for each name the first entity that answers to it. -/
theorem dispatches_table (es : List Entity) : Dispatches es (table es) := by
  refine ⟨indexTable_table es, table_sublist es, fun e he hr hx => ?_⟩
  have ha : e.answersTo e.name = true := by
    simp [Entity.answersTo, isSentinel_eq_false_iff.2 ⟨hr, hx⟩]
  rw [← isSome_find?_iff, find?_table, List.find?_isSome]
  exact ⟨e, he, ha⟩

/-- The index of a model has faithful tables of its objects, its components and its
results, and each of its look-ups finds the first generated entity of the name, whatever
the case of its letters. -/
theorem ofModel_dispatches (m : Model) :
    (Dispatches m.objects (ofModel m).objects ∧ Dispatches m.components (ofModel m).components ∧
      Dispatches m.results (ofModel m).results) ∧
    ∀ name, (ofModel m).object? name = m.objects.find? (Entity.answersTo name) ∧
      (ofModel m).component? name = m.components.find? (Entity.answersTo name) ∧
      (ofModel m).result? name = m.results.find? (Entity.answersTo name) := by
  refine ⟨⟨dispatches_table _, dispatches_table _, dispatches_table _⟩, fun name => ⟨?_, ?_, ?_⟩⟩
  · exact find?_table m.objects name
  · exact find?_table m.components name
  · exact find?_table m.results name

end Index

end Classwright
