import Classwright.Model.Entity

/-!
# The index of entities

Payloads name the class of a value by a text in any case. An index has a table for each
kind of entity, from the entity's name in small letters to the entity; of two entities
with the same key the first one stays.
-/

namespace Classwright

/-- A row of a table: the key and its entity. -/
structure IndexEntry where
  /-- The name in small letters. -/
  key : String
  /-- The entity. -/
  entity : Entity
deriving Repr, Inhabited

/-- The tables of the three kinds of entities. -/
structure Index where
  /-- The objects. -/
  objects : List IndexEntry
  /-- The components. -/
  components : List IndexEntry
  /-- The results. -/
  results : List IndexEntry
deriving Repr, Inhabited

namespace Index

/-- Adds an entity to a table, unless it is written by hand or its key is taken. -/
def addEntry (table : List IndexEntry) (e : Entity) : List IndexEntry :=
  if isSentinel e.name || table.any (fun entry => entry.key == e.indexKey) then table
  else table ++ [⟨e.indexKey, e⟩]

/-- The table of a list of entities. -/
def table (entities : List Entity) : List IndexEntry :=
  entities.foldl addEntry []

/-- The index of a model. -/
def ofModel (m : Model) : Index :=
  ⟨table m.objects, table m.components, table m.results⟩

/-- The entity that a name in any case stands for. -/
def find? (table : List IndexEntry) (name : String) : Option Entity :=
  (table.find? fun entry => entry.key == Text.lowercase name).map IndexEntry.entity

/-- The object of a name. -/
def object? (i : Index) (name : String) : Option Entity :=
  find? i.objects name

/-- The component of a name. -/
def component? (i : Index) (name : String) : Option Entity :=
  find? i.components name

/-- The result of a name. -/
def result? (i : Index) (name : String) : Option Entity :=
  find? i.results name

/-- All rows, table after table. -/
def entries (i : Index) : List IndexEntry :=
  i.objects ++ i.components ++ i.results

/-- The number of rows. -/
def size (i : Index) : Nat :=
  i.entries.length

end Index

end Classwright
