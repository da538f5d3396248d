/-!
# Maps in the order of their keys

A map from texts whose entries are sorted by key. Inserting keeps the order and replaces
the value of a key that is there already.
-/

namespace Classwright

/-- Puts a pair in front of the first one with a greater key, over one with the same
key. -/
def insertSorted {α : Type} (key : String) (value : α) : List (String × α) → List (String × α)
  | [] => [(key, value)]
  | (k, v) :: rest =>
    if key < k then (key, value) :: (k, v) :: rest
    else if key == k then (key, value) :: rest
    else (k, v) :: insertSorted key value rest

/-- A map from texts with sorted entries. -/
structure SortedMap (α : Type) where
  /-- The pairs, by key. -/
  entries : List (String × α)
deriving DecidableEq, Repr

namespace SortedMap

variable {α : Type}

/-- The map without entries. -/
def empty : SortedMap α :=
  ⟨[]⟩

instance : Inhabited (SortedMap α) :=
  ⟨empty⟩

/-- Gives a key a value. -/
def insert (m : SortedMap α) (key : String) (value : α) : SortedMap α :=
  ⟨insertSorted key value m.entries⟩

/-- The map that results from inserting the pairs one after the other. -/
def ofList (pairs : List (String × α)) : SortedMap α :=
  pairs.foldl (fun m p => m.insert p.1 p.2) empty

/-- The value of a key. -/
def get? (m : SortedMap α) (key : String) : Option α :=
  (m.entries.find? fun p => p.1 == key).map Prod.snd

/-- The keys, in order. -/
def keys (m : SortedMap α) : List String :=
  m.entries.map Prod.fst

end SortedMap

end Classwright
