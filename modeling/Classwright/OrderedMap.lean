/-!
# Maps in the order of their keys' first appearance

Declaration order of a document decides the order of what is generated, so its maps keep
it. A key that comes again replaces the value and keeps its position (`insert`);
`ofList` inserts one pair after the other.
-/

namespace Classwright

/-- A map from texts that keeps the order in which its keys were first inserted. -/
structure OrderedMap (α : Type) where
  /-- The pairs, in order. -/
  entries : List (String × α)
deriving Repr

namespace OrderedMap

variable {α : Type}

/-- The map without entries. -/
def empty : OrderedMap α :=
  ⟨[]⟩

instance : Inhabited (OrderedMap α) :=
  ⟨empty⟩

/-- Replaces the value of a key in a list of pairs, or appends the pair. -/
def put (key : String) (value : α) : List (String × α) → List (String × α)
  | [] => [(key, value)]
  | (k, v) :: rest => if k == key then (k, value) :: rest else (k, v) :: put key value rest

/-- Gives a key a value. -/
def insert (m : OrderedMap α) (key : String) (value : α) : OrderedMap α :=
  ⟨put key value m.entries⟩

/-- The map that results from inserting the pairs one after the other. -/
def ofList (pairs : List (String × α)) : OrderedMap α :=
  pairs.foldl (fun m p => m.insert p.1 p.2) empty

/-- The value of a key. -/
def get? (m : OrderedMap α) (key : String) : Option α :=
  (m.entries.find? fun p => p.1 == key).map Prod.snd

theorem find?_put (key : String) (value : α) (other : String) : ∀ entries : List (String × α),
    ((put key value entries).find? fun p => p.1 == other).map Prod.snd =
      if key = other then some value else (entries.find? fun p => p.1 == other).map Prod.snd
  | [] => by
    by_cases h : key = other <;> simp [put, h]
  | (k, v) :: rest => by
    have ih := find?_put key value other rest
    by_cases hk : k = key
    · subst hk
      by_cases h : k = other <;> simp [put, h]
    · have hput : put key value ((k, v) :: rest) = (k, v) :: put key value rest := by simp [put, hk]
      by_cases h : k = other
      · subst h
        simp [hput, Ne.symm hk]
      · simpa [hput, List.find?_cons, h] using ih

/-- An insertion gives its key the value, and leaves the value of any other key. -/
theorem get?_insert (m : OrderedMap α) (key : String) (value : α) (other : String) :
    (m.insert key value).get? other = if key = other then some value else m.get? other :=
  find?_put key value other m.entries

/-- Whether a key has a value. -/
def contains (m : OrderedMap α) (key : String) : Bool :=
  (m.get? key).isSome

/-- The keys, in order. -/
def keys (m : OrderedMap α) : List String :=
  m.entries.map Prod.fst

/-- The number of keys. -/
def size (m : OrderedMap α) : Nat :=
  m.entries.length

/-- Whether there are no keys. -/
def isEmpty (m : OrderedMap α) : Bool :=
  m.entries.isEmpty

end OrderedMap

end Classwright
