import Classwright.Path
import Classwright.SortedMap
import Classwright.Toml.Reader

/-!
# Values from TOML items

Settings are made from items. An item that does not fit is reported with a place: its
own, or else that of the entry or the table around it (`Unfit.orAt`). A record can be
written as a table or as a list of its fields; its entries are read in the order in
which they are written, and only then is a missing one noticed.
-/

namespace Classwright.Toml

/-- Why an item does not fit, and where it is. -/
structure Unfit where
  /-- The place of the item, if known. -/
  span? : Option Span
  /-- What is wrong with it. -/
  cause : Cause
deriving DecidableEq, Repr

/-- What is made from an item. -/
abbrev Decoded (α : Type) := Except Unfit α

/-- Gives a fault a place, if it has none. -/
def Unfit.orAt (u : Unfit) (span? : Option Span) : Unfit :=
  { u with span? := u.span?.or span? }

/-- An entry of a table. -/
abbrev Entry := Key × Item

namespace Decode

variable {α β : Type}

/-- Gives the faults in an item its place, if they have none. -/
def within (x : Item) (result : Decoded α) : Decoded α :=
  result.mapError fun u => u.orAt x.span?

/-- Refuses an item. -/
def refuse (x : Item) (expected : Expected) : Decoded α :=
  .error ⟨x.span?, .mismatch x.found expected⟩

/-- A fault that gets its place from what is around it. -/
def unplaced (cause : Cause) : Decoded α :=
  .error ⟨none, cause⟩

/-- Reads a text. -/
def text : Item → Decoded String
  | .text _ s => .ok s
  | x => refuse x .text

/-- Reads a path. -/
def path : Item → Decoded Path
  | .text _ s => .ok ⟨s⟩
  | x => refuse x .path

/-- Reads a truth value. -/
def boolean : Item → Decoded Bool
  | .boolean _ b => .ok b
  | x => refuse x .boolean

/-- The key under which a date shows its text to those who expect a table. -/
def dateKey : String :=
  "$__toml_private_datetime"

/-- The entries of an item that can stand for a table. -/
def entries? : Item → Option (List Entry)
  | .table _ _ entries => some entries
  | .date span s => some [(⟨dateKey, span⟩, .text span s)]
  | _ => none

/-- The items of a list. -/
def items? : Item → Option (List Item)
  | .list _ items => some items
  | .tables _ items => some items
  | _ => none

/-- Reads the value of an entry. -/
def entry (read : Item → Decoded α) (e : Entry) : Decoded α :=
  (read e.2).mapError fun u => u.orAt (some e.1.span)

/-- Reads the values of entries. -/
def values (read : Item → Decoded α) : List Entry → Decoded (List (String × α))
  | [] => .ok []
  | e :: rest => do
    let value ← entry read e
    return (e.1.name, value) :: (← values read rest)

/-- Reads a table whose values `read` reads. -/
def map (read : Item → Decoded α) (x : Item) : Decoded (SortedMap α) :=
  match entries? x with
  | some entries => within x (SortedMap.ofList <$> values read entries)
  | none => refuse x .map

/-- Reads a record from a table or from a list. -/
def record (name : String) (ofEntries : List Entry → Decoded α) (ofItems : List Item → Decoded α)
    (x : Item) :
    Decoded α :=
  match entries? x, items? x with
  | some entries, _ => within x (ofEntries entries)
  | none, some items => within x (ofItems items)
  | none, none => refuse x (.record name)

/-- Folds entries into a draft. -/
def fold (read : β → Entry → Decoded β) : List Entry → β → Decoded β
  | [], draft => .ok draft
  | e :: rest, draft => do fold read rest (← read draft e)

/-- Reads the item at a position of a list that stands for a record with `fields`
fields. -/
def itemAt (name : String) (fields : Nat) (items : List Item) (position : Nat)
    (read : Item → Decoded α) :
    Decoded α :=
  match items[position]? with
  | some x => read x
  | none => unplaced (.wrongLength position (.recordOf name fields))

/-- Reads the item at a position of a list, if the list is long enough. -/
def itemOr (items : List Item) (position : Nat) (read : Item → Decoded α) (default : α) :
    Decoded α :=
  match items[position]? with
  | some x => read x
  | none => .ok default

/-- The value of a field, which has to be there. -/
def require (field : String) (value? : Option α) : Decoded α :=
  match value? with
  | some value => .ok value
  | none => unplaced (.missingField field)

end Decode

/-- Reads a whole text. -/
def decodeText {α : Type} (read : List Entry → Decoded α) (text : String) : Except Fault α :=
  match entriesOfText? text with
  | none => .error .malformed
  | some entries => (read entries).mapError fun u => .unfit (u.span?.map (excerptOf text)) u.cause

end Classwright.Toml
