import Classwright.Decimal.Shortest
import Classwright.SortedMap
import Classwright.Text.Blank

/-!
# JSON values

A value keeps the members of an object as they were written, repeated keys included.
`Json.sorted` is the value with the members of each object in the order of their keys,
the last one of each key kept, and `Json.text` the compact text of a value.
-/

namespace Classwright

/-- A JSON number: an integer that fits in 64 bits, or a double given by its bits. -/
inductive Number where
  | integer (n : Int)
  | double (bits : UInt64)
deriving DecidableEq, Repr, Inhabited

/-- A JSON value. -/
inductive Json where
  | null
  | bool (b : Bool)
  | number (n : Number)
  | text (s : String)
  | list (items : List Json)
  | object (members : List (String × Json))
deriving Repr, Inhabited

namespace Number

/-- Doubles are written without an exponent from `10 ^ -5` to just below `10 ^ 16`, else
with a signed exponent. -/
def layout : Decimal.Form := ⟨-5, 15, ['e', '+'], ['e', '-']⟩

/-- The text of a number. -/
def text : Number → String
  | .integer n => toString n
  | .double bits => Decimal.textOf layout bits

/-- Whether a number is zero. -/
def isZero : Number → Bool
  | .integer n => n == 0
  | .double bits => bits.toNat % Nat.pow 2 63 == 0

end Number

namespace Json

/-- What follows a backslash for the controls that have a short form. -/
def shortEscape? : Char → Option Char
  | '\x08' => some 'b'
  | '\t' => some 't'
  | '\n' => some 'n'
  | '\x0c' => some 'f'
  | '\r' => some 'r'
  | _ => none

/-- The last two digits in base sixteen of a control. -/
def hexPair (n : Nat) : List Char :=
  [Nat.digitChar (n / 16), Nat.digitChar (n % 16)]

/-- One character inside a JSON string. -/
def escapeChar (c : Char) : List Char :=
  if c == '"' || c == '\\' then ['\\', c]
  else if c.toNat < 0x20 then
    match shortEscape? c with
    | some e => ['\\', e]
    | none => ['\\', 'u', '0', '0'] ++ hexPair c.toNat
  else [c]

/-- A text as a JSON string. -/
def stringText (s : String) : String :=
  String.ofList ('"' :: s.toList.flatMap escapeChar ++ ['"'])

mutual

/-- The compact text of a value. -/
def write : Json → String
  | .null => "null"
  | .bool b => if b then "true" else "false"
  | .number n => n.text
  | .text s => stringText s
  | .list items => "[" ++ Text.joinWith "," (writeItems items) ++ "]"
  | .object members => "\x7b" ++ Text.joinWith "," (writeMembers members) ++ "\x7d"

/-- The texts of the items of a list. -/
def writeItems : List Json → List String
  | [] => []
  | v :: rest => v.write :: writeItems rest

/-- The texts of the members of an object. -/
def writeMembers : List (String × Json) → List String
  | [] => []
  | (k, v) :: rest => (stringText k ++ ":" ++ v.write) :: writeMembers rest

end

mutual

/-- The value with the members of every object sorted by key, the last of each key kept. -/
def sorted : Json → Json
  | .null => .null
  | .bool b => .bool b
  | .number n => .number n
  | .text s => .text s
  | .list items => .list (sortedItems items)
  | .object members => .object (sortedMembers members [])

/-- The items of a list, each sorted. -/
def sortedItems : List Json → List Json
  | [] => []
  | v :: rest => v.sorted :: sortedItems rest

/-- Sorts members into `done`. -/
def sortedMembers : List (String × Json) → List (String × Json) → List (String × Json)
  | [], done => done
  | (k, v) :: rest, done => sortedMembers rest (insertSorted k v.sorted done)

end

/-- Whether a value is `null`. -/
def isNull : Json → Bool
  | .null => true
  | _ => false

end Json

end Classwright
