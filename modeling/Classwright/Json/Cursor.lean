import Classwright.Json.Fault

/-!
# Reading a text from left to right

A `Cursor` is what is left of a text and the place it starts at. A `Reader` takes a
cursor to a result and a later cursor, or stops. A reader that stops either knows the
place of its fault already, or leaves it to the list or object that it is in: such a
fault is placed where reading stands once the container is left (`inList`, `inObject`).
-/

namespace Classwright.Json

/-- What is left of a text, and where that is. -/
structure Cursor where
  /-- The characters still to be read. -/
  rest : List Char
  /-- The place of the first of them. -/
  place : Place
deriving DecidableEq, Repr

/-- Why a reader stopped. -/
inductive Stop where
  | placed (cause : Cause) (place : Place)
  | unplaced (cause : Cause) (cursor : Cursor)
deriving DecidableEq, Repr

/-- A reader of texts. -/
abbrev Reader := StateT Cursor (Except Stop)

/-- The place after a character. -/
def Place.after (p : Place) (c : Char) : Place :=
  if c == '\n' then ⟨p.line + 1, 0⟩ else ⟨p.line, p.column + c.utf8Size⟩

/-- The place after the first byte of a character. -/
def Place.afterByte (p : Place) (c : Char) : Place :=
  if c == '\n' then ⟨p.line + 1, 0⟩ else ⟨p.line, p.column + 1⟩

/-- The place after the first `n` bytes of a text. -/
def Place.afterBytes (p : Place) : Nat → List Char → Place
  | 0, _ => p
  | _, [] => p
  | n + 1, c :: rest =>
    if c.utf8Size ≤ n + 1 then (p.after c).afterBytes (n + 1 - c.utf8Size) rest
    else ⟨p.line, p.column + (n + 1)⟩
termination_by _ cs => cs.length

namespace Cursor

/-- The start of a text. -/
def start (text : String) : Cursor :=
  ⟨text.toList, ⟨1, 0⟩⟩

/-- The cursor one character on. -/
def next (c : Cursor) : Cursor :=
  match c.rest with
  | [] => c
  | x :: rest => ⟨rest, c.place.after x⟩

/-- The place after the byte that is looked at. -/
def peekPlace (c : Cursor) : Place :=
  match c.rest with
  | [] => c.place
  | x :: _ => c.place.afterByte x

/-- Moves over the characters that satisfy `p`, and gives them. -/
def span (p : Char → Bool) (place : Place) : List Char → List Char × Cursor
  | [] => ([], ⟨[], place⟩)
  | x :: rest =>
    if p x then
      let (taken, c) := span p (place.after x) rest
      (x :: taken, c)
    else ([], ⟨x :: rest, place⟩)

/-- Whether a character may stand between the tokens of a JSON text. -/
def isGap (c : Char) : Bool :=
  c == ' ' || c == '\n' || c == '\t' || c == '\r'

/-- The cursor at the next token. -/
def skipGap (c : Cursor) : Cursor :=
  (span isGap c.place c.rest).2

/-- Where reading stands after an attempt to leave a list. -/
def leaveList (c : Cursor) : Cursor :=
  let c := c.skipGap
  match c.rest with
  | ']' :: _ => c.next
  | ',' :: _ => c.next.skipGap
  | _ => c

/-- Where reading stands after an attempt to leave an object. -/
def leaveObject (c : Cursor) : Cursor :=
  let c := c.skipGap
  match c.rest with
  | '\x7d' :: _ => c.next
  | _ => c

end Cursor

namespace Reader

/-- Stops at the byte that is looked at. -/
def failPeek {α : Type} (cause : Cause) : Reader α :=
  fun c => .error (.placed cause c.peekPlace)

/-- Stops at the end of what has been read. -/
def failHere {α : Type} (cause : Cause) : Reader α :=
  fun c => .error (.placed cause c.place)

/-- Stops and leaves the place to the container. -/
def failUnplaced {α : Type} (cause : Cause) : Reader α :=
  fun c => .error (.unplaced cause c)

/-- The next character, which is not consumed. -/
def peek : Reader (Option Char) :=
  fun c => .ok (c.rest.head?, c)

/-- The first character of the next token, which is not consumed. -/
def peekToken : Reader (Option Char) :=
  fun c => .ok (c.skipGap.rest.head?, c.skipGap)

/-- Consumes one character. -/
def drop : Reader Unit :=
  fun c => .ok ((), c.next)

/-- Consumes the characters that satisfy `p`. -/
def takeWhile (p : Char → Bool) : Reader (List Char) :=
  fun c => .ok (Cursor.span p c.place c.rest)

/-- The number of characters that are left. -/
def remaining : Reader Nat :=
  fun c => .ok (c.rest.length, c)

/-- The place reached. -/
def here : Reader Place :=
  fun c => .ok (c.place, c)

/-- Consumes exactly the characters of a word. -/
def word : List Char → Reader Unit
  | [] => pure ()
  | x :: rest => do
    match ← peek with
    | none => failPeek .endInValue
    | some c => if c == x then drop; word rest else failPeek .expectedWord

/-- Consumes the colon between the key and the value of a member. -/
def colon : Reader Unit := do
  match ← peekToken with
  | none => failPeek .endInObject
  | some ':' => drop
  | some _ => failPeek .expectedColon

/-- Whether another item follows in a list; consumes the comma before it. -/
def hasItem (first : Bool) : Reader Bool := do
  match ← peekToken with
  | none => failPeek .endInList
  | some ']' => pure false
  | some c =>
    if first then pure true
    else if c == ',' then
      drop
      match ← peekToken with
      | none => failPeek .endInValue
      | some ']' => failPeek .trailingComma
      | some _ => pure true
    else failPeek .expectedCommaOrListEnd

/-- Whether another member follows in an object; consumes the comma before it. -/
def hasMember (first : Bool) : Reader Bool := do
  match ← peekToken with
  | none => failPeek .endInObject
  | some '\x7d' => pure false
  | some c =>
    if first then
      if c == '"' then pure true else failPeek .keyNotString
    else if c == ',' then
      drop
      match ← peekToken with
      | none => failPeek .endInValue
      | some '"' => pure true
      | some '\x7d' => failPeek .trailingComma
      | some _ => failPeek .keyNotString
    else failPeek .expectedCommaOrObjectEnd

/-- Consumes the end of a list. -/
def endList : Reader Unit := do
  match ← peekToken with
  | none => failPeek .endInList
  | some ']' => drop
  | some ',' =>
    drop
    match ← peekToken with
    | some ']' => failPeek .trailingComma
    | _ => failPeek .trailingCharacters
  | some _ => failPeek .trailingCharacters

/-- Consumes the end of an object. -/
def endObject : Reader Unit := do
  match ← peekToken with
  | none => failPeek .endInObject
  | some '\x7d' => drop
  | some ',' => failPeek .trailingComma
  | some _ => failPeek .trailingCharacters

/-- Gives a fault of `body` that has no place the place that `leave` leads to. -/
def placedBy {α : Type} (leave : Cursor → Cursor) (body : Reader α) : Reader α := fun c =>
  match body c with
  | .ok r => .ok r
  | .error (.placed cause place) => .error (.placed cause place)
  | .error (.unplaced cause at_) => .error (.placed cause (leave at_).place)

/-- Reads the inside of a list whose bracket is looked at, and its end. -/
def inList {α : Type} (body : Reader α) : Reader α := do
  drop
  let result ← placedBy Cursor.leaveList body
  endList
  pure result

/-- Reads the inside of an object whose brace is looked at, and its end. -/
def inObject {α : Type} (body : Reader α) : Reader α := do
  drop
  let result ← placedBy Cursor.leaveObject body
  endObject
  pure result

/-- The items of a list up to its end; `fuel` bounds their number. -/
def items {α : Type} (item : Reader α) : Nat → Bool → Reader (List α)
  | 0, _ => pure []
  | fuel + 1, first => do
    if ← hasItem first then
      let x ← item
      let rest ← items item fuel false
      pure (x :: rest)
    else pure []

/-- The members of an object up to its end; `fuel` bounds their number. -/
def members {α : Type} (member : Reader α) : Nat → Bool → Reader (List α)
  | 0, _ => pure []
  | fuel + 1, first => do
    if ← hasMember first then
      let x ← member
      let rest ← members member fuel false
      pure (x :: rest)
    else pure []

/-- Reads a whole text: what `body` reads, and nothing after it. -/
def run {α : Type} (body : Reader α) (text : String) : Except Fault α :=
  let whole : Reader α := do
    let result ← body
    match ← peekToken with
    | none => pure result
    | some _ => failPeek .trailingCharacters
  match whole (Cursor.start text) with
  | .ok (result, _) => .ok result
  | .error (.placed cause place) => .error ⟨cause, some place⟩
  | .error (.unplaced cause _) => .error ⟨cause, none⟩

end Reader

end Classwright.Json
