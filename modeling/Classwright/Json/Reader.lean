import Classwright.Decimal.Assembled
import Classwright.Json.Cursor

/-!
# Reading JSON values

`value` reads a value into a `Json` and refuses numbers out of range, unpaired
surrogates and values nested too deeply; `skip` moves over a value without these checks.
Both report the first fault of the text.
-/

namespace Classwright.Json.Reader

/-! ## Numbers -/

/-- A number as it is written. -/
structure Numeral where
  /-- Digits before the point. -/
  whole : List Char
  /-- Digits after the point, if there is one. -/
  fraction? : Option (List Char)
  /-- Sign (`true` for minus) and digits of the exponent, and the place of its first
  digit. -/
  exponent? : Option (Bool × List Char × Place)

/-- Digits that have to be there. -/
def digits (atEnd : Cause) : Reader (List Char) := do
  match ← peek with
  | none => failPeek atEnd
  | some c => if c.isDigit then takeWhile Char.isDigit else failPeek .invalidNumber

/-- The fraction of a number, if it has one. -/
def fraction (atEnd : Cause) : Reader (Option (List Char)) := do
  if (← peek) == some '.' then
    drop
    some <$> digits atEnd
  else pure none

/-- The exponent of a number, if it has one. -/
def exponent (atEnd : Cause) : Reader (Option (Bool × List Char × Place)) := do
  match ← peek with
  | some 'e' | some 'E' =>
    drop
    let sign ← peek
    if sign == some '+' || sign == some '-' then drop
    let place ← here
    let ds ← digits atEnd
    pure (some (sign == some '-', ds, place))
  | _ => pure none

/-- A number without its sign. A zero may not have further digits after it. -/
def numeral (atEnd : Cause) : Reader Numeral := do
  match ← peek with
  | none => failPeek atEnd
  | some '0' =>
    drop
    if (← peek).any Char.isDigit then failPeek .invalidNumber
    pure ⟨['0'], ← fraction atEnd, ← exponent atEnd⟩
  | some _ => pure ⟨← digits atEnd, ← fraction atEnd, ← exponent atEnd⟩

/-- The value of a digit. -/
def digitValue (c : Char) : Nat :=
  c.toNat - '0'.toNat

/-- Appends digits to a significand as long as it stays below `2 ^ 64`: the result, and
how many digits went in. -/
def absorb (significand : Nat) : List Char → Nat × Nat
  | [] => (significand, 0)
  | d :: rest =>
    let grown := significand * 10 + digitValue d
    if grown < Nat.pow 2 64 then
      let (result, count) := absorb grown rest
      (result, count + 1)
    else (significand, 0)

/-- Reads an exponent below `2 ^ 31`; `none`, with the number of digits read, if it is
not. -/
def exponentValue (value count : Nat) : List Char → Except Nat Nat
  | [] => .ok value
  | d :: rest =>
    let grown := value * 10 + digitValue d
    if grown < Nat.pow 2 31 then exponentValue grown (count + 1) rest else .error (count + 1)

/-- The number that a numeral stands for; `none` for one out of range, with the place
where that shows. -/
def Numeral.value (negative : Bool) (n : Numeral) (finish : Place) : Except Place Number :=
  let (significand, used) := absorb 0 n.whole
  let left : Int := n.whole.length - used
  match n.fraction?, n.exponent? with
  | none, none =>
    if left == 0 then
      if !negative then .ok (.integer significand)
      else if significand == 0 || Nat.pow 2 63 < significand then
        .ok (.double (-significand.toUInt64.toFloat).toBits)
      else .ok (.integer (-significand))
    else double significand left
  | _, none =>
    let (significand, used) := absorb significand (n.fraction?.getD [])
    double significand (left - used)
  | _, some (down, ds, place) =>
    let (significand, used) := absorb significand (n.fraction?.getD [])
    match exponentValue 0 0 ds with
    | .ok e => double significand (left - used + (if down then -(e : Int) else e))
    | .error count =>
      if significand != 0 && !down then .error ⟨place.line, place.column + count⟩
      else .ok (.double (if negative then 0x8000000000000000 else 0))
where
  /-- The double with the given significand and power of ten. -/
  double (significand : Nat) (power : Int) : Except Place Number :=
    match Decimal.assemble? negative significand power with
    | some bits => .ok (.double bits)
    | none => .error finish

/-- Reads a number whose sign is consumed. -/
def number (negative : Bool) : Reader Number := do
  let n ← numeral .endInValue
  match n.value negative (← here) with
  | .ok x => pure x
  | .error place => fun _ => .error (.placed .numberOutOfRange place)

/-! ## Strings -/

/-- The value of a digit in base sixteen. -/
def hexValue? (c : Char) : Option Nat :=
  if '0' ≤ c && c ≤ '9' then some (c.toNat - '0'.toNat)
  else if 'a' ≤ c && c ≤ 'f' then some (c.toNat - 'a'.toNat + 10)
  else if 'A' ≤ c && c ≤ 'F' then some (c.toNat - 'A'.toNat + 10)
  else none

/-- The value of four digits in base sixteen. -/
def hexFour? : List Char → Option Nat
  | [a, b, c, d] => do
    let a ← hexValue? a
    let b ← hexValue? b
    let c ← hexValue? c
    let d ← hexValue? d
    return ((a * 16 + b) * 16 + c) * 16 + d
  | _ => none

/-- Reads four digits in base sixteen, of which four bytes have to be there. -/
def hexFour : Reader Nat := fun c =>
  if Text.byteLength c.rest < 4 then
    .error (.placed .endInString (c.place.afterBytes (Text.byteLength c.rest) c.rest))
  else
    match hexFour? (c.rest.take 4) with
    | some n => .ok (n, ⟨c.rest.drop 4, ⟨c.place.line, c.place.column + 4⟩⟩)
    | none => .error (.placed .invalidEscape (c.place.afterBytes 4 c.rest))

/-- What the character after a backslash stands for. -/
def unescape? : Char → Option Char
  | '"' => some '"'
  | '\\' => some '\\'
  | '/' => some '/'
  | 'b' => some '\x08'
  | 'f' => some '\x0c'
  | 'n' => some '\n'
  | 'r' => some '\r'
  | 't' => some '\t'
  | _ => none

/-- Consumes one character of the second half of a surrogate pair. -/
def pairMark (mark : Char) : Reader Unit := do
  match ← peek with
  | none => failPeek .endInString
  | some c => if c == mark then drop else failPeek .endOfHexEscape

/-- Reads the character of a numeric escape; two escapes can make up one character. -/
def numericEscape : Reader Char := do
  let n ← hexFour
  if 0xdc00 ≤ n && n ≤ 0xdfff then failHere .loneSurrogate
  else if 0xd800 ≤ n && n ≤ 0xdbff then
    pairMark '\\'
    pairMark 'u'
    let m ← hexFour
    if 0xdc00 ≤ m && m ≤ 0xdfff
      then pure (Char.ofNat ((n - 0xd800) * 0x400 + (m - 0xdc00) + 0x10000))
    else failHere .loneSurrogate
  else pure (Char.ofNat n)

/-- Reads what follows a backslash. -/
def escape : Reader Char := do
  match ← peek with
  | none => failPeek .endInString
  | some 'u' =>
    drop
    numericEscape
  | some e =>
    match unescape? e with
    | some c =>
      drop
      pure c
    | none => failPeek .invalidEscape

/-- Moves over what follows a backslash. -/
def skipEscape : Reader Unit := do
  match ← peek with
  | none => failPeek .endInString
  | some 'u' =>
    drop
    let _ ← hexFour
  | some e => if (unescape? e).isSome then drop else failPeek .invalidEscape

/-- Whether a character can stand in a string by itself. -/
def isPlain (c : Char) : Bool :=
  c != '"' && c != '\\' && 0x20 ≤ c.toNat

/-- Reads a string up to its closing quote; `fuel` bounds the number of its parts. -/
def stringParts : Nat → Reader (List Char)
  | 0 => pure []
  | fuel + 1 => do
    let plain ← takeWhile isPlain
    match ← peek with
    | none => failPeek .endInString
    | some '"' =>
      drop
      pure plain
    | some '\\' =>
      drop
      let c ← escape
      let rest ← stringParts fuel
      pure (plain ++ c :: rest)
    | some _ => failPeek .controlCharacter

/-- Moves over a string up to its closing quote; `fuel` bounds the number of its parts. -/
def skipParts : Nat → Reader Unit
  | 0 => pure ()
  | fuel + 1 => do
    let _ ← takeWhile isPlain
    match ← peek with
    | none => failPeek .endInString
    | some '"' => drop
    | some '\\' =>
      drop
      skipEscape
      skipParts fuel
    | some _ => failHere .controlCharacter

/-- Reads a string whose quote is looked at. -/
def string : Reader String := do
  drop
  let chars ← stringParts ((← remaining) + 1)
  pure (String.ofList chars)

/-- Moves over a string whose quote is looked at. -/
def skipString : Reader Unit := do
  drop
  skipParts ((← remaining) + 1)

/-! ## Values -/

/-- Reads the scalar that starts with the character looked at. -/
def scalar (c : Char) : Reader Json := do
  if c == 'n' then
    drop
    word ['u', 'l', 'l']
    pure .null
  else if c == 't' then
    drop
    word ['r', 'u', 'e']
    pure (.bool true)
  else if c == 'f' then
    drop
    word ['a', 'l', 's', 'e']
    pure (.bool false)
  else if c == '-' then
    drop
    .number <$> number true
  else if c.isDigit then .number <$> number false
  else if c == '"' then .text <$> string
  else failPeek .expectedValue

/-- Reads a value; `inner?` reads the values inside a list or object, if these may be
opened. -/
def valueWith (inner? : Option (Reader Json)) : Reader Json := do
  match ← peekToken with
  | none => failPeek .endInValue
  | some '[' =>
    match inner? with
    | none => failPeek .tooDeep
    | some inner => .list <$> inList (do items inner ((← remaining) + 1) true)
  | some '\x7b' =>
    match inner? with
    | none => failPeek .tooDeep
    | some inner =>
      let member : Reader (String × Json) := do
        let key ← string
        colon
        pure (key, ← inner)
      .object <$> inObject (do members member ((← remaining) + 1) true)
  | some c => scalar c

/-- Reads a value in which at most `levels` lists and objects are open at a time. -/
def value : Nat → Reader Json
  | 0 => valueWith none
  | levels + 1 => valueWith (some (value levels))

/-- The number of lists and objects that may be open at a time in a text. -/
def maxLevels : Nat := 127

/-! ## Skipping -/

/-- Moves over the scalar that starts with the character looked at. -/
def skipScalar (c : Char) : Reader Unit := do
  if c == 'n' then
    drop
    word ['u', 'l', 'l']
  else if c == 't' then
    drop
    word ['r', 'u', 'e']
  else if c == 'f' then
    drop
    word ['a', 'l', 's', 'e']
  else if c == '-' then
    drop
    let _ ← numeral .invalidNumber
  else if c.isDigit then
    let _ ← numeral .invalidNumber
  else if c == '"' then skipString
  else failPeek .expectedValue

/-- Moves over the items of a list and its end; `fuel` bounds their number. -/
def skipItems (item : Reader Unit) : Nat → Bool → Reader Unit
  | 0, _ => pure ()
  | fuel + 1, first => do
    match ← peekToken with
    | none => failPeek .endInList
    | some ']' => drop
    | some c =>
      if first then
        item
        skipItems item fuel false
      else if c == ',' then
        drop
        item
        skipItems item fuel false
      else failPeek .expectedCommaOrListEnd

/-- Moves over a member of an object. -/
def skipMember (item : Reader Unit) : Reader Unit := do
  match ← peekToken with
  | none => failPeek .endInObject
  | some '"' =>
    skipString
    colon
    item
  | some _ => failPeek .keyNotString

/-- Moves over the members of an object and its end; `fuel` bounds their number. -/
def skipMembers (item : Reader Unit) : Nat → Bool → Reader Unit
  | 0, _ => pure ()
  | fuel + 1, first => do
    match ← peekToken with
    | none => failPeek .endInObject
    | some '\x7d' => drop
    | some c =>
      if first then
        skipMember item
        skipMembers item fuel false
      else if c == ',' then
        drop
        skipMember item
        skipMembers item fuel false
      else failPeek .expectedCommaOrObjectEnd

/-- Moves over a value; `fuel` bounds the number of open lists and objects. -/
def skipWithin : Nat → Reader Unit
  | 0 => pure ()
  | fuel + 1 => do
    match ← peekToken with
    | none => failPeek .endInValue
    | some '[' =>
      drop
      skipItems (skipWithin fuel) ((← remaining) + 1) true
    | some '\x7b' =>
      drop
      skipMembers (skipWithin fuel) ((← remaining) + 1) true
    | some c => skipScalar c

/-- Moves over a value. -/
def skip : Reader Unit := do
  skipWithin ((← remaining) + 1)

end Classwright.Json.Reader

namespace Classwright

/-- Reads a JSON text. -/
def Json.read (text : String) : Except Json.Fault Json :=
  Json.Reader.run (Json.Reader.value Json.Reader.maxLevels) text

end Classwright
