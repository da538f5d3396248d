import Classwright.Toml.Value

/-!
# Reading TOML

`Document.ofText?` reads a text into the entries of its outermost table, or finds that
it is not TOML. The grammar is written with readers on what is left of the text
(`Scan`); the lines of the document then build up the tree (`Builder`), where a key or
table that is defined twice is a fault like any other.
-/

namespace Classwright.Toml

/-- What is left of a text, and how many bytes are read. -/
structure Scan where
  /-- The characters still to be read. -/
  rest : List Char
  /-- The number of bytes before them. -/
  offset : Nat

/-- A reader of texts. -/
abbrev Reader := StateT Scan Option

namespace Reader

/-! ## Characters -/

/-- The next character, which is not consumed. -/
def peek : Reader (Option Char) :=
  fun s => some (s.rest.head?, s)

/-- Whether the text goes on with `start`. -/
def looksAt (start : List Char) : Reader Bool :=
  fun s => some (start.isPrefixOf s.rest, s)

/-- Consumes the next character if it satisfies `p`. -/
def one (p : Char → Bool) : Reader Char := fun s =>
  match s.rest with
  | [] => none
  | c :: rest => if p c then some (c, ⟨rest, s.offset + c.utf8Size⟩) else none

/-- Consumes a character. -/
def mark (c : Char) : Reader Unit := do
  let _ ← one (· == c)

/-- Consumes the characters of a word. -/
def word : List Char → Reader Unit
  | [] => pure ()
  | c :: rest => do
    mark c
    word rest

/-- Consumes the characters that satisfy `p`. -/
def many (p : Char → Bool) : Reader (List Char) := fun s =>
  let taken := s.rest.takeWhile p
  some (taken, ⟨s.rest.dropWhile p, s.offset + Text.byteLength taken⟩)

/-- Fails. -/
def fail {α : Type} : Reader α :=
  fun _ => none

/-- Fails unless a condition holds. -/
def require (b : Bool) : Reader Unit :=
  if b then pure () else fail

/-- What `read` reads, or nothing if it fails. -/
def optional {α : Type} (read : Reader α) : Reader (Option α) := fun s =>
  match read s with
  | some (x, rest) => some (some x, rest)
  | none => some (none, s)

/-- The number of characters that are left. -/
def remaining : Reader Nat :=
  fun s => some (s.rest.length, s)

/-- What `read` reads, and the bytes that it is written with. -/
def spanned {α : Type} (read : Reader α) : Reader (α × Span) := fun s =>
  match read s with
  | some (x, rest) => some ((x, ⟨s.offset, rest.offset⟩), rest)
  | none => none

/-! ## Blanks, comments and line ends -/

/-- Blanks within a line. -/
def isGap (c : Char) : Bool :=
  c == ' ' || c == '\t'

/-- What can stand in a comment. -/
def isComment (c : Char) : Bool :=
  c == '\t' || (0x20 ≤ c.toNat && c.toNat != 0x7f)

/-- Consumes blanks. -/
def gap : Reader Unit := do
  let _ ← many isGap

/-- Consumes the end of a line. -/
def newline : Reader Unit := do
  match ← peek with
  | some '\n' => mark '\n'
  | some '\r' => word ['\r', '\n']
  | _ => fail

/-- Consumes a comment, without the end of its line. -/
def comment : Reader Unit := do
  mark '#'
  let _ ← many isComment

/-- Consumes the end of a line or of the text. -/
def lineEnd : Reader Unit := do
  match ← peek with
  | none => pure ()
  | some _ => newline

/-- Consumes what may follow on a line: blanks, a comment and the line's end. -/
def lineRest : Reader Unit := do
  gap
  if (← peek) == some '#' then comment
  lineEnd

/-- Consumes blanks, comments and line ends; `fuel` bounds their number. -/
def spaceWithin : Nat → Reader Unit
  | 0 => pure ()
  | fuel + 1 => do
    gap
    match ← peek with
    | some '#' =>
      comment
      newline
      spaceWithin fuel
    | some '\n' | some '\r' =>
      newline
      spaceWithin fuel
    | _ => pure ()

/-- Consumes blanks, comments and line ends. -/
def space : Reader Unit := do
  spaceWithin ((← remaining) + 1)

/-! ## Strings -/

/-- The value of a digit in base sixteen. -/
def hexValue? (c : Char) : Option Nat :=
  if '0' ≤ c && c ≤ '9' then some (c.toNat - '0'.toNat)
  else if 'a' ≤ c && c ≤ 'f' then some (c.toNat - 'a'.toNat + 10)
  else if 'A' ≤ c && c ≤ 'F' then some (c.toNat - 'A'.toNat + 10)
  else none

/-- Reads `n` digits in base sixteen after `value`. -/
def hexDigits : Nat → Nat → Reader Nat
  | 0, value => pure value
  | n + 1, value => do
    let c ← one fun c => (hexValue? c).isSome
    hexDigits n (value * 16 + (hexValue? c).getD 0)

/-- The character of a number, which may not be that of a surrogate. -/
def scalar (n : Nat) : Reader Char := do
  require (n < 0xd800 || (0xdfff < n && n < 0x110000))
  pure (Char.ofNat n)

/-- Reads what follows a backslash. -/
def escape : Reader Char := do
  let c ← one fun _ => true
  match c with
  | 'b' => pure '\x08'
  | 't' => pure '\t'
  | 'n' => pure '\n'
  | 'f' => pure '\x0c'
  | 'r' => pure '\r'
  | '"' => pure '"'
  | '\\' => pure '\\'
  | 'u' => scalar (← hexDigits 4 0)
  | 'U' => scalar (← hexDigits 8 0)
  | _ => fail

/-- What can stand by itself between double quotes. -/
def isBasic (c : Char) : Bool :=
  isComment c && c != '"' && c != '\\'

/-- What can stand between single quotes. -/
def isLiteral (c : Char) : Bool :=
  isComment c && c != '\''

/-- Reads the inside of a string up to its double quote; `fuel` bounds the number of its
parts. -/
def basicParts : Nat → Reader (List Char)
  | 0 => fail
  | fuel + 1 => do
    let plain ← many isBasic
    match ← peek with
    | some '"' =>
      mark '"'
      pure plain
    | some '\\' =>
      mark '\\'
      let c ← escape
      pure (plain ++ c :: (← basicParts fuel))
    | _ => fail

/-- Reads a string between double quotes. -/
def basic : Reader String := do
  mark '"'
  String.ofList <$> basicParts ((← remaining) + 1)

/-- Reads a string between single quotes. -/
def literal : Reader String := do
  mark '\''
  let cs ← many isLiteral
  mark '\''
  pure (String.ofList cs)

/-- Consumes a line end after a backslash, with blanks around it and further blank
lines. -/
def joinedLines : Reader Unit := do
  gap
  newline
  let fuel := (← remaining) + 1
  let rec blank : Nat → Reader Unit
    | 0 => pure ()
    | fuel + 1 => do
      gap
      match ← optional newline with
      | some _ => blank fuel
      | none => pure ()
  blank fuel

/-- Reads the inside of a string of several lines; `escapes` says whether a backslash
has a meaning. -/
def longParts (quote : Char) (escapes : Bool) : Nat → Reader (List Char)
  | 0 => fail
  | fuel + 1 => do
    let plain ← many fun c => isComment c && c != quote && !(escapes && c == '\\')
    match ← peek with
    | none => fail
    | some c =>
      if c == quote then
        let before ← many (· == quote)
        if before.length < 3 then pure (plain ++ before ++ (← longParts quote escapes fuel))
        else do
          require (before.length ≤ 5)
          pure (plain ++ before.drop 3)
      else if c == '\\' then
        mark '\\'
        let next ← peek
        if next.any fun c => isGap c || c == '\n' || c == '\r' then
          joinedLines
          pure (plain ++ (← longParts quote escapes fuel))
        else do
          let c ← escape
          pure (plain ++ c :: (← longParts quote escapes fuel))
      else do
        newline
        pure (plain ++ '\n' :: (← longParts quote escapes fuel))

/-- Reads a string of several lines; a line end right after the opening quotes does not
count. -/
def long (quote : Char) (escapes : Bool) : Reader String := do
  word [quote, quote, quote]
  let _ ← optional newline
  String.ofList <$> longParts quote escapes ((← remaining) + 1)

/-- Reads a string of any form. -/
def string : Reader String := do
  if ← looksAt ['"', '"', '"'] then long '"' true
  else if ← looksAt ['\'', '\'', '\''] then long '\'' false
  else if ← looksAt ['"'] then basic
  else literal

/-! ## Dates and times -/

/-- Reads a number of exactly `n` digits between two bounds. -/
def fixed (n least most : Nat) : Reader Nat := do
  let rec go : Nat → Nat → Reader Nat
    | 0, value => pure value
    | n + 1, value => do
      let c ← one Char.isDigit
      go n (value * 10 + (c.toNat - '0'.toNat))
  let value ← go n 0
  require (least ≤ value && value ≤ most)
  pure value

/-- The number of days of a month. -/
def daysIn (year month : Nat) : Nat :=
  if month == 2 then
    if year % 4 == 0 && (year % 100 != 0 || year % 400 == 0) then 29 else 28
  else if [4, 6, 9, 11].contains month then 30
  else 31

/-- The digits of a number, with zeros before it up to a width. -/
def padded (width n : Nat) : String :=
  let digits := Decimal.digitsOf n
  String.ofList (List.replicate (width - digits.length) '0' ++ digits)

/-- Reads a date. -/
def date : Reader String := do
  let year ← fixed 4 0 9999
  mark '-'
  let month ← fixed 2 1 12
  mark '-'
  let day ← fixed 2 1 31
  require (day ≤ daysIn year month)
  pure (padded 4 year ++ "-" ++ padded 2 month ++ "-" ++ padded 2 day)

/-- Reads a time of day. Digits of the second beyond the ninth do not count. -/
def time : Reader String := do
  let hour ← fixed 2 0 23
  mark ':'
  let minute ← fixed 2 0 59
  mark ':'
  let second ← fixed 2 0 60
  let fraction ← optional do
    mark '.'
    let ds ← many Char.isDigit
    require !ds.isEmpty
    pure (Text.dropEndWhile (· == '0') (ds.take 9))
  let tail := match fraction with
    | none | some [] => ""
    | some ds => String.ofList ('.' :: ds)
  pure (padded 2 hour ++ ":" ++ padded 2 minute ++ ":" ++ padded 2 second ++ tail)

/-- Reads the distance from universal time. -/
def zone : Reader String := do
  let sign ← one fun c => c == 'Z' || c == 'z' || c == '+' || c == '-'
  if sign == 'Z' || sign == 'z' then pure "Z"
  else do
    let hour ← fixed 2 0 23
    mark ':'
    let minute ← fixed 2 0 59
    pure (String.ofList [sign] ++ padded 2 hour ++ ":" ++ padded 2 minute)

/-- Reads a date, a time of day, or both, and gives it in its normal form. -/
def moment : Reader String := do
  match ← optional date with
  | none => time
  | some day =>
    let rest ← optional do
      let _ ← one fun c => c == 'T' || c == 't' || c == ' '
      let t ← time
      let z ← optional zone
      pure ("T" ++ t ++ z.getD "")
    pure (day ++ rest.getD "")

/-! ## Numbers -/

/-- Reads digits with single underscores between them, without the underscores; `fuel`
bounds their number. -/
def grouped (p : Char → Bool) : Nat → Reader (List Char)
  | 0 => pure []
  | fuel + 1 => do
    let c ← one p
    let ds ← many p
    if (← peek) == some '_' then
      mark '_'
      pure (c :: ds ++ (← grouped p fuel))
    else pure (c :: ds)

/-- Reads digits with underscores in between. -/
def groupedDigits (p : Char → Bool) : Reader (List Char) := do
  grouped p ((← remaining) + 1)

/-- Reads a sign, if there is one. -/
def sign : Reader Bool := do
  let c ← optional (one fun c => c == '+' || c == '-')
  pure (c == some '-')

/-- Reads a decimal integer: its sign and its digits. A zero stands alone. -/
def decimal : Reader (Bool × List Char) := do
  let negative ← sign
  match ← peek with
  | some '0' =>
    mark '0'
    pure (negative, ['0'])
  | _ => pure (negative, ← groupedDigits Char.isDigit)

/-- The value of digits in a base up to sixteen. -/
def valueIn (base : Nat) (ds : List Char) : Nat :=
  ds.foldl (fun n d => n * base + (hexValue? d).getD 0) 0

/-- Reads an integer with a mark for its base. -/
def based (letter : Char) (base : Nat) : Reader Int := do
  word ['0', letter]
  let n := valueIn base (← groupedDigits fun c => (hexValue? c).any (· < base))
  require (n < Nat.pow 2 63)
  pure n

/-- Reads an integer, which has to fit in 64 bits. -/
def integer : Reader Int := do
  if ← looksAt ['0', 'x'] then based 'x' 16
  else if ← looksAt ['0', 'o'] then based 'o' 8
  else if ← looksAt ['0', 'b'] then based 'b' 2
  else
    let (negative, ds) ← decimal
    let n := valueIn 10 ds
    require (if negative then n ≤ Nat.pow 2 63 else n < Nat.pow 2 63)
    pure (if negative then -n else n)

/-- Reads the exponent of a number. -/
def exponent : Reader Int := do
  let _ ← one fun c => c == 'e' || c == 'E'
  let negative ← sign
  let n := valueIn 10 (← groupedDigits Char.isDigit)
  pure (if negative then -n else n)

/-- The double nearest to a decimal number; a power beyond any double counts as one just
beyond. -/
def nearest (digits : Nat) (power : Int) : Float :=
  if digits == 0 then 0.0
  else
    let bounded := max (-100000) (min power 100000)
    Float.ofScientific digits (bounded < 0) bounded.natAbs

/-- Reads a number with a point or an exponent. -/
def pointed : Reader UInt64 := do
  let (negative, whole) ← decimal
  let fraction ← optional do
    mark '.'
    groupedDigits Char.isDigit
  let power ← optional exponent
  require (fraction.isSome || power.isSome)
  let places := fraction.getD []
  let x := nearest (valueIn 10 (whole ++ places)) (power.getD 0 - places.length)
  require (negative || !x.isInf)
  pure (if negative then -x else x).toBits

/-- Reads an infinity or a value that is no number. -/
def special : Reader UInt64 := do
  let negative ← sign
  let x : Float ←
    if ← looksAt ['i'] then do
      word ['i', 'n', 'f']
      pure (1.0 / 0.0)
    else do
      word ['n', 'a', 'n']
      pure (0.0 / 0.0)
  pure (if negative then -x else x).toBits

/-! ## Keys and values -/

/-- What a key without quotes consists of. -/
def isBare (c : Char) : Bool :=
  c.isAlphanum || c == '-' || c == '_'

/-- Reads one part of a key. -/
def simpleKey : Reader Key := do
  let (name, span) ← spanned do
    match ← peek with
    | some '"' => basic
    | some '\'' => literal
    | _ => do
      let cs ← many isBare
      require !cs.isEmpty
      pure (String.ofList cs)
  pure ⟨name, span⟩

/-- Reads the parts of a key; `fuel` bounds their number. -/
def keyParts : Nat → Reader (List Key)
  | 0 => fail
  | fuel + 1 => do
    gap
    let k ← simpleKey
    gap
    if (← peek) == some '.' then
      mark '.'
      pure (k :: (← keyParts fuel))
    else pure [k]

/-- The number of lists and tables that may be open at a time, and of parts of a key. -/
def maxLevels : Nat := 79

/-- Reads a key, whose parts have dots between them. -/
def key : Reader (List Key) := do
  let ks ← keyParts ((← remaining) + 1)
  require (ks.length ≤ maxLevels)
  pure ks

/-- An item from what was read for it. -/
def scalarItem {α : Type} (make : Span → α → Item) (read : Reader α) : Reader Item := do
  let (x, span) ← spanned read
  pure (make span x)

/-- Reads a number, a date or a time: the first of these that the text can start with. -/
def numeric : Reader Item := fun s =>
  (scalarItem Item.date moment s).orElse fun _ =>
    (scalarItem Item.float pointed s).orElse fun _ =>
      (scalarItem Item.float special s).orElse fun _ => scalarItem Item.integer integer s

/-- Reads the values of a list up to its bracket; `fuel` bounds their number. -/
def listItems (item : Reader Item) : Nat → Reader (List Item)
  | 0 => fail
  | fuel + 1 => do
    space
    if (← peek) == some ']' then
      mark ']'
      pure []
    else
      let x ← item
      space
      match ← peek with
      | some ',' =>
        mark ','
        pure (x :: (← listItems item fuel))
      | _ =>
        mark ']'
        pure [x]

/-- Reads the entries of a table up to its brace; `fuel` bounds their number. -/
def tableItems (item : Reader Item) : Nat → Reader (List (List Key × Item))
  | 0 => fail
  | fuel + 1 => do
    let k ← key
    mark '='
    gap
    let x ← item
    gap
    match ← peek with
    | some ',' =>
      mark ','
      pure ((k, x) :: (← tableItems item fuel))
    | _ =>
      mark '\x7d'
      pure [(k, x)]

end Reader

/-! ## Building tables -/

/-- A table while lines are added to it. -/
structure Draft where
  /-- How the table came about. -/
  form : TableForm
  /-- Where its header is written. -/
  span? : Option Span
  /-- Its entries so far. -/
  entries : List (Key × Item)

namespace Draft

/-- The item of a table. -/
def item (d : Draft) : Item :=
  .table d.span? d.form d.entries

/-- The entry of a name. -/
def find? (d : Draft) (name : String) : Option Item :=
  (d.entries.find? fun e => e.1.name == name).map Prod.snd

/-- Replaces the entry of a name. -/
def replace (d : Draft) (name : String) (x : Item) : Draft :=
  { d with entries := d.entries.map fun e => if e.1.name == name then (e.1, x) else e }

/-- Appends an entry. -/
def append (d : Draft) (k : Key) (x : Item) : Draft :=
  { d with entries := d.entries ++ [(k, x)] }

/-- Removes the entry of a name. -/
def remove (d : Draft) (name : String) : Draft :=
  { d with entries := d.entries.filter fun e => e.1.name != name }

/-- Changes the table that a path leads to. Tables that are missing on the way get the
form `made`. No path goes through a table between braces, and keys with dots do not go
through tables that have a header. -/
def modifyAt {α : Type} (made : TableForm) (f : Draft → Option (Draft × α)) :
    List Key → Draft → Option (Draft × α)
  | [], d => f d
  | k :: path, d =>
    match d.find? k.name with
    | none => do
      let (child, x) ← modifyAt made f path ⟨made, none, []⟩
      return (d.append k child.item, x)
    | some (.table span? form entries) =>
      if form == .inline || (made == .dotted && form == .header) then none
      else do
        let (child, x) ← modifyAt made f path ⟨form, span?, entries⟩
        return (d.replace k.name child.item, x)
    | some (.tables span? items) =>
      match items.getLast? with
      | some (.table inner? form entries) => do
        let (child, x) ← modifyAt made f path ⟨form, inner?, entries⟩
        return (d.replace k.name (.tables span? (items.dropLast ++ [child.item])), x)
      | _ => none
    | some _ => none

/-- Adds the value of a key. The last part of the key has to be new, and a key with dots
may only add to a table that came about by such keys. -/
def addValue (d : Draft) (path : List Key) (x : Item) : Option Draft :=
  match path.getLast? with
  | none => none
  | some k =>
    let add : Draft → Option (Draft × Unit) := fun t =>
      if ((t.form == .dotted) == path.dropLast.isEmpty) || (t.find? k.name).isSome then none
      else some (t.append k x, ())
    (modifyAt .dotted add path.dropLast d).map Prod.fst

end Draft

namespace Reader

/-- Reads a table between braces. -/
def inlineTable (item : Reader Item) : Reader (List (Key × Item)) := do
  mark '\x7b'
  gap
  if (← peek) == some '\x7d' then
    mark '\x7d'
    pure []
  else
    let pairs ← tableItems item ((← remaining) + 1)
    match pairs.foldlM (fun d p => Draft.addValue d p.1 p.2) ⟨.inline, none, []⟩ with
    | some d => pure d.entries
    | none => fail

/-- Reads a value; `inner?` reads the values inside a list or table, if these may be
opened. -/
def valueWith (inner? : Option (Reader Item)) : Reader Item := do
  match ← peek with
  | none => fail
  | some '"' | some '\'' => scalarItem Item.text string
  | some '[' =>
    match inner? with
    | none => fail
    | some inner => scalarItem Item.list do
        mark '['
        listItems inner ((← remaining) + 1)
  | some '\x7b' =>
    match inner? with
    | none => fail
    | some inner =>
      scalarItem (fun span entries => Item.table (some span) .inline entries) (inlineTable inner)
  | some 't' => scalarItem Item.boolean do
      word ['t', 'r', 'u', 'e']
      pure true
  | some 'f' => scalarItem Item.boolean do
      word ['f', 'a', 'l', 's', 'e']
      pure false
  | some c =>
    if c == '+' || c == '-' || c.isDigit then numeric
    else if c == 'i' || c == 'n' then scalarItem Item.float special
    else fail

/-- Reads a value in which at most `levels` lists and tables are open at a time. -/
def value : Nat → Reader Item
  | 0 => valueWith none
  | levels + 1 => valueWith (some (value levels))

end Reader

/-- A document while its lines are read: what the finished tables make up, and the table
that is being filled. -/
structure Builder where
  /-- The outermost table, without the one being filled. -/
  root : Draft
  /-- The key of the table being filled; empty for the outermost. -/
  path : List Key
  /-- Whether the table being filled is one of several under its key. -/
  isOneOfMany : Bool
  /-- The table being filled. -/
  current : Draft

namespace Builder

/-- The start of a document. -/
def start : Builder :=
  ⟨⟨.header, none, []⟩, [], false, ⟨.header, none, []⟩⟩

/-- The span from the first to the last header of the tables under a key. -/
def spanOfAll (items : List Item) : Option Span := do
  let first ← (← items.head?).span?
  let last ← (← items.getLast?).span?
  return ⟨first.start, last.stop⟩

/-- Puts the table being filled into its place. -/
def close (b : Builder) : Option Draft :=
  match b.path.getLast? with
  | none => some b.current
  | some k =>
    let put : Draft → Option (Draft × Unit) := fun parent =>
      match parent.find? k.name with
      | none =>
        if b.isOneOfMany then some (parent.append k (.tables b.current.span? [b.current.item]), ())
        else some (parent.append k b.current.item, ())
      | some (.tables _ items) =>
        if b.isOneOfMany then
          let items := items ++ [b.current.item]
          some (parent.replace k.name (.tables (spanOfAll items) items), ())
        else none
      | some _ => none
    (Draft.modifyAt .implied put b.path.dropLast b.root).map Prod.fst

/-- Goes on with the table of a header. It may exist already only if it was implied by
the headers of others. -/
def openTable (b : Builder) (path : List Key) (span : Span) : Option Builder := do
  let root ← b.close
  let k ← path.getLast?
  let take : Draft → Option (Draft × List (Key × Item)) := fun parent =>
    match parent.find? k.name with
    | none => some (parent, [])
    | some (.table _ .implied entries) => some (parent.remove k.name, entries)
    | some _ => none
  let (root, entries) ← Draft.modifyAt .implied take path.dropLast root
  return ⟨root, path, false, ⟨.header, some span, entries⟩⟩

/-- Goes on with another table under the key of a header. -/
def openOneOfMany (b : Builder) (path : List Key) (span : Span) : Option Builder := do
  let root ← b.close
  let k ← path.getLast?
  let check : Draft → Option (Draft × Unit) := fun parent =>
    match parent.find? k.name with
    | none => some (parent, ())
    | some (.tables _ _) => some (parent, ())
    | some _ => none
  let (root, ()) ← Draft.modifyAt .implied check path.dropLast root
  return ⟨root, path, true, ⟨.header, some span, []⟩⟩

end Builder

namespace Reader

/-- A step of the builder, which can fail. -/
def step (b? : Option Builder) : Reader Builder :=
  match b? with
  | some b => pure b
  | none => fail

/-- Reads a header. -/
def header (b : Builder) : Reader Builder := do
  if ← looksAt ['[', '['] then
    let (path, span) ← spanned do
      word ['[', '[']
      let path ← key
      word [']', ']']
      pure path
    lineRest
    step (b.openOneOfMany path span)
  else
    let (path, span) ← spanned do
      mark '['
      let path ← key
      mark ']'
      pure path
    lineRest
    step (b.openTable path span)

/-- Reads a line with a key and its value. -/
def keyValue (b : Builder) : Reader Builder := do
  let path ← key
  mark '='
  gap
  let x ← value maxLevels
  lineRest
  match b.current.addValue path x with
  | some current => pure { b with current := current }
  | none => fail

/-- Reads the lines of a document; `fuel` bounds their number. -/
def lines : Nat → Builder → Reader Builder
  | 0, _ => fail
  | fuel + 1, b => do
    gap
    match ← peek with
    | none => pure b
    | some '#' =>
      comment
      lineEnd
      lines fuel b
    | some '[' => lines fuel (← header b)
    | some '\n' | some '\r' =>
      newline
      lines fuel b
    | some _ => lines fuel (← keyValue b)

/-- Reads a document; a byte order mark before it does not count. -/
def document : Reader Draft := do
  let _ ← optional (mark '\ufeff')
  let b ← lines ((← remaining) + 1) .start
  match b.close with
  | some d => pure d
  | none => fail

end Reader

/-- Reads a text into the entries of its outermost table. -/
def entriesOfText? (text : String) : Option (List (Key × Item)) :=
  (Reader.document ⟨text.toList, 0⟩).map fun r => r.1.entries

end Classwright.Toml
