import Classwright.Decimal.Shortest
import Classwright.Text.Blank
import Classwright.Text.Shown

/-!
# TOML documents

A document is a tree of items. Every item knows the bytes of the text that it was
written with, so that a value of the wrong kind can be pointed at (`Excerpt`). Tables
keep the order of their entries and remember how they came about, because that decides
which later lines may add to them.
-/

namespace Classwright.Toml

/-- The bytes of a text from `start` up to `stop`. -/
structure Span where
  /-- The offset of the first byte. -/
  start : Nat
  /-- The offset after the last byte. -/
  stop : Nat
deriving DecidableEq, Repr, Inhabited

/-- A key and where it was first written. -/
structure Key where
  /-- The name of the key. -/
  name : String
  /-- Where the name is written. -/
  span : Span
deriving DecidableEq, Repr, Inhabited

/-- How a table came about: by a header of its own, by a header of a table in it, by
keys with dots, or between braces. Tables between braces can have inner ones that came
about by keys with dots. -/
inductive TableForm where
  | header
  | implied
  | dotted
  | inline
deriving DecidableEq, Repr, Inhabited

/-- A value or table of a document. Tables that only arise from longer keys have no
span. -/
inductive Item where
  | text (span : Span) (s : String)
  | integer (span : Span) (n : Int)
  | float (span : Span) (bits : UInt64)
  | boolean (span : Span) (b : Bool)
  | date (span : Span) (s : String)
  | list (span : Span) (items : List Item)
  | table (span? : Option Span) (form : TableForm) (entries : List (Key × Item))
  | tables (span? : Option Span) (items : List Item)
deriving Repr, Inhabited

/-- Where an item is written. -/
def Item.span? : Item → Option Span
  | .text span _ => some span
  | .integer span _ => some span
  | .float span _ => some span
  | .boolean span _ => some span
  | .date span _ => some span
  | .list span _ => some span
  | .table span? _ _ => span?
  | .tables span? _ => span?

/-! ## Faults -/

/-- What was expected of an item. -/
inductive Expected where
  | text
  | path
  | boolean
  | map
  | record (name : String)
  | recordOf (name : String) (fields : Nat)
deriving DecidableEq, Repr

/-- What an item is found to be. -/
inductive Found where
  | text (s : String)
  | integer (n : Int)
  | float (bits : UInt64)
  | boolean (b : Bool)
  | list
  | map
deriving DecidableEq, Repr

/-- What is wrong with an item. -/
inductive Cause where
  | mismatch (found : Found) (expected : Expected)
  | wrongLength (length : Nat) (expected : Expected)
  | missingField (name : String)
deriving DecidableEq, Repr

/-- The part of a text that a fault points at. -/
structure Excerpt where
  /-- The line, counted from one. -/
  line : Nat
  /-- The characters of the line before the part. -/
  column : Nat
  /-- The line itself. -/
  content : String
  /-- The number of marks under the part. -/
  width : Nat
deriving DecidableEq, Repr

/-- Why a text is refused: it is not TOML, or an item of it does not fit. -/
inductive Fault where
  | malformed
  | unfit (excerpt? : Option Excerpt) (cause : Cause)
deriving DecidableEq, Repr

/-- What an item is. -/
def Item.found : Item → Found
  | .text _ s => .text s
  | .integer _ n => .integer n
  | .float _ bits => .float bits
  | .boolean _ b => .boolean b
  | .date _ _ => .map
  | .list _ _ => .list
  | .table _ _ _ => .map
  | .tables _ _ => .list

/-- Floating point numbers are written out in full. -/
def floatForm : Decimal.Form := ⟨-400, 400, ['e'], ['e', '-']⟩

/-- The wording of what was found. -/
def Found.message : Found → String
  | .text s => "string " ++ Text.shown s
  | .integer n => "integer `" ++ toString n ++ "`"
  | .float bits => "floating point `" ++ Decimal.textOf floatForm bits ++ "`"
  | .boolean b => "boolean `" ++ (if b then "true" else "false") ++ "`"
  | .list => "sequence"
  | .map => "map"

/-- The wording of what was expected. -/
def Expected.message : Expected → String
  | .text => "a string"
  | .path => "path string"
  | .boolean => "a boolean"
  | .map => "a map"
  | .record name => "struct " ++ name
  | .recordOf name fields => "struct " ++ name ++ " with " ++ toString fields ++ " elements"

/-- The wording of a cause. -/
def Cause.message : Cause → String
  | .mismatch found expected =>
    "invalid type: " ++ found.message ++ ", expected " ++ expected.message
  | .wrongLength length expected =>
    "invalid length " ++ toString length ++ ", expected " ++ expected.message
  | .missingField name => "missing field `" ++ name ++ "`"

/-- The lines that show an excerpt: its place, the line, and marks under the part. -/
def Excerpt.message (e : Excerpt) : String :=
  let number := toString e.line
  let margin := Text.copies (number.length + 1) " " ++ "|"
  Text.unlines [
    "TOML parse error at line " ++ number ++ ", column " ++ toString (e.column + 1),
    margin,
    number ++ " | " ++ e.content,
    margin ++ Text.copies (e.column + 1) " " ++ Text.copies (max e.width 1) "^"]

/-- The wording of a fault. A text that is not TOML is reported by a bare marker. -/
def Fault.message : Fault → String
  | .malformed => "<syntax>"
  | .unfit none cause => Text.unlines [cause.message]
  | .unfit (some excerpt) cause => excerpt.message ++ Text.unlines [cause.message]

/-! ## Excerpts -/

/-- The pieces of a text between line feeds. -/
def rawLines : List Char → List (List Char)
  | [] => [[]]
  | c :: rest =>
    if c == '\n' then [] :: rawLines rest
    else
      match rawLines rest with
      | [] => [[c]]
      | line :: others => (c :: line) :: others

/-- The characters within the first `n` bytes of a text. -/
def charsWithin : Nat → List Char → Nat
  | _, [] => 0
  | n, c :: rest => if c.utf8Size ≤ n then charsWithin (n - c.utf8Size) rest + 1 else 0

/-- The line that the byte at `offset` is in: how many lines are before it, the line,
and the offset in it. -/
def lineAt (offset : Nat) : List (List Char) → Nat × List Char × Nat
  | [] => (0, [], offset)
  | [line] => (0, line, offset)
  | line :: rest =>
    if offset ≤ Text.byteLength line then (0, line, offset)
    else
      let (before, found, inside) := lineAt (offset - Text.byteLength line - 1) rest
      (before + 1, found, inside)

/-- The excerpt of a text that shows a span. -/
def excerptOf (text : String) (span : Span) : Excerpt :=
  let (before, line, inside) := lineAt span.start (rawLines text.toList)
  let column := charsWithin inside line
  { line := before + 1
    column := column
    content := String.ofList line
    width := min (span.stop - span.start) (Text.byteLength line - column) }

end Classwright.Toml
