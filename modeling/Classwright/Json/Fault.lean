import Classwright.Json.Value
import Classwright.Text.Shown

/-!
# Faults of JSON texts

A fault is a cause and, when it comes from a text, the place it was noticed at.
`Fault.message` words it.
-/

namespace Classwright.Json

/-- A place in a text: the line, counted from one, and the number of bytes before it in
that line. -/
structure Place where
  /-- The line, counted from one. -/
  line : Nat
  /-- The bytes of the line before the place. -/
  column : Nat
deriving DecidableEq, Repr, Inhabited

/-- What stands where something else was expected. -/
inductive Found where
  | null
  | bool (b : Bool)
  | number (n : Number)
  | text (s : String)
  | list
  | object
deriving DecidableEq, Repr

/-- What was expected. -/
inductive Expected where
  | text
  | object
  | record (name : String)
  | recordOf (name : String) (fields : Nat)
deriving DecidableEq, Repr

/-- Why a text or a value was refused. -/
inductive Cause where
  | endInList
  | endInObject
  | endInString
  | endInValue
  | expectedColon
  | expectedCommaOrListEnd
  | expectedCommaOrObjectEnd
  | expectedWord
  | expectedValue
  | invalidEscape
  | invalidNumber
  | numberOutOfRange
  | keyNotString
  | controlCharacter
  | loneSurrogate
  | endOfHexEscape
  | trailingComma
  | trailingCharacters
  | tooDeep
  | mismatch (found : Found) (expected : Expected)
  | wrongLength (length : Nat) (expected : Expected)
  | repeatedField (name : String)
  | noVariant (name : String)
deriving DecidableEq, Repr

/-- A cause, and the place it was noticed at if it was noticed in a text. -/
structure Fault where
  /-- Why the text or value was refused. -/
  cause : Cause
  /-- Where it was noticed. -/
  place? : Option Place
deriving DecidableEq, Repr

/-- What a value is found to be. -/
def found : Json → Found
  | .null => .null
  | .bool b => .bool b
  | .number n => .number n
  | .text s => .text s
  | .list _ => .list
  | .object _ => .object

/-- The wording of what was found. -/
def Found.message : Found → String
  | .null => "null"
  | .bool b => "boolean `" ++ (if b then "true" else "false") ++ "`"
  | .number (.integer n) => "integer `" ++ toString n ++ "`"
  | .number (.double bits) => "floating point `" ++ Number.text (.double bits) ++ "`"
  | .text s => "string " ++ Text.shown s
  | .list => "sequence"
  | .object => "map"

/-- The wording of what was expected. -/
def Expected.message : Expected → String
  | .text => "a string"
  | .object => "a JSON object"
  | .record name => "struct " ++ name
  | .recordOf name fields => "struct " ++ name ++ " with " ++ toString fields ++ " elements"

/-- The wording of a cause. -/
def Cause.message : Cause → String
  | .endInList => "EOF while parsing a list"
  | .endInObject => "EOF while parsing an object"
  | .endInString => "EOF while parsing a string"
  | .endInValue => "EOF while parsing a value"
  | .expectedColon => "expected `:`"
  | .expectedCommaOrListEnd => "expected `,` or `]`"
  | .expectedCommaOrObjectEnd => "expected `,` or `\x7d`"
  | .expectedWord => "expected ident"
  | .expectedValue => "expected value"
  | .invalidEscape => "invalid escape"
  | .invalidNumber => "invalid number"
  | .numberOutOfRange => "number out of range"
  | .keyNotString => "key must be a string"
  | .controlCharacter => "control character (\\u0000-\\u001F) found while parsing a string"
  | .loneSurrogate => "lone leading surrogate in hex escape"
  | .endOfHexEscape => "unexpected end of hex escape"
  | .trailingComma => "trailing comma"
  | .trailingCharacters => "trailing characters"
  | .tooDeep => "recursion limit exceeded"
  | .mismatch found expected =>
    "invalid type: " ++ found.message ++ ", expected " ++ expected.message
  | .wrongLength length expected =>
    "invalid length " ++ toString length ++ ", expected " ++ expected.message
  | .repeatedField name => "duplicate field `" ++ name ++ "`"
  | .noVariant name => "data did not match any variant of untagged enum " ++ name

/-- The wording of a fault. -/
def Fault.message (f : Fault) : String :=
  match f.place? with
  | none => f.cause.message
  | some p => f.cause.message ++ " at line " ++ toString p.line ++ " column " ++ toString p.column

end Classwright.Json
