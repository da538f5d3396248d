import Classwright.Text.Blank

/-!
# Quoted literals

A text between double quotes, with a backslash before a quote and a backslash, and short
forms for line feed, carriage return and tab. `decode` reads the inside of such a
literal back up to its closing quote (`decode_encode`).
-/

namespace Classwright.Text.Quoted

/-- How one character is written inside a literal. -/
def encodeChar : Char → List Char
  | '"' => ['\\', '"']
  | '\\' => ['\\', '\\']
  | '\n' => ['\\', 'n']
  | '\r' => ['\\', 'r']
  | '\t' => ['\\', 't']
  | c => [c]

/-- The inside of the literal of a text. -/
def encode (cs : List Char) : List Char :=
  cs.flatMap encodeChar

/-- What the character after a backslash stands for. -/
def unescape? : Char → Option Char
  | '"' => some '"'
  | '\\' => some '\\'
  | 'n' => some '\n'
  | 'r' => some '\r'
  | 't' => some '\t'
  | _ => none

/-- Reads up to the closing quote: the text, and what follows the quote. -/
def decode : List Char → Option (List Char × List Char)
  | [] => none
  | '"' :: rest => some ([], rest)
  | '\\' :: e :: rest => do
    let c ← unescape? e
    let (cs, after) ← decode rest
    return (c :: cs, after)
  | c :: rest => do
    let (cs, after) ← decode rest
    return (c :: cs, after)

/-- One written character is read back as itself. -/
theorem decode_encodeChar (c : Char) (rest : List Char) :
    decode (encodeChar c ++ rest) = (decode rest).map fun r => (c :: r.1, r.2) := by
  unfold encodeChar
  split <;> cases h : decode rest <;> simp_all [decode, unescape?]

/-- The inside of a literal is read back as the text, and what follows it is left alone. -/
theorem decode_encode (cs rest : List Char) :
    decode (encode cs ++ '"' :: rest) = some (cs, rest) := by
  induction cs with
  | nil => simp [encode, decode]
  | cons c cs ih =>
    have : encode (c :: cs) ++ '"' :: rest = encodeChar c ++ (encode cs ++ '"' :: rest) := by
      simp [encode]
    rw [this, decode_encodeChar, ih]
    rfl

end Classwright.Text.Quoted

namespace Classwright.Text

/-- The literal of a text. -/
def quote (s : String) : String :=
  String.ofList ('"' :: Quoted.encode s.toList ++ ['"'])

/-- Literals with a comma and a space between each two. -/
def quoteList (items : List String) : String :=
  joinWith ", " (items.map quote)

end Classwright.Text
