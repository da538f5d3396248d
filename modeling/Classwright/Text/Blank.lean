/-!
# Blank characters, lines and affixes

Texts are worked on as lists of characters. Blank characters are those with the Unicode
property `White_Space` (`isBlank`); `trim`, `trimStart` and `trimEnd` remove them at the
ends of a text, and `lines` cuts a text at its line feeds. The `String` forms at the end
are the ones that the rest of the library calls.
-/

namespace Classwright.Text

/-- The characters with the property `White_Space`. -/
def isBlank (c : Char) : Bool :=
  let n := c.toNat
  (9 ≤ n && n ≤ 13) || n == 0x20 || n == 0x85 || n == 0xa0 || n == 0x1680 ||
    (0x2000 ≤ n && n ≤ 0x200a) || n == 0x2028 || n == 0x2029 || n == 0x202f ||
    n == 0x205f || n == 0x3000

/-- The characters of a text from its first one that fails `p` on, read from the right
end. -/
def dropEndWhile (p : Char → Bool) (cs : List Char) : List Char :=
  (cs.reverse.dropWhile p).reverse

/-- A text without the blank characters at its start. -/
def trimStartChars (cs : List Char) : List Char :=
  cs.dropWhile isBlank

/-- A text without the blank characters at its end. -/
def trimEndChars (cs : List Char) : List Char :=
  dropEndWhile isBlank cs

/-- A text without the blank characters at either end. -/
def trimChars (cs : List Char) : List Char :=
  trimEndChars (trimStartChars cs)

/-- A line whose characters were collected from the right, without one carriage return
at its end. -/
def finishLine : List Char → List Char
  | '\r' :: before => before.reverse
  | before => before.reverse

/-- Cuts a text at its line feeds; `before` holds, last first, what the current line has
so far. -/
def linesAfter (before : List Char) : List Char → List (List Char)
  | [] => if before.isEmpty then [] else [before.reverse]
  | '\n' :: rest => finishLine before :: linesAfter [] rest
  | c :: rest => linesAfter (c :: before) rest

/-- The lines of a text. A line feed ends a line, and a carriage return just before it
belongs to the line end. -/
def linesOf (cs : List Char) : List (List Char) :=
  linesAfter [] cs

/-- The rest of a text after `start`, if it starts so. -/
def dropStart? (start : List Char) (cs : List Char) : Option (List Char) :=
  if start.isPrefixOf cs then some (cs.drop start.length) else none

/-- The part of a text before `ending`, if it ends so. -/
def dropEnd? (ending : List Char) (cs : List Char) : Option (List Char) :=
  if ending.isSuffixOf cs then some (cs.take (cs.length - ending.length)) else none

/-- Whether `part` stands anywhere in a text. -/
def occursIn (part : List Char) : List Char → Bool
  | [] => part.isEmpty
  | c :: rest => part.isPrefixOf (c :: rest) || occursIn part rest

/-- Cuts a text at its last `mark`: what stands before it and what stands after it. -/
def cutAtLast? (mark : Char) (cs : List Char) : Option (List Char × List Char) :=
  let after := cs.reverse.takeWhile (· != mark)
  match cs.reverse.dropWhile (· != mark) with
  | [] => none
  | _ :: before => some (before.reverse, after.reverse)

/-- `String` form of `trimChars`. -/
def trim (s : String) : String :=
  String.ofList (trimChars s.toList)

/-- Whether a text has nothing but blank characters. -/
def isBlankText (s : String) : Bool :=
  s.toList.all isBlank

/-- ASCII capitals become small letters; every other character stays. -/
def asciiLower (s : String) : String :=
  String.ofList (s.toList.map Char.toLower)

/-- Equality up to the case of ASCII letters. -/
def sameIgnoringAsciiCase (s t : String) : Bool :=
  asciiLower s == asciiLower t

/-- `String` form of a start test. -/
def startsWith (start s : String) : Bool :=
  start.toList.isPrefixOf s.toList

/-- The texts with `separator` between each two. -/
def joinWith (separator : String) : List String → String
  | [] => ""
  | [s] => s
  | s :: rest => s ++ separator ++ joinWith separator rest

theorem joinWith_eq_intercalate (separator : String) : ∀ texts : List String,
    joinWith separator texts = separator.intercalate texts
  | [] => by rw [joinWith, String.intercalate_nil]
  | [s] => by rw [joinWith, String.intercalate_singleton]
  | s :: next :: rest => by
    rw [joinWith, String.intercalate_cons_cons, joinWith_eq_intercalate separator (next :: rest)]
    simp

/-- Each text followed by a line feed. -/
def unlines (lines : List String) : String :=
  String.join (lines.map (· ++ "\n"))

/-- The number of bytes of a text. -/
def byteLength (cs : List Char) : Nat :=
  cs.foldl (fun n c => n + c.utf8Size) 0

/-- `n` copies of `s`. -/
def copies (n : Nat) (s : String) : String :=
  String.join (List.replicate n s)

end Classwright.Text
