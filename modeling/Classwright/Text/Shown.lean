import Classwright.Text.Lowercase
import Classwright.Text.VisibleTable

/-!
# Texts as they are shown in messages

A message shows a text between double quotes. Quotes, backslashes and the common
controls have a backslash form, and a character that would not be seen by itself is
shown by its number.
-/

namespace Classwright.Text

/-- Whether a character beyond ASCII is seen by itself. -/
def isVisible (c : Char) : Bool :=
  let n := c.toNat
  !inRanges n VisibleTable.hidden && !inRanges n VisibleTable.extending

/-- A character by its number in base sixteen. -/
def showByNumber (c : Char) : List Char :=
  ['\\', 'u', '\x7b'] ++ Nat.toDigits 16 c.toNat ++ ['\x7d']

/-- One character of a shown text. -/
def showChar : Char → List Char
  | '\x00' => ['\\', '0']
  | '\t' => ['\\', 't']
  | '\n' => ['\\', 'n']
  | '\r' => ['\\', 'r']
  | '"' => ['\\', '"']
  | '\\' => ['\\', '\\']
  | c => if isVisible c then [c] else showByNumber c

/-- A text as shown in a message. -/
def shown (s : String) : String :=
  String.ofList ('"' :: s.toList.flatMap showChar ++ ['"'])

end Classwright.Text
