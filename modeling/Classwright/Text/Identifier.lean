/-!
# Identifiers

A name can stand for a class, a file or a member in every target when it is an
identifier: an ASCII letter, an underscore or a dollar sign, followed by such characters
and digits.
-/

namespace Classwright.Text

/-- What an identifier may start with. -/
def isIdentifierStart (c : Char) : Bool :=
  c.isAlpha || c == '_' || c == '$'

/-- What an identifier may go on with. -/
def isIdentifierPart (c : Char) : Bool :=
  c.isAlphanum || c == '_' || c == '$'

/-- Whether the characters form an identifier. -/
def isIdentifierChars : List Char → Bool
  | [] => false
  | c :: rest => isIdentifierStart c && rest.all isIdentifierPart

/-- Whether a text is an identifier. -/
def isIdentifier (s : String) : Bool :=
  isIdentifierChars s.toList

theorem exists_toList_of_isIdentifier {s : String} (h : isIdentifier s) :
    ∃ c rest, s.toList = c :: rest ∧ isIdentifierStart c ∧ ∀ d ∈ rest, isIdentifierPart d := by
  unfold isIdentifier at h
  cases hs : s.toList with
  | nil => simp [hs, isIdentifierChars] at h
  | cons c rest => exact ⟨c, rest, rfl, by simpa [hs, isIdentifierChars] using h⟩

end Classwright.Text
