import Classwright.Text.Blank

/-!
# Descriptions

A description becomes comment lines: its lines without blank ends, blank lines left out,
and every reference `#Name` in them replaced by the qualified name of the class
(`expandReferences`). A number sign that no letter follows is text.
-/

namespace Classwright.Text

/-- What the name in a reference consists of. -/
def isReferencePart (c : Char) : Bool :=
  c.isAlphanum || c == '_'

/-- A number sign and the longest name after it, replaced by the qualified name if the
name starts with a letter. -/
def expandName (qualify : String → String) (name : List Char) : List Char :=
  match name with
  | [] => ['#']
  | c :: _ => if c.isAlpha then (qualify (String.ofList name)).toList else '#' :: name

/-- Replaces the references in a line. -/
def expandChars (qualify : String → String) : List Char → List Char
  | [] => []
  | c :: rest =>
    if c == '#' then
      expandName qualify (rest.takeWhile isReferencePart) ++
        expandChars qualify (rest.dropWhile isReferencePart)
    else c :: expandChars qualify rest
termination_by cs => cs.length
decreasing_by
  · have := (List.dropWhile_sublist (l := rest) isReferencePart).length_le
    simp only [List.length_cons]
    omega
  · simp

/-- `String` form of `expandChars`. -/
def expandReferences (qualify : String → String) (line : String) : String :=
  String.ofList (expandChars qualify line.toList)

/-- The comment lines of a description. -/
def descriptionLines (qualify : String → String) (text : String) : List String :=
  (((linesOf text.toList).map trimEndChars).filter fun line => !line.all isBlank).map fun line =>
    String.ofList (expandChars qualify line)

end Classwright.Text
