import Classwright.Text.Blank

/-!
# Paths

A path keeps the text it was made from. What it denotes is its list of components
(`Path.components`): repeated slashes and single dots count for nothing, except a dot at
the start of a relative path. `join`, `parent?` and `stripStart?` work on the text,
guided by the components. `specifier` writes the way from one file to another as a
module specifier.
-/

namespace Classwright

/-- A part of a path. -/
inductive Component where
  | root
  | here
  | up
  | name (s : String)
deriving DecidableEq, Repr, Inhabited

/-- A path, by its text. -/
structure Path where
  /-- The text of the path. -/
  text : String
deriving DecidableEq, Repr, Inhabited

namespace Path

/-- The pieces of a text between slashes. -/
def pieces : List Char → List (List Char)
  | [] => [[]]
  | c :: rest =>
    if c == '/' then [] :: pieces rest
    else
      match pieces rest with
      | [] => [[c]]
      | piece :: others => (c :: piece) :: others

/-- The text of pieces with slashes between them. -/
def joinPieces : List (List Char) → List Char
  | [] => []
  | [piece] => piece
  | piece :: rest => piece ++ '/' :: joinPieces rest

/-- The component that a piece after the first one stands for. -/
def laterComponent? (piece : List Char) : Option Component :=
  if piece == [] || piece == ['.'] then none
  else if piece == ['.', '.'] then some .up
  else some (.name (String.ofList piece))

/-- The component that the first piece of a text stands for; an empty one with a slash
after it is the root. -/
def firstComponent? (piece : List Char) (rest : List (List Char)) : Option Component :=
  if piece == [] && !rest.isEmpty then some .root
  else if piece == ['.'] then some .here
  else laterComponent? piece

/-- A piece of a path and the component that it stands for, if any. -/
abbrev Mark := List Char × Option Component

/-- The pieces of a path with their components. -/
def marks (p : Path) : List Mark :=
  match pieces p.text.toList with
  | [] => []
  | first :: rest =>
    (first, firstComponent? first rest) :: rest.map fun piece => (piece, laterComponent? piece)

/-- The components of a path. -/
def components (p : Path) : List Component :=
  p.marks.filterMap Prod.snd

/-- The path with the given pieces. -/
def ofMarks : List Mark → Path
  | [(_, some .root)] => ⟨"/"⟩
  | ms => ⟨String.ofList (joinPieces (ms.map Prod.fst))⟩

/-- Whether a path starts at the root. -/
def isAbsolute (p : Path) : Bool :=
  p.text.toList.head? == some '/'

/-- Whether two paths have the same components. -/
def same (p q : Path) : Bool :=
  p.components == q.components

/-- Whether a path has no text. -/
def isEmpty (p : Path) : Bool :=
  p.text.isEmpty

/-- The text of a component. -/
def componentText : Component → String
  | .root => "/"
  | .here => "."
  | .up => ".."
  | .name s => s

/-- `q` below `p`; an absolute `q` stays as it is. -/
def join (p q : Path) : Path :=
  if q.isAbsolute then q
  else if p.isEmpty || p.text.toList.getLast? == some '/' then ⟨p.text ++ q.text⟩
  else ⟨p.text ++ "/" ++ q.text⟩

/-- `join` with a text. -/
def child (p : Path) (name : String) : Path :=
  p.join ⟨name⟩

/-- Drops the pieces in front that stand for no component. -/
def dropSilent (ms : List Mark) : List Mark :=
  ms.dropWhile fun m => m.2.isNone

/-- Drops the pieces at the end that stand for no component. -/
def dropSilentEnd (ms : List Mark) : List Mark :=
  (dropSilent ms.reverse).reverse

/-- The path without its last component; the root and the empty path have no parent. -/
def parent? (p : Path) : Option Path :=
  match dropSilent p.marks.reverse with
  | [] => none
  | (_, some .root) :: _ => none
  | _ :: before => some (ofMarks (dropSilent before).reverse)

/-- The last component, if it is a name. -/
def fileName? (p : Path) : Option String :=
  match p.components.getLast? with
  | some (.name s) => some s
  | _ => none

/-- The path with another last name. -/
def withFileName (p : Path) (name : String) : Path :=
  match p.fileName? with
  | some _ => (p.parent?.getD ⟨""⟩).child name
  | none => p.child name

/-- Drops the pieces up to the one of the `n`-th component. -/
def dropComponents : Nat → List Mark → List Mark
  | 0, ms => ms
  | _, [] => []
  | n + 1, (_, none) :: rest => dropComponents (n + 1) rest
  | n + 1, (_, some _) :: rest => dropComponents n rest

/-- What is left of a path after the components of `start`, if it begins with them. -/
def stripStart? (p start : Path) : Option Path :=
  if start.components.isPrefixOf p.components then
    some (ofMarks (dropSilent (dropSilentEnd (dropComponents start.components.length p.marks))))
  else none

/-! ## The way from one place to another -/

/-- The components that lead from the directory `base` to `target`. With `moved`, the
two have parted already. A base that climbs cannot be undone. -/
def way? (moved : List Component) : List Component → List Component → Option (List Component)
  | [], [] => some moved
  | target, [] => some (moved ++ target)
  | [], _ :: base => way? (moved ++ [.up]) [] base
  | t :: target, b :: base =>
    if moved.isEmpty && t == b then way? moved target base
    else if b == .here then way? (moved ++ [t]) target base
    else if b == .up then none
    else some (moved ++ .up :: base.map (fun _ => .up) ++ t :: target)

/-- A path made by joining components one after the other. -/
def ofComponents (cs : List Component) : Path :=
  cs.foldl (fun p c => p.child (componentText c)) ⟨""⟩

/-- The path that leads from the directory `base` to `target`, if there is one. -/
def relativeTo? (target base : Path) : Option Path :=
  if target.isAbsolute != base.isAbsolute then
    if target.isAbsolute then some target else none
  else (way? [] target.components base.components).map ofComponents

/-- The module specifier that names the file `target` in the file `source`. -/
def specifier (source target : Path) : String :=
  let base := source.parent?.getD ⟨""⟩
  let relative := (target.relativeTo? base).getD target
  let spec := Text.joinWith "/" (relative.components.map componentText)
  if Text.startsWith "../" spec || Text.startsWith "/" spec then spec else "./" ++ spec

end Path

end Classwright
