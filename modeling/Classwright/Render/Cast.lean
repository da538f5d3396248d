import Classwright.Render.Statement

/-!
# Checking and storing a value

`Caster.cast` lists the lines that check a value against a shape and store it. A scalar
is reported if it is of the wrong kind and then converted; a plain object becomes an
instance of its class; a result is made by the index; a list is rebuilt element by
element. The variables of a loop carry the number of the loops around it.
-/

namespace Classwright.Script

/-- What the checks refer to. -/
structure Caster where
  /-- How types are written. -/
  types : TypeSystem
  /-- The index that makes results. -/
  index : String

/-- A variable, numbered by the loops around it. -/
def numbered (name : String) (depth : Nat) : String :=
  name ++ toString depth

namespace Caster

/-- Checks a value against an atom, and stores it. -/
def castAtom (c : Caster) (atom : Atom) (value target label : String) (indent : Nat) : List Line :=
  let store : Expr → Line := fun e => ⟨indent, .assign target e⟩
  match atom with
  | .primitive .int => [
      ⟨indent, .check (.notType value "number") (.expects label "a number" value)⟩,
      ⟨indent, .elseCheck (.fraction value) (.fraction label)⟩,
      store (.number value),
      ⟨indent, .assignIf (.notNumber target) target (.plain "null")⟩]
  | .primitive .float => [
      ⟨indent, .check (.notType value "number") (.expects label "a number" value)⟩,
      store (.number value),
      ⟨indent, .assignIf (.notNumber target) target (.plain "null")⟩]
  | .primitive .string => [
      ⟨indent, .check (.notType value "string") (.expects label "a string" value)⟩,
      store (.text value)]
  | .primitive .boolean => [
      ⟨indent, .check (.notType value "boolean") (.expects label "a boolean" value)⟩,
      store (.choice value "true" "false")]
  | .primitive .object => [
      ⟨indent, .check (.notRecord value) (.expects label "an object" value)⟩,
      store (.plain value)]
  | .primitive .array => [
      ⟨indent, .check (.notList value) (.expects label "an array" value)⟩,
      store (.plain value)]
  | .primitive .mixed => [store (.plain value)]
  | .unknown => [store (.plain value)]
  | .object name =>
    let class_ := c.types.object name
    [ ⟨indent, .openIf (.notInstance value class_)⟩,
      ⟨indent + 1, .assignIf (.record value) value (.construct class_ value)⟩,
      ⟨indent + 1, .elseReport (.expects label class_ value)⟩,
      ⟨indent, .close⟩,
      store (.plain value)]
  | .result =>
    let base := c.types.resultBase
    [ ⟨indent, .openIf (.notInstance value base)⟩,
      ⟨indent + 1, .openIf (.envelope value)⟩,
      ⟨indent + 2, .assign value (.lookup c.index value)⟩,
      ⟨indent + 2, .check (.null value) (.unknownResult label)⟩,
      ⟨indent + 1, .close⟩,
      ⟨indent + 1, .elseReport (.expects label base value)⟩,
      ⟨indent, .close⟩,
      store (.plain value)]

/-- Checks that a value is a list and stores one of the same length; `inner` checks an
element and stores it. -/
def castList (value target label : String) (indent depth : Nat) (inner : List Line) : List Line :=
  let list := numbered "arr" depth
  let index := numbered "i" depth
  let element := numbered "val" depth
  let item := numbered "item" depth
  [ ⟨indent, .openIf (.notList value)⟩,
    ⟨indent + 1, .report (.expects label "an array" value)⟩,
    ⟨indent + 1, .assign target (.plain value)⟩,
    ⟨indent, .openElse⟩,
    ⟨indent + 1, .declare list (some (.plain "[]"))⟩,
    ⟨indent + 1, .openLoop index value⟩,
    ⟨indent + 2, .declare element (some (.item value index))⟩,
    ⟨indent + 2, .openIf (.unset element)⟩,
    ⟨indent + 3, .push list (.plain "null")⟩,
    ⟨indent + 3, .next⟩,
    ⟨indent + 2, .close⟩,
    ⟨indent + 2, .declare item none⟩] ++
  inner ++
  [ ⟨indent + 2, .push list (.plain item)⟩,
    ⟨indent + 1, .close⟩,
    ⟨indent + 1, .assign target (.plain list)⟩,
    ⟨indent, .close⟩]

/-- Checks a value against a shape, and stores it. -/
def cast (c : Caster) (shape : Shape) (value target label : String) (indent depth : Nat) :
    List Line :=
  match shape with
  | .single atom => c.castAtom atom value target label indent
  | .list element =>
    castList value target label indent depth
      (c.cast element (numbered "val" depth) (numbered "item" depth)
        (label ++ "[]") (indent + 2) (depth + 1))
  | .either atom element =>
    [⟨indent, .openIf (.list value)⟩] ++
    castList value target label (indent + 1) depth
      (c.cast element (numbered "val" depth) (numbered "item" depth)
        (label ++ "[]") (indent + 3) (depth + 1)) ++
    [⟨indent, .openElse⟩] ++
    c.castAtom atom value target label (indent + 1) ++
    [⟨indent, .close⟩]

end Caster

end Classwright.Script
