import Classwright.OrderedMap
import Classwright.Text.Blank

/-!
# Hand-written fragments

A generated file has four places at which hand-written text can be put in. `Hooks` holds
the texts for one entity, and a `Template` the generated parts between them:
`Template.fill` only ever inserts the texts, each ended by a line feed and set off by at
most one empty line on either side.
-/

namespace Classwright

/-- The places for hand-written text in a generated file. -/
inductive Hook where
  | imports
  | properties
  | statements
  | members
deriving DecidableEq, Repr, Inhabited

/-- The place that a name stands for. -/
def Hook.ofName? : String → Option Hook
  | "import" => some .imports
  | "using" => some .imports
  | "properties" => some .properties
  | "constructor" => some .statements
  | "class" => some .members
  | _ => none

/-- The hand-written texts for one entity. -/
structure Hooks where
  /-- Further imports. -/
  imports? : Option String := none
  /-- Further fields or properties. -/
  properties? : Option String := none
  /-- Statements at the end of the constructor. -/
  statements? : Option String := none
  /-- Further members. -/
  members? : Option String := none
deriving DecidableEq, Repr, Inhabited

namespace Hooks

/-- The text for a place. -/
def get? (h : Hooks) : Hook → Option String
  | .imports => h.imports?
  | .properties => h.properties?
  | .statements => h.statements?
  | .members => h.members?

/-- Puts a text at a place. -/
def set (h : Hooks) (hook : Hook) (text : String) : Hooks :=
  match hook with
  | .imports => { h with imports? := some text }
  | .properties => { h with properties? := some text }
  | .statements => { h with statements? := some text }
  | .members => { h with members? := some text }

/-- Whether there is no text for any place. -/
def isEmpty (h : Hooks) : Bool :=
  h == {}

end Hooks

/-- A text that ends with a line feed, added if it is missing. -/
def terminated (text : String) : String :=
  if text.toList.getLast? == some '\n' then text else text ++ "\n"

/-- Whether an empty line is put before and after an inserted text. -/
structure Margin where
  /-- An empty line before the text. -/
  before : Bool := false
  /-- An empty line after the text. -/
  after : Bool := false
deriving DecidableEq, Repr, Inhabited

/-- A text as it is inserted. -/
def Margin.block (m : Margin) : Option String → String
  | none => ""
  | some text =>
    (if m.before then "\n" else "") ++ terminated text ++ (if m.after then "\n" else "")

/-- The generated parts of a file, as lines, and the margins of the texts between them. -/
structure Template where
  /-- The lines up to the place for imports. -/
  opening : List String
  /-- The margin of the imports. -/
  importsMargin : Margin
  /-- The lines up to the place for properties. -/
  fields : List String
  /-- The margin of the properties. -/
  propertiesMargin : Margin
  /-- The lines up to the place in the constructor. -/
  constructor : List String
  /-- The margin of the statements in the constructor. -/
  statementsMargin : Margin
  /-- The lines up to the place for members. -/
  members : List String
  /-- The margin of the members. -/
  membersMargin : Margin
  /-- The last lines. -/
  closing : List String
deriving Repr, Inhabited

/-- The text of a file with hand-written texts put in. -/
def Template.fill (t : Template) (h : Hooks) : String :=
  Text.unlines t.opening ++ t.importsMargin.block h.imports? ++
  Text.unlines t.fields ++ t.propertiesMargin.block h.properties? ++
  Text.unlines t.constructor ++ t.statementsMargin.block h.statements? ++
  Text.unlines t.members ++ t.membersMargin.block h.members? ++
  Text.unlines t.closing

/-- The hand-written texts of one kind of entities, by the names of the entities. -/
structure Catalog where
  /-- The texts by entity. -/
  hooks : OrderedMap Hooks
deriving Repr, Inhabited

namespace Catalog

/-- The catalog without texts. -/
def empty : Catalog :=
  ⟨.empty⟩

/-- The texts for an entity. -/
def hooksFor (c : Catalog) (entity : String) : Hooks :=
  (c.hooks.get? entity).getD {}

/-- Adds a text for a place of an entity. -/
def insert (c : Catalog) (entity : String) (hook : Hook) (text : String) : Catalog :=
  ⟨c.hooks.insert entity ((c.hooksFor entity).set hook text)⟩

/-- The number of entities with texts. -/
def size (c : Catalog) : Nat :=
  c.hooks.size

end Catalog

end Classwright
