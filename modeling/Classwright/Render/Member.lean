import Classwright.Model.Entity
import Classwright.Render.Cast

/-!
# Accessors of a property

Every property has a getter and a setter. A property that holds a single value or a list
keeps the two forms in slots of their own, with a flag that tells which of them holds;
the list form and the flag have accessors too. A setter for one form leaves the other
form's slot empty.
-/

namespace Classwright.Script

/-- The slots of a property, as expressions. -/
structure Slots where
  /-- The slot of the value, or of its single form. -/
  value : String
  /-- The slot of the list form. -/
  list : String
  /-- The flag that tells whether the list form holds. -/
  flag : String
deriving DecidableEq, Repr

/-- What stands before the name of a property in the name of its slot. -/
def slotMark : Dialect → String
  | .javaScript => "_"
  | .actionScript => "___"

/-- The name of the accessors of a property's list form. -/
def listName (name : String) : String :=
  name ++ "List"

/-- The name of the accessor of a property's flag. -/
def flagName (name : String) : String :=
  name ++ "IsList"

/-- The name of the slot behind an accessor. -/
def slotName (d : Dialect) (name : String) : String :=
  slotMark d ++ name

/-- The slots of the property of a name. -/
def slotsOf (d : Dialect) (name : String) : Slots :=
  ⟨"this." ++ slotName d name, "this." ++ slotName d (listName name),
    "this." ++ slotName d (flagName name)⟩

/-- The parameter of a setter. -/
def parameter (name : String) : String :=
  "_" ++ name

/-- An accessor. -/
inductive MemberKind where
  | getter (type : String)
  | setter
deriving DecidableEq, Repr

/-- An accessor with its comment and body. -/
structure Member where
  /-- The lines of the comment before it. -/
  doc : List String
  /-- What it is; a getter has a type. -/
  kind : MemberKind
  /-- Its name. -/
  name : String
  /-- Its statements. -/
  body : List Line
deriving Repr

/-- The first line of an accessor, without its brace. -/
def Member.head (d : Dialect) (m : Member) : String :=
  match d, m.kind with
  | .javaScript, .getter _ => "get " ++ m.name ++ "()"
  | .javaScript, .setter => "set " ++ m.name ++ "(" ++ parameter m.name ++ ")"
  | .actionScript, .getter type => "public function get " ++ m.name ++ "()" ++ type
  | .actionScript, .setter =>
    "public function set " ++ m.name ++ "(" ++ parameter m.name ++ "):Void"

/-- The lines of an accessor, after an empty line. -/
def Member.lines (d : Dialect) (m : Member) : List String :=
  [""] ++ m.doc ++ ["\t" ++ m.head d ++ " \x7b"] ++ codeLines d m.body ++ ["\t\x7d"]

/-- The statements that empty all slots. -/
def Slots.clear (s : Slots) : List Statement :=
  [.assign s.value (.plain "null"), .assign s.list (.plain "null"), .assign s.flag (.plain "false")]

/-- Leaves a setter early if its value is missing, with the given statements done. -/
def missingGuard (name : String) (clear : List Statement) : List Line :=
  [⟨2, .openIf (.missing (parameter name))⟩] ++ clear.map (⟨3, ·⟩) ++ [⟨3, .leave⟩, ⟨2, .close⟩]

/-- The body of a getter. -/
def getterBody (value : Expr) : List Line :=
  [⟨2, .answer value⟩]

/-- The body of the setter of a property with one form. -/
def plainSetter (c : Caster) (slots : Slots) (p : Property) (label : String) : List Line :=
  missingGuard p.name [.assign slots.value (.plain "null")] ++
  if p.isChecked then c.cast p.shape (parameter p.name) slots.value label 2 0
  else [⟨2, .assign slots.value (.plain (parameter p.name))⟩]

/-- The body of the setter of the single form; it passes a list on to the setter of the
list form. -/
def singleSetter (c : Caster) (slots : Slots) (name : String) (atom : Atom) (label : String) :
    List Line :=
  missingGuard name slots.clear ++
  [ ⟨2, .openIf (.given (parameter name))⟩,
    ⟨3, .assign ("this." ++ listName name) (.plain (parameter name))⟩,
    ⟨3, .leave⟩,
    ⟨2, .close⟩] ++
  c.cast (.single atom) (parameter name) slots.value label 2 0 ++
  [⟨2, .assign slots.list (.plain "null")⟩, ⟨2, .assign slots.flag (.plain "false")⟩]

/-- The body of the setter of the list form. -/
def listSetter (c : Caster) (slots : Slots) (name : String) (element : Shape) (label : String) :
    List Line :=
  missingGuard (listName name) slots.clear ++
  c.cast (.list element) (parameter (listName name)) slots.list label 2 0 ++
  [⟨2, .assign slots.value (.plain "null")⟩, ⟨2, .assign slots.flag (.plain "true")⟩]

/-- The comments and types of the accessors of a property. -/
structure MemberDocs where
  /-- The comment of the property. -/
  own : List String
  /-- The comment of the list form. -/
  list : List String
  /-- The comment of the flag. -/
  flag : List String
  /-- The type of the property's getter. -/
  type : String
  /-- The type of the list form's getter. -/
  listType : String
  /-- The type of the flag's getter. -/
  flagType : String

/-- The accessors of a property. -/
def membersOf (d : Dialect) (c : Caster) (docs : MemberDocs) (entity : String) (p : Property) :
    List Member :=
  let slots := slotsOf d p.name
  let label := entity ++ "." ++ p.name
  match p.shape with
  | .either atom element => [
      ⟨docs.own, .getter docs.type, p.name, getterBody (.choice slots.flag slots.list slots.value)⟩,
      ⟨[], .setter, p.name, singleSetter c slots p.name atom label⟩,
      ⟨docs.list, .getter docs.listType, listName p.name, getterBody (.plain slots.list)⟩,
      ⟨[], .setter, listName p.name, listSetter c slots p.name element label⟩,
      ⟨docs.flag, .getter docs.flagType, flagName p.name, getterBody (.plain slots.flag)⟩]
  | _ => [
      ⟨docs.own, .getter docs.type, p.name, getterBody (.plain slots.value)⟩,
      ⟨[], .setter, p.name, plainSetter c slots p label⟩]

/-- The names of the slots of a property. -/
def slotNames (d : Dialect) (p : Property) : List String :=
  if p.isPolymorphic then [slotName d p.name, slotName d (listName p.name),
    slotName d (flagName p.name)]
  else [slotName d p.name]

end Classwright.Script
