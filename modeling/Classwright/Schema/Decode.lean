import Classwright.Json.Fault
import Classwright.Schema.Document

/-!
# Descriptors from JSON values

How a JSON value is understood where the document is known to be loose: flags as numbers
or words, empty maps as empty lists, records as lists of their fields in order, and a
namespace with or without a `methods` member around its methods.
-/

namespace Classwright.Schema

open Json (Cause found)

/-! ## Lenient scalars -/

/-- Whether a value counts as true: `true` itself, a number other than zero, or the
words `true` and `1`. -/
def flagOf : Json → Bool
  | .bool b => b
  | .number n => !n.isZero
  | .text s =>
    let word := Text.asciiLower (Text.trim s)
    word == "true" || word == "1"
  | _ => false

/-- A text that may be `null`. -/
def textOf : Json → Except Cause (Option String)
  | .null => .ok none
  | .text s => .ok (some s)
  | v => .error (.mismatch (found v) .text)

/-! ## Properties -/

/-- The fields of a property. -/
inductive PropertyField where
  | type
  | object
  | array
  | required
  | default
  | description
deriving DecidableEq, Repr

namespace PropertyField

/-- The name of a field in a document. -/
def name : PropertyField → String
  | .type => "type"
  | .object => "object"
  | .array => "array"
  | .required => "required"
  | .default => "default"
  | .description => "description"

/-- The fields in the order in which a list gives them. -/
def all : List PropertyField :=
  [.type, .object, .array, .required, .default, .description]

/-- The field of a name. -/
def ofName? (key : String) : Option PropertyField :=
  all.find? fun f => f.name == key

end PropertyField

/-- A property while its fields are read. -/
structure PropertyDraft where
  /-- The descriptor so far. -/
  own : Descriptor := {}
  /-- The element description so far. -/
  element? : Option PropertyDef := none
  /-- The fields read so far. -/
  seen : List PropertyField := []

namespace PropertyDraft

/-- Takes in the value of a field; `element` reads the value as an element description. -/
def set (draft : PropertyDraft) (field : PropertyField) (value : Json)
    (element : Unit → Except Cause (Option PropertyDef)) : Except Cause PropertyDraft := do
  let draft := { draft with seen := field :: draft.seen }
  match field with
  | .type => return { draft with own := { draft.own with type? := ← textOf value } }
  | .object => return { draft with own := { draft.own with object? := ← textOf value } }
  | .description => return { draft with own := { draft.own with description? := ← textOf value } }
  | .required => return { draft with own := { draft.own with required := flagOf value } }
  | .default =>
    return { draft with own :=
      { draft.own with default? := if value.isNull then none else some value.sorted } }
  | .array => return { draft with element? := ← element () }

/-- The property that the fields describe. -/
def finish (draft : PropertyDraft) : PropertyDef :=
  .ofParts draft.own draft.element?

end PropertyDraft

mutual

/-- The element description in a value whose members are sorted: an object describes the
elements, `true` says that there are some, and anything else that there are none. -/
def elementOfSorted : Json → Except Cause (Option PropertyDef)
  | .object members => do return some (← draftOfMembers members {}).finish
  | .bool true => .ok (some (.plain {}))
  | _ => .ok none

/-- Takes in the members of an object, of which the elements' description is sorted. -/
def draftOfMembers : List (String × Json) → PropertyDraft → Except Cause PropertyDraft
  | [], draft => .ok draft
  | (key, value) :: rest, draft =>
    match PropertyField.ofName? key with
    | none => draftOfMembers rest draft
    | some field =>
      if draft.seen.contains field then .error (.repeatedField field.name)
      else do draftOfMembers rest (← draft.set field value fun _ => elementOfSorted value)

end

/-- The element description in a value. -/
def elementOf (value : Json) : Except Cause (Option PropertyDef) :=
  elementOfSorted value.sorted

/-- Takes in the members of an object. -/
def PropertyDraft.addMembers : List (String × Json) → PropertyDraft → Except Cause PropertyDraft
  | [], draft => .ok draft
  | (key, value) :: rest, draft =>
    match PropertyField.ofName? key with
    | none => addMembers rest draft
    | some field =>
      if draft.seen.contains field then .error (.repeatedField field.name)
      else do addMembers rest (← draft.set field value fun _ => elementOf value)

/-- Takes in the items of a list, one for each field. -/
def PropertyDraft.addItems :
    List PropertyField → List Json → PropertyDraft → Except Cause PropertyDraft
  | _, [], draft => .ok draft
  | [], _ :: _, _ => .error (.wrongLength 7 (.recordOf "PropertyDef" 6))
  | field :: fields, value :: rest, draft => do
    addItems fields rest (← draft.set field value fun _ => elementOf value)

/-- The property that a value describes. -/
def PropertyDef.ofJson : Json → Except Cause PropertyDef
  | .object members => do return (← PropertyDraft.addMembers members {}).finish
  | .list items => do return (← PropertyDraft.addItems PropertyField.all items {}).finish
  | v => .error (.mismatch (found v) (.record "PropertyDef"))

/-! ## Maps -/

/-- Reads the value of each member. -/
def valuesOf {α : Type} (read : Json → Except Cause α) :
    List (String × Json) → Except Cause (List (String × α))
  | [] => .ok []
  | (key, value) :: rest => do
    let x ← read value
    return (key, x) :: (← valuesOf read rest)

/-- The map that a value stands for; `null` and an empty list stand for the empty map. -/
def mapOf {α : Type} (read : Json → Except Cause α) : Json → Except Cause (OrderedMap α)
  | .object members => do return .ofList (← valuesOf read members)
  | .null => .ok .empty
  | .list [] => .ok .empty
  | v => .error (.mismatch (found v) .object)

/-- A map that may be `null`. -/
def optionalMapOf {α : Type} (read : Json → Except Cause α) :
    Json → Except Cause (Option (OrderedMap α))
  | .null => .ok none
  | v => some <$> mapOf read v

/-! ## Methods -/

/-- The fields of a method. -/
inductive MethodField where
  | description
  | secure
  | requireSession
  | redirect
  | params
  | returns
deriving DecidableEq, Repr

namespace MethodField

/-- The names of a field in a document, the proper one first. -/
def names : MethodField → List String
  | .description => ["description"]
  | .secure => ["secure"]
  | .requireSession => ["require_session", "requireSession"]
  | .redirect => ["redirect"]
  | .params => ["params"]
  | .returns => ["return"]

/-- The fields in the order in which a list gives them. -/
def all : List MethodField :=
  [.description, .secure, .requireSession, .redirect, .params, .returns]

/-- The field of a name. -/
def ofName? (key : String) : Option MethodField :=
  all.find? fun f => f.names.contains key

end MethodField

/-- A method while its fields are read. -/
structure MethodDraft where
  /-- The method so far. -/
  method : MethodDef := ⟨none, false, false, false, none, none⟩
  /-- The fields read so far. -/
  seen : List MethodField := []

namespace MethodDraft

/-- Takes in the value of a field. -/
def set (draft : MethodDraft) (field : MethodField) (value : Json) : Except Cause MethodDraft := do
  let method := draft.method
  let seen := field :: draft.seen
  match field with
  | .description => return ⟨{ method with description? := ← textOf value }, seen⟩
  | .secure => return ⟨{ method with secure := flagOf value }, seen⟩
  | .requireSession => return ⟨{ method with requireSession := flagOf value }, seen⟩
  | .redirect => return ⟨{ method with redirect := flagOf value }, seen⟩
  | .params => return ⟨{ method with params? := ← optionalMapOf PropertyDef.ofJson value }, seen⟩
  | .returns => return ⟨{ method with returns? := ← optionalMapOf PropertyDef.ofJson value }, seen⟩

/-- Takes in the members of an object. -/
def addMembers : List (String × Json) → MethodDraft → Except Cause MethodDraft
  | [], draft => .ok draft
  | (key, value) :: rest, draft =>
    match MethodField.ofName? key with
    | none => addMembers rest draft
    | some field =>
      if draft.seen.contains field then .error (.repeatedField (field.names.headD ""))
      else do addMembers rest (← draft.set field value)

/-- Takes in the items of a list, one for each field. -/
def addItems : List MethodField → List Json → MethodDraft → Except Cause MethodDraft
  | _, [], draft => .ok draft
  | [], _ :: _, _ => .error (.wrongLength 7 (.recordOf "MethodDef" 6))
  | field :: fields, value :: rest, draft => do addItems fields rest (← draft.set field value)

end MethodDraft

/-- The method that a value describes. -/
def MethodDef.ofJson : Json → Except Cause MethodDef
  | .object members => do return (← MethodDraft.addMembers members {}).method
  | .list items => do return (← MethodDraft.addItems MethodField.all items {}).method
  | v => .error (.mismatch (found v) (.record "MethodDef"))

/-! ## Namespaces -/

/-- The methods of a namespace with a member `methods` around them; there has to be
exactly one. -/
def wrappedMethods? : Json → Option (OrderedMap MethodDef)
  | .object members =>
    match members.filter fun m => m.1 == "methods" with
    | [(_, methods)] => (mapOf MethodDef.ofJson methods).toOption
    | _ => none
  | _ => none

/-- The methods of a namespace that is itself the map of its methods. -/
def bareMethods? (value : Json) : Option (OrderedMap MethodDef) :=
  (mapOf MethodDef.ofJson value).toOption

/-- The namespace that a value describes, with or without a member around its methods. -/
def Namespace.ofJson? (value : Json) : Option Namespace :=
  ((wrappedMethods? value).or (bareMethods? value)).map Namespace.mk

end Classwright.Schema
