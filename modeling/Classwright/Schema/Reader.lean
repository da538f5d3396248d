import Classwright.Json.Reader
import Classwright.Schema.Decode

/-!
# Reading schema documents

A document is read from left to right, so the first fault of the text is the one
reported, be it a fault of the JSON or a value of the wrong kind. `Document.ofText`
reads a whole document and says what is wrong with a text that is none.
-/

namespace Classwright.Schema

open Json (Cause Reader found)
open Json.Reader

/-- Why a text is not a schema document. -/
inductive DocumentFault where
  | json (fault : Json.Fault)
  | missing (name : String)
deriving DecidableEq, Repr

/-- The wording of a fault. -/
def DocumentFault.message : DocumentFault → String
  | .json fault => fault.message
  | .missing name => "missing top-level `" ++ name ++ "`"

namespace Read

/-- Refuses the scalar that starts with the character looked at. -/
def refuse {α : Type} (expected : Json.Expected) (c : Char) : Reader α := do
  let v ← scalar c
  failHere (.mismatch (found v) expected)

/-- Reads a text. -/
def text : Reader String := do
  match ← peekToken with
  | none => failPeek .endInValue
  | some '"' => string
  | some '[' => failHere (.mismatch .list .text)
  | some '\x7b' => failHere (.mismatch .object .text)
  | some c => refuse .text c

/-- Consumes `null` where its first letter is looked at. -/
def null : Reader Unit := do
  drop
  word ['u', 'l', 'l']

/-- Reads a value that may be `null`. -/
def optional {α : Type} (read : Reader α) : Reader (Option α) := do
  match ← peekToken with
  | some 'n' =>
    null
    pure none
  | _ => some <$> read

/-- Stops unless another list or object may be opened, and gives the number of those
that may be opened in it. -/
def enter (levels : Nat) : Reader Nat :=
  match levels with
  | 0 => failPeek .tooDeep
  | inner + 1 => pure inner

/-- Reads a map whose values `read` reads; `null` and an empty list stand for the empty
map. -/
def map {α : Type} (read : Nat → Reader α) (levels : Nat) : Reader (OrderedMap α) := do
  match ← peekToken with
  | none => failPeek .endInValue
  | some 'n' =>
    null
    pure .empty
  | some '[' =>
    let _ ← enter levels
    inList do
      if ← hasItem true then
        skip
        failUnplaced (.mismatch .list .object)
      else pure .empty
  | some '\x7b' =>
    let inner ← enter levels
    inObject do
      let member : Reader (String × α) := do
        let key ← string
        colon
        pure (key, ← read inner)
      return .ofList (← members member ((← remaining) + 1) true)
  | some c => refuse .object c

/-- Reads a record: `ofMembers` from an object, `ofItems` from a list of its fields in
order. -/
def record {α : Type} (name : String) (ofMembers ofItems : Nat → Reader α) (levels : Nat) :
    Reader α := do
  match ← peekToken with
  | none => failPeek .endInValue
  | some '[' =>
    let inner ← enter levels
    inList (ofItems inner)
  | some '\x7b' =>
    let inner ← enter levels
    inObject (ofMembers inner)
  | some c => refuse (.record name) c

/-- Folds the members of an object into a draft. `field?` gives the field of a name,
`seen` says whether the draft has it already, and `read` takes in its value. A member
without a field is passed over. -/
def fields {δ φ : Type} (field? : String → Option φ) (name : φ → String) (seen : δ → φ → Bool)
    (read : δ → φ → Reader δ) : Nat → Bool → δ → Reader δ
  | 0, _, draft => pure draft
  | fuel + 1, first, draft => do
    if ← hasMember first then
      match field? (← string) with
      | none =>
        colon
        skip
        fields field? name seen read fuel false draft
      | some field =>
        if seen draft field then failUnplaced (.repeatedField (name field))
        colon
        let draft ← read draft field
        fields field? name seen read fuel false draft
    else pure draft

/-- Folds the items of a list into a draft, one for each field, up to the end of the
list or of the fields. -/
def itemFields {δ φ : Type} (read : δ → φ → Reader δ) : List φ → Bool → δ → Reader δ
  | [], _, draft => pure draft
  | field :: rest, first, draft => do
    if ← hasItem first then
      let draft ← read draft field
      itemFields read rest false draft
    else pure draft

/-- A result, or a fault whose place the container decides. -/
def orUnplaced {α : Type} : Except Cause α → Reader α
  | .ok x => pure x
  | .error cause => failUnplaced cause

/-- Reads a field of a property into a draft. -/
def propertyField (levels : Nat) (draft : PropertyDraft) (field : PropertyField) :
    Reader PropertyDraft := do
  let v ← match field with
    | .type | .object | .description => do
      match ← optional text with
      | none => pure Json.null
      | some s => pure (Json.text s)
    | .array | .required | .default => value levels
  orUnplaced (draft.set field v fun _ => elementOf v)

/-- Reads a property. -/
def property (levels : Nat) : Reader PropertyDef :=
  record "PropertyDef"
    (fun inner => do
      return (← fields PropertyField.ofName? PropertyField.name (fun d f => d.seen.contains f)
        (propertyField inner) ((← remaining) + 1) true {}).finish)
    (fun inner => do
      return (← itemFields (propertyField inner) PropertyField.all true {}).finish)
    levels

/-- The fields of an object. -/
inductive ObjectField where
  | description
  | properties
deriving DecidableEq, Repr

/-- The name of a field of an object. -/
def ObjectField.name : ObjectField → String
  | .description => "description"
  | .properties => "properties"

/-- The field of an object with a name. -/
def ObjectField.ofName? (key : String) : Option ObjectField :=
  [ObjectField.description, .properties].find? fun f => f.name == key

/-- An object while its fields are read. -/
structure ObjectDraft where
  /-- The object so far. -/
  object : ObjectDef := ⟨none, .empty⟩
  /-- The fields read so far. -/
  seen : List ObjectField := []

/-- Reads a field of an object into a draft. -/
def objectField (levels : Nat) (draft : ObjectDraft) (field : ObjectField) :
    Reader ObjectDraft := do
  let seen := field :: draft.seen
  match field with
  | .description => return ⟨{ draft.object with description? := ← optional text }, seen⟩
  | .properties => return ⟨{ draft.object with properties := ← map property levels }, seen⟩

/-- Reads an object. -/
def object (levels : Nat) : Reader ObjectDef :=
  record "ObjectDef"
    (fun inner => do
      return (← fields ObjectField.ofName? ObjectField.name (fun d f => d.seen.contains f)
        (objectField inner) ((← remaining) + 1) true {}).object)
    (fun inner => do
      return (← itemFields (objectField inner) [.description, .properties] true {}).object)
    levels

/-- Reads a namespace: any value, which then has to have one of the two forms. -/
def namespaceDef (levels : Nat) : Reader Namespace := do
  let v ← value levels
  match Namespace.ofJson? v with
  | some ns => pure ns
  | none => failUnplaced (.noVariant "RawNamespace")

/-- The parts of a document. -/
inductive DocumentField where
  | objects
  | components
deriving DecidableEq, Repr

/-- The name of a part of a document. -/
def DocumentField.name : DocumentField → String
  | .objects => "objects"
  | .components => "components"

/-- The part of a document with a name. -/
def DocumentField.ofName? (key : String) : Option DocumentField :=
  [DocumentField.objects, .components].find? fun f => f.name == key

/-- A document while its parts are read. -/
structure DocumentDraft where
  /-- The objects, if they were given. -/
  objects? : Option (OrderedMap ObjectDef) := none
  /-- The namespaces, if they were given. -/
  components? : Option (OrderedMap Namespace) := none
  /-- The parts read so far. -/
  seen : List DocumentField := []

/-- Reads a part of a document into a draft. -/
def documentField (levels : Nat) (draft : DocumentDraft) (field : DocumentField) :
    Reader DocumentDraft := do
  let seen := field :: draft.seen
  match field with
  | .objects => return { draft with objects? := ← optional (map object levels), seen }
  | .components => return { draft with components? := ← optional (map namespaceDef levels), seen }

/-- Reads a document; as a list it has to have both parts. -/
def document : Reader DocumentDraft :=
  record "RawDocument"
    (fun inner => do
      fields DocumentField.ofName? DocumentField.name (fun d f => d.seen.contains f)
        (documentField inner) ((← remaining) + 1) true {})
    (fun inner => do
      let draft ← itemFields (documentField inner) [.objects, .components] true {}
      if draft.seen.length < 2 then
        failUnplaced (.wrongLength draft.seen.length (.recordOf "RawDocument" 2))
      pure draft)
    maxLevels

end Read

/-- Reads a document. -/
def Document.ofText (text : String) : Except DocumentFault Document :=
  match run Read.document text with
  | .error fault => .error (.json fault)
  | .ok draft =>
    match draft.objects?, draft.components? with
    | none, _ => .error (.missing "objects")
    | some _, none => .error (.missing "components")
    | some objects, some components => .ok ⟨objects, components⟩

/-- Reads one property. -/
def PropertyDef.ofText (text : String) : Except Json.Fault PropertyDef :=
  run (Read.property maxLevels) text

/-- Reads a map of texts. -/
def textMapOfText (text : String) : Except Json.Fault (OrderedMap String) :=
  run (Read.map (fun _ => Read.text) maxLevels) text

end Classwright.Schema
