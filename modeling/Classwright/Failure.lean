import Classwright.FileTree
import Classwright.Schema.Reader
import Classwright.Toml.Value

/-!
# Failures

Everything that can keep the program from doing what it was asked to, each with its
cause. `Failure.message` words a failure, `Failure.code` names its kind, and
`Failure.help?` tells what to do about it.
-/

namespace Classwright

/-- Why a class cannot be generated. -/
inductive RenderFault where
  | badName (part : String)
  | badProperty (name : String)
  | resultWithoutIndex
  | noIndexFile
deriving DecidableEq, Repr

/-- Why a schema cannot be fetched. -/
inductive FetchFault where
  | transport (message : String)
  | contentType (found? : Option String)
deriving DecidableEq, Repr

/-- Why the program stops. -/
inductive Failure where
  | io (path : Path) (fault : IoFault)
  | configNotFound (path : Path)
  | configInvalid (path : Path) (fault : Toml.Fault)
  | unknownTarget (name : String) (available : List String)
  | unsupportedBackend (name : String)
  | configExists (path : Path)
  | scaffoldExists (path : Path)
  | fetch (url : String) (fault : FetchFault)
  | schemaInvalid (origin : String) (fault : Schema.DocumentFault)
  | nothingCached (path : Path)
  | downloadFailed (reason : Failure)
  | render (entity : String) (fault : RenderFault)
  | fragmentUnreadable (entity : String) (path : Path) (fault : IoFault)
deriving DecidableEq, Repr

/-- The wording of a rendering fault. -/
def RenderFault.message : RenderFault → String
  | .badName part => "'" ++ part ++ "' is not a valid identifier"
  | .badProperty name => "property '" ++ name ++ "' is not a valid identifier"
  | .resultWithoutIndex => "a property refers to Result but no index_file is configured"
  | .noIndexFile => "no index_file configured"

/-- The wording of a fetching fault. -/
def FetchFault.message : FetchFault → String
  | .transport message => message
  | .contentType found? => "unexpected content type: " ++ found?.getD "<none>"

namespace Failure

/-- The wording of a failure. -/
def message : Failure → String
  | .io path fault => "I/O failure on '" ++ path.text ++ "': " ++ fault.message
  | .configNotFound path => "Config file not found: " ++ path.text
  | .configInvalid path fault => "Invalid config file '" ++ path.text ++ "': " ++ fault.message
  | .unknownTarget name _ => "Unknown target '" ++ name ++ "'"
  | .unsupportedBackend name => "Unsupported backend '" ++ name ++ "'"
  | .configExists path => "Refusing to overwrite existing config: " ++ path.text
  | .scaffoldExists path => "Refusing to overwrite existing base class: " ++ path.text
  | .fetch url fault => "Failed to fetch schema from " ++ url ++ ": " ++ fault.message
  | .schemaInvalid origin fault => "Invalid schema document (" ++ origin ++ "): " ++ fault.message
  | .nothingCached path => "No schema available: nothing cached at " ++ path.text
  | .downloadFailed reason => "No schema available: " ++ reason.message
  | .render entity fault => "Failed to render '" ++ entity ++ "': " ++ fault.message
  | .fragmentUnreadable entity path fault =>
    "Failed to read partial for '" ++ entity ++ "' at '" ++ path.text ++ "': " ++ fault.message

/-- The name of a failure's kind. -/
def code : Failure → String
  | .io _ _ => "modgen::io::failed"
  | .configNotFound _ => "modgen::config::not_found"
  | .configInvalid _ _ => "modgen::config::invalid"
  | .unknownTarget _ _ => "modgen::config::unknown_target"
  | .unsupportedBackend _ => "modgen::config::unsupported_backend"
  | .configExists _ => "modgen::config::already_exists"
  | .scaffoldExists _ => "modgen::scaffold::already_exists"
  | .fetch _ _ => "modgen::schema::fetch_failed"
  | .schemaInvalid _ _ => "modgen::schema::invalid"
  | .nothingCached _ => "modgen::schema::unavailable"
  | .downloadFailed _ => "modgen::schema::unavailable"
  | .render _ _ => "modgen::render::failed"
  | .fragmentUnreadable _ _ _ => "modgen::render::partial_unreadable"

/-- What to do about a failure. -/
def help? : Failure → Option String
  | .configNotFound _ => some "Run `modgen init` to create a starter modgen.toml"
  | .unknownTarget _ available => some ("Configured targets: " ++ Text.joinWith ", " available)
  | .unsupportedBackend _ => some "Supported backends: javascript, csharp, actionscript2"
  | .configExists _ => some "Pass --force to replace it"
  | .scaffoldExists _ => some "Base classes are meant to be edited. Pass --force to replace them"
  | .schemaInvalid _ _ =>
    some "The document must be a JSON object with top-level `objects` and `components` keys"
  | .nothingCached _ => some unavailableHelp
  | .downloadFailed _ => some unavailableHelp
  | _ => none
where
  /-- What to do when there is no schema. -/
  unavailableHelp : String :=
    "Run `modgen refresh` while online, or point [schema].source at a local file"

end Failure

/-- A result, or why there is none. -/
abbrev Outcome (α : Type) := Except Failure α

/-- Attaches the path to a failed operation on files. -/
def atPath {α : Type} (path : Path) (result : Except IoFault α) : Outcome α :=
  result.mapError (Failure.io path)

/-- Reads a document that comes from `origin`. -/
def Schema.Document.ofSource (text origin : String) : Outcome Schema.Document :=
  (Schema.Document.ofText text).mapError (Failure.schemaInvalid origin)

end Classwright
