import Classwright.Schema.Cache

/-!
# Loading documents

A remote document is downloaded when none is cached, when that is asked for, or when the
server's stamp differs from the cached one; a download that fails leaves the cached
document in use (`Loader.load`). What the network answers is given as a `Network`, and a
run records the requests that it makes.
-/

namespace Classwright.Schema

/-- What a server sends for a document. -/
structure Reply where
  /-- The text of the document. -/
  body : String
  /-- When the document was last changed. -/
  stamp? : Option String
  /-- The type of the content. -/
  contentType? : Option String
deriving DecidableEq, Repr, Inhabited

/-- How the network answers. -/
structure Network where
  /-- The answer to the question when a document was last changed. -/
  lookUp : String → Except FetchFault (Option String)
  /-- The answer to the request for a document. -/
  fetch : String → Except FetchFault Reply

/-- The network that answers nothing. -/
def Network.offline : Network where
  lookUp url := .error (.transport ("error sending request for url (" ++ url ++ ")"))
  fetch url := .error (.transport ("error sending request for url (" ++ url ++ ")"))

/-- A request to a server. -/
inductive Request where
  | lookUp (url : String)
  | fetch (url : String)
deriving DecidableEq, Repr, Inhabited

/-- The files, and the requests made so far. -/
structure Session where
  /-- The files. -/
  files : FileTree
  /-- The requests, the first one first. -/
  requests : List Request := []
deriving Inhabited

/-- An action on files that can also make requests. -/
abbrev SessionAction (α : Type) := ExceptT Failure (StateM Session) α

namespace SessionAction

variable {α : Type}

/-- The result of an action, and the session after it. -/
def run (a : SessionAction α) (s : Session) : Outcome α × Session :=
  a s

/-- An action that makes no request. -/
def onFiles (a : FileAction α) : SessionAction α :=
  fun s =>
    let (result, files) := a.run s.files
    (result, { s with files := files })

/-- Makes a request and gives the answer. -/
def ask (request : Request) (answer : Outcome α) : SessionAction α :=
  fun s => (answer, { s with requests := s.requests ++ [request] })

/-- Goes on with the result of an action, also if it has failed. -/
def attempt (a : SessionAction α) : SessionAction (Outcome α) :=
  fun s =>
    let (result, s) := a.run s
    (.ok result, s)

end SessionAction

/-- How a document was obtained. -/
inductive Origin where
  | file
  | download
  | cache
  | staleCache
deriving DecidableEq, Repr, Inhabited

/-- A document and how it was obtained. -/
structure Loaded where
  /-- The document. -/
  document : Document
  /-- How it was obtained. -/
  origin : Origin
deriving Repr, Inhabited

/-- What is known of a source without a request. -/
structure Status where
  /-- The source as it is shown. -/
  source : String
  /-- The file of the cached document, for a remote source. -/
  cachePath? : Option Path
  /-- Whether there is a file with the document. -/
  isCached : Bool
  /-- The stamp in the cache. -/
  stamp? : Option String
deriving DecidableEq, Repr, Inhabited

/-- A source and its cache. -/
structure Loader where
  /-- Where the document comes from. -/
  source : Source
  /-- Where it is kept. -/
  cache : Cache
deriving DecidableEq, Repr, Inhabited

/-- Whether a type of content is some kind of JSON. -/
def isJsonType (contentType? : Option String) : Bool :=
  match contentType? with
  | some type => Text.occursIn "json".toList (Text.asciiLower type).toList
  | none => false

/-- The document in a reply. -/
def Reply.document (r : Reply) (url : String) : Outcome Document :=
  if isJsonType r.contentType? then Document.ofSource r.body url
  else .error (.fetch url (.contentType r.contentType?))

namespace Loader

/-- Asks for a stamp. Only a stamp that differs from the cached one makes a document
stale. -/
def isStale (l : Loader) (n : Network) (cached? : Option String) : SessionAction Bool :=
  match l.source with
  | .file _ => pure false
  | .remote url =>
    let stale := match n.lookUp url with
      | .ok (some stamp) => cached? != some stamp
      | .ok none => false
      | .error _ => false
    SessionAction.ask (.lookUp url) (.ok stale)

/-- Caches the document of a reply and gives it. -/
def accept (l : Loader) (url : String) (reply : Reply) : SessionAction Document := do
  let document ← SessionAction.onFiles (FileAction.look fun _ => reply.document url)
  SessionAction.onFiles (l.cache.store reply.body reply.stamp?)
  return document

/-- Downloads the document and caches it. -/
def download (l : Loader) (n : Network) (url : String) : SessionAction Document := do
  let reply ← SessionAction.ask (.fetch url) ((n.fetch url).mapError (Failure.fetch url))
  l.accept url reply

/-- Gives the document of a remote source when one is cached. -/
def loadOver (l : Loader) (n : Network) (url : String) (force : Bool) (cached : Cached) :
    SessionAction Loaded := do
  let wanted ← if force then pure true else l.isStale n cached.stamp?
  if wanted then
    match ← (l.download n url).attempt with
    | .ok document => return ⟨document, .download⟩
    | .error _ => return ⟨cached.document, .staleCache⟩
  else return ⟨cached.document, .cache⟩

/-- Gives the document of a remote source when none is cached. -/
def loadAnew (l : Loader) (n : Network) (url : String) : SessionAction Loaded := do
  match ← (l.download n url).attempt with
  | .ok document => return ⟨document, .download⟩
  | .error failure => throw (.downloadFailed failure)

/-- Gives the document, downloaded if need be. With `force`, the stamps are not
compared. -/
def load (l : Loader) (n : Network) (force : Bool) : SessionAction Loaded := do
  match l.source with
  | .file path => return ⟨← SessionAction.onFiles (Document.load path), .file⟩
  | .remote url =>
    match ← SessionAction.onFiles (FileAction.look l.cache.read) with
    | none => l.loadAnew n url
    | some cached => l.loadOver n url force cached

/-- Gives the document without any request. -/
def loadCached (l : Loader) : FileAction Document := do
  match l.source with
  | .file path => Document.load path
  | .remote _ =>
    match ← FileAction.look l.cache.read with
    | some cached => return cached.document
    | none => throw (.nothingCached l.cache.documentPath)

/-- What is known of the source without a request. -/
def status (l : Loader) (t : FileTree) : Outcome Status :=
  match l.source with
  | .file path => return ⟨l.source.shown, none, t.has path, none⟩
  | .remote _ =>
    return ⟨l.source.shown, some l.cache.documentPath, t.has l.cache.documentPath,
      ← l.cache.stamp? t⟩

end Loader

end Classwright.Schema
