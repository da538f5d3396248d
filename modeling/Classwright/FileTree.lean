import Classwright.Path

/-!
# File trees

The files that a run reads and writes, as a value. A `Key` is the list of names that
leads from the working directory to a file; places outside of it have keys that start
with `..` or `/`. `FileTree.locate` finds what a path leads to, and the operations fail
for the reasons for which a file system refuses them.

Where the working directory itself lies is not part of a tree. So one place has up to
three keys, by a relative path, by an absolute one, and by one that climbs above the
working directory and comes down again; these are taken as different places, also where
a file system has them lead to one. There are no links: a name is a file or a directory,
and `..` leads back to where the name before it was looked up.
-/

namespace Classwright

/-- Why an operation on files failed. -/
inductive IoFault where
  | notFound
  | exists
  | notDirectory
  | isDirectory
  | notText
  | badName
deriving DecidableEq, Repr, Inhabited

/-- The wording of a failure. -/
def IoFault.message : IoFault → String
  | .notFound => "No such file or directory (os error 2)"
  | .exists => "File exists (os error 17)"
  | .notDirectory => "Not a directory (os error 20)"
  | .isDirectory => "Is a directory (os error 21)"
  | .notText => "stream did not contain valid UTF-8"
  | .badName => "file name contained an unexpected NUL byte"

/-- What a file holds: a text, or bytes that are none. -/
inductive Contents where
  | text (s : String)
  | bytes (bs : List UInt8)
deriving DecidableEq, Repr, Inhabited

/-- The contents with the given bytes. -/
def Contents.ofBytes (bs : List UInt8) : Contents :=
  match String.fromUTF8? bs.toByteArray with
  | some s => .text s
  | none => .bytes bs

/-- The bytes of contents. -/
def Contents.toBytes : Contents → List UInt8
  | .text s => s.toUTF8.toList
  | .bytes bs => bs

/-- What a key can lead to. -/
inductive FileEntry where
  | file (contents : Contents)
  | directory
deriving DecidableEq, Repr, Inhabited

/-- A file with its text. -/
structure SourceFile where
  /-- Where the file goes. -/
  path : Path
  /-- What is in it. -/
  contents : String
deriving DecidableEq, Repr, Inhabited

/-- The names that lead to a file. -/
abbrev Key := List String

/-- Files and directories by their keys. -/
structure FileTree where
  /-- The entries, each key once. -/
  entries : List (Key × FileEntry)
deriving Repr, Inhabited

/-- What a path leads to: an entry, or a name that is free in a directory. With `slash`,
the path ends in a slash. -/
inductive Location where
  | taken (key : Key) (entry : FileEntry) (slash : Bool)
  | free (key : Key) (slash : Bool)
deriving Repr, Inhabited

namespace FileTree

/-- The tree without entries. -/
def empty : FileTree :=
  ⟨[]⟩

/-- Whether a key is a directory in every tree: the working directory, those above it,
and the root. -/
def isGiven (key : Key) : Bool :=
  key.all (· == "..") || key == ["/"]

/-- The entry of a key. -/
def get? (t : FileTree) (key : Key) : Option FileEntry :=
  if isGiven key then some .directory else (t.entries.find? fun e => e.1 == key).map Prod.snd

/-- Replaces the entry of a key in a list of entries, or appends one. -/
def putEntry (key : Key) (entry : FileEntry) : List (Key × FileEntry) → List (Key × FileEntry)
  | [] => [(key, entry)]
  | (k, e) :: rest => if k == key then (k, entry) :: rest else (k, e) :: putEntry key entry rest

/-- Gives a key an entry. -/
def set (t : FileTree) (key : Key) (entry : FileEntry) : FileTree :=
  ⟨putEntry key entry t.entries⟩

/-- Removes a key and all keys below it. -/
def erase (t : FileTree) (key : Key) : FileTree :=
  ⟨t.entries.filter fun e => !key.isPrefixOf e.1⟩

/-- The key of the directory above. -/
def above (key : Key) : Key :=
  if key == ["/"] then key
  else if key.all (· == "..") then key ++ [".."]
  else key.dropLast

/-! ## Finding what a path leads to -/

/-- Follows the pieces of a path from an entry. -/
def follow (t : FileTree) (key : Key) (entry : FileEntry) : List String → Except IoFault Location
  | [] => .ok (.taken key entry false)
  | piece :: rest =>
    match entry with
    | .file _ =>
      if (piece :: rest).all (· == "") then .ok (.taken key entry true) else .error .notDirectory
    | .directory =>
      if piece == "" || piece == "." then
        if rest.isEmpty then .ok (.taken key .directory true) else follow t key .directory rest
      else if piece == ".." then follow t (above key) .directory rest
      else
        let next := key ++ [piece]
        match t.get? next with
        | some found => follow t next found rest
        | none => if rest.all (· == "") then .ok (.free next !rest.isEmpty) else .error .notFound

/-- What a path leads to. -/
def locate (t : FileTree) (p : Path) : Except IoFault Location :=
  if p.isEmpty then .error .notFound
  else if p.text.toList.contains '\x00' then .error .badName
  else
    let pieces := (Path.pieces p.text.toList).map String.ofList
    if p.isAbsolute then t.follow ["/"] .directory (pieces.drop 1)
      else t.follow [] .directory pieces

/-- The entry that a path leads to, and its key. -/
def find (t : FileTree) (p : Path) : Except IoFault (Key × FileEntry) := do
  match ← t.locate p with
  | .taken key entry slash =>
    match entry with
    | .file _ => if slash then throw .notDirectory else return (key, entry)
    | .directory => return (key, entry)
  | .free _ _ => throw .notFound

/-- Whether a path leads to something. -/
def has (t : FileTree) (p : Path) : Bool :=
  (t.find p).toOption.isSome

/-- Whether a path leads to a directory. -/
def isDirectory (t : FileTree) (p : Path) : Bool :=
  match t.find p with
  | .ok (_, .directory) => true
  | _ => false

/-- Whether a path leads to a file. -/
def isFile (t : FileTree) (p : Path) : Bool :=
  match t.find p with
  | .ok (_, .file _) => true
  | _ => false

/-! ## Operations -/

/-- The text of contents. -/
def asText : Contents → Except IoFault String
  | .text s => .ok s
  | .bytes _ => .error .notText

/-- The text of a file. -/
def readText (t : FileTree) (p : Path) : Except IoFault String := do
  match ← t.find p with
  | (_, .file contents) => asText contents
  | (_, .directory) => throw .isDirectory

/-- Puts a file at a path; its directory has to exist. -/
def write (t : FileTree) (p : Path) (contents : Contents) : Except IoFault FileTree := do
  match ← t.locate p with
  | .taken key (.file _) slash =>
    if slash then throw .isDirectory else return t.set key (.file contents)
  | .taken _ .directory _ => throw .isDirectory
  | .free key slash => if slash then throw .isDirectory else return t.set key (.file contents)

/-- Makes a directory at a free path. -/
def makeDirectory (t : FileTree) (p : Path) : Except IoFault FileTree := do
  match ← t.locate p with
  | .taken _ (.file _) slash => throw (if slash then .notDirectory else .exists)
  | .taken _ .directory _ => throw .exists
  | .free key _ => return t.set key .directory

/-- Makes a directory and those above it that are missing; `fuel` bounds their number.
The tree is given back also when a later step fails, with what the earlier ones made. -/
def makeDirectoriesWithin : Nat → FileTree → Path → FileTree × Except IoFault Unit
  | 0, t, _ => (t, .error .notFound)
  | fuel + 1, t, p =>
    if p.isEmpty then (t, .ok ())
    else
      match t.makeDirectory p with
      | .ok made => (made, .ok ())
      | .error .notFound =>
        match p.parent? with
        | none => (t, .error .notFound)
        | some parent =>
          match makeDirectoriesWithin fuel t parent with
          | (t, .error fault) => (t, .error fault)
          | (t, .ok ()) =>
            match t.makeDirectory p with
            | .ok made => (made, .ok ())
            | .error fault => (t, if t.isDirectory p then .ok () else .error fault)
      | .error fault => (t, if t.isDirectory p then .ok () else .error fault)

/-- Makes a directory and those above it that are missing. -/
def makeDirectories (t : FileTree) (p : Path) : FileTree × Except IoFault Unit :=
  makeDirectoriesWithin (p.components.length + 2) t p

/-- Moves a file over what is at another path, unless that is a directory. -/
def rename (t : FileTree) (source target : Path) : Except IoFault FileTree := do
  match ← t.find source with
  | (_, .directory) => throw .notFound
  | (key, .file contents) =>
    match ← t.locate target with
    | .taken _ .directory _ => throw .isDirectory
    | .taken other (.file _) slash =>
      if slash then throw .notDirectory else return (t.erase key).set other (.file contents)
    | .free other slash =>
      if slash then throw .notDirectory else return (t.erase key).set other (.file contents)

/-- Removes a file. -/
def removeFile (t : FileTree) (p : Path) : Except IoFault FileTree := do
  match ← t.find p with
  | (_, .directory) => throw .isDirectory
  | (key, .file _) => return t.erase key

/-! ## Listing -/

/-- Order of keys: a directory before what is in it, and neighbours by name. -/
def keyAtMost : Key → Key → Bool
  | [], _ => true
  | _ :: _, [] => false
  | a :: as, b :: bs => if a == b then keyAtMost as bs else a < b

/-- The entries below a directory, with their names from there on, in the order of a
walk through it. -/
def below (t : FileTree) (directory : Key) : List (Key × FileEntry) :=
  ((t.entries.filter fun e => directory.isPrefixOf e.1 &&
    directory.length < e.1.length).map fun e =>
    (e.1.drop directory.length, e.2)).mergeSort fun a b => keyAtMost a.1 b.1

/-- The text of a key: its names with slashes between them. -/
def keyText (key : Key) : String :=
  Text.joinWith "/" key

end FileTree

end Classwright
