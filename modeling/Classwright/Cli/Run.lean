import Classwright.Build
import Classwright.Cli.Arguments
import Classwright.Cli.Screen

/-!
# Running commands

A command works on files and the network and prints lines. What it has printed and
written before it fails stays. `run` carries out a command line and gives all that can
be seen of it.
-/

namespace Classwright.Cli

open Screen

/-- The files and requests of a run, and the lines that it has printed. -/
structure Terminal where
  /-- The files and requests. -/
  session : Schema.Session
  /-- The lines, the first one first. -/
  lines : List Line := []
deriving Inhabited

/-- An action that can also print. -/
abbrev TerminalAction (α : Type) := ExceptT Failure (StateM Terminal) α

namespace TerminalAction

variable {α : Type}

/-- Prints lines. -/
def print (lines : List Line) : TerminalAction Unit :=
  fun t => (.ok (), { t with lines := t.lines ++ lines })

/-- An action that prints nothing. -/
def quietly (a : Schema.SessionAction α) : TerminalAction α :=
  fun t =>
    let (result, session) := a.run t.session
    (result, { t with session := session })

/-- An action on files that prints nothing. -/
def onFiles (a : FileAction α) : TerminalAction α :=
  quietly (Schema.SessionAction.onFiles a)

/-- A result that is already there. -/
def give (result : Outcome α) : TerminalAction α :=
  fun t => (result, t)

end TerminalAction

open TerminalAction

/-- Reads the project in a directory or with a file of settings. -/
def loadConfig (path : Path) : TerminalAction Config :=
  onFiles (FileAction.look fun t => Config.load t path)

/-- A path as it is shown: from the directory of the project on, if it is in there. -/
def shownIn (root path : Path) : String :=
  ((path.stripStart? root).getD path).text

/-- The directories of fragments of the targets with the given names, as they are shown. -/
def fragmentDirsShown (c : Config) : List String → Outcome (List String)
  | [] => .ok []
  | name :: rest => do
    let target ← c.target name
    return target.fragmentDirs.all.map (shownIn c.root) ++ (← fragmentDirsShown c rest)

/-- Starts a project. -/
def init (directory : Path) (force : Bool) : TerminalAction Unit := do
  print [boxTop (diamond ++ " Setting up modgen"), boxLine "", boxBottom, blank]
  let config ← onFiles (Config.init directory force)
  let directories ← give (fragmentDirsShown config config.targetNames)
  print [success "Done. Here's what you got:", blank, treeRoot config.root.text,
    treeEntry directories.isEmpty "modgen.toml" (some "Schema source and targets")]
  print (tree (directories.map (· ++ "/")))
  print divider
  print (box (arrow ++ " What's Next") [
    "   modgen refresh   download the schema",
    "   modgen build     generate every target",
    "   modgen scaffold  write the base classes once"])

/-- What is said of a document, by how it was obtained. -/
def loadedLine (counts : String) : Schema.Origin → Line
  | .file => note ("Local schema, nothing to cache (" ++ counts ++ ")")
  | .download => success ("Downloaded schema (" ++ counts ++ ")")
  | .cache => success ("Cached schema is current (" ++ counts ++ ")")
  | .staleCache => note ("Could not refresh, kept the cached schema (" ++ counts ++ ")")

/-- Updates the cached document. -/
def refresh (n : Schema.Network) (path : Path) (force : Bool) : TerminalAction Unit := do
  let config ← loadConfig path
  let loaded ← quietly (config.loader.load n force)
  let d := loaded.document
  let counts := counted d.objects.size "object" ++ ", " ++
    counted d.methodCount "method" ++ " in " ++
    counted d.components.size "namespace"
  print [loadedLine counts loaded.origin]

/-- The lines of built targets. -/
def reportLines (reports : List TargetReport) : List Line :=
  reports.map fun r => targetLine r.target r.language r.filesWritten

/-- The numbers of entities, as they are shown. -/
def entityCounts (objects components results : Nat) : String :=
  counted objects "object" ++ ", " ++ counted components "component" ++ ", " ++
    counted results "result"

/-- Builds targets. -/
def build (n : Schema.Network) (path : Path) (targets : List String) : TerminalAction Unit := do
  let config ← loadConfig path
  let reports ← quietly (config.build n targets)
  print (reportLines reports ++ [blank])
  match reports.head? with
  | some r => print [remark (entityCounts r.objects r.components r.results ++ " per target")]
  | none => pure ()
  print [timing ("Wrote " ++ counted (filesWritten reports) "file"), success "Done."]

/-- The lines of the base classes of a target. -/
def scaffoldLines (root : Path) (s : Scaffold) : List Line :=
  targetLine s.target s.language s.files.length :: tree (s.files.map (shownIn root))

/-- Writes base classes. -/
def scaffold (path : Path) (targets : List String) (force : Bool) : TerminalAction Unit := do
  let config ← loadConfig path
  let scaffolds ← onFiles (config.scaffold targets force)
  print (scaffolds.flatMap (scaffoldLines config.root))
  print [blank,
    success "Base classes written. They are yours to edit; `modgen build` leaves them alone."]

/-- The state of the document, as it is shown. -/
def stateShown (s : Schema.Status) : String :=
  match s.isCached, s.stamp? with
  | true, some stamp => filled ++ " cached, " ++ stamp
  | true, none => filled ++ " available"
  | false, _ => diamond ++ " missing"

/-- The lines about the source of the document. -/
def statusLines (s : Schema.Status) : List String :=
  ["source   " ++ s.source] ++ (s.cachePath?.toList.map fun p => "cache    " ++ p.text) ++
    ["state    " ++ stateShown s]

/-- What is said of the document that is there without a request. -/
def documentLine (c : Config) (document : Outcome Schema.Document) : Line :=
  match document with
  | .ok d =>
    let m := c.model d
    note (entityCounts m.objects.length m.components.length m.results.length)
  | .error _ => note "No schema available yet. Run `modgen refresh`."

/-- Prints a line for each target. -/
def printTargets (c : Config) : List String → TerminalAction Unit
  | [] => pure ()
  | name :: rest => do
    let target ← give (c.target name)
    print [boxLine (triangle ++ " " ++ padded 16 target.name ++ " " ++ target.backend.name)]
    printTargets c rest

/-- Shows the state of the cache and the targets. -/
def status (path : Path) : TerminalAction Unit := do
  let config ← loadConfig path
  let state ← onFiles (FileAction.look config.loader.status)
  print (box "SCHEMA" (statusLines state) ++ [blank])
  let document ← quietly
    (Schema.SessionAction.attempt (Schema.SessionAction.onFiles config.loader.loadCached))
  print [documentLine config document, blank]
  print [boxTop "TARGETS", boxLine ""]
  printTargets config config.targetNames
  print [boxLine "", boxBottom]

/-- What is said of a build while watching. -/
def watchReport : Outcome (List TargetReport) → List Line
  | .ok reports =>
    reportLines reports ++ [timing ("Generated " ++ toString (filesWritten reports) ++ " files")]
  | .error f => [failure f.message]

/-- Builds targets once and is then ready for changes. -/
def watch (n : Schema.Network) (path : Path) (targets : List String) : TerminalAction Unit := do
  let config ← loadConfig path
  print [note ("Watching " ++ config.path.text), blank]
  let result ← quietly (Schema.SessionAction.attempt (config.build n targets))
  print (watchReport result)
  print [note "Ready! Waiting for changes..."]

/-- Carries out a command. -/
def perform (n : Schema.Network) : Command → TerminalAction Unit
  | .init directory force => init directory force
  | .refresh config force => refresh n config force
  | .build config targets => build n config targets
  | .scaffold config targets force => scaffold config targets force
  | .watch config targets => watch n config targets
  | .status config => status config

/-! ## Command lines -/

/-- How a run ends: as it should, with a failure, with arguments that do not fit, or
only when it is interrupted. -/
inductive Ending where
  | done
  | failed (failure : Failure)
  | misused (fault : ArgumentFault)
  | waiting
deriving DecidableEq, Repr

/-- The exit status of an ending. -/
def Ending.status : Ending → Nat
  | .done => 0
  | .failed _ => 1
  | .misused _ => 2
  | .waiting => 0

/-- All that can be seen of a run. -/
structure Result where
  /-- The files after the run. -/
  files : FileTree
  /-- The lines printed. -/
  lines : List Line
  /-- How the run ended. -/
  ending : Ending

/-- The lines that are printed when a waiting run is interrupted. -/
def watchEnd : List Line :=
  [blank, remark "Stopping watch mode."]

/-- The run, interrupted if it is waiting. -/
def Result.interrupted (r : Result) : Result :=
  match r.ending with
  | .waiting => { r with lines := r.lines ++ watchEnd, ending := .done }
  | _ => r

/-- The line that tells the version. -/
def versionLine : Line :=
  .text "modgen 0.1.0"

/-- The lines that tell how the program is used. -/
def helpLines : List Line := [
  .text "modgen - generates client models from the newgrounds.io schema",
  .text "",
  .text "Usage: modgen [OPTIONS] <COMMAND>",
  .text "",
  .text "Commands:",
  .text "  init      Write a starter modgen.toml and its partial directories",
  .text "  refresh   Update the cached schema document",
  .text "  build     Generate model classes",
  .text "  scaffold  Write the base classes the generated models extend",
  .text "  watch     Rebuild whenever the config, a partial or a local schema changes",
  .text "  status    Show the schema cache and the configured targets",
  .text "  help      Print this message or the help of the given subcommand(s)",
  .text "",
  .text "Options:",
  .text "  -v, --verbose  Show debug logs on stderr",
  .text "  -h, --help     Print help",
  .text "  -V, --version  Print version"]

/-- Whether a command goes on until it is interrupted. -/
def Command.isEndless : Command → Bool
  | .watch _ _ => true
  | _ => false

/-- Carries out a command on files. -/
def runCommand (n : Schema.Network) (files : FileTree) (c : Command) : Result :=
  let (outcome, terminal) := perform n c { session := { files := files } }
  match outcome with
  | .ok () => ⟨terminal.session.files, terminal.lines, if c.isEndless then .waiting else .done⟩
  | .error f => ⟨terminal.session.files, terminal.lines, .failed f⟩

/-- Carries out a command line on files. -/
def run (n : Schema.Network) (files : FileTree) (arguments : List String) : Result :=
  match Command.ofArguments arguments with
  | .ok command => runCommand n files command
  | .error .help => ⟨files, helpLines, .done⟩
  | .error .version => ⟨files, [versionLine], .done⟩
  | .error (.misuse fault) => ⟨files, [], .misused fault⟩

end Classwright.Cli
