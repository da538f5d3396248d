import Classwright.Cli.Run

/-!
# The program

Reads the files below the working directory, carries out the command line, prints its
lines and writes back the files that have changed. There is no access to the network. A
run that waits for changes ends with its standard input.
-/

namespace Classwright.Program

/-- The files below a directory, with their names from the working directory on. -/
partial def snapshot (key : Key) (entries : Array IO.FS.DirEntry) :
    IO (List (Key × FileEntry)) := do
  let mut found : List (Key × FileEntry) := []
  for entry in entries do
    let key := key ++ [entry.fileName]
    if ← entry.path.isDir then
      found := found ++ (key, .directory) :: (← snapshot key (← entry.path.readDir))
    else
      let bytes ← IO.FS.readBinFile entry.path
      found := found ++ [(key, .file (.ofBytes bytes.toList))]
  return found

/-- Writes the entries that have changed, and removes the files that are gone. -/
def save (before after : FileTree) : IO Unit := do
  for (key, entry) in after.entries do
    if before.get? key != some entry then
      match entry with
      | .directory => IO.FS.createDirAll (FileTree.keyText key)
      | .file contents => IO.FS.writeBinFile (FileTree.keyText key) contents.toBytes.toByteArray
  for (key, entry) in before.entries do
    if entry != .directory && (after.get? key).isNone then IO.FS.removeFile (FileTree.keyText key)

/-- Prints lines. A timed one ends with the time since the start of the run. -/
def print (start : Nat) (lines : List Cli.Line) : IO Unit := do
  for line in lines do
    match line with
    | .text s => IO.println s
    | .timed s => IO.println (s ++ " in " ++ toString ((← IO.monoMsNow) - start) ++ "ms")
  (← IO.getStdout).flush

/-- Reads the standard input to its end. -/
partial def awaitEnd (input : IO.FS.Stream) : IO Unit := do
  unless (← input.getLine).isEmpty do awaitEnd input

/-- Reports how a run ended. -/
def report : Cli.Ending → IO Unit
  | .failed failure => do
    IO.eprintln ("Error: " ++ failure.code)
    IO.eprintln ("  " ++ failure.message)
    match failure.help? with
    | some help => IO.eprintln ("  help: " ++ help)
    | none => pure ()
  | .misused fault => IO.eprintln ("error: " ++ fault.message)
  | .waiting => do
    awaitEnd (← IO.getStdin)
    print 0 Cli.watchEnd
  | .done => pure ()

/-- Runs the program and gives its exit status. -/
def run (arguments : List String) : IO UInt32 := do
  let start ← IO.monoMsNow
  let before : FileTree := ⟨← snapshot [] (← (← IO.currentDir).readDir)⟩
  let result := Cli.run .offline before arguments
  save before result.files
  print start result.lines
  report result.ending
  return result.ending.status.toUInt32

end Classwright.Program

/-- The program. -/
def main (arguments : List String) : IO UInt32 :=
  Classwright.Program.run arguments
