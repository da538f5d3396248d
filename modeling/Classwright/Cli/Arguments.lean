import Classwright.Path

/-!
# Arguments of the command line

A command line names a command, with options and operands in any order after it; `--`
ends the options. The arguments are read from left to right, and the first that asks for
help, asks for the version or does not fit decides (`Command.ofArguments`).
-/

namespace Classwright.Cli

/-- What the program is asked to do. -/
inductive Command where
  | init (directory : Path) (force : Bool)
  | refresh (config : Path) (force : Bool)
  | build (config : Path) (targets : List String)
  | scaffold (config : Path) (targets : List String) (force : Bool)
  | watch (config : Path) (targets : List String)
  | status (config : Path)
deriving DecidableEq, Repr, Inhabited

/-- Why arguments do not fit. -/
inductive ArgumentFault where
  | noCommand
  | unknownCommand (name : String)
  | unexpected (argument : String)
  | repeated (option : String)
  | missingValue (option : String)
deriving DecidableEq, Repr, Inhabited

/-- Why no command is run. -/
inductive Stop where
  | help
  | version
  | misuse (fault : ArgumentFault)
deriving DecidableEq, Repr, Inhabited

/-- The wording of a fault. -/
def ArgumentFault.message : ArgumentFault → String
  | .noCommand => "a command is required"
  | .unknownCommand name => "there is no command '" ++ name ++ "'"
  | .unexpected argument => "unexpected argument '" ++ argument ++ "'"
  | .repeated option => "'" ++ option ++ "' cannot be given more than once"
  | .missingValue option => "'" ++ option ++ "' needs a value"

/-- The names of the commands. -/
inductive CommandName where
  | init
  | refresh
  | build
  | scaffold
  | watch
  | status
deriving DecidableEq, Repr, Inhabited

namespace CommandName

/-- The command that a word names. -/
def ofWord? : String → Option CommandName
  | "init" => some .init
  | "refresh" => some .refresh
  | "build" => some .build
  | "scaffold" => some .scaffold
  | "watch" => some .watch
  | "status" => some .status
  | _ => none

/-- Whether a command works on the settings that `--config` names. -/
def takesConfig (c : CommandName) : Bool :=
  c != .init

/-- Whether a command can be forced. -/
def takesForce (c : CommandName) : Bool :=
  c == .init || c == .refresh || c == .scaffold

/-- Whether a command that has been given `count` operands takes another. -/
def takesOperand (c : CommandName) (count : Nat) : Bool :=
  match c with
  | .init => count == 0
  | .build => true
  | .scaffold => true
  | .watch => true
  | .refresh => false
  | .status => false

end CommandName

/-- The arguments read so far. -/
structure Draft where
  /-- The command. -/
  name : CommandName
  /-- Whether more messages were asked for. -/
  verbose : Bool := false
  /-- The value of `--config`. -/
  config? : Option String := none
  /-- Whether `--force` was given. -/
  force : Bool := false
  /-- The operands, in order. -/
  operands : List String := []
deriving Repr, Inhabited

namespace Draft

/-- Refuses to go on. -/
def refuse {α : Type} (fault : ArgumentFault) : Except Stop α :=
  .error (.misuse fault)

/-- Takes in the flag for more messages. -/
def setVerbose (d : Draft) : Except Stop Draft :=
  if d.verbose then refuse (.repeated "--verbose") else .ok { d with verbose := true }

/-- Takes in the flag that forces a command. -/
def setForce (d : Draft) : Except Stop Draft :=
  if d.force then refuse (.repeated "--force") else .ok { d with force := true }

/-- Takes in the value of `--config`, which is not empty. -/
def setConfig (d : Draft) (value : String) : Except Stop Draft :=
  if d.config?.isSome then refuse (.repeated "--config")
  else if value.isEmpty then refuse (.missingValue "--config")
  else .ok { d with config? := some value }

/-- Takes in an operand. -/
def addOperand (d : Draft) (operand : String) : Except Stop Draft :=
  if !d.name.takesOperand d.operands.length then refuse (.unexpected operand)
  else if d.name == .init && operand.isEmpty then refuse (.missingValue "PATH")
  else .ok { d with operands := d.operands ++ [operand] }

/-- Takes in a long option, and tells whether its value is still to come. -/
def addLong (d : Draft) (option : String) : Except Stop (Draft × Bool) := do
  if option == "--help" then throw .help
  else if option == "--verbose" then return (← d.setVerbose, false)
  else if option == "--force" && d.name.takesForce then return (← d.setForce, false)
  else if option == "--config" && d.name.takesConfig then return (d, true)
  else
    match Text.dropStart? "--config=".toList option.toList with
    | some value =>
      if d.name.takesConfig then return (← d.setConfig (String.ofList value), false)
      else refuse (.unexpected option)
    | none => refuse (.unexpected option)

/-- A value written right after its option, with or without an equals sign. -/
def attached (value : List Char) : String :=
  match value with
  | '=' :: rest => String.ofList rest
  | _ => String.ofList value

/-- Takes in short options written together, and tells whether a value is still to come. -/
def addShort (d : Draft) : List Char → Except Stop (Draft × Bool)
  | [] => .ok (d, false)
  | 'h' :: _ => .error .help
  | 'v' :: rest => do addShort (← d.setVerbose) rest
  | 'c' :: rest =>
    if !d.name.takesConfig then refuse (.unexpected "-c")
    else if rest.isEmpty then .ok (d, true)
    else do return (← d.setConfig (attached rest), false)
  | c :: _ => refuse (.unexpected ("-" ++ String.singleton c))

/-- Whether an argument is an option, or ends the options. -/
def isOption (argument : String) : Bool :=
  argument.length ≥ 2 && Text.startsWith "-" argument

/-- Takes in one argument, and tells whether a value is still to come. -/
def addArgument (d : Draft) (argument : String) : Except Stop (Draft × Bool) := do
  if Text.startsWith "--" argument then d.addLong argument
  else if isOption argument then d.addShort (argument.toList.drop 1)
  else return (← d.addOperand argument, false)

/-- Takes in arguments one after the other. With `waiting`, the first one is the value
of `--config`. -/
def addArguments (d : Draft) (waiting : Bool) : List String → Except Stop Draft
  | [] => if waiting then refuse (.missingValue "--config") else .ok d
  | argument :: rest =>
    if waiting then
      if isOption argument then refuse (.missingValue "--config")
      else do addArguments (← d.setConfig argument) false rest
    else if argument == "--" then rest.foldlM addOperand d
    else do
      let (d, waiting) ← d.addArgument argument
      addArguments d waiting rest

/-- The command that the arguments give. -/
def finish (d : Draft) : Command :=
  let config : Path := ⟨d.config?.getD "modgen.toml"⟩
  match d.name with
  | .init => .init ⟨d.operands.head?.getD "."⟩ d.force
  | .refresh => .refresh config d.force
  | .build => .build config d.operands
  | .scaffold => .scaffold config d.operands d.force
  | .watch => .watch config d.operands
  | .status => .status config

end Draft

/-- Takes in short options in front of the command, written together. With `verbose`,
one for more messages has been given already. -/
def shortBeforeCommand (verbose : Bool) : List Char → Except Stop Bool
  | [] => .ok verbose
  | 'h' :: _ => .error .help
  | 'V' :: _ => .error .version
  | 'v' :: rest =>
    if verbose then .error (.misuse (.repeated "-v")) else shortBeforeCommand true rest
  | c :: _ => .error (.misuse (.unexpected ("-" ++ String.singleton c)))

/-- Takes in an option in front of the command. -/
def optionBeforeCommand (verbose : Bool) (option : String) : Except Stop Bool :=
  if option == "--help" then .error .help
  else if option == "--version" then .error .version
  else if option == "--verbose" then
    if verbose then .error (.misuse (.repeated option)) else .ok true
  else if Text.startsWith "--" option then .error (.misuse (.unexpected option))
  else shortBeforeCommand verbose (option.toList.drop 1)

/-- Whether words name a command, or none, to be helped with. -/
def areHelpTopics : List String → Bool
  | [] => true
  | [word] => word == "help" || (CommandName.ofWord? word).isSome
  | _ => false

/-- Reads arguments up to the command, and then those of the command. -/
def commandAfter (verbose : Bool) : List String → Except Stop Command
  | [] => .error (.misuse .noCommand)
  | word :: rest =>
    if Draft.isOption word then do commandAfter (← optionBeforeCommand verbose word) rest
    else if word == "help" then
      .error (if areHelpTopics rest then .help else .misuse (.unknownCommand (rest.headD "")))
    else
      match CommandName.ofWord? word with
      | none => .error (.misuse (.unknownCommand word))
      | some name => do
        let draft : Draft := { name := name }
        return (← draft.addArguments false rest).finish

/-- The command that arguments give. -/
def Command.ofArguments (arguments : List String) : Except Stop Command :=
  commandAfter false arguments

end Classwright.Cli
