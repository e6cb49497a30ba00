import AccessControl.CommandLine.Option
import AccessControl.Identifier.Reader

/-!
# Reading a command line

The arguments are read from the left.  The value of an option follows it as the next argument, or
is attached to it; it is looked at when the next option begins or the arguments end, so that an
argument that does not belong there is noticed before a bad value right in front of it.  After the
name of a command only the options of that command are known.
-/

namespace AccessControl

/-- What is wrong with a command line. -/
inductive UsageFault where
  /-- A value that its option cannot have. -/
  | rejectedValue
  /-- An option without its value. -/
  | missingValue
  /-- An option that takes no value, with one. -/
  | unexpectedValue
  | unknownArgument
  | unknownCommand
  /-- Two options that exclude each other, or one option twice. -/
  | conflict
  | missingArgument
  | missingCommand
  /-- There are no arguments. -/
  | nothingGiven
  deriving DecidableEq, Repr

/-- What help can be asked about. -/
inductive HelpTopic where
  | level (level : Level)
  | help
  deriving DecidableEq, Repr

/-- Why a command line asks for no command to be run. -/
inductive Stop where
  | refused (fault : UsageFault)
  | help (topic : HelpTopic)
  | version
  deriving DecidableEq, Repr

/-- The value of an option. -/
inductive OptionValue where
  | flag
  | text (value : String)
  | identifier (value : Identifier)
  | resourceType (value : ResourceType)
  | action (value : Action)
  | actions (value : List Action)
  | role (value : Role)
  deriving DecidableEq

/-- The options given at one level, with their values. -/
abbrev Given := List (OptionName × OptionValue)

namespace Given

/-- Whether an option is given. -/
def has (given : Given) (option : OptionName) : Bool := (given.lookup option).isSome

/-- The text given with an option. -/
def text? (given : Given) (option : OptionName) : Option String :=
  match given.lookup option with
  | some (.text value) => some value
  | _ => none

/-- The identifier given with an option. -/
def identifier? (given : Given) (option : OptionName) : Option Identifier :=
  match given.lookup option with
  | some (.identifier value) => some value
  | _ => none

/-- The user that is given. -/
def user? (given : Given) : Option UserId := (given.identifier? .user).map UserId.mk

/-- The resource that is given by its identifier. -/
def resource? (given : Given) : Option ResourceId :=
  (given.identifier? .resource).map ResourceId.mk

/-- The resource type that is given. -/
def resourceType? (given : Given) : Option ResourceType :=
  match given.lookup .resourceType with
  | some (.resourceType value) => some value
  | _ => none

/-- The role that is given. -/
def role? (given : Given) : Option Role :=
  match given.lookup .role with
  | some (.role value) => some value
  | _ => none

/-- The actions that are given, in their order and as often as they are given. -/
def actions? (given : Given) : Option (List Action) :=
  match given.lookup .actions with
  | some (.actions value) => some value
  | _ => none

/-- What a check asks for. -/
def demand? (given : Given) : Option Demand :=
  match given.lookup .action with
  | some (.action value) => some (.action value)
  | _ => (given.text? .method).map Demand.method

end Given

namespace CommandLine

/-- Ends the reading with a fault. -/
def refuse {α : Type} (fault : UsageFault) : Except Stop α := .error (.refused fault)

/-- A value that was read, or the fault of a rejected one. -/
def accepted {ε α : Type} : Except ε α → Except Stop α
  | .ok value => .ok value
  | .error _ => refuse .rejectedValue

/-- Reads the value of an option.  A check takes any text for a resource; a path is never empty. -/
def readValue (level : Level) (option : OptionName) (text : String) :
    Except Stop OptionValue :=
  match option with
  | .memory | .help | .version => .ok .flag
  | .config | .seed => if text.isEmpty then refuse .missingValue else .ok (.text text)
  | .method => .ok (.text text)
  | .user => (accepted (Identifier.read text)).map .identifier
  | .resource =>
    if level = .command .check then .ok (.text text)
    else (accepted (Identifier.read text)).map .identifier
  | .resourceType => (accepted (ResourceType.ofName text)).map .resourceType
  | .action => (accepted (Action.ofName text)).map .action
  | .actions => (accepted ((text.splitOn ",").mapM Action.ofName)).map .actions
  | .role => (accepted (Role.ofName text)).map .role

/-- Adds an option and its value to those given.  Only actions may be given more than once. -/
def addOption (level : Level) (given : Given) (option : OptionName) (text : String) :
    Except Stop Given := do
  if given.has option && option ≠ .actions then refuse .conflict
  else
    match given.actions?, ← readValue level option text with
    | some earlier, .actions later =>
      return (option, .actions (earlier ++ later)) :: given.filter fun entry => entry.1 ≠ option
    | _, value => return given ++ [(option, value)]

/-- How far the arguments of one level have been read. -/
structure Progress where
  given : Given := []
  /-- The option read last, and its value once that has come. -/
  pending : Option (OptionName × Option String) := none
  /-- Whether a lone pair of hyphens has been read, after which there are no more options. -/
  escaped : Bool := false

namespace Progress

/-- Whether the next argument is the value of an option, if it looks like one. -/
def awaitsValue (progress : Progress) : Bool := progress.pending.any fun option => option.2.isNone

/-- Looks at the option read last. -/
def settle (level : Level) (progress : Progress) : Except Stop Progress :=
  match progress.pending with
  | none => .ok progress
  | some (_, none) => refuse .missingValue
  | some (option, some text) => do
    let given ← addOption level progress.given option text
    return { progress with given, pending := none }

/-- Reads an option, with the value that is attached to it. -/
def takeOption (level : Level) (progress : Progress) (option : OptionName)
    (attached : Option String) : Except Stop Progress :=
  match option.takesValue, attached with
  | false, some _ => refuse .unexpectedValue
  | true, none => do
    return { ← progress.settle level with pending := some (option, none) }
  | _, _ => do
    let progress ← progress.settle level
    match option with
    | .help => .error (.help (.level level))
    | .version => .error .version
    | _ =>
      let given ← addOption level progress.given option (attached.getD "")
      return { progress with given }

end Progress

/-- What an argument looks like. -/
inductive Shape where
  | word
  /-- A lone pair of hyphens. -/
  | escape
  | long (name : String) (attached : Option String)
  | short (letter : Char) (attached : Option String)
  deriving DecidableEq, Repr

/-- What follows the letter of an option, if anything does; an equals sign may stand before it. -/
def attachedToLetter : List Char → Option String
  | [] => none
  | '=' :: rest => some (String.ofList rest)
  | rest => some (String.ofList rest)

/-- What follows the name of an option, if anything does. -/
def attachedToName : List Char → Option String
  | [] => none
  | _ :: rest => some (String.ofList rest)

/-- What an argument looks like. -/
def Shape.ofArgument (argument : String) : Shape :=
  match argument.toList with
  | ['-', '-'] => .escape
  | '-' :: '-' :: rest =>
    let (name, rest) := rest.span (· ≠ '=')
    .long (String.ofList name) (attachedToName rest)
  | '-' :: letter :: rest => .short letter (attachedToLetter rest)
  | _ => .word

/-- What help is asked for by the arguments after the word `help`. -/
def helpTopic : List String → Stop
  | [] => .help (.level .program)
  | [name] =>
    match CommandName.ofText? name with
    | some name => .help (.level (.command name))
    | none => if name = "help" then .help .help else .refused .unknownCommand
  | _ => .refused .unknownCommand

/-- Whether a word stands for something to do at a level. -/
def isCommand (level : Level) (word : String) : Bool :=
  level = .program && (word = "help" || (CommandName.ofText? word).isSome)

/-- The fault of an argument that belongs to nothing. -/
def surplusFault (level : Level) (progress : Progress) (argument : String) : UsageFault :=
  if level = .program ∧ ¬ (progress.escaped ∧ isCommand level argument) then .unknownCommand
  else .unknownArgument

/-- Reads an argument that is not the name of a command. -/
def readArgument (level : Level) (progress : Progress) (argument : String) :
    Except Stop Progress :=
  if progress.escaped then refuse (surplusFault level progress argument)
  else
    match Shape.ofArgument argument with
    | .escape => .ok { progress with escaped := true }
    | .long name attached =>
      match level.optionNamed? name with
      | some option => progress.takeOption level option attached
      | none => refuse .unknownArgument
    | .short letter attached =>
      match level.optionLettered? letter with
      | some option =>
        progress.takeOption level option (if option.takesValue then attached else none)
      | none => refuse .unknownArgument
    | .word =>
      match progress.pending with
      | some (option, none) => .ok { progress with pending := some (option, some argument) }
      | _ => refuse (surplusFault level progress argument)

/-- Reads the arguments of a level, up to the name of a command.  The result is how far that came,
and the command with the arguments after it. -/
def readLevel (level : Level) (progress : Progress) :
    List String → Except Stop (Progress × Option (CommandName × List String))
  | [] => .ok (progress, none)
  | argument :: rest =>
    if isCommand level argument && !progress.escaped && !progress.awaitsValue then
      match CommandName.ofText? argument with
      | some name => .ok (progress, some (name, rest))
      | none => .error (helpTopic rest)
    else do readLevel level (← readArgument level progress argument) rest

/-- The command that is given by a name and options, if nothing is missing. -/
def command? (name : CommandName) (given : Given) : Option Command :=
  match name with
  | .check => do
    return .check (← given.user?) (← given.resourceType?) (← given.demand?) (given.text? .resource)
  | .grant => do
    return .grant (← given.user?) (← given.resource?) (← given.resourceType?) (← given.actions?)
  | .update => do
    return .update (← given.user?) (← given.resource?) (← given.resourceType?) (← given.actions?)
  | .revoke => do return .revoke (← given.user?) (← given.resource?)
  | .setRole => do return .setRole (← given.user?) (← given.role?)
  | .setPolicy => do
    return .setPolicy (← given.role?) (← given.resourceType?) (given.actions?.getD [])
  | .list => some (.list given.user?)
  | .stats => some .stats

/-- A fixture is only of use to a store in memory, asked for at the same level. -/
def checkSeed (given : Given) : Except Stop Unit :=
  if given.has .seed && !given.has .memory then refuse .missingArgument else .ok ()

/-- Reads the arguments after the name of a command. -/
def readCommand (name : CommandName) (arguments : List String) :
    Except Stop (Command × Given) := do
  let level := Level.command name
  let (progress, _) ← readLevel level {} arguments
  let given := (← progress.settle level).given
  if given.has .action && given.has .method then refuse .conflict
  match command? name given with
  | none => refuse .missingArgument
  | some command =>
    checkSeed given
    return (command, given)

/-- Reads the arguments of the program.  What is given after the name of the command goes before
what is given in front of it. -/
def read (arguments : List String) : Except Stop Invocation := do
  let (progress, rest) ← readLevel .program {} arguments
  let command ← rest.mapM fun (name, arguments) => readCommand name arguments
  let given := (← progress.settle .program).given
  match command with
  | none => refuse (if given.isEmpty then .nothingGiven else .missingCommand)
  | some (command, inner) =>
    checkSeed given
    return {
      config := inner.text? .config <|> given.text? .config
      memory := inner.has .memory || given.has .memory
      seed := inner.text? .seed <|> given.text? .seed
      command }

end CommandLine

end AccessControl
