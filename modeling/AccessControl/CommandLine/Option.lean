import AccessControl.CommandLine.Command

/-!
# Options of the command line

An option is written by its name behind two hyphens, and some by a letter behind one.  Each level of
a command line, the program and the command it is told to run, knows options of its own; the options
for the circumstances of a run are known at both.
-/

namespace AccessControl

/-- The options of all levels. -/
inductive OptionName where
  | config
  | memory
  | seed
  | user
  | resource
  | resourceType
  | action
  | method
  | role
  | actions
  | help
  | version
  deriving DecidableEq, Repr

namespace OptionName

/-- The written name of an option. -/
def text : OptionName → String
  | config => "config"
  | memory => "memory"
  | seed => "seed"
  | user => "user"
  | resource => "resource"
  | resourceType => "type"
  | action => "action"
  | method => "method"
  | role => "role"
  | actions => "actions"
  | help => "help"
  | version => "version"

/-- The letter that also stands for an option. -/
def letter? : OptionName → Option Char
  | config => some 'c'
  | help => some 'h'
  | version => some 'V'
  | _ => none

/-- What help calls the value of an option, if it takes one. -/
def placeholder? : OptionName → Option String
  | config => some "CONFIG"
  | seed => some "SEED"
  | user => some "USER"
  | resource => some "RESOURCE"
  | resourceType => some "RESOURCE_TYPE"
  | action => some "ACTION"
  | method => some "METHOD"
  | role => some "ROLE"
  | actions => some "ACTIONS"
  | memory | help | version => none

/-- Whether an option takes a value. -/
def takesValue (option : OptionName) : Bool := option.placeholder?.isSome

end OptionName

/-- A level of a command line: what stands before the name of a command, and what stands after
it. -/
inductive Level where
  | program
  | command (name : CommandName)
  deriving DecidableEq, Repr

namespace Level

/-- The options that a level knows, in the order in which help lists them. -/
def options : Level → List OptionName
  | program => [.config, .memory, .seed, .help, .version]
  | command .check =>
    [.config, .user, .memory, .resourceType, .action, .seed, .method, .resource, .help]
  | command .grant | command .update =>
    [.config, .user, .memory, .resource, .seed, .resourceType, .actions, .help]
  | command .revoke => [.config, .user, .memory, .resource, .seed, .help]
  | command .setRole => [.config, .user, .memory, .role, .seed, .help]
  | command .setPolicy => [.config, .role, .memory, .resourceType, .actions, .seed, .help]
  | command .list => [.config, .user, .memory, .seed, .help]
  | command .stats => [.config, .memory, .seed, .help]

/-- The options that have to be given, whatever else is given. -/
def required : Level → List OptionName
  | command .check => [.user, .resourceType]
  | command .grant | command .update => [.user, .resource, .resourceType, .actions]
  | command .revoke => [.user, .resource]
  | command .setRole => [.user, .role]
  | command .setPolicy => [.role, .resourceType]
  | program | command .list | command .stats => []

/-- The option that a name stands for at a level. -/
def optionNamed? (level : Level) (name : String) : Option OptionName :=
  level.options.find? fun option => option.text = name

/-- The option that a letter stands for at a level. -/
def optionLettered? (level : Level) (letter : Char) : Option OptionName :=
  level.options.find? fun option => option.letter? = some letter

end Level

end AccessControl
