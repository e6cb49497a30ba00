import AccessControl.CommandLine.Reader

/-!
# Help

Help about a level says what it is for, how it is written, which commands there are and which
options it knows.  The explanations stand in a column of their own, each on one line however long.
-/

namespace AccessControl

/-- The name under which the program is run. -/
def programName : String := "aclgate"

/-- What the program says about its version. -/
def versionText : String := programName ++ " 0.1.0\n"

/-- What a command is for, if that needs to be said. -/
def CommandName.about : CommandName → String
  | check => "Decide a single access request"
  | list => "List stored grants"
  | stats => "Print policy cache counters after warm-up"
  | grant | update | revoke | setRole | setPolicy => ""

/-- What an option is for, if that needs to be said. -/
def OptionName.about (level : Level) : OptionName → String
  | memory => "Use a process-local store instead of Postgres"
  | seed => "TOML fixture of users, grants and role policies to load into the in-memory store"
  | method => "HTTP verb to derive the action from"
  | resource => if level = .command .check then "Omit for a type-scoped check" else ""
  | help => "Print help"
  | version => "Print version"
  | config | user | resourceType | action | role | actions => ""

namespace Help

/-- So many spaces. -/
def spaces (count : Nat) : String := String.ofList (List.replicate count ' ')

/-- A name in a column of `column` characters behind an indent, and an explanation beside it. -/
def row (indent name : String) (column : Nat) (about : String) : String :=
  indent ++ name ++ spaces (column + 2 - name.length) ++ about ++ "\n"

/-- The width of a column that holds the given names. -/
def column (names : List String) : Nat := (names.map String.length).foldl max 2

/-- An option as it is written, with its value. -/
def optionText (option : OptionName) : String :=
  "--" ++ option.text ++ (option.placeholder?.elim "" fun name => " <" ++ name ++ ">")

/-- What stands before the name of an option: its letter, if it has one. -/
def optionIndent (option : OptionName) : String :=
  option.letter?.elim "      " fun letter => "  -" ++ String.singleton letter ++ ", "

/-- The options that a level knows. -/
def optionRows (level : Level) : String :=
  let width := column (level.options.map optionText)
  "Options:\n" ++ String.join (level.options.map fun option =>
    row (optionIndent option) (optionText option) width (option.about level))

/-- What the word `help` is for. -/
def helpAbout : String := "Print this message or the help of the given subcommand(s)"

/-- The commands of the program. -/
def commandRows : String :=
  let entries := (CommandName.all.map fun name => (name.text, name.about)) ++ [("help", helpAbout)]
  let width := column (entries.map Prod.fst)
  "Commands:\n" ++ String.join (entries.map fun entry => row "  " entry.1 width entry.2)

/-- What a level is for. -/
def about : Level → String
  | .program => "ACL authorization with a write-through policy cache"
  | .command name => name.about

/-- How a level is written. -/
def usage (level : Level) : String :=
  "Usage: " ++ programName ++
    (match level with
      | .program => " [OPTIONS] <COMMAND>"
      | .command name => " " ++ name.text ++ " [OPTIONS]") ++
    String.join (level.required.map fun option => " " ++ optionText option) ++ "\n"

/-- Help about a level. -/
def levelText (level : Level) : String :=
  (if (about level).isEmpty then "" else about level ++ "\n\n") ++ usage level ++ "\n" ++
    (if level = .program then commandRows ++ "\n" else "") ++ optionRows level

/-- Help about a topic. -/
def text : HelpTopic → String
  | .level level => levelText level
  | .help =>
    helpAbout ++ "\n\nUsage: " ++ programName ++ " help [COMMAND]...\n\nArguments:\n" ++
      "  [COMMAND]...  Print help for the subcommand(s)\n"

end Help

end AccessControl
