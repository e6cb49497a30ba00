import AccessControl.Rule

/-!
# Commands

A command is one request to a service, or the wish to see the cache's counters.
-/

namespace AccessControl

/-- The names of the commands. -/
inductive CommandName where
  | check
  | grant
  | update
  | revoke
  | setRole
  | setPolicy
  | list
  | stats
  deriving DecidableEq, Repr

namespace CommandName

/-- Every command, in the order in which help lists them. -/
def all : List CommandName :=
  [check, grant, update, revoke, setRole, setPolicy, list, stats]

/-- The written name of a command. -/
def text : CommandName → String
  | check => "check"
  | grant => "grant"
  | update => "update"
  | revoke => "revoke"
  | setRole => "set-role"
  | setPolicy => "set-policy"
  | list => "list"
  | stats => "stats"

/-- The command of a written name. -/
def ofText? (text : String) : Option CommandName := all.find? fun name => name.text = text

theorem mem_all (name : CommandName) : name ∈ all := by cases name <;> decide

end CommandName

/-- What a check asks for: an action, or what the method of a request stands for. -/
inductive Demand where
  | action (action : Action)
  | method (method : String)
  deriving DecidableEq, Repr

/-- What the program is asked to do. -/
inductive Command where
  /-- Decides a check: on the resource that a text stands for, or on the whole type. -/
  | check (user : UserId) (resourceType : ResourceType) (demand : Demand)
    (resource : Option String)
  | grant (user : UserId) (resource : ResourceId) (resourceType : ResourceType)
    (actions : List Action)
  | update (user : UserId) (resource : ResourceId) (resourceType : ResourceType)
    (actions : List Action)
  | revoke (user : UserId) (resource : ResourceId)
  | setRole (user : UserId) (role : Role)
  | setPolicy (role : Role) (resourceType : ResourceType) (actions : List Action)
  | list (user : Option UserId)
  | stats
  deriving DecidableEq

/-- The name of a command. -/
def Command.name : Command → CommandName
  | check .. => .check
  | grant .. => .grant
  | update .. => .update
  | revoke .. => .revoke
  | setRole .. => .setRole
  | setPolicy .. => .setPolicy
  | list .. => .list
  | stats => .stats

/-- A command and the circumstances in which it is to be run. -/
structure Invocation where
  /-- The path of a configuration. -/
  config : Option String := none
  /-- Whether the store is one in memory. -/
  memory : Bool := false
  /-- The path of a fixture for the store in memory. -/
  seed : Option String := none
  command : Command
  deriving DecidableEq

end AccessControl
