import AccessControl.Cache.Scope
import AccessControl.Service

/-!
# What a step of a simulation replies

One type holds the results of every kind of step, so that the calls of all layers can wait side by
side.
-/

namespace AccessControl

/-- The value of a step that succeeds. -/
inductive ReplyValue where
  | nothing
  | count (n : Nat)
  | flag (value : Bool)
  | text (value : String)
  | name (value : Option String)
  | version (value : FactVersion)
  /-- Rules in the order of a listing. -/
  | rules (rules : List Rule)
  /-- Roles ordered by user. -/
  | roles (roles : List (UserId × Role))
  deriving DecidableEq, Repr

/-- Why a step failed. -/
inductive ReplyError where
  | storage (error : StorageError)
  | engine (error : EngineError)
  | service (error : ServiceError)
  deriving DecidableEq, Repr

/-- What a step replies. -/
abbrev Reply := Except ReplyError ReplyValue

namespace ReplyValue

/-- The rows of a table of roles, ordered by user. -/
def rolesByUser (roles : Table UserId Role) : List (UserId × Role) :=
  roles.rows.mergeSort fun left right => decide (left.1.id ≤ right.1.id)

/-- The reply of a store that fulfils a request. -/
def ofStore : (request : StoreRequest) → request.Reply → ReplyValue
  | .create .., _ => nothing
  | .update .., touched => count touched
  | .delete .., _ => nothing
  | .validateAccess _, _ => nothing
  | .validateAccessToType _, _ => nothing
  | .allPermissions, found => rules (Service.listing none found)
  | .allUserRoles, found => roles (rolesByUser found)
  | .syncUserRole .., _ => nothing
  | .putRolePolicy .., _ => nothing
  | .commit, _ => nothing
  | .rollback, _ => nothing

/-- The reply of the engine to a request. -/
def ofEngine : (request : EngineRequest) → request.Reply → ReplyValue
  | .addFact .., added => flag added
  | .version .., value => version value
  | .addFactIfCurrent .., added => flag added
  | .removeFacts .., removed => count removed
  | .clearObject .., removed => count removed
  | .replaceFacts .., _ => nothing
  | .replaceFactsIfCurrent .., replaced => flag replaced
  | .setRole .., _ => nothing
  | .roleVersion .., value => version value
  | .setRoleIfCurrent .., recorded => flag recorded
  | .check .., allowed => flag allowed
  | .roleOf .., role => name (role.map Role.name)
  | .actionsFor .., actions => text actions.text
  | .factCount, facts => count facts

end ReplyValue

namespace Reply

/-- The answer of a store as a reply. -/
def ofStore (request : StoreRequest) (answer : request.Answer) : Reply :=
  match answer with
  | .ok value => .ok (.ofStore request value)
  | .error error => .error (.storage error)

/-- The answer of the engine as a reply. -/
def ofEngine (request : EngineRequest) (answer : Except EngineError request.Reply) : Reply :=
  match answer with
  | .ok value => .ok (.ofEngine request value)
  | .error error => .error (.engine error)

end Reply

/-- How a call of any layer ends: its reply, the changes it reports, and what the engine is to be
told when the transaction is committed. -/
structure Ending where
  reply : Reply
  events : List AuditEvent := []
  deferred : List EngineUpdate := []

namespace Ending

/-- The end of a call that only answers a request to a store. -/
def ofStore (request : StoreRequest) (answer : request.Answer) : Ending :=
  { reply := .ofStore request answer }

/-- The end of a call inside a transaction. -/
def ofScoped (request : StoreRequest) (ended : ScopedResult request.Reply) : Ending :=
  { reply := .ofStore request ended.result, deferred := ended.deferred }

/-- The end of a request to the service. -/
def ofOutcome {α : Type} (value : α → ReplyValue) (outcome : Outcome α) : Ending :=
  { reply := match outcome.result with
      | .ok result => .ok (value result)
      | .error error => .error (.service error)
    events := outcome.events }

end Ending

end AccessControl
