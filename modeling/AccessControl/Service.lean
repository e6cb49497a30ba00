import AccessControl.Cache.Coordinator
import AccessControl.Service.Audit
import AccessControl.Service.Error

/-!
# The authorization service

The service decides checks and administers rules through a coordinator.  Every call of the store
runs under a deadline, and a decision that was not made in time is an internal error, never a
denial.  A request that could not succeed is refused before the store is asked.
-/

namespace AccessControl

/-- How a request to the service ends: its result, and the changes it reports. -/
structure Outcome (α : Type) where
  result : Except ServiceError α
  events : List AuditEvent := []

/-- A call that runs under a deadline, and the result if the deadline passes first. -/
structure Attempt (α : Type) where
  call : Call α
  onDeadline : α

namespace Service

/-- The deadline of a service that is not told another. -/
def defaultDeadline : Duration := .ofSeconds 5

/-- A request that is refused before the store is asked. -/
def refuse {α : Type} (operation context : String) (cause : ServiceCause) : Attempt (Outcome α) :=
  let outcome : Outcome α := { result := .error ⟨operation, context, cause⟩ }
  { call := .done outcome, onDeadline := outcome }

/-- Runs a call of the coordinator under the deadline.  What the call answers becomes the result and
the events of the request by `report`. -/
def run {α β : Type} (deadline : Duration) (operation context : String)
    (call : Call (Except StorageError α)) (report : α → β × List AuditEvent) :
    Attempt (Outcome β) :=
  { call := call.map fun
      | .ok answer =>
        let (result, events) := report answer
        { result := .ok result, events }
      | .error error => { result := .error ⟨operation, context, .storage error⟩ }
    onDeadline := { result := .error ⟨operation, context, .deadline deadline⟩ } }

/-- A report of the answer alone. -/
def answerOnly {α : Type} (answer : α) : α × List AuditEvent := (answer, [])

/-- Decides whether a user may perform an action: on the resource that `resource` stands for, or on
the whole type if none is given. -/
def authorize (deadline : Duration) (user : UserId) (resourceType : ResourceType)
    (action : Action) : Option String → Attempt (Outcome Unit)
  | none =>
    run deadline "authorize"
      ("user=" ++ user.text ++ " type=" ++ resourceType.name ++ " action=" ++ action.name)
      (Coordinator.validateAccessToType ⟨user, resourceType, action⟩) answerOnly
  | some input =>
    let context := "user=" ++ user.text ++ " type=" ++ resourceType.name ++ " resource=" ++ input ++
      " action=" ++ action.name
    match ResourceId.ofText input with
    | .ok resource =>
      run deadline "authorize" context
        (Coordinator.validateAccess ⟨user, resource, resourceType, action⟩) answerOnly
    | .error error => refuse "authorize" context (.invalidIdentifier error)

/-- Decides whether a user may perform the action that a request method asks for. -/
def authorizeRequest (deadline : Duration) (user : UserId) (resourceType : ResourceType)
    (method : String) (resource : Option String) : Attempt (Outcome Unit) :=
  match Action.ofMethod? method with
  | some action => authorize deadline user resourceType action resource
  | none =>
    refuse "authorize"
      ("user=" ++ user.text ++ " type=" ++ resourceType.name ++ " method=" ++ method)
      (.unsupportedMethod method)

/-- The context of a request about one user and one resource. -/
def pairContext (user : UserId) (resource : ResourceId) : String :=
  "user=" ++ user.text ++ " resource=" ++ resource.text

/-- Adds a rule. -/
def grant (deadline : Duration) (user : UserId) (grant : Grant) : Attempt (Outcome Unit) :=
  let context := pairContext user grant.resource
  if grant.actions.isEmpty then refuse "grant" context .emptyActions
  else
    run deadline "grant" context (Coordinator.create user grant) fun _ =>
      ((), [.granted user grant])

/-- Gives a rule new actions; replies whether there was one. -/
def updateGrant (deadline : Duration) (user : UserId) (grant : Grant) : Attempt (Outcome Bool) :=
  let context := pairContext user grant.resource
  if grant.actions.isEmpty then refuse "update_grant" context .emptyActions
  else
    run deadline "update_grant" context (Coordinator.update user grant) fun count =>
      let touched := decide (0 < count)
      (touched, [.updated user grant touched])

/-- Takes a rule away. -/
def revoke (deadline : Duration) (user : UserId) (resource : ResourceId) :
    Attempt (Outcome Unit) :=
  run deadline "revoke" (pairContext user resource) (Coordinator.delete user resource) fun _ =>
    ((), [.revoked user resource])

/-- Records the role of a user. -/
def syncUserRole (deadline : Duration) (user : UserId) (role : Role) : Attempt (Outcome Unit) :=
  run deadline "sync_user_role" ("user=" ++ user.text ++ " role=" ++ role.name)
    (Coordinator.syncUserRole user role) fun _ => ((), [.roleSynchronised user role])

/-- Says what a role may do with every resource of a type. -/
def setRolePolicy (deadline : Duration) (role : Role) (resourceType : ResourceType)
    (actions : ActionSet) : Attempt (Outcome Unit) :=
  run deadline "set_role_policy" ("role=" ++ role.name ++ " type=" ++ resourceType.name)
    (Coordinator.putRolePolicy role resourceType actions) fun _ =>
      ((), [.policyWritten role resourceType actions])

/-- Whether a rule stands before another in a listing: by user, then by resource. -/
def listedBefore (left right : Rule) : Bool :=
  left.user.id < right.user.id ||
    (left.user = right.user && decide (left.resource.id ≤ right.resource.id))

/-- The rules of one user, or all, ordered by user and resource. -/
def listing (user : Option UserId) (rules : List Rule) : List Rule :=
  let kept := match user with
    | some user => rules.filter fun (rule : Rule) => rule.user = user
    | none => rules
  kept.mergeSort listedBefore

/-- The stored rules of one user, or all, ordered by user and resource. -/
def listPermissions (deadline : Duration) (user : Option UserId) : Attempt (Outcome (List Rule)) :=
  let context := match user with
    | some user => "user=" ++ user.text
    | none => ""
  run deadline "list_permissions" context Coordinator.allPermissions fun rules =>
    (listing user rules, [])

end Service

end AccessControl
