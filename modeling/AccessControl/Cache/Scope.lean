import AccessControl.Cache.Coordinator

/-!
# A coordinator inside one transaction

A scope shares engine and counters with the coordinator that opened it.  What the transaction grants
reaches the engine only once it is committed; what it revokes is evicted at once, and again after
the commit.  Reads see the transaction's own writes and are never written into the engine.
-/

namespace AccessControl

/-- How a write inside a transaction ends: its result, and what the engine is told at commit. -/
structure ScopedResult (α : Type) where
  result : Except StorageError α
  deferred : List EngineUpdate

namespace Scope

/-- Ends a refused write: there is nothing to tell the engine. -/
def refused {α : Type} (error : StorageError) : Call (ScopedResult α) := .done ⟨.error error, []⟩

/-- Ends an accepted write. -/
def accepted {α : Type} (result : α) (deferred : List EngineUpdate) : Call (ScopedResult α) :=
  .done ⟨.ok result, deferred⟩

/-- Adds a rule; if the engine fails, the grant is not remembered. -/
def create (user : UserId) (grant : Grant) : Call (ScopedResult Unit) :=
  let object := PolicyObject.resource grant.resource
  .store (.create user grant) [] fun
    | .error error => refused error
    | .ok () =>
      .engine (.version user object) fun
        | .ok seen => accepted () [.grant user object grant.actions seen]
        | .error _ => accepted () []

/-- Gives a rule new actions; replies how many rules there were to change. -/
def update (user : UserId) (grant : Grant) : Call (ScopedResult Nat) :=
  let object := PolicyObject.resource grant.resource
  let remove := EngineUpdate.remove user object
  .store (.update user grant) [] fun
    | .error error => refused error
    | .ok touched =>
      remove.apply.bind fun _ =>
        .engine (.version user object) fun
          | .ok seen =>
            if 0 < touched then accepted touched [.replace user object grant.actions seen]
            else accepted touched [remove]
          | .error _ => accepted touched [remove]

/-- Takes a rule away. -/
def delete (user : UserId) (resource : ResourceId) : Call (ScopedResult Unit) :=
  let remove := EngineUpdate.remove user (.resource resource)
  .store (.delete user resource) [] fun
    | .error error => refused error
    | .ok () => remove.apply.bind fun _ => accepted () [remove]

/-- Checks one action on one resource. -/
def validateAccess (check : InstanceCheck) : Call (Except StorageError Unit) :=
  .engine (.check check.user (.resource check.resource) check.action) fun ofResource =>
    if Coordinator.allows ofResource then Coordinator.hit
    else
      .engine (.check check.user (.type check.resourceType) check.action) fun ofType =>
        if Coordinator.allows ofType then Coordinator.hit
        else .count .misses (.store (.validateAccess check) [] .done)

/-- Checks one action on every resource of a type. -/
def validateAccessToType (check : TypeCheck) : Call (Except StorageError Unit) :=
  .engine (.check check.user (.type check.resourceType) check.action) fun ofType =>
    if Coordinator.allows ofType then Coordinator.hit
    else .count .misses (.store (.validateAccessToType check) [] .done)

/-- Every rule that the transaction sees. -/
def allPermissions : Call (Except StorageError (List Rule)) := .store .allPermissions [] .done

/-- The role of every user that the transaction sees. -/
def allUserRoles : Call (Except StorageError (Table UserId Role)) := .store .allUserRoles [] .done

/-- Records the role of a user of record. -/
def syncUserRole (user : UserId) (role : Role) : Call (ScopedResult Unit) :=
  let demote := EngineUpdate.demote user role
  .store (.syncUserRole user role) [] fun
    | .error error => refused error
    | .ok () =>
      demote.apply.bind fun _ =>
        .engine (.roleVersion user) fun
          | .ok seen => accepted () [.assignRole user role seen]
          | .error _ => accepted () [demote]

/-- Says what a role may do with every resource of a type. -/
def putRolePolicy (role : Role) (resourceType : ResourceType) (actions : ActionSet) :
    Call (ScopedResult Unit) :=
  let clear := EngineUpdate.clearObject (.type resourceType)
  .store (.putRolePolicy role resourceType actions) [] fun
    | .error error => refused error
    | .ok () => clear.apply.bind fun _ => accepted () [clear]

/-- Commits the transaction and then makes the engine updates that were held back.  If it is not
known whether the store committed, only the revoking half of them is made. -/
def commit (deferred : List EngineUpdate) : Call (Except StorageError Unit) :=
  let onUnknown := EngineUpdate.onUnknownAll deferred
  .store .commit onUnknown fun
    | .error error => Coordinator.refused error onUnknown
    | .ok () => (EngineUpdate.applyAll deferred).bind fun _ => .done (.ok ())

/-- Rolls the transaction back.  What was evicted stays evicted. -/
def rollback : Call (Except StorageError Unit) := .store .rollback [] .done

/-- A call that leaves nothing to tell the engine at commit. -/
def plain {α : Type} (call : Call (Except StorageError α)) : Call (ScopedResult α) :=
  call.map fun result => ⟨result, []⟩

/-- A scope can be asked whatever a rule store can; `deferred` is what was held back so far. -/
def handle (deferred : List EngineUpdate) :
    (request : StoreRequest) → Call (ScopedResult request.Reply)
  | .create user grant => create user grant
  | .update user grant => update user grant
  | .delete user resource => delete user resource
  | .validateAccess check => plain (validateAccess check)
  | .validateAccessToType check => plain (validateAccessToType check)
  | .allPermissions => plain allPermissions
  | .allUserRoles => plain allUserRoles
  | .syncUserRole user role => syncUserRole user role
  | .putRolePolicy role resourceType actions => putRolePolicy role resourceType actions
  | .commit => plain (commit deferred)
  | .rollback => plain rollback

end Scope

end AccessControl
