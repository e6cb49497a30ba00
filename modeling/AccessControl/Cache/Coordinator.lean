import AccessControl.Cache.Call

/-!
# The coordinator of a store and an engine

A coordinator answers checks from the engine and leaves to the store what the engine does not allow.
Writes go to the store first, and the engine is updated once the store has accepted them.  A denial
is never remembered.  A yes of the store is written into the engine, unless the pair was revoked
while the store was asked.
-/

namespace AccessControl

namespace Coordinator

/-- Whether a reply of the engine is a yes; an engine that fails allows nothing. -/
def allows : Except EngineError Bool → Bool
  | .ok allowed => allowed
  | .error _ => false

/-- What is left of a write whose request to the store has been answered with an error: if the
store itself failed, the engine gives up what it knows about the written pairs. -/
def refused {α : Type} (error : StorageError) (onUnknown : List EngineUpdate) :
    Call (Except StorageError α) :=
  if error.isInternal then
    (EngineUpdate.applyAll onUnknown).bind fun _ => .done (.error error)
  else .done (.error error)

/-- Updates the engine after an accepted write; the write stands even if the engine fails. -/
def settle {α : Type} (update : EngineUpdate) (result : α) : Call (Except StorageError α) :=
  update.apply.bind fun _ => .done (.ok result)

/-- Writes the store's yes into the engine, unless the pair was revoked after `seen`. -/
def repair (subject : UserId) (object : PolicyObject) (action : Action)
    (seen : Except EngineError FactVersion) : Call (Except StorageError Unit) :=
  match seen with
  | .error _ => .count .repairFailures (.done (.ok ()))
  | .ok version =>
    .engine (.addFactIfCurrent subject object action version) fun
      | .ok true => .count .repairs (.done (.ok ()))
      | .ok false => .count .staleRepairs (.done (.ok ()))
      | .error _ => .count .repairFailures (.done (.ok ()))

/-- Ends a check that the engine allowed. -/
def hit : Call (Except StorageError Unit) := .count .hits (.done (.ok ()))

/-- Adds a rule. -/
def create (user : UserId) (grant : Grant) : Call (Except StorageError Unit) :=
  let object := PolicyObject.resource grant.resource
  .engine (.version user object) fun seen =>
    .store (.create user grant) [] fun
      | .error error => .done (.error error)
      | .ok () =>
        match seen with
        | .ok version => settle (.grant user object grant.actions version) ()
        | .error _ => .done (.ok ())

/-- Gives a rule new actions; replies how many rules there were to change. -/
def update (user : UserId) (grant : Grant) : Call (Except StorageError Nat) :=
  let object := PolicyObject.resource grant.resource
  let onUnknown := EngineUpdate.onUnknownAll [.remove user object]
  .engine (.version user object) fun seen =>
    .store (.update user grant) onUnknown fun
      | .error error => refused error onUnknown
      | .ok touched =>
        match seen with
        | .ok version =>
          if 0 < touched then settle (.replace user object grant.actions version) touched
          else settle (.remove user object) touched
        | .error _ => settle (.remove user object) touched

/-- Takes a rule away. -/
def delete (user : UserId) (resource : ResourceId) : Call (Except StorageError Unit) :=
  let object := PolicyObject.resource resource
  let onUnknown := EngineUpdate.onUnknownAll [.remove user object]
  .store (.delete user resource) onUnknown fun
    | .error error => refused error onUnknown
    | .ok () => settle (.remove user object) ()

/-- Checks one action on one resource. -/
def validateAccess (check : InstanceCheck) : Call (Except StorageError Unit) :=
  let object := PolicyObject.resource check.resource
  .engine (.check check.user object check.action) fun ofResource =>
    if allows ofResource then hit
    else
      .engine (.check check.user (.type check.resourceType) check.action) fun ofType =>
        if allows ofType then hit
        else
          .count .misses <|
            .engine (.version check.user object) fun seen =>
              .store (.validateAccess check) [] fun
                | .error error => .done (.error error)
                | .ok () => repair check.user object check.action seen

/-- Checks one action on every resource of a type. -/
def validateAccessToType (check : TypeCheck) : Call (Except StorageError Unit) :=
  let object := PolicyObject.type check.resourceType
  .engine (.check check.user object check.action) fun ofType =>
    if allows ofType then hit
    else
      .count .misses <|
        .engine (.version check.user object) fun seen =>
          .store (.validateAccessToType check) [] fun
            | .error error => .done (.error error)
            | .ok () => repair check.user object check.action seen

/-- Every rule of the store. -/
def allPermissions : Call (Except StorageError (List Rule)) := .store .allPermissions [] .done

/-- The role of every user of record. -/
def allUserRoles : Call (Except StorageError (Table UserId Role)) := .store .allUserRoles [] .done

/-- Records the role of a user of record. -/
def syncUserRole (user : UserId) (role : Role) : Call (Except StorageError Unit) :=
  let onUnknown := EngineUpdate.onUnknownAll [.demote user role]
  .engine (.roleVersion user) fun seen =>
    .store (.syncUserRole user role) onUnknown fun
      | .error error => refused error onUnknown
      | .ok () =>
        match seen with
        | .ok version => settle (.assignRole user role version) ()
        | .error _ => settle (.demote user role) ()

/-- Says what a role may do with every resource of a type. -/
def putRolePolicy (role : Role) (resourceType : ResourceType) (actions : ActionSet) :
    Call (Except StorageError Unit) :=
  let clear := EngineUpdate.clearObject (.type resourceType)
  let onUnknown := EngineUpdate.onUnknownAll [clear]
  .store (.putRolePolicy role resourceType actions) onUnknown fun
    | .error error => refused error onUnknown
    | .ok () => settle clear ()

/-- A coordinator can be asked whatever a rule store can; the end of a transaction is the store's
own affair. -/
def handle : (request : StoreRequest) → Call request.Answer
  | .create user grant => create user grant
  | .update user grant => update user grant
  | .delete user resource => delete user resource
  | .validateAccess check => validateAccess check
  | .validateAccessToType check => validateAccessToType check
  | .allPermissions => allPermissions
  | .allUserRoles => allUserRoles
  | .syncUserRole user role => syncUserRole user role
  | .putRolePolicy role resourceType actions => putRolePolicy role resourceType actions
  | .commit => .store .commit [] .done
  | .rollback => .store .rollback [] .done

/-- How an engine failure is reported by a coordinator that cannot start without the engine. -/
def engineFailure (error : EngineError) : StorageError := .internal error.message

/-- Records each role in the engine. -/
def loadRoles : List (UserId × Role) → Call (Except EngineError Unit)
  | [] => .done (.ok ())
  | (subject, role) :: rest => .ask (.setRole subject role) fun _ => loadRoles rest

/-- Adds facts about one object to the engine. -/
def loadFacts (subject : UserId) (object : PolicyObject) :
    List Action → Call (Except EngineError Unit)
  | [] => .done (.ok ())
  | action :: rest => .ask (.addFact subject object action) fun _ => loadFacts subject object rest

/-- Adds the facts of each rule to the engine. -/
def loadRules : List Rule → Call (Except EngineError Unit)
  | [] => .done (.ok ())
  | rule :: rest =>
    (loadFacts rule.user (.resource rule.resource) rule.actions.toList).bind fun
      | .ok () => loadRules rest
      | .error error => .done (.error error)

/-- Loads every role and then every rule of the store into the engine.  The coordinator can be used
only if nothing fails. -/
def warmUp : Call (Except StorageError Unit) :=
  .store .allUserRoles [] fun
    | .error error => .done (.error error)
    | .ok roles =>
      (loadRoles roles.rows).bind fun
        | .error error => .done (.error (engineFailure error))
        | .ok () =>
          .store .allPermissions [] fun
            | .error error => .done (.error error)
            | .ok rules =>
              (loadRules rules).map fun
                | .error error => .error (engineFailure error)
                | .ok () => .ok ()

end Coordinator

end AccessControl
