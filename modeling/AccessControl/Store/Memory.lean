import AccessControl.Store.Request

/-!
# The rule store in memory

Rules are held under their user and resource, and only users of record can be given one.
-/

namespace AccessControl

/-- A rule store held in memory. -/
structure MemoryStore where
  rules : Table (UserId × ResourceId) Rule := ∅
  users : Table UserId Role := ∅
  policies : Table (Role × ResourceType) ActionSet := ∅
  deriving DecidableEq

namespace MemoryStore

/-- The store that holds nothing. -/
def empty : MemoryStore := {}

instance : EmptyCollection MemoryStore := ⟨empty⟩

instance : Inhabited MemoryStore := ⟨empty⟩

/-- Makes `user` a user of record. -/
def registerUser (store : MemoryStore) (user : UserId) (role : Role) : MemoryStore :=
  { store with users := store.users.insert user role }

/-- What a store says of a user that is not of record. -/
def unknownUser (user : UserId) : StorageError := .notFound ("user " ++ user.text)

/-- Adds a rule for a user of record, if there is none for that resource. -/
def create (store : MemoryStore) (user : UserId) (grant : Grant) :
    Except StorageError Unit × MemoryStore :=
  if store.users.contains user then
    if store.rules.contains (user, grant.resource) then (.error .duplicateEntry, store)
    else
      let rules := store.rules.insert (user, grant.resource) (grant.toRule user)
      (.ok (), { store with rules })
  else (.error (unknownUser user), store)

/-- Gives the rule of a user for a resource new actions, if it names the same resource type. -/
def update (store : MemoryStore) (user : UserId) (grant : Grant) : Nat × MemoryStore :=
  match store.rules.get? (user, grant.resource) with
  | some rule =>
    if rule.resourceType = grant.resourceType then
      let changed := { rule with actions := grant.actions }
      (1, { store with rules := store.rules.insert (user, grant.resource) changed })
    else (0, store)
  | none => (0, store)

/-- Takes the rule of a user for a resource away, if there is one. -/
def delete (store : MemoryStore) (user : UserId) (resource : ResourceId) : MemoryStore :=
  { store with rules := store.rules.erase (user, resource) }

/-- Whether a rule of the user for the resource names its type and allows the action. -/
def allowsInstance (store : MemoryStore) (check : InstanceCheck) : Bool :=
  (store.rules.get? (check.user, check.resource)).any fun rule =>
    rule.resourceType = check.resourceType && rule.actions.contains check.action

/-- The actions that a role may perform on every resource of a type. -/
def policyOf (store : MemoryStore) (role : Role) (resourceType : ResourceType) : ActionSet :=
  (store.policies.get? (role, resourceType)).getD ∅

/-- Whether the user's role is administrative or has a policy that allows the action. -/
def allowsType (store : MemoryStore) (check : TypeCheck) : Bool :=
  (store.users.get? check.user).any fun role =>
    role.isAdministrative || (store.policyOf role check.resourceType).contains check.action

/-- Records the role of a user of record. -/
def syncUserRole (store : MemoryStore) (user : UserId) (role : Role) :
    Except StorageError Unit × MemoryStore :=
  if store.users.contains user then
    (.ok (), { store with users := store.users.insert user role })
  else (.error (unknownUser user), store)

/-- Says what a role may do with every resource of a type. -/
def putRolePolicy (store : MemoryStore) (role : Role) (resourceType : ResourceType)
    (actions : ActionSet) : MemoryStore :=
  { store with policies := store.policies.insert (role, resourceType) actions }

/-- A decision as an answer. -/
def decision (allowed : Bool) : Except StorageError Unit :=
  if allowed then .ok () else .error .accessDenied

/-- The answer to a request, and the store after it.  This store is bound to no transaction, so
there is nothing to end. -/
def answer (store : MemoryStore) : (request : StoreRequest) → request.Answer × MemoryStore
  | .create user grant => store.create user grant
  | .update user grant =>
    let (touched, next) := store.update user grant
    (.ok touched, next)
  | .delete user resource => (.ok (), store.delete user resource)
  | .validateAccess check => (decision (store.allowsInstance check), store)
  | .validateAccessToType check => (decision (store.allowsType check), store)
  | .allPermissions => (.ok store.rules.values, store)
  | .allUserRoles => (.ok store.users, store)
  | .syncUserRole user role => store.syncUserRole user role
  | .putRolePolicy role resourceType actions =>
    (.ok (), store.putRolePolicy role resourceType actions)
  | .commit => (.ok (), store)
  | .rollback => (.ok (), store)

end MemoryStore

end AccessControl
