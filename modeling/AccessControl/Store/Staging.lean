import AccessControl.Store.Memory

/-!
# A store bound to a transaction

Writes are kept back and made on the committed store, in order, when the transaction is committed;
the first one that is refused ends the commit, and those before it stay.  Reads see the committed
store.
-/

namespace AccessControl

/-- A write that waits for commit. -/
inductive StagedWrite where
  | create (user : UserId) (grant : Grant)
  | update (user : UserId) (grant : Grant)
  | delete (user : UserId) (resource : ResourceId)
  | syncUserRole (user : UserId) (role : Role)
  | putRolePolicy (role : Role) (resourceType : ResourceType) (actions : ActionSet)
  deriving DecidableEq, Repr

namespace StagedWrite

/-- Makes the write on the committed store. -/
def apply (store : MemoryStore) : StagedWrite → Except StorageError Unit × MemoryStore
  | create user grant => store.create user grant
  | update user grant => (.ok (), (store.update user grant).2)
  | delete user resource => (.ok (), store.delete user resource)
  | syncUserRole user role => store.syncUserRole user role
  | putRolePolicy role resourceType actions =>
    (.ok (), store.putRolePolicy role resourceType actions)

/-- Makes the writes in order, up to the first that is refused. -/
def applyAll (store : MemoryStore) : List StagedWrite → Except StorageError Unit × MemoryStore
  | [] => (.ok (), store)
  | write :: rest =>
    match write.apply store with
    | (.ok _, next) => applyAll next rest
    | (.error error, next) => (.error error, next)

end StagedWrite

/-- The writes of one transaction. -/
structure StagingStore where
  writes : List StagedWrite := []
  deriving DecidableEq

namespace StagingStore

/-- Keeps a write back. -/
def stage (store : StagingStore) (write : StagedWrite) : StagingStore :=
  ⟨store.writes ++ [write]⟩

/-- The answer to a request, and the transaction and the committed store after it. -/
def answer (store : StagingStore) (committed : MemoryStore) :
    (request : StoreRequest) → request.Answer × StagingStore × MemoryStore
  | .create user grant => (.ok (), store.stage (.create user grant), committed)
  | .update user grant =>
    let present := committed.rules.contains (user, grant.resource)
    (.ok (if present then 1 else 0), store.stage (.update user grant), committed)
  | .delete user resource => (.ok (), store.stage (.delete user resource), committed)
  | .validateAccess check =>
    (MemoryStore.decision (committed.allowsInstance check), store, committed)
  | .validateAccessToType check =>
    (MemoryStore.decision (committed.allowsType check), store, committed)
  | .allPermissions => (.ok committed.rules.values, store, committed)
  | .allUserRoles => (.ok committed.users, store, committed)
  | .syncUserRole user role => (.ok (), store.stage (.syncUserRole user role), committed)
  | .putRolePolicy role resourceType actions =>
    (.ok (), store.stage (.putRolePolicy role resourceType actions), committed)
  | .commit =>
    let (result, next) := StagedWrite.applyAll committed store.writes
    (result, {}, next)
  | .rollback => (.ok (), {}, committed)

end StagingStore

end AccessControl
