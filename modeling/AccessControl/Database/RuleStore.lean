import AccessControl.Database.Row
import AccessControl.Store.Memory

/-!
# The relational rule store

Every request as a script: on a connection of the pool, where a request of several statements opens
a transaction of its own, and on the connection of an open transaction.
-/

namespace AccessControl

namespace RelationalStore

open ResultSet Script

/-- The request's result without its count of rows. -/
def withoutCount (result : Except StorageError Nat) : Except StorageError Unit :=
  result.map fun _ => ()

/-- Whether the role of a user was there to be changed. -/
def roleRecorded (user : UserId) (result : Except StorageError Nat) : Except StorageError Unit :=
  match result with
  | .ok 0 => .error (MemoryStore.unknownUser user)
  | .ok _ => .ok ()
  | .error error => .error error

/-- The script of a request that needs one statement only. -/
def registerUser (user : UserId) (role : Role) : Script (Except StorageError Unit) :=
  single (.insertUser user role) fun reply => withoutCount (written reply)

/-- Ends a transaction by a command; if that fails, the transaction is left open. -/
def close (end_ : TransactionCommand) {α : Type} (result : α) : Script (Except StorageError α) :=
  command end_ fun
    | .ok () => done (.ok result)
    | .error error => abandon (storageError error)

/-- Starts a transaction and goes on in it. -/
def opening {α : Type} (next : Script (Except StorageError α)) : Script (Except StorageError α) :=
  command .start fun
    | .ok () => next
    | .error error => done (.error (storageError error))

/-- Changes a rule in a transaction of its own, after it has been locked. -/
def update (user : UserId) (grant : Grant) : Script (Except StorageError Nat) :=
  opening <|
    statement (.lockRule user grant.resource) fun reply =>
      match found reply with
      | .error error => abandon error
      | .ok false => close .rollback 0
      | .ok true =>
        statement (.updateRule user grant) fun reply =>
          match written reply with
          | .error error => abandon error
          | .ok touched => close .commit touched

/-- Reads by one query from one state of the database. -/
def readAll {α : Type} (query : Statement)
    (read : Except DatabaseError query.Result → Except StorageError α) :
    Script (Except StorageError α) :=
  opening <|
    statement .readOneState fun
      | .error error => abandon (storageError error)
      | .ok _ =>
        statement query fun reply =>
          match read reply with
          | .error error => abandon error
          | .ok result => close .commit result

/-- The script of a request on a connection of the pool. -/
def pooled : (request : StoreRequest) → Script request.Answer
  | .create user grant => single (.insertRule user grant) fun reply => withoutCount (written reply)
  | .update user grant => update user grant
  | .delete user resource =>
    single (.deleteRule user resource) fun reply => withoutCount (performed reply)
  | .validateAccess check => single (.ruleAllows check) decision
  | .validateAccessToType check => single (.roleAllows check) decision
  | .allPermissions => readAll .allRules rules
  | .allUserRoles => readAll .allUserRoles userRoles
  | .syncUserRole user role =>
    single (.updateUserRole user role) fun reply => roleRecorded user (performed reply)
  | .putRolePolicy role resourceType actions =>
    single (.upsertRolePolicy role resourceType actions) fun reply =>
      withoutCount (performed reply)
  | .commit => done (.ok ())
  | .rollback => done (.ok ())

/-- The script of a request inside an open transaction. -/
def inTransaction : (request : StoreRequest) → Script request.Answer
  | .create user grant => single (.insertRule user grant) fun reply => withoutCount (written reply)
  | .update user grant =>
    statement (.lockRule user grant.resource) fun reply =>
      match found reply with
      | .error error => done (.error error)
      | .ok false => done (.ok 0)
      | .ok true => single (.updateRule user grant) written
  | .delete user resource =>
    single (.deleteRule user resource) fun reply => withoutCount (performed reply)
  | .validateAccess check => single (.ruleAllows check) decision
  | .validateAccessToType check => single (.roleAllows check) decision
  | .allPermissions => single .allRules rules
  | .allUserRoles => single .allUserRoles userRoles
  | .syncUserRole user role =>
    single (.updateUserRole user role) fun reply => roleRecorded user (performed reply)
  | .putRolePolicy role resourceType actions =>
    single (.upsertRolePolicy role resourceType actions) fun reply =>
      withoutCount (performed reply)
  | .commit => close .commit ()
  | .rollback => close .rollback ()

/-- Opens a transaction for later requests. -/
def openTransaction : Script (Except StorageError Unit) :=
  command .start fun
    | .ok () => done (.ok ())
    | .error error => done (.error (storageError error))

/-- Sends statements in order, up to the first that fails. -/
def sendAll : List Statement → Script (Except DatabaseError Unit)
  | [] => done (.ok ())
  | first :: rest =>
    statement first fun
      | .ok _ => sendAll rest
      | .error error => done (.error error)

/-- Defines the schema and fills in the names of roles and resource types; what is there already
stays. -/
def migrate : Script (Except DatabaseError Unit) :=
  sendAll (SchemaPart.all.map .define ++ [.seedRoles, .seedResourceTypes])

end RelationalStore

end AccessControl
