import AccessControl.Rule
import AccessControl.Store.Error
import AccessControl.Table

/-!
# Requests to a rule store

A rule store is the source of truth for rules, for the role of each user, and for what a role may do
with each resource type.  A store that is bound to a transaction can also be asked to end it.
-/

namespace AccessControl

/-- What a rule store can be asked. -/
inductive StoreRequest where
  /-- Adds a rule. -/
  | create (user : UserId) (grant : Grant)
  /-- Gives a rule new actions; replies how many rules there were to change. -/
  | update (user : UserId) (grant : Grant)
  | delete (user : UserId) (resource : ResourceId)
  | validateAccess (check : InstanceCheck)
  | validateAccessToType (check : TypeCheck)
  | allPermissions
  | allUserRoles
  /-- Records the role of a known user. -/
  | syncUserRole (user : UserId) (role : Role)
  /-- Says what a role may do with every resource of a type. -/
  | putRolePolicy (role : Role) (resourceType : ResourceType) (actions : ActionSet)
  | commit
  | rollback
  deriving DecidableEq, Repr

namespace StoreRequest

/-- What a rule store replies to a request that it fulfils. -/
abbrev Reply : StoreRequest → Type
  | create .. => Unit
  | update .. => Nat
  | delete .. => Unit
  | validateAccess _ => Unit
  | validateAccessToType _ => Unit
  | allPermissions => List Rule
  | allUserRoles => Table UserId Role
  | syncUserRole .. => Unit
  | putRolePolicy .. => Unit
  | commit => Unit
  | rollback => Unit

/-- The name of the operation a request asks for. -/
def name : StoreRequest → String
  | create .. => "create"
  | update .. => "update"
  | delete .. => "delete"
  | validateAccess _ => "validate_access"
  | validateAccessToType _ => "validate_access_to_resource"
  | allPermissions => "get_all_permissions"
  | allUserRoles => "get_all_user_roles"
  | syncUserRole .. => "sync_user_role"
  | putRolePolicy .. => "put_role_policy"
  | commit => "commit"
  | rollback => "rollback"

/-- What a store answers to a request. -/
abbrev Answer (request : StoreRequest) : Type := Except StorageError request.Reply

end StoreRequest

end AccessControl
