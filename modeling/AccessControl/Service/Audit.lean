import AccessControl.Rule

/-!
# The audit trail

Each change that the service made on somebody's behalf leaves one event, which says all that is
needed to make the same change again.
-/

namespace AccessControl

/-- A change that was made. -/
inductive AuditEvent where
  | granted (user : UserId) (grant : Grant)
  /-- `touched` tells whether there was a rule to change. -/
  | updated (user : UserId) (grant : Grant) (touched : Bool)
  | revoked (user : UserId) (resource : ResourceId)
  | roleSynchronised (user : UserId) (role : Role)
  | policyWritten (role : Role) (resourceType : ResourceType) (actions : ActionSet)
  deriving DecidableEq, Repr

namespace AuditEvent

/-- The fields of an event that describe a grant. -/
def grantFields (user : UserId) (grant : Grant) : List (String × String) :=
  [("user_id", user.text), ("resource_id", grant.resource.text),
    ("resource_type", grant.resourceType.name), ("actions", grant.actions.text)]

/-- The fields of an event with their texts. -/
def fields : AuditEvent → List (String × String)
  | granted user grant =>
    [("event", "acl_grant"), ("message", "acl granted")] ++ grantFields user grant
  | updated user grant touched =>
    [("event", "acl_update"), ("message", "acl updated")] ++ grantFields user grant ++
      [("touched", if touched then "true" else "false")]
  | revoked user resource =>
    [("event", "acl_revoke"), ("message", "acl revoked"), ("user_id", user.text),
      ("resource_id", resource.text)]
  | roleSynchronised user role =>
    [("event", "role_sync"), ("message", "user role synchronised"), ("user_id", user.text),
      ("role", role.name)]
  | policyWritten role resourceType actions =>
    [("event", "role_policy"), ("message", "role policy written"), ("role", role.name),
      ("resource_type", resourceType.name), ("actions", actions.text)]

end AuditEvent

end AccessControl
