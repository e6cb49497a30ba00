import AccessControl.ActionSet
import AccessControl.Identifier
import AccessControl.ResourceType
import AccessControl.Role

/-!
# Rules and checks

A rule lets one user perform some actions on one resource.  A check asks whether a user may perform
one action, on one resource or on a whole resource type.  Facts about what a user may do speak of
either kind of object.
-/

namespace AccessControl

/-- A user may perform `actions` on a resource, which is of type `resourceType`. -/
structure Rule where
  user : UserId
  resource : ResourceId
  resourceType : ResourceType
  actions : ActionSet
  deriving DecidableEq, Repr

/-- A rule without its user: what is granted on one resource. -/
structure Grant where
  resource : ResourceId
  resourceType : ResourceType
  actions : ActionSet
  deriving DecidableEq, Repr

/-- The rule that gives a grant to a user. -/
def Grant.toRule (grant : Grant) (user : UserId) : Rule :=
  ⟨user, grant.resource, grant.resourceType, grant.actions⟩

/-- The rule as one line: user, type, resource, actions. -/
def Rule.text (rule : Rule) : String :=
  rule.user.text ++ "@" ++ rule.resourceType.name ++ ":" ++ rule.resource.text ++ rule.actions.text

/-- May `user` perform `action` on this resource? -/
structure InstanceCheck where
  user : UserId
  resource : ResourceId
  resourceType : ResourceType
  action : Action
  deriving DecidableEq, Repr

/-- May `user` perform `action` on any resource of this type? -/
structure TypeCheck where
  user : UserId
  resourceType : ResourceType
  action : Action
  deriving DecidableEq, Repr

/-- The check of the whole type that a check of one resource belongs to. -/
def InstanceCheck.ofType (check : InstanceCheck) : TypeCheck :=
  ⟨check.user, check.resourceType, check.action⟩

/-- What a fact about a user speaks of: one resource, or a whole resource type. -/
inductive PolicyObject where
  | resource (id : ResourceId)
  | type (resourceType : ResourceType)
  deriving DecidableEq, Repr

/-- The written form of an object. -/
def PolicyObject.text : PolicyObject → String
  | .resource id => id.text
  | .type resourceType => resourceType.name

end AccessControl
