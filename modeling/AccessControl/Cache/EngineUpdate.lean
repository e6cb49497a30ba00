import AccessControl.Engine.Request

/-!
# What a write to the store asks of the engine

Each accepted write to a rule store is followed by an update of the policy engine.  Where it is not
known whether the store made the write, the engine gives up what it knows about the written pairs
instead: `onUnknown` is an update that is right for both outcomes.
-/

namespace AccessControl

/-- The engine's side of one write to the store. -/
inductive EngineUpdate where
  /-- Adds the facts of a rule, unless the pair was revoked after `seen`. -/
  | grant (subject : UserId) (object : PolicyObject) (actions : ActionSet) (seen : FactVersion)
  /-- Gives a pair new actions, or evicts it if it was revoked after `seen`. -/
  | replace (subject : UserId) (object : PolicyObject) (actions : ActionSet) (seen : FactVersion)
  /-- Evicts a pair. -/
  | remove (subject : UserId) (object : PolicyObject)
  /-- Records a role and drops what was known because of the earlier one. -/
  | assignRole (subject : UserId) (role : Role) (seen : FactVersion)
  /-- Moves a subject to a role only if that takes privilege away. -/
  | demote (subject : UserId) (role : Role)
  /-- Evicts an object. -/
  | clearObject (object : PolicyObject)
  deriving DecidableEq, Repr

/-- What to do instead when it is not known whether the write was made. -/
def EngineUpdate.onUnknown : EngineUpdate → Option EngineUpdate
  | .grant .. => none
  | .replace subject object _ _ => some (.remove subject object)
  | .remove subject object => some (.remove subject object)
  | .assignRole subject role _ => some (.demote subject role)
  | .demote subject role => some (.demote subject role)
  | .clearObject object => some (.clearObject object)

end AccessControl
