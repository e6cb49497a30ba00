import AccessControl.Engine.FactBase

/-!
# Requests to the policy engine

Each request is answered in one step under the engine's lock: `FactBase.answer` gives the reply and
the fact base afterwards.  A writer that dies while it holds the lock leaves the engine poisoned,
and from then on every request fails.
-/

namespace AccessControl

/-- Why the engine did not answer. -/
inductive EngineError where
  | poisoned
  deriving DecidableEq, Repr

/-- What is said when the engine did not answer. -/
def EngineError.message : EngineError → String
  | poisoned => "policy engine lock poisoned by a panicked writer"

/-- What the engine can be asked in one step. -/
inductive EngineRequest where
  | addFact (subject : UserId) (object : PolicyObject) (action : Action)
  | version (subject : UserId) (object : PolicyObject)
  | addFactIfCurrent (subject : UserId) (object : PolicyObject) (action : Action)
      (seen : FactVersion)
  | removeFacts (subject : UserId) (object : PolicyObject)
  | clearObject (object : PolicyObject)
  | replaceFacts (subject : UserId) (object : PolicyObject) (actions : ActionSet)
  | replaceFactsIfCurrent (subject : UserId) (object : PolicyObject) (actions : ActionSet)
      (seen : FactVersion)
  | setRole (subject : UserId) (role : Role)
  | roleVersion (subject : UserId)
  | setRoleIfCurrent (subject : UserId) (role : Role) (seen : FactVersion)
  | check (subject : UserId) (object : PolicyObject) (action : Action)
  | roleOf (subject : UserId)
  | actionsFor (subject : UserId) (object : PolicyObject)
  | factCount
  deriving DecidableEq, Repr

namespace EngineRequest

/-- What the engine replies to a request. -/
abbrev Reply : EngineRequest → Type
  | addFact .. => Bool
  | version .. => FactVersion
  | addFactIfCurrent .. => Bool
  | removeFacts .. => Nat
  | clearObject .. => Nat
  | replaceFacts .. => Unit
  | replaceFactsIfCurrent .. => Bool
  | setRole .. => Unit
  | roleVersion .. => FactVersion
  | setRoleIfCurrent .. => Bool
  | check .. => Bool
  | roleOf .. => Option Role
  | actionsFor .. => ActionSet
  | factCount => Nat

/-- The name of the operation a request asks for. -/
def name : EngineRequest → String
  | addFact .. => "add_fact"
  | version .. => "version"
  | addFactIfCurrent .. => "add_fact_if_current"
  | removeFacts .. => "remove_facts"
  | clearObject .. => "clear_object"
  | replaceFacts .. => "replace_facts"
  | replaceFactsIfCurrent .. => "replace_facts_if_current"
  | setRole .. => "set_role"
  | roleVersion .. => "role_version"
  | setRoleIfCurrent .. => "set_role_if_current"
  | check .. => "check"
  | roleOf .. => "role_of"
  | actionsFor .. => "actions_for"
  | factCount => "fact_count"

end EngineRequest

/-- The reply to a request, and the fact base after it. -/
def FactBase.answer (base : FactBase) : (request : EngineRequest) → request.Reply × FactBase
  | .addFact subject object action =>
    (!(base.actionsFor subject object).contains action, base.addFact subject object action)
  | .version subject object => (base.version subject object, base)
  | .addFactIfCurrent subject object action seen =>
    if base.version subject object = seen then (true, base.addFact subject object action)
    else (false, base)
  | .removeFacts subject object =>
    ((base.actionsFor subject object).size, base.removeFacts subject object)
  | .clearObject object => (base.factsAbout object, base.clearObject object)
  | .replaceFacts subject object actions => ((), base.replaceFacts subject object actions)
  | .replaceFactsIfCurrent subject object actions seen =>
    if base.version subject object = seen then (true, base.replaceFacts subject object actions)
    else (false, base)
  | .setRole subject role => ((), base.setRole subject role)
  | .roleVersion subject => (base.roleVersion subject, base)
  | .setRoleIfCurrent subject role seen =>
    if base.roleVersion subject = seen then (true, base.setRole subject role) else (false, base)
  | .check subject object action => (base.check subject object action, base)
  | .roleOf subject => (base.roleOf subject, base)
  | .actionsFor subject object => (base.actionsFor subject object, base)
  | .factCount => (base.factCount, base)

/-- A fact base behind its lock. -/
structure Engine where
  base : FactBase := ∅
  poisoned : Bool := false
  deriving DecidableEq

namespace Engine

instance : Inhabited Engine := ⟨{}⟩

/-- The answer of the engine to a request: an error if its lock is poisoned. -/
def answer (engine : Engine) (request : EngineRequest) :
    Except EngineError request.Reply × Engine :=
  if engine.poisoned then (.error .poisoned, engine)
  else
    let (reply, base) := engine.base.answer request
    (.ok reply, { engine with base })

/-- Records each role in turn, up to the first failure; replies how many were recorded. -/
def loadRoles (engine : Engine) : List (UserId × Role) → Nat → Except EngineError Nat × Engine
  | [], loaded => (.ok loaded, engine)
  | (subject, role) :: rest, loaded =>
    match engine.answer (.setRole subject role) with
    | (.ok _, next) => next.loadRoles rest (loaded + 1)
    | (.error error, next) => (.error error, next)

/-- How many subjects have a fact or a role. -/
def subjectCount (engine : Engine) : Except EngineError Nat :=
  if engine.poisoned then .error .poisoned else .ok engine.base.subjectCount

end Engine

end AccessControl
