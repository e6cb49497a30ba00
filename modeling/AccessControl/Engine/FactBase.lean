import AccessControl.Rule
import AccessControl.Table

/-!
# The fact base

A fact says that a subject may perform an action on an object.  The fact base keeps the facts, the
role of each subject, and two revocation counters: a write that can take a fact away from a pair of
subject and object moves the counter of the subject or that of the object, and no other write moves
either.  A write guarded by a version is made only if neither counter moved since the version was
taken.  Counters are machine words and wrap around.
-/

namespace AccessControl

/-- The revocation counters of a pair of subject and object. -/
structure FactVersion where
  subject : UInt64
  object : UInt64
  deriving DecidableEq, Repr

/-- What is known about who may do what. -/
structure FactBase where
  facts : Table (UserId × PolicyObject) ActionSet := ∅
  roles : Table UserId Role := ∅
  subjectVersions : Table UserId UInt64 := ∅
  objectVersions : Table PolicyObject UInt64 := ∅
  deriving DecidableEq

namespace FactBase

/-- The fact base that knows nothing. -/
def empty : FactBase := {}

instance : EmptyCollection FactBase := ⟨empty⟩

instance : Inhabited FactBase := ⟨empty⟩

/-- The revocation counter of a subject. -/
def subjectVersion (base : FactBase) (subject : UserId) : UInt64 :=
  (base.subjectVersions.get? subject).getD 0

/-- The revocation counter of an object. -/
def objectVersion (base : FactBase) (object : PolicyObject) : UInt64 :=
  (base.objectVersions.get? object).getD 0

/-- The revocation counters of a pair. -/
def version (base : FactBase) (subject : UserId) (object : PolicyObject) : FactVersion :=
  ⟨base.subjectVersion subject, base.objectVersion object⟩

/-- The revocation counter of a subject as a version; clearing an object does not move it. -/
def roleVersion (base : FactBase) (subject : UserId) : FactVersion :=
  ⟨base.subjectVersion subject, 0⟩

/-- The actions that the facts of a pair allow. -/
def actionsFor (base : FactBase) (subject : UserId) (object : PolicyObject) : ActionSet :=
  (base.facts.get? (subject, object)).getD ∅

/-- The role of a subject, if one is known. -/
def roleOf (base : FactBase) (subject : UserId) : Option Role := base.roles.get? subject

/-- Whether a role is known for the subject and passes every check. -/
def isAdministrator (base : FactBase) (subject : UserId) : Bool :=
  (base.roleOf subject).any Role.isAdministrative

/-- Whether the subject's role passes every check, or the very fact is known. -/
def check (base : FactBase) (subject : UserId) (object : PolicyObject) (action : Action) : Bool :=
  base.isAdministrator subject || (base.actionsFor subject object).contains action

/-- How many facts are known. -/
def factCount (base : FactBase) : Nat := (base.facts.values.map ActionSet.size).foldr (· + ·) 0

/-- The subjects that have a fact or a role, each once. -/
def subjects (base : FactBase) : List UserId :=
  (base.facts.keys.map Prod.fst ++ base.roles.keys).eraseDups

/-- How many subjects have a fact or a role. -/
def subjectCount (base : FactBase) : Nat := base.subjects.length

/-- Moves the counter of a subject. -/
def revokeSubject (base : FactBase) (subject : UserId) : FactBase :=
  { base with
    subjectVersions := base.subjectVersions.insert subject (base.subjectVersion subject + 1) }

/-- Moves the counter of an object. -/
def revokeObject (base : FactBase) (object : PolicyObject) : FactBase :=
  { base with
    objectVersions := base.objectVersions.insert object (base.objectVersion object + 1) }

/-- Adds one fact. -/
def addFact (base : FactBase) (subject : UserId) (object : PolicyObject) (action : Action) :
    FactBase :=
  { base with
    facts := base.facts.insert (subject, object) ((base.actionsFor subject object).insert action) }

/-- Takes every fact of a pair away. -/
def removeFacts (base : FactBase) (subject : UserId) (object : PolicyObject) : FactBase :=
  let moved := base.revokeSubject subject
  { moved with facts := moved.facts.erase (subject, object) }

/-- Takes every fact about an object away. -/
def clearObject (base : FactBase) (object : PolicyObject) : FactBase :=
  let moved := base.revokeObject object
  { moved with facts := moved.facts.filter fun pair _ => pair.2 ≠ object }

/-- How many facts speak of an object. -/
def factsAbout (base : FactBase) (object : PolicyObject) : Nat :=
  ((base.facts.filter fun pair _ => pair.2 = object).values.map ActionSet.size).foldr (· + ·) 0

/-- Gives a pair exactly these actions; no row is kept for a pair without actions. -/
def replaceFacts (base : FactBase) (subject : UserId) (object : PolicyObject)
    (actions : ActionSet) : FactBase :=
  let moved := base.revokeSubject subject
  if actions.isEmpty then { moved with facts := moved.facts.erase (subject, object) }
  else { moved with facts := moved.facts.insert (subject, object) actions }

/-- Records the role of a subject in place of any earlier one. -/
def setRole (base : FactBase) (subject : UserId) (role : Role) : FactBase :=
  let moved := base.revokeSubject subject
  { moved with roles := moved.roles.insert subject role }

end FactBase

end AccessControl
