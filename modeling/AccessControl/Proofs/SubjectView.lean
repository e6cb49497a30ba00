import AccessControl.Proofs.FactBase
import AccessControl.Proofs.StoreRow

/-!
# What one user can notice

A request names one user, or it speaks of all.  A user notices what the engine knows of him, the
counters that guard it, his rules and his role in the store, and the policies.  A request that does
not concern the user changes nothing of this.  A request that concerns him keeps two engines alike
that were alike to him, and so it keeps two stores; and if it names him, he is replied to alike.
-/

namespace AccessControl

/-! ## The engine -/

namespace EngineRequest

/-- The subject that a request names. -/
def subject? : EngineRequest → Option UserId
  | addFact subject .. => some subject
  | version subject _ => some subject
  | addFactIfCurrent subject .. => some subject
  | removeFacts subject _ => some subject
  | replaceFacts subject .. => some subject
  | replaceFactsIfCurrent subject .. => some subject
  | setRole subject _ => some subject
  | roleVersion subject => some subject
  | setRoleIfCurrent subject .. => some subject
  | check subject .. => some subject
  | roleOf subject => some subject
  | actionsFor subject _ => some subject
  | clearObject _ => none
  | factCount => none

/-- Whether a request names the user, or no subject at all. -/
def concerns (user : UserId) (request : EngineRequest) : Bool :=
  request.subject?.all fun subject => subject = user

variable {user subject : UserId} {request : EngineRequest}

theorem concerns_iff :
    request.concerns user = true ↔ request.subject? = none ∨ request.subject? = some user := by
  unfold concerns
  cases request.subject? <;> simp

theorem ne_of_not_concerns (h : ¬request.concerns user = true)
    (hsubject : request.subject? = some subject) : user ≠ subject := by
  rintro rfl
  exact h (concerns_iff.2 (.inr hsubject))

end EngineRequest

/-- Whether two fact bases know the same of a user, and have the counters that guard it alike. -/
structure FactBase.AlikeFor (user : UserId) (left right : FactBase) : Prop where
  actionsFor_eq : ∀ object, left.actionsFor user object = right.actionsFor user object
  roleOf_eq : left.roleOf user = right.roleOf user
  subjectVersion_eq : left.subjectVersion user = right.subjectVersion user
  objectVersion_eq : ∀ object, left.objectVersion object = right.objectVersion object

namespace FactBase

variable {base left right : FactBase} {user subject : UserId} {object : PolicyObject}
  {action : Action} {actions : ActionSet} {role : Role} {request : EngineRequest}

namespace AlikeFor

theorem refl (user : UserId) (base : FactBase) : base.AlikeFor user base :=
  ⟨fun _ => rfl, rfl, rfl, fun _ => rfl⟩

theorem trans {middle : FactBase} (h : left.AlikeFor user middle)
    (h' : middle.AlikeFor user right) : left.AlikeFor user right where
  actionsFor_eq object := (h.actionsFor_eq object).trans (h'.actionsFor_eq object)
  roleOf_eq := h.roleOf_eq.trans h'.roleOf_eq
  subjectVersion_eq := h.subjectVersion_eq.trans h'.subjectVersion_eq
  objectVersion_eq object := (h.objectVersion_eq object).trans (h'.objectVersion_eq object)

theorem symm (h : left.AlikeFor user right) : right.AlikeFor user left where
  actionsFor_eq object := (h.actionsFor_eq object).symm
  roleOf_eq := h.roleOf_eq.symm
  subjectVersion_eq := h.subjectVersion_eq.symm
  objectVersion_eq object := (h.objectVersion_eq object).symm

/-! ### Operations that do not concern the user -/

theorem addFact_of_ne (h : user ≠ subject) :
    (base.addFact subject object action).AlikeFor user base := by
  constructor <;> simp [h]

theorem removeFacts_of_ne (h : user ≠ subject) :
    (base.removeFacts subject object).AlikeFor user base := by
  constructor <;> simp [h]

theorem replaceFacts_of_ne (h : user ≠ subject) :
    (base.replaceFacts subject object actions).AlikeFor user base := by
  constructor <;> simp [h]

theorem setRole_of_ne (h : user ≠ subject) : (base.setRole subject role).AlikeFor user base := by
  constructor <;> simp [h]

/-- A request that does not concern the user leaves alone what he can notice. -/
theorem of_not_concerns (h : ¬request.concerns user = true) :
    (base.answer request).2.AlikeFor user base := by
  have hne : ∀ subject, request.subject? = some subject → user ≠ subject :=
    fun subject => EngineRequest.ne_of_not_concerns h
  cases request with
  | addFact subject object action => exact addFact_of_ne (hne subject rfl)
  | removeFacts subject object => exact removeFacts_of_ne (hne subject rfl)
  | replaceFacts subject object actions => exact replaceFacts_of_ne (hne subject rfl)
  | setRole subject role => exact setRole_of_ne (hne subject rfl)
  | addFactIfCurrent subject object action seen =>
    simp only [answer]
    split
    · exact addFact_of_ne (hne subject rfl)
    · exact refl user base
  | replaceFactsIfCurrent subject object actions seen =>
    simp only [answer]
    split
    · exact replaceFacts_of_ne (hne subject rfl)
    · exact refl user base
  | setRoleIfCurrent subject role seen =>
    simp only [answer]
    split
    · exact setRole_of_ne (hne subject rfl)
    · exact refl user base
  | clearObject => exact absurd rfl h
  | version | roleVersion | check | roleOf | actionsFor | factCount => exact refl user base

/-! ### Operations that concern the user -/

variable (h : left.AlikeFor user right)

include h

theorem version_eq (object : PolicyObject) :
    left.version user object = right.version user object := by
  rw [version, version, h.subjectVersion_eq, h.objectVersion_eq]

theorem roleVersion_eq : left.roleVersion user = right.roleVersion user := by
  rw [roleVersion, roleVersion, h.subjectVersion_eq]

theorem addFact : (left.addFact user object action).AlikeFor user
    (right.addFact user object action) := by
  constructor <;> simp [h.actionsFor_eq, h.roleOf_eq, h.subjectVersion_eq, h.objectVersion_eq]

theorem removeFacts : (left.removeFacts user object).AlikeFor user
    (right.removeFacts user object) := by
  constructor <;> simp [h.actionsFor_eq, h.roleOf_eq, h.subjectVersion_eq, h.objectVersion_eq]

theorem replaceFacts : (left.replaceFacts user object actions).AlikeFor user
    (right.replaceFacts user object actions) := by
  constructor <;> simp [h.actionsFor_eq, h.roleOf_eq, h.subjectVersion_eq, h.objectVersion_eq]

theorem setRole : (left.setRole user role).AlikeFor user (right.setRole user role) := by
  constructor <;> simp [h.actionsFor_eq, h.subjectVersion_eq, h.objectVersion_eq]

theorem clearObject : (left.clearObject object).AlikeFor user (right.clearObject object) := by
  constructor <;> simp [h.actionsFor_eq, h.roleOf_eq, h.subjectVersion_eq, h.objectVersion_eq]

/-- The replies to a request that names the user are alike. -/
theorem reply_eq (hsubject : request.subject? = some user) :
    (left.answer request).1 = (right.answer request).1 := by
  cases request with
  | clearObject | factCount => cases hsubject
  | addFactIfCurrent subject object _ seen | replaceFactsIfCurrent subject object _ seen =>
    obtain rfl := Option.some.inj hsubject
    simp only [answer, h.version_eq]
    split <;> rfl
  | setRoleIfCurrent subject role seen =>
    obtain rfl := Option.some.inj hsubject
    simp only [answer, h.roleVersion_eq]
    split <;> rfl
  | check subject object action =>
    obtain rfl := Option.some.inj hsubject
    simp only [answer, check, isAdministrator, h.roleOf_eq, h.actionsFor_eq]
  | _ =>
    obtain rfl := Option.some.inj hsubject
    simp only [answer, h.version_eq, h.roleVersion_eq, h.roleOf_eq, h.actionsFor_eq]

/-- A request that concerns the user keeps alike what he can notice. -/
theorem answer (hconcerns : request.concerns user = true) :
    (left.answer request).2.AlikeFor user (right.answer request).2 := by
  have hsame : ∀ subject, request.subject? = some subject → subject = user := by
    intro subject hsubject
    rw [EngineRequest.concerns, hsubject] at hconcerns
    exact of_decide_eq_true hconcerns
  cases request with
  | clearObject object => exact h.clearObject
  | addFact subject object action =>
    obtain rfl := hsame subject rfl
    exact h.addFact
  | removeFacts subject object =>
    obtain rfl := hsame subject rfl
    exact h.removeFacts
  | replaceFacts subject object actions =>
    obtain rfl := hsame subject rfl
    exact h.replaceFacts
  | setRole subject role =>
    obtain rfl := hsame subject rfl
    exact h.setRole
  | addFactIfCurrent subject object action seen =>
    obtain rfl := hsame subject rfl
    simp only [FactBase.answer, h.version_eq]
    split
    · exact h.addFact
    · exact h
  | replaceFactsIfCurrent subject object actions seen =>
    obtain rfl := hsame subject rfl
    simp only [FactBase.answer, h.version_eq]
    split
    · exact h.replaceFacts
    · exact h
  | setRoleIfCurrent subject role seen =>
    obtain rfl := hsame subject rfl
    simp only [FactBase.answer, h.roleVersion_eq]
    split
    · exact h.setRole
    · exact h
  | version | roleVersion | check | roleOf | actionsFor | factCount => exact h

end AlikeFor

end FactBase

/-! ## The store -/

/-- Whether a row is about the user, or about all users of a role. -/
def Row.Concerns (user : UserId) : Row → Prop
  | rule owner _ => owner = user
  | role owner => owner = user
  | policy .. => True

/-- Whether a request is made for the user, or changes what all users of a role may do. -/
def StoreRequest.concerns (user : UserId) : StoreRequest → Bool
  | create owner _ => owner = user
  | update owner _ => owner = user
  | delete owner _ => owner = user
  | validateAccess check => check.user = user
  | validateAccessToType check => check.user = user
  | syncUserRole owner _ => owner = user
  | putRolePolicy .. => true
  | _ => false

theorem StoreRequest.concerns_of_row {user : UserId} {request : StoreRequest} {row : Row}
    (hrow : request.row? = some row) (h : row.Concerns user) : request.concerns user = true := by
  cases request with
  | create | update | delete | syncUserRole =>
    obtain rfl := Option.some.inj hrow
    exact decide_eq_true h
  | putRolePolicy => rfl
  | _ => cases hrow

namespace MemoryStore

/-- Whether two stores hold the same rules and the same role of the user, and the same policies. -/
def AlikeFor (user : UserId) (left right : MemoryStore) : Prop :=
  ∀ row : Row, row.Concerns user → left.SameAt right row

namespace AlikeFor

variable {store left right : MemoryStore} {user : UserId} {request : StoreRequest}

/-- A request that does not concern the user leaves alone what he can notice. -/
theorem of_not_concerns (h : ¬request.concerns user = true) :
    (store.answer request).2.AlikeFor user store := fun _ hrow =>
  sameAt_of_row fun heq => h (StoreRequest.concerns_of_row heq hrow)

variable (h : left.AlikeFor user right)

include h

theorem rule_eq (resource : ResourceId) :
    left.rules.get? (user, resource) = right.rules.get? (user, resource) :=
  h (.rule user resource) rfl

theorem role_eq : left.users.get? user = right.users.get? user := h (.role user) rfl

theorem policyOf_eq (role : Role) (resourceType : ResourceType) :
    left.policyOf role resourceType = right.policyOf role resourceType := by
  have hpolicy : left.policies.get? (role, resourceType) =
      right.policies.get? (role, resourceType) := h (.policy role resourceType) trivial
  rw [policyOf, policyOf, hpolicy]

theorem contains_rule_eq (resource : ResourceId) :
    left.rules.contains (user, resource) = right.rules.contains (user, resource) := by
  rw [Table.contains, Table.contains, h.rule_eq]

theorem contains_role_eq : left.users.contains user = right.users.contains user := by
  rw [Table.contains, Table.contains, h.role_eq]

theorem writeOf_eq (hconcerns : request.concerns user = true) :
    left.writeOf request = right.writeOf request := by
  cases request with
  | create owner grant =>
    obtain rfl := of_decide_eq_true hconcerns
    rw [writeOf, writeOf, h.contains_role_eq, h.contains_rule_eq]
  | update owner grant =>
    obtain rfl := of_decide_eq_true hconcerns
    rw [writeOf, writeOf, h.rule_eq]
  | delete owner resource =>
    obtain rfl := of_decide_eq_true hconcerns
    rw [writeOf, writeOf, h.contains_rule_eq]
  | syncUserRole owner role =>
    obtain rfl := of_decide_eq_true hconcerns
    rw [writeOf, writeOf, h.contains_role_eq]
  | _ => rfl

/-- A request that concerns the user is answered alike. -/
theorem answer_eq (hconcerns : request.concerns user = true) :
    (left.answer request).1 = (right.answer request).1 := by
  cases request with
  | create owner grant =>
    obtain rfl := of_decide_eq_true hconcerns
    simp only [MemoryStore.answer]
    rw [create, create, h.contains_role_eq, h.contains_rule_eq]
    split
    · split <;> rfl
    · rfl
  | update owner grant =>
    obtain rfl := of_decide_eq_true hconcerns
    simp only [MemoryStore.answer]
    rw [update, update, h.rule_eq]
    split
    · split <;> rfl
    · rfl
  | syncUserRole owner role =>
    obtain rfl := of_decide_eq_true hconcerns
    simp only [MemoryStore.answer]
    rw [syncUserRole, syncUserRole, h.contains_role_eq]
    split <;> rfl
  | validateAccess check =>
    obtain rfl := of_decide_eq_true hconcerns
    simp only [MemoryStore.answer]
    rw [allowsInstance, allowsInstance, h.rule_eq]
  | validateAccessToType check =>
    obtain rfl := of_decide_eq_true hconcerns
    simp only [MemoryStore.answer, allowsType, h.role_eq, h.policyOf_eq]
  | delete | putRolePolicy => rfl
  | _ => cases hconcerns

/-- A request that concerns the user keeps alike what he can notice. -/
theorem answer (hconcerns : request.concerns user = true) :
    (left.answer request).2.AlikeFor user (right.answer request).2 := by
  intro row hrow
  have hwritten : (RowWrite.applyAll left (left.writeOf request).toList).SameAt
      (RowWrite.applyAll right (right.writeOf request).toList) row := by
    rw [h.writeOf_eq hconcerns]
    exact sameAt_applyAll (h row hrow)
  have hright := (sameAt_answer right request row).symm
  exact (sameAt_answer left request row).trans (hwritten.trans hright)

end AlikeFor

end MemoryStore

end AccessControl
