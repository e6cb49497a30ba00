import AccessControl.Engine.Request

/-!
# The fact base through its views

Each operation of the fact base is described by what it does to the four views: the actions of a
pair, the role of a subject, and the two revocation counters.
-/

namespace AccessControl

namespace FactBase

variable {base : FactBase} {subject other : UserId} {object target : PolicyObject} {action : Action}
  {actions : ActionSet} {role : Role}

/-! ## The actions of a pair -/

@[simp] theorem actionsFor_addFact :
    (base.addFact subject object action).actionsFor other target =
      if other = subject ∧ target = object then (base.actionsFor subject object).insert action
      else base.actionsFor other target := by
  by_cases h : other = subject ∧ target = object <;> simp [addFact, actionsFor, h]

@[simp] theorem actionsFor_removeFacts :
    (base.removeFacts subject object).actionsFor other target =
      if other = subject ∧ target = object then ∅ else base.actionsFor other target := by
  by_cases h : other = subject ∧ target = object <;>
    simp [removeFacts, revokeSubject, actionsFor, h]

@[simp] theorem actionsFor_clearObject :
    (base.clearObject object).actionsFor other target =
      if target = object then ∅ else base.actionsFor other target := by
  by_cases h : target = object
  · subst h
    cases hg : base.facts.get? (other, target) <;>
      simp [clearObject, revokeObject, actionsFor, Option.filter, hg]
  · cases hg : base.facts.get? (other, target) <;>
      simp [clearObject, revokeObject, actionsFor, Option.filter, h, hg]

@[simp] theorem actionsFor_replaceFacts :
    (base.replaceFacts subject object actions).actionsFor other target =
      if other = subject ∧ target = object then actions else base.actionsFor other target := by
  cases he : actions.isEmpty with
  | true =>
    by_cases h : other = subject ∧ target = object
    · rw [if_pos h, ActionSet.isEmpty_iff.1 he, h.1, h.2]
      have hempty : (∅ : ActionSet).isEmpty = true := rfl
      simp [replaceFacts, revokeSubject, actionsFor, hempty]
    · simp [replaceFacts, revokeSubject, actionsFor, he, h]
  | false =>
    by_cases h : other = subject ∧ target = object <;>
      simp [replaceFacts, revokeSubject, actionsFor, he, h]

@[simp] theorem actionsFor_setRole :
    (base.setRole subject role).actionsFor other target = base.actionsFor other target := rfl

/-! ## The role of a subject -/

@[simp] theorem roleOf_addFact :
    (base.addFact subject object action).roleOf other = base.roleOf other := rfl

@[simp] theorem roleOf_removeFacts :
    (base.removeFacts subject object).roleOf other = base.roleOf other := rfl

@[simp] theorem roleOf_clearObject : (base.clearObject object).roleOf other = base.roleOf other :=
  rfl

@[simp] theorem roleOf_replaceFacts :
    (base.replaceFacts subject object actions).roleOf other = base.roleOf other := by
  cases he : actions.isEmpty <;> simp [replaceFacts, revokeSubject, roleOf, he]

@[simp] theorem roleOf_setRole :
    (base.setRole subject role).roleOf other =
      if other = subject then some role else base.roleOf other := by
  simp [setRole, revokeSubject, roleOf]

/-! ## The revocation counters -/

@[simp] theorem subjectVersion_addFact :
    (base.addFact subject object action).subjectVersion other = base.subjectVersion other := rfl

@[simp] theorem subjectVersion_removeFacts :
    (base.removeFacts subject object).subjectVersion other =
      if other = subject then base.subjectVersion subject + 1 else base.subjectVersion other := by
  by_cases h : other = subject <;> simp [removeFacts, revokeSubject, subjectVersion, h]

@[simp] theorem subjectVersion_clearObject :
    (base.clearObject object).subjectVersion other = base.subjectVersion other := rfl

@[simp] theorem subjectVersion_replaceFacts :
    (base.replaceFacts subject object actions).subjectVersion other =
      if other = subject then base.subjectVersion subject + 1 else base.subjectVersion other := by
  cases he : actions.isEmpty <;> by_cases h : other = subject <;>
    simp [replaceFacts, revokeSubject, subjectVersion, he, h]

@[simp] theorem subjectVersion_setRole :
    (base.setRole subject role).subjectVersion other =
      if other = subject then base.subjectVersion subject + 1 else base.subjectVersion other := by
  by_cases h : other = subject <;> simp [setRole, revokeSubject, subjectVersion, h]

@[simp] theorem objectVersion_addFact :
    (base.addFact subject object action).objectVersion target = base.objectVersion target := rfl

@[simp] theorem objectVersion_removeFacts :
    (base.removeFacts subject object).objectVersion target = base.objectVersion target := rfl

@[simp] theorem objectVersion_clearObject :
    (base.clearObject object).objectVersion target =
      if target = object then base.objectVersion object + 1 else base.objectVersion target := by
  by_cases h : target = object <;> simp [clearObject, revokeObject, objectVersion, h]

@[simp] theorem objectVersion_replaceFacts :
    (base.replaceFacts subject object actions).objectVersion target =
      base.objectVersion target := by
  cases he : actions.isEmpty <;> simp [replaceFacts, revokeSubject, objectVersion, he]

@[simp] theorem objectVersion_setRole :
    (base.setRole subject role).objectVersion target = base.objectVersion target := rfl

end FactBase

end AccessControl
