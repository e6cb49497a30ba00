import AccessControl.Proofs.FactBase
import AccessControl.Proofs.Privilege

/-!
# What a request to the engine does to a privilege

A request can withdraw a privilege, confer it, or offer it under the condition that the revocation
counters have not moved.  The laws of this module say that a request does nothing else, and that a
request that withdraws a privilege moves one of its counters.
-/

namespace AccessControl

/-- The version after some moves of the two counters. -/
def FactVersion.advanced (version : FactVersion) (subject object : Nat) : FactVersion :=
  ⟨version.subject + .ofNat subject, version.object + .ofNat object⟩

namespace FactVersion

variable {version : FactVersion} {i j : Nat}

@[simp] theorem advanced_zero : version.advanced 0 0 = version := by
  simp [advanced]

theorem advanced_advanced (k l : Nat) :
    (version.advanced i j).advanced k l = version.advanced (i + k) (j + l) := by
  simp [advanced, UInt64.add_assoc]

/-- Fewer moves than a counter has values are noticed. -/
theorem advanced_ne (hmoved : 0 < i + j) (hfew : i + j < UInt64.size) :
    version.advanced i j ≠ version := by
  intro h
  -- read in numbers: a counter that has come back to its value has gone all the way round
  have hs : version.subject + UInt64.ofNat i = version.subject := congrArg subject h
  have ho : version.object + UInt64.ofNat j = version.object := congrArg object h
  have hs' := congrArg UInt64.toNat hs
  have ho' := congrArg UInt64.toNat ho
  simp only [UInt64.toNat_add, UInt64.toNat_ofNat'] at hs' ho'
  have := version.subject.toNat_lt_size
  have := version.object.toNat_lt_size
  simp only [UInt64.size] at *
  omega

end FactVersion

/-- The counters that guard a privilege; those of a role are its subject's alone. -/
def FactBase.versionOf (base : FactBase) : Privilege → FactVersion
  | .fact user object _ => base.version user object
  | .administration user => base.roleVersion user

namespace EngineRequest

/-- Whether a request that was replied to has moved a revocation counter. -/
def moves : (request : EngineRequest) → request.Reply → Bool
  | removeFacts .., _ => true
  | clearObject _, _ => true
  | replaceFacts .., _ => true
  | replaceFactsIfCurrent .., replaced => replaced
  | setRole .., _ => true
  | setRoleIfCurrent .., recorded => recorded
  | _, _ => false

/-- Whether a request that was replied to has taken the privilege away. -/
def Withdraws (privilege : Privilege) : (request : EngineRequest) → request.Reply → Prop
  | removeFacts user object, _ => ∃ action, privilege = .fact user object action
  | clearObject object, _ => ∃ user action, privilege = .fact user object action
  | replaceFacts user object _, _ => ∃ action, privilege = .fact user object action
  | replaceFactsIfCurrent user object _ _, replaced =>
    replaced = true ∧ ∃ action, privilege = .fact user object action
  | setRole user _, _ => privilege = .administration user
  | setRoleIfCurrent user _ _, recorded => recorded = true ∧ privilege = .administration user
  | _, _ => False

/-- Whether a request gives the privilege if its counters still stand at `seen`. -/
def Offers (privilege : Privilege) (seen : FactVersion) : EngineRequest → Prop
  | addFactIfCurrent user object action guard =>
    privilege = .fact user object action ∧ seen = guard
  | replaceFactsIfCurrent user object actions guard =>
    (∃ action ∈ actions, privilege = .fact user object action) ∧ seen = guard
  | setRoleIfCurrent user role guard =>
    (privilege = .administration user ∧ role.isAdministrative = true) ∧ seen = guard
  | _ => False

/-- Whether a request gives the privilege whatever its counters say. -/
def Confers (privilege : Privilege) : EngineRequest → Prop
  | addFact user object action => privilege = .fact user object action
  | replaceFacts user object actions => ∃ action ∈ actions, privilege = .fact user object action
  | setRole user role => privilege = .administration user ∧ role.isAdministrative = true
  | _ => False

/-- Whether the reply to a request says where the counters of the privilege stand. -/
def Reveals (privilege : Privilege) (seen : FactVersion) :
    (request : EngineRequest) → request.Reply → Prop
  | version user object, reply => (∃ action, privilege = .fact user object action) ∧ seen = reply
  | roleVersion user, reply => privilege = .administration user ∧ seen = reply
  | _, _ => False

/-- Whether a request gives the privilege only if the counters stand where `allowed` says. -/
def OffersOnly (privilege : Privilege) (allowed : FactVersion → Prop) (request : EngineRequest) :
    Prop :=
  ¬request.Confers privilege ∧ ∀ seen, request.Offers privilege seen → allowed seen

/-- Whether a request does not give the privilege, wherever the counters stand. -/
def Modest (privilege : Privilege) : EngineRequest → Prop := OffersOnly privilege fun _ => False

theorem OffersOnly.imp {privilege : Privilege} {allowed allowed' : FactVersion → Prop}
    {request : EngineRequest} (h : request.OffersOnly privilege allowed)
    (hallowed : ∀ seen, allowed seen → allowed' seen) : request.OffersOnly privilege allowed' :=
  ⟨h.1, fun seen hoffer => hallowed seen (h.2 seen hoffer)⟩

end EngineRequest

namespace FactBase

variable {base : FactBase} {privilege : Privilege} {request : EngineRequest} {subject : UserId}
  {object : PolicyObject} {action : Action} {actions : ActionSet} {role : Role}

/-! ## The privileges after an operation -/

theorem holds_addFact : (base.addFact subject object action).Holds privilege ↔
    privilege = .fact subject object action ∨ base.Holds privilege := by
  cases privilege with
  | fact user target wanted =>
    by_cases h : user = subject ∧ target = object
    · obtain ⟨rfl, rfl⟩ := h
      simp [Holds]
    · simp only [Holds, actionsFor_addFact, if_neg h, Privilege.fact.injEq]
      grind
  | administration user => simp [Holds, isAdministrator]

theorem holds_removeFacts : (base.removeFacts subject object).Holds privilege ↔
    base.Holds privilege ∧ ¬∃ action, privilege = .fact subject object action := by
  cases privilege with
  | fact user target wanted =>
    by_cases h : user = subject ∧ target = object
    · simp [Holds, h]
    · simp only [Holds, actionsFor_removeFacts, if_neg h, Privilege.fact.injEq]
      grind
  | administration user => simp [Holds, isAdministrator]

theorem holds_clearObject : (base.clearObject object).Holds privilege ↔
    base.Holds privilege ∧ ¬∃ user action, privilege = .fact user object action := by
  cases privilege with
  | fact user target wanted =>
    by_cases h : target = object <;> simp [Holds, h]
  | administration user => simp [Holds, isAdministrator]

theorem holds_replaceFacts : (base.replaceFacts subject object actions).Holds privilege ↔
    (∃ action ∈ actions, privilege = .fact subject object action) ∨
      base.Holds privilege ∧ ¬∃ action, privilege = .fact subject object action := by
  cases privilege with
  | fact user target wanted =>
    by_cases h : user = subject ∧ target = object
    · simp [Holds, h]
    · simp only [Holds, actionsFor_replaceFacts, if_neg h, Privilege.fact.injEq]
      grind
  | administration user => simp [Holds, isAdministrator]

theorem holds_setRole : (base.setRole subject role).Holds privilege ↔
    (privilege = .administration subject ∧ role.isAdministrative = true) ∨
      base.Holds privilege ∧ privilege ≠ .administration subject := by
  cases privilege with
  | fact user target wanted => simp [Holds]
  | administration user => by_cases h : user = subject <;> simp [Holds, isAdministrator, h]

theorem not_holds_empty : ¬(∅ : FactBase).Holds privilege := by
  cases privilege with
  | fact user object action => exact ActionSet.not_mem_empty action
  | administration user => exact Bool.false_ne_true

/-- A privilege is held after a request only if it was held and not withdrawn, or was given. -/
theorem holds_answer (h : (base.answer request).2.Holds privilege) :
    (base.Holds privilege ∧ ¬request.Withdraws privilege (base.answer request).1) ∨
      request.Confers privilege ∨ request.Offers privilege (base.versionOf privilege) := by
  cases request with
  | addFact subject object action =>
    exact (holds_addFact.1 h).elim (fun hp => .inr (.inl hp)) fun hb => .inl ⟨hb, id⟩
  | addFactIfCurrent subject object action seen =>
    simp only [answer] at h ⊢
    split at h
    case isTrue hseen =>
      rcases holds_addFact.1 h with rfl | hb
      · exact .inr (.inr ⟨rfl, hseen⟩)
      · exact .inl ⟨hb, id⟩
    case isFalse => exact .inl ⟨h, id⟩
  | removeFacts subject object => exact .inl (holds_removeFacts.1 h)
  | clearObject object => exact .inl (holds_clearObject.1 h)
  | replaceFacts subject object actions => exact (holds_replaceFacts.1 h).symm.imp_right .inl
  | replaceFactsIfCurrent subject object actions seen =>
    simp only [answer] at h ⊢
    split at h
    case isTrue hseen =>
      rcases holds_replaceFacts.1 h with ⟨action, haction, rfl⟩ | ⟨hb, hother⟩
      · exact .inr (.inr ⟨⟨action, haction, rfl⟩, hseen⟩)
      · exact .inl ⟨hb, fun hw => hother hw.2⟩
    case isFalse hseen =>
      refine .inl ⟨h, fun hw => ?_⟩
      simp [EngineRequest.Withdraws, hseen] at hw
  | setRole subject role => exact (holds_setRole.1 h).symm.imp_right .inl
  | setRoleIfCurrent subject role seen =>
    simp only [answer] at h ⊢
    split at h
    case isTrue hseen =>
      rcases holds_setRole.1 h with ⟨rfl, hadmin⟩ | ⟨hb, hother⟩
      · exact .inr (.inr ⟨⟨rfl, hadmin⟩, hseen⟩)
      · exact .inl ⟨hb, fun hw => hother hw.2⟩
    case isFalse hseen =>
      refine .inl ⟨h, fun hw => ?_⟩
      simp [EngineRequest.Withdraws, hseen] at hw
  | _ => exact .inl ⟨h, id⟩

/-- A privilege that is held stays held, unless the request withdraws it. -/
theorem holds_answer_of_held (h : base.Holds privilege)
    (hkept : ¬request.Withdraws privilege (base.answer request).1) :
    (base.answer request).2.Holds privilege := by
  cases request with
  | addFact subject object action => exact holds_addFact.2 (.inr h)
  | addFactIfCurrent subject object action seen =>
    simp only [answer]
    split
    · exact holds_addFact.2 (.inr h)
    · exact h
  | removeFacts subject object => exact holds_removeFacts.2 ⟨h, hkept⟩
  | clearObject object => exact holds_clearObject.2 ⟨h, hkept⟩
  | replaceFacts subject object actions => exact holds_replaceFacts.2 (.inr ⟨h, hkept⟩)
  | replaceFactsIfCurrent subject object actions seen =>
    simp only [answer] at hkept ⊢
    split at hkept
    case isTrue hseen =>
      rw [if_pos hseen]
      exact holds_replaceFacts.2 (.inr ⟨h, fun hpair => hkept ⟨rfl, hpair⟩⟩)
    case isFalse hseen =>
      rw [if_neg hseen]
      exact h
  | setRole subject role => exact holds_setRole.2 (.inr ⟨h, hkept⟩)
  | setRoleIfCurrent subject role seen =>
    simp only [answer] at hkept ⊢
    split at hkept
    case isTrue hseen =>
      rw [if_pos hseen]
      exact holds_setRole.2 (.inr ⟨h, fun hrole => hkept ⟨rfl, hrole⟩⟩)
    case isFalse hseen =>
      rw [if_neg hseen]
      exact h
  | _ => exact h

/-! ## The counters after an operation -/

/-- An operation that moves the counter of one subject, and no other counter. -/
theorem versionOf_of_subject {next : FactBase} {withdrawn : Prop}
    (hs : ∀ other, next.subjectVersion other =
      if other = subject then base.subjectVersion subject + 1 else base.subjectVersion other)
    (ho : ∀ object, next.objectVersion object = base.objectVersion object)
    (hw : withdrawn → privilege.user = subject) :
    ∃ i j, i + j ≤ 1 ∧ next.versionOf privilege = (base.versionOf privilege).advanced i j ∧
      (withdrawn → 0 < i + j) := by
  refine ⟨if privilege.user = subject then 1 else 0, 0, by grind, ?_, by grind⟩
  cases privilege with
  | fact user object action =>
    by_cases h : user = subject <;>
      simp [versionOf, version, FactVersion.advanced, Privilege.user, hs, ho, h]
  | administration user =>
    by_cases h : user = subject <;>
      simp [versionOf, roleVersion, FactVersion.advanced, Privilege.user, hs, h]

theorem versionOf_clearObject :
    ∃ i j, i + j ≤ 1 ∧
      (base.clearObject object).versionOf privilege = (base.versionOf privilege).advanced i j ∧
      ((∃ user action, privilege = .fact user object action) → 0 < i + j) := by
  cases privilege with
  | fact user target action =>
    refine ⟨0, if target = object then 1 else 0, by grind, ?_, by grind⟩
    by_cases h : target = object <;> simp [versionOf, version, FactVersion.advanced, h]
  | administration user =>
    exact ⟨0, 0, by simp, by simp [versionOf, roleVersion], by simp⟩

theorem versionOf_still (privilege : Privilege) (n : Nat) :
    ∃ i j, i + j ≤ n ∧ base.versionOf privilege = (base.versionOf privilege).advanced i j ∧
      (False → 0 < i + j) :=
  ⟨0, 0, by simp, by simp, False.elim⟩

/-- A request moves at most one counter of a privilege, and moves one if it withdraws it. -/
theorem versionOf_answer (base : FactBase) (privilege : Privilege) (request : EngineRequest) :
    ∃ i j, i + j ≤ (request.moves (base.answer request).1).toNat ∧
      (base.answer request).2.versionOf privilege = (base.versionOf privilege).advanced i j ∧
      (request.Withdraws privilege (base.answer request).1 → 0 < i + j) := by
  cases request with
  | addFact subject object action =>
    cases privilege <;> exact versionOf_still _ _
  | addFactIfCurrent subject object action seen =>
    simp only [answer]
    split <;> cases privilege <;> exact versionOf_still _ _
  | removeFacts subject object =>
    exact versionOf_of_subject (fun _ => subjectVersion_removeFacts)
      (fun _ => objectVersion_removeFacts) (by rintro ⟨action, rfl⟩; rfl)
  | clearObject object => exact versionOf_clearObject
  | replaceFacts subject object actions =>
    exact versionOf_of_subject (fun _ => subjectVersion_replaceFacts)
      (fun _ => objectVersion_replaceFacts) (by rintro ⟨action, rfl⟩; rfl)
  | replaceFactsIfCurrent subject object actions seen =>
    simp only [answer]
    split
    · exact versionOf_of_subject (fun _ => subjectVersion_replaceFacts)
        (fun _ => objectVersion_replaceFacts) (by rintro ⟨-, action, rfl⟩; rfl)
    · exact ⟨0, 0, by simp, by simp, fun hw => by simp [EngineRequest.Withdraws] at hw⟩
  | setRole subject role =>
    exact versionOf_of_subject (fun _ => subjectVersion_setRole)
      (fun _ => objectVersion_setRole) (by rintro rfl; rfl)
  | setRoleIfCurrent subject role seen =>
    simp only [answer]
    split
    · exact versionOf_of_subject (fun _ => subjectVersion_setRole)
        (fun _ => objectVersion_setRole) (by rintro ⟨-, rfl⟩; rfl)
    · exact ⟨0, 0, by simp, by simp, fun hw => by simp [EngineRequest.Withdraws] at hw⟩
  | _ => exact versionOf_still _ _

/-- A reply that says where the counters stand is right, and the request changed nothing. -/
theorem reveals_answer {seen : FactVersion}
    (h : request.Reveals privilege seen (base.answer request).1) :
    seen = base.versionOf privilege ∧ (base.answer request).2 = base := by
  cases request <;> simp [EngineRequest.Reveals] at h
  · obtain ⟨⟨action, rfl⟩, rfl⟩ := h
    exact ⟨rfl, rfl⟩
  · obtain ⟨rfl, rfl⟩ := h
    exact ⟨rfl, rfl⟩

end FactBase

end AccessControl
