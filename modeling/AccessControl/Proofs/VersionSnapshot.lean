import AccessControl.Proofs.EngineRun

/-!
# What a snapshot of the revocation counters tells

Whoever has taken the version of a pair of subject and object can tell later whether anything was
revoked from either: the counters stand where they stood exactly if nothing was.  A removal that
found nothing counts as a revocation, a guarded write that was not made does not.  Counters are
machine words, so that this holds as long as fewer revocations are made than a word has values.
-/

namespace AccessControl

namespace EngineEvent

/-- Whether the request has moved a revocation counter. -/
def moves (event : EngineEvent) : Bool := event.request.moves event.reply

/-- Whether the request has revoked something from the subject. -/
def revokesSubject (subject : UserId) : EngineEvent → Bool
  | ⟨.removeFacts user _, _⟩ => user = subject
  | ⟨.replaceFacts user _ _, _⟩ => user = subject
  | ⟨.replaceFactsIfCurrent user _ _ _, replaced⟩ => replaced && decide (user = subject)
  | ⟨.setRole user _, _⟩ => user = subject
  | ⟨.setRoleIfCurrent user _ _, recorded⟩ => recorded && decide (user = subject)
  | _ => false

/-- Whether the request has revoked everything about the object. -/
def revokesObject (object : PolicyObject) : EngineEvent → Bool
  | ⟨.clearObject target, _⟩ => target = object
  | _ => false

variable {event : EngineEvent} {subject : UserId} {object : PolicyObject}

/-- A revocation is made from one subject or from one object, and moves a counter. -/
theorem revokes_le_moves (event : EngineEvent) (subject : UserId) (object : PolicyObject) :
    (event.revokesSubject subject).toNat + (event.revokesObject object).toNat ≤
      event.moves.toNat := by
  obtain ⟨request, reply⟩ := event
  cases request with
  | replaceFactsIfCurrent user target actions seen =>
    cases reply <;> simp [revokesSubject, revokesObject, moves, EngineRequest.moves, Bool.toNat_le]
  | setRoleIfCurrent user role seen =>
    cases reply <;> simp [revokesSubject, revokesObject, moves, EngineRequest.moves, Bool.toNat_le]
  | _ => simp [revokesSubject, revokesObject, moves, EngineRequest.moves, Bool.toNat_le]

/-- What withdraws a fact revokes something from its subject or everything about its object. -/
theorem revokes_of_withdraws {action : Action}
    (h : event.request.Withdraws (.fact subject object action) event.reply) :
    event.revokesSubject subject = true ∨ event.revokesObject object = true := by
  obtain ⟨request, reply⟩ := event
  cases request <;> simp_all [EngineRequest.Withdraws, revokesSubject, revokesObject]

end EngineEvent

/-- How many of the events have revoked something from the subject. -/
def subjectRevocations (subject : UserId) (events : List EngineEvent) : Nat :=
  events.countP (EngineEvent.revokesSubject subject)

/-- How many of the events have revoked everything about the object. -/
def objectRevocations (object : PolicyObject) (events : List EngineEvent) : Nat :=
  events.countP (EngineEvent.revokesObject object)

/-- Counters that move fewer times than they have values are where they were only if they have not
moved. -/
theorem FactVersion.advanced_eq_self {version : FactVersion} {i j : Nat}
    (hfew : i + j < UInt64.size) : version.advanced i j = version ↔ i + j = 0 := by
  constructor
  · intro hsame
    exact Nat.eq_zero_of_not_pos fun hmoved => advanced_ne hmoved hfew hsame
  · intro hstill
    obtain ⟨rfl, rfl⟩ := Nat.add_eq_zero_iff.1 hstill
    exact advanced_zero

section Events

variable {event : EngineEvent} {rest : List EngineEvent} {subject : UserId} {object : PolicyObject}

@[simp] theorem subjectRevocations_cons : subjectRevocations subject (event :: rest) =
    subjectRevocations subject rest + (event.revokesSubject subject).toNat := by
  cases h : event.revokesSubject subject <;> simp [subjectRevocations, h]

@[simp] theorem objectRevocations_cons : objectRevocations object (event :: rest) =
    objectRevocations object rest + (event.revokesObject object).toNat := by
  cases h : event.revokesObject object <;> simp [objectRevocations, h]

theorem subjectRevocations_eq_zero {events : List EngineEvent} :
    subjectRevocations subject events = 0 ↔
      ∀ event ∈ events, event.revokesSubject subject = false := by
  simp [subjectRevocations]

theorem objectRevocations_eq_zero {events : List EngineEvent} :
    objectRevocations object events = 0 ↔
      ∀ event ∈ events, event.revokesObject object = false := by
  simp [objectRevocations]

theorem revocations_le_moves (subject : UserId) (object : PolicyObject)
    (events : List EngineEvent) : subjectRevocations subject events +
      objectRevocations object events ≤ events.countP EngineEvent.moves := by
  induction events with
  | nil => exact Nat.le_refl 0
  | cons event rest ih =>
    have hevent := event.revokes_le_moves subject object
    cases hmoves : event.moves <;>
      simp only [hmoves, Bool.toNat_false, Bool.toNat_true] at hevent <;>
      simp [hmoves] <;> omega

end Events

namespace FactBase

variable {base : FactBase} {subject : UserId} {object : PolicyObject} {action : Action}

/-! ## One request -/

theorem subjectVersion_answer (request : EngineRequest) (subject : UserId) :
    (base.answer request).2.subjectVersion subject = base.subjectVersion subject +
      .ofNat (EngineEvent.revokesSubject subject ⟨request, (base.answer request).1⟩).toNat := by
  cases request with
  | addFactIfCurrent user target wanted seen =>
    simp only [answer]
    split <;> simp [EngineEvent.revokesSubject]
  | replaceFactsIfCurrent user target actions seen =>
    simp only [answer]
    split
    · by_cases huser : subject = user <;> simp [EngineEvent.revokesSubject, huser, eq_comm]
    · simp [EngineEvent.revokesSubject]
  | setRoleIfCurrent user role seen =>
    simp only [answer]
    split
    · by_cases huser : subject = user <;> simp [EngineEvent.revokesSubject, huser, eq_comm]
    · simp [EngineEvent.revokesSubject]
  | removeFacts user target =>
    by_cases huser : subject = user <;> simp [answer, EngineEvent.revokesSubject, huser, eq_comm]
  | replaceFacts user target actions =>
    by_cases huser : subject = user <;> simp [answer, EngineEvent.revokesSubject, huser, eq_comm]
  | setRole user role =>
    by_cases huser : subject = user <;> simp [answer, EngineEvent.revokesSubject, huser, eq_comm]
  | _ => simp [answer, EngineEvent.revokesSubject]

theorem objectVersion_answer (request : EngineRequest) (object : PolicyObject) :
    (base.answer request).2.objectVersion object = base.objectVersion object +
      .ofNat (EngineEvent.revokesObject object ⟨request, (base.answer request).1⟩).toNat := by
  cases request with
  | clearObject target =>
    by_cases htarget : object = target <;>
      simp [answer, EngineEvent.revokesObject, htarget, eq_comm]
  | addFactIfCurrent | replaceFactsIfCurrent | setRoleIfCurrent =>
    simp only [answer]
    split <;> simp [EngineEvent.revokesObject]
  | _ => simp [answer, EngineEvent.revokesObject]

/-- A request that revokes nothing from the subject leaves its role alone. -/
theorem roleOf_answer {request : EngineRequest}
    (h : EngineEvent.revokesSubject subject ⟨request, (base.answer request).1⟩ = false) :
    (base.answer request).2.roleOf subject = base.roleOf subject := by
  cases request with
  | setRole user role =>
    have hother : subject ≠ user := fun hsame => by simp [EngineEvent.revokesSubject, hsame] at h
    simp [answer, hother]
  | setRoleIfCurrent user role seen =>
    simp only [answer] at h ⊢
    split at h
    case isTrue hseen =>
      have hother : subject ≠ user := fun hsame => by simp [EngineEvent.revokesSubject, hsame] at h
      simp [hseen, hother]
    case isFalse hseen => simp [hseen]
  | addFactIfCurrent | replaceFactsIfCurrent =>
    simp only [answer]
    split <;> simp
  | _ => simp [answer]

/-! ## Many requests -/

/-- The counters of a pair have moved once for each revocation. -/
theorem version_afterAll (requests : List EngineRequest) (subject : UserId)
    (object : PolicyObject) : (base.afterAll requests).version subject object =
      (base.version subject object).advanced (subjectRevocations subject (base.events requests))
        (objectRevocations object (base.events requests)) := by
  induction requests generalizing base with
  | nil => exact FactVersion.advanced_zero.symm
  | cons request rest ih =>
    have hstep : (base.answer request).2.version subject object =
        (base.version subject object).advanced
          (EngineEvent.revokesSubject subject ⟨request, (base.answer request).1⟩).toNat
          (EngineEvent.revokesObject object ⟨request, (base.answer request).1⟩).toNat := by
      simp only [version, subjectVersion_answer, objectVersion_answer, FactVersion.advanced]
    rw [afterAll_cons, ih, hstep, FactVersion.advanced_advanced, events, subjectRevocations_cons,
      objectRevocations_cons, Nat.add_comm (subjectRevocations _ _),
      Nat.add_comm (objectRevocations _ _)]

theorem roleVersion_afterAll (requests : List EngineRequest) (subject : UserId) :
    (base.afterAll requests).roleVersion subject =
      (base.roleVersion subject).advanced
        (subjectRevocations subject (base.events requests)) 0 := by
  -- the counter of a subject is the same in the versions of all objects
  have hversion : (base.afterAll requests).version subject (.type .page) = _ :=
    version_afterAll requests subject (.type .page)
  have hsubject := congrArg FactVersion.subject hversion
  simp only [version, FactVersion.advanced] at hsubject
  simp [roleVersion, FactVersion.advanced, hsubject]

/-- The counters of a pair stand still exactly if nothing is revoked from its subject or its
object. -/
theorem version_afterAll_eq_iff {requests : List EngineRequest}
    (hfew : (base.events requests).countP EngineEvent.moves < UInt64.size) :
    (base.afterAll requests).version subject object = base.version subject object ↔
      ∀ event ∈ base.events requests,
        event.revokesSubject subject = false ∧ event.revokesObject object = false := by
  have hmoves := revocations_le_moves subject object (base.events requests)
  rw [version_afterAll, FactVersion.advanced_eq_self (by omega), Nat.add_eq_zero_iff,
    subjectRevocations_eq_zero, objectRevocations_eq_zero]
  simp only [← imp_and, ← forall_and]

theorem roleVersion_afterAll_eq_iff {requests : List EngineRequest}
    (hfew : (base.events requests).countP EngineEvent.moves < UInt64.size) :
    (base.afterAll requests).roleVersion subject = base.roleVersion subject ↔
      ∀ event ∈ base.events requests, event.revokesSubject subject = false := by
  have hmoves := revocations_le_moves subject (.type .page) (base.events requests)
  rw [roleVersion_afterAll, FactVersion.advanced_eq_self (by omega), Nat.add_zero,
    subjectRevocations_eq_zero]

/-- Without a revocation the pair keeps every fact that it has. -/
theorem holds_fact_afterAll {requests : List EngineRequest}
    (hkept : ∀ event ∈ base.events requests,
      event.revokesSubject subject = false ∧ event.revokesObject object = false)
    (h : base.Holds (.fact subject object action)) :
    (base.afterAll requests).Holds (.fact subject object action) := by
  induction requests generalizing base with
  | nil => exact h
  | cons request rest ih =>
    rw [events, List.forall_mem_cons] at hkept
    refine ih hkept.2 (holds_answer_of_held h fun hwithdraws => ?_)
    have hrevokes : EngineEvent.revokesSubject subject ⟨request, (base.answer request).1⟩ = true ∨
        EngineEvent.revokesObject object ⟨request, (base.answer request).1⟩ = true :=
      EngineEvent.revokes_of_withdraws hwithdraws
    simp [hkept.1] at hrevokes

theorem roleOf_afterAll {requests : List EngineRequest}
    (h : ∀ event ∈ base.events requests, event.revokesSubject subject = false) :
    (base.afterAll requests).roleOf subject = base.roleOf subject := by
  induction requests generalizing base with
  | nil => rfl
  | cons request rest ih =>
    rw [events, List.forall_mem_cons] at h
    exact (ih h.2).trans (roleOf_answer h.1)

end FactBase

namespace Engine

/-- Whether a guarded write was made exactly if its guard stood, and left the engine as it was
otherwise. -/
structure Guarded (engine : Engine) (current : Prop)
    (answer : Except EngineError Bool × Engine) : Prop where
  made : answer.1 = .ok true ↔ current
  refused : ¬current → answer = (.ok false, engine)

variable {engine : Engine} {subject : UserId} {object : PolicyObject} {seen roleSeen : FactVersion}
  {operations : List EngineOperation}

theorem works_of_answer {request : EngineRequest} {reply : request.Reply}
    (h : (engine.answer request).1 = .ok reply) : engine.poisoned = false := by
  cases hpoisoned : engine.poisoned with
  | true => simp [answer, hpoisoned] at h
  | false => rfl

theorem answer_version_iff (h : engine.poisoned = false) :
    (engine.answer (.version subject object)).1 = .ok seen ↔
      engine.base.version subject object = seen := by
  rw [answer_of_works h]
  exact ⟨Except.ok.inj, congrArg Except.ok⟩

theorem answer_roleVersion_iff (h : engine.poisoned = false) :
    (engine.answer (.roleVersion subject)).1 = .ok seen ↔
      engine.base.roleVersion subject = seen := by
  rw [answer_of_works h]
  exact ⟨Except.ok.inj, congrArg Except.ok⟩

/-- A write is guarded if the engine that makes it has compared something first. -/
theorem guarded_of_eq_ite {current : Prop} [Decidable current] (written : Engine)
    {answer : Except EngineError Bool × Engine}
    (h : answer = if current then (.ok true, written) else (.ok false, engine)) :
    engine.Guarded current answer := by
  by_cases hcurrent : current
  · rw [if_pos hcurrent] at h
    exact ⟨by simp [h, hcurrent], fun hnot => absurd hcurrent hnot⟩
  · rw [if_neg hcurrent] at h
    exact ⟨by simp [h, hcurrent], fun _ => h⟩

theorem guarded_addFactIfCurrent (h : engine.poisoned = false) (action : Action) :
    engine.Guarded (engine.base.version subject object = seen)
      (engine.answer (.addFactIfCurrent subject object action seen)) := by
  refine guarded_of_eq_ite
    { engine with base := engine.base.addFact subject object action } ?_
  rw [answer_of_works h, FactBase.answer]
  split <;> rfl

theorem guarded_replaceFactsIfCurrent (h : engine.poisoned = false) (actions : ActionSet) :
    engine.Guarded (engine.base.version subject object = seen)
      (engine.answer (.replaceFactsIfCurrent subject object actions seen)) := by
  refine guarded_of_eq_ite
    { engine with base := engine.base.replaceFacts subject object actions } ?_
  rw [answer_of_works h, FactBase.answer]
  split <;> rfl

theorem guarded_setRoleIfCurrent (h : engine.poisoned = false) (role : Role) :
    engine.Guarded (engine.base.roleVersion subject = seen)
      (engine.answer (.setRoleIfCurrent subject role seen)) := by
  refine guarded_of_eq_ite { engine with base := engine.base.setRole subject role } ?_
  rw [answer_of_works h, FactBase.answer]
  split <;> rfl

/-- A version that was taken before some operations, of which fewer revoke than a counter has
values, is still the version afterwards exactly if none of them has revoked anything from the
subject or about the object.  The pair has then kept its facts and the subject its role.  A write
that is guarded by the version is made exactly if the version still stands.  The same holds for
the version of the subject's role, which clearing an object does not move. -/
theorem version_current_iff (hseen : (engine.answer (.version subject object)).1 = .ok seen)
    (hrole : (engine.answer (.roleVersion subject)).1 = .ok roleSeen)
    (hfew : (engine.events operations).countP EngineEvent.moves < UInt64.size) :
    let after := engine.performAll operations
    let current := (after.answer (.version subject object)).1 = .ok seen
    let roleCurrent := (after.answer (.roleVersion subject)).1 = .ok roleSeen
    (current ↔ ∀ event ∈ engine.events operations,
        event.revokesSubject subject = false ∧ event.revokesObject object = false) ∧
      (roleCurrent ↔ ∀ event ∈ engine.events operations, event.revokesSubject subject = false) ∧
      (current → (∀ action ∈ engine.base.actionsFor subject object,
          action ∈ after.base.actionsFor subject object) ∧
        after.base.roleOf subject = engine.base.roleOf subject) ∧
      (∀ action, after.Guarded current
        (after.answer (.addFactIfCurrent subject object action seen))) ∧
      (∀ actions, after.Guarded current
        (after.answer (.replaceFactsIfCurrent subject object actions seen))) ∧
      ∀ role, after.Guarded roleCurrent
        (after.answer (.setRoleIfCurrent subject role roleSeen)) := by
  intro after current roleCurrent
  have hworks := works_of_answer hseen
  obtain rfl := (answer_version_iff hworks).1 hseen
  obtain rfl := (answer_roleVersion_iff hworks).1 hrole
  have hafter := performAll_of_works hworks operations
  have hbase : after.base = engine.base.afterAll (operations.flatMap EngineOperation.requests) :=
    congrArg base hafter
  have hworks' : after.poisoned = false := (congrArg poisoned hafter).trans hworks
  have hcurrent : current ↔
      after.base.version subject object = engine.base.version subject object :=
    answer_version_iff hworks'
  have hroleCurrent : roleCurrent ↔
      after.base.roleVersion subject = engine.base.roleVersion subject :=
    answer_roleVersion_iff hworks'
  have hunrevoked : current ↔ ∀ event ∈ engine.events operations,
      event.revokesSubject subject = false ∧ event.revokesObject object = false := by
    rw [hcurrent, hbase]
    exact FactBase.version_afterAll_eq_iff hfew
  refine ⟨hunrevoked, ?_, ?_, ?_, ?_, ?_⟩
  · rw [hroleCurrent, hbase]
    exact FactBase.roleVersion_afterAll_eq_iff hfew
  · intro hstands
    have hnone := hunrevoked.1 hstands
    rw [hbase]
    exact ⟨fun action => FactBase.holds_fact_afterAll hnone,
      FactBase.roleOf_afterAll fun event hmem => (hnone event hmem).1⟩
  · intro action
    rw [hcurrent]
    exact guarded_addFactIfCurrent hworks' action
  · intro actions
    rw [hcurrent]
    exact guarded_replaceFactsIfCurrent hworks' actions
  · intro role
    rw [hroleCurrent]
    exact guarded_setRoleIfCurrent hworks' role

/-- A removal that finds nothing is noticed by the subject, and by nobody else. -/
theorem version_noticed_after_removal :
    let operations : List EngineOperation := [.ask (.removeFacts ⟨.ofNat 1⟩ (.type .page))]
    let after := ({} : Engine).performAll operations
    (({} : Engine).answer (.version ⟨.ofNat 1⟩ (.type .page))).1 = .ok ⟨0, 0⟩ ∧
      (({} : Engine).answer (.version ⟨.ofNat 2⟩ (.type .page))).1 = .ok ⟨0, 0⟩ ∧
      (after.answer (.version ⟨.ofNat 1⟩ (.type .page))).1 ≠ .ok ⟨0, 0⟩ ∧
      (after.answer (.version ⟨.ofNat 2⟩ (.type .page))).1 = .ok ⟨0, 0⟩ := by
  intro operations after
  have hfew : (({} : Engine).events operations).countP EngineEvent.moves < UInt64.size := by
    decide
  have hfirst := @version_current_iff {} ⟨.ofNat 1⟩ (.type .page) ⟨0, 0⟩ ⟨0, 0⟩ _ rfl rfl hfew
  have hsecond := @version_current_iff {} ⟨.ofNat 2⟩ (.type .page) ⟨0, 0⟩ ⟨0, 0⟩ _ rfl rfl hfew
  refine ⟨rfl, rfl, ?_, ?_⟩
  · rw [Ne, hfirst.1]
    decide
  · rw [hsecond.1]
    decide

end Engine

end AccessControl
