import AccessControl.Proofs.CallTree

/-!
# One step of a call

A step that does not ask the store is one request to the engine, or none.  What can be said of all
the ways in which a call can go on can be said again after the step.  A call that does not end
without withdrawing a privilege still does not, or a revocation counter of the privilege has moved.
-/

namespace AccessControl

namespace Backend

/-- Whether the engine answers. -/
def Trusted (backend : Backend) : Prop := backend.engine.poisoned = false

/-- Whether the engine would pass a check because of the privilege. -/
def Holds (backend : Backend) (privilege : Privilege) : Prop :=
  backend.engine.base.Holds privilege

/-- Whether the data of record grant the privilege. -/
def Backs (backend : Backend) (privilege : Privilege) : Prop := backend.store.Backs privilege

/-- Where the counters of the privilege stand. -/
def versionOf (backend : Backend) (privilege : Privilege) : FactVersion :=
  backend.engine.base.versionOf privilege

/-- The counters of the privilege go from where they stand in one state to where they stand in
another, by some moves that are counted. -/
def Moves (privilege : Privilege) (before after : Backend) (i j : Nat) : Prop :=
  before.revocations + (i + j) ≤ after.revocations ∧
    after.versionOf privilege = (before.versionOf privilege).advanced i j

variable {backend : Backend} {privilege : Privilege}

theorem Moves.refl (privilege : Privilege) (backend : Backend) :
    backend.Moves privilege backend 0 0 :=
  ⟨Nat.le_refl _, FactVersion.advanced_zero.symm⟩

theorem askEngine_reply (h : backend.Trusted) (request : EngineRequest) :
    (backend.askEngine request).1 = .ok (backend.engine.base.answer request).1 := by
  have hp : backend.engine.poisoned = false := h
  simp [askEngine, Engine.answer, hp]

theorem askEngine_base (h : backend.Trusted) (request : EngineRequest) :
    (backend.askEngine request).2.engine.base = (backend.engine.base.answer request).2 := by
  have hp : backend.engine.poisoned = false := h
  simp [askEngine, Engine.answer, hp]

theorem askEngine_trusted (h : backend.Trusted) (request : EngineRequest) :
    (backend.askEngine request).2.Trusted := by
  have hp : backend.engine.poisoned = false := h
  simp [askEngine, Engine.answer, hp, Trusted]

theorem askEngine_revocations (h : backend.Trusted) (request : EngineRequest) :
    (backend.askEngine request).2.revocations =
      backend.revocations + (request.moves (backend.engine.base.answer request).1).toNat := by
  have hp : backend.engine.poisoned = false := h
  simp [askEngine, Engine.answer, hp]

/-- A request moves the counters of a privilege that it withdraws. -/
theorem askEngine_moves (h : backend.Trusted) (privilege : Privilege) (request : EngineRequest) :
    ∃ i j, backend.Moves privilege (backend.askEngine request).2 i j ∧
      (request.Withdraws privilege (backend.engine.base.answer request).1 → 0 < i + j) := by
  obtain ⟨i, j, hfew, hversion, hw⟩ :=
    FactBase.versionOf_answer backend.engine.base privilege request
  refine ⟨i, j, ⟨?_, ?_⟩, hw⟩
  · rw [askEngine_revocations h]
    omega
  · rw [versionOf, askEngine_base h]
    exact hversion

/-- A privilege is held after a request only if it was held and not withdrawn, or was offered. -/
theorem holds_askEngine (h : backend.Trusted) {request : EngineRequest}
    {allowed : FactVersion → Prop} (hoffers : request.OffersOnly privilege allowed)
    (hp : (backend.askEngine request).2.Holds privilege) :
    backend.Holds privilege ∧
        ¬request.Withdraws privilege (backend.engine.base.answer request).1 ∨
      allowed (backend.versionOf privilege) := by
  rw [Holds, askEngine_base h] at hp
  rcases FactBase.holds_answer hp with hheld | hconfers | hoffer
  · exact .inl hheld
  · exact absurd hconfers hoffers.1
  · exact .inr (hoffers.2 _ hoffer)

end Backend

namespace Call

variable {α : Type} {call rest : Call α} {coordinator : Nat} {before after : Backend}
  {privilege : Privilege}

/-- No step takes back that a counter has moved. -/
theorem step_revocations (h : call.step coordinator before = some (rest, after)) :
    before.revocations ≤ after.revocations := by
  cases call with
  | done => simp [step] at h
  | engine request next =>
    simp only [step, Option.some.injEq, Prod.mk.injEq] at h
    obtain ⟨-, rfl⟩ := h
    exact Nat.le_add_right _ _
  | store => simp [step] at h
  | count counter next =>
    simp only [step, Option.some.injEq, Prod.mk.injEq] at h
    obtain ⟨-, rfl⟩ := h
    exact Nat.le_refl _

/-- A step is the count of an event or a request to the engine. -/
theorem step_cases (h : call.step coordinator before = some (rest, after))
    (htrusted : before.Trusted) :
    (∃ counter, call = count counter rest ∧ after = before.count coordinator counter) ∨
      ∃ request next, call = engine request next ∧
        rest = next (.ok (before.engine.base.answer request).1) ∧
        after = (before.askEngine request).2 := by
  cases call with
  | done => simp [step] at h
  | engine request next =>
    simp only [step, Option.some.injEq, Prod.mk.injEq] at h
    obtain ⟨rfl, rfl⟩ := h
    exact .inr ⟨request, next, rfl, by rw [Backend.askEngine_reply htrusted], rfl⟩
  | store => simp [step] at h
  | count counter next =>
    simp only [step, Option.some.injEq, Prod.mk.injEq] at h
    obtain ⟨rfl, rfl⟩ := h
    exact .inl ⟨counter, rfl, rfl⟩

section

variable (h : call.step coordinator before = some (rest, after)) (htrusted : before.Trusted)

include h htrusted

theorem step_store : after.store = before.store := by
  rcases step_cases h htrusted with ⟨counter, -, rfl⟩ | ⟨request, next, -, -, rfl⟩ <;> rfl

theorem step_trusted : after.Trusted := by
  rcases step_cases h htrusted with ⟨counter, -, rfl⟩ | ⟨request, next, -, -, rfl⟩
  · exact htrusted
  · exact Backend.askEngine_trusted htrusted request

theorem All.step {property : EngineRequest → Prop} (hall : call.All property) :
    rest.All property := by
  rcases step_cases h htrusted with ⟨counter, rfl, -⟩ | ⟨request, next, rfl, rfl, -⟩
  · exact hall
  · exact hall.2 _

theorem Ends.step {property : α → Prop} (hends : call.Ends property) : rest.Ends property := by
  rcases step_cases h htrusted with ⟨counter, rfl, -⟩ | ⟨request, next, rfl, rfl, -⟩
  · exact hends
  · exact hends _

/-- A step shows a call at most where the counters stand. -/
theorem Until.step {atStore} {atEnd : (FactVersion → Prop) → α → Prop}
    {seen : FactVersion → Prop} (huntil : call.Until privilege atStore atEnd seen) :
    ∃ shown, rest.Until privilege atStore atEnd shown ∧
      ∀ version, shown version → seen version ∨ version = after.versionOf privilege := by
  rcases step_cases h htrusted with ⟨counter, rfl, -⟩ | ⟨request, next, rfl, rfl, rfl⟩
  · exact ⟨seen, huntil, fun _ => .inl⟩
  · refine ⟨_, huntil.2 _, fun version hshown => hshown.imp_right fun hreveals => ?_⟩
    obtain ⟨hversion, hbase⟩ := FactBase.reveals_answer hreveals
    rw [hversion, Backend.versionOf, Backend.askEngine_base htrusted, hbase]

/-- A step moves the counters, or leaves to be withdrawn what was to be withdrawn. -/
theorem step_moves (privilege : Privilege) :
    ∃ i j, before.Moves privilege after i j ∧ (i + j = 0 →
      call.Always (EngineRequest.Withdraws privilege) →
        rest.Always (EngineRequest.Withdraws privilege)) := by
  rcases step_cases h htrusted with ⟨counter, rfl, rfl⟩ | ⟨request, next, rfl, rfl, rfl⟩
  · exact ⟨0, 0, .refl privilege before, fun _ => id⟩
  · obtain ⟨i, j, hmoves, hw⟩ := Backend.askEngine_moves htrusted privilege request
    refine ⟨i, j, hmoves, fun hstill halways => (halways _).resolve_left fun hgone => ?_⟩
    have := hw hgone
    omega

/-- What the engine holds after a step it held before, and it is still to be withdrawn if it was;
or the request of the step has offered it. -/
theorem holds_step {allowed : FactVersion → Prop}
    (hoffers : ∀ request next, call = engine request next → request.OffersOnly privilege allowed)
    (hp : after.Holds privilege) :
    before.Holds privilege ∧ (call.Always (EngineRequest.Withdraws privilege) →
        rest.Always (EngineRequest.Withdraws privilege)) ∨
      allowed (before.versionOf privilege) := by
  rcases step_cases h htrusted with ⟨counter, rfl, rfl⟩ | ⟨request, next, rfl, rfl, rfl⟩
  · exact .inl ⟨hp, id⟩
  · refine (Backend.holds_askEngine htrusted (hoffers _ _ rfl) hp).imp_left ?_
    exact fun hheld => ⟨hheld.1, fun halways => (halways _).resolve_left hheld.2⟩

end

end Call

namespace Stage

variable {α : Type} {stage stage' : Stage α} {coordinator : Nat} {before after : Backend}
  {privilege : Privilege}

/-- The ways in which a call goes on without a new answer of the store. -/
inductive Proceeds (coordinator : Nat) (before : Backend) :
    Progress → Stage α → Stage α → Backend → Prop where
  | advance {call rest : Call α} {after : Backend}
      (h : call.step coordinator before = some (rest, after)) :
      Proceeds coordinator before .advance (running call) (running rest) after
  | windUp {call rest : Call Unit} {after : Backend}
      (h : call.step coordinator before = some (rest, after)) :
      Proceeds coordinator before .advance (abandoned call) (abandoned rest) after
  | receive (request : StoreRequest) (onUnknown : List EngineUpdate)
      (next : request.Answer → Call α) (answer : request.Answer) :
      Proceeds coordinator before .receive (answered request onUnknown next answer)
        (running (next answer)) before
  | refuse (error : StorageError) (request : StoreRequest) (onUnknown : List EngineUpdate)
      (next : request.Answer → Call α) :
      Proceeds coordinator before (.refuse error) (running (.store request onUnknown next))
        (running (next (.error error))) before
  | lose (reason : String) (request : StoreRequest) (onUnknown : List EngineUpdate)
      (next : request.Answer → Call α) (answer : request.Answer) :
      Proceeds coordinator before (.lose reason) (answered request onUnknown next answer)
        (running (next (.error (.internal reason)))) before
  | giveUp (request : StoreRequest) (onUnknown : List EngineUpdate)
      (next : request.Answer → Call α) :
      Proceeds coordinator before .giveUp (running (.store request onUnknown next))
        (abandoned (EngineUpdate.applyAll onUnknown)) before
  | giveUpAnswered (request : StoreRequest) (onUnknown : List EngineUpdate)
      (next : request.Answer → Call α) (answer : request.Answer) :
      Proceeds coordinator before .giveUp (answered request onUnknown next answer)
        (abandoned (EngineUpdate.applyAll onUnknown)) before

theorem proceeds_of_proceed {progress : Progress}
    (h : stage.proceed coordinator before progress = some (stage', after)) :
    Proceeds coordinator before progress stage stage' after := by
  unfold proceed at h
  split at h
  case h_1 =>
    obtain ⟨⟨rest, backend⟩, hstep, heq⟩ := Option.map_eq_some_iff.1 h
    cases heq
    exact .advance hstep
  case h_2 =>
    obtain ⟨⟨rest, backend⟩, hstep, heq⟩ := Option.map_eq_some_iff.1 h
    cases heq
    exact .windUp hstep
  case h_8 => simp at h
  all_goals
    simp only [Option.some.injEq, Prod.mk.injEq] at h
    obtain ⟨rfl, rfl⟩ := h
    constructor

theorem Proceeds.revocations {progress : Progress}
    (h : Proceeds coordinator before progress stage stage' after) :
    before.revocations ≤ after.revocations := by
  cases h with
  | advance hstep => exact Call.step_revocations hstep
  | windUp hstep => exact Call.step_revocations hstep
  | _ => exact Nat.le_refl _

/-- The call does not end without withdrawing the privilege, however it goes on. -/
def Withdraws (privilege : Privilege) (stage : Stage α) : Prop :=
  stage.Every fun call => call.Always (EngineRequest.Withdraws privilege)

/-- The call gives the privilege only if the counters stand where `allowed` says, however it goes
on. -/
def OffersOnly (privilege : Privilege) (allowed : FactVersion → Prop) (stage : Stage α) : Prop :=
  stage.Every fun call => call.All (EngineRequest.OffersOnly privilege allowed)

/-- The next request that the call may make to the engine has the property. -/
def Head (property : EngineRequest → Prop) : Stage α → Prop
  | running call => ∀ request next, call = .engine request next → property request
  | answered .. => True
  | abandoned call => ∀ request next, call = .engine request next → property request

theorem OffersOnly.imp {allowed allowed' : FactVersion → Prop}
    (h : stage.OffersOnly privilege allowed)
    (hallowed : ∀ version, allowed version → allowed' version) :
    stage.OffersOnly privilege allowed' :=
  Every.imp h fun _ hcall => hcall.imp fun _ hrequest => hrequest.imp hallowed

theorem OffersOnly.head {allowed : FactVersion → Prop} (h : stage.OffersOnly privilege allowed) :
    stage.Head (EngineRequest.OffersOnly privilege allowed) := by
  cases stage with
  | running call =>
    rintro request next rfl
    exact h.1
  | answered => trivial
  | abandoned call =>
    rintro request next rfl
    exact h.1

namespace Proceeds

variable {progress : Progress} (h : Proceeds coordinator before progress stage stage' after)
  (htrusted : before.Trusted)

include h htrusted

theorem store : after.store = before.store := by
  cases h with
  | advance hstep => exact Call.step_store hstep htrusted
  | windUp hstep => exact Call.step_store hstep htrusted
  | _ => rfl

theorem trusted : after.Trusted := by
  cases h with
  | advance hstep => exact Call.step_trusted hstep htrusted
  | windUp hstep => exact Call.step_trusted hstep htrusted
  | _ => exact htrusted

/-- Progress moves the counters, or leaves to be withdrawn what was to be withdrawn. -/
theorem moves (privilege : Privilege) :
    ∃ i j, before.Moves privilege after i j ∧
      (i + j = 0 → stage.Withdraws privilege → stage'.Withdraws privilege) := by
  cases h with
  | advance hstep => exact Call.step_moves hstep htrusted privilege
  | windUp hstep => exact Call.step_moves hstep htrusted privilege
  | receive => exact ⟨0, 0, .refl privilege _, fun _ hw => hw.1⟩
  | refuse => exact ⟨0, 0, .refl privilege _, fun _ => False.elim⟩
  | lose => exact ⟨0, 0, .refl privilege _, fun _ hw => hw.2.1 _⟩
  | giveUp => exact ⟨0, 0, .refl privilege _, fun _ => False.elim⟩
  | giveUpAnswered => exact ⟨0, 0, .refl privilege _, fun _ hw => hw.2.2⟩

/-- What the engine holds afterwards it held before, and it is still to be withdrawn if it was; or
it has been offered. -/
theorem holds {allowed : FactVersion → Prop}
    (hoffers : stage.Head (EngineRequest.OffersOnly privilege allowed))
    (hp : after.Holds privilege) :
    before.Holds privilege ∧ (stage.Withdraws privilege → stage'.Withdraws privilege) ∨
      allowed (before.versionOf privilege) := by
  cases h with
  | advance hstep => exact Call.holds_step hstep htrusted hoffers hp
  | windUp hstep => exact Call.holds_step hstep htrusted hoffers hp
  | receive => exact .inl ⟨hp, fun hw => hw.1⟩
  | refuse => exact .inl ⟨hp, False.elim⟩
  | lose => exact .inl ⟨hp, fun hw => hw.2.1 _⟩
  | giveUp => exact .inl ⟨hp, False.elim⟩
  | giveUpAnswered => exact .inl ⟨hp, fun hw => hw.2.2⟩

/-- What is left of a call offers no more than before. -/
theorem offersOnly {allowed : FactVersion → Prop} (hoffers : stage.OffersOnly privilege allowed) :
    stage'.OffersOnly privilege allowed := by
  cases h with
  | advance hstep => exact Call.All.step hstep htrusted hoffers
  | windUp hstep => exact Call.All.step hstep htrusted hoffers
  | receive => exact hoffers.1
  | refuse => exact False.elim hoffers
  | lose => exact hoffers.2.1 _
  | giveUp => exact False.elim hoffers
  | giveUpAnswered => exact hoffers.2.2

end Proceeds

end Stage

end AccessControl
