import AccessControl.Cache.Local
import AccessControl.Proofs.AnswerOrigin
import AccessControl.Proofs.CallRequests

/-!
# How a coordinator answers a check

A coordinator whose call nobody interrupts passes a check if the engine passes it, or else if the
store allows it.  The engine passes a check of a resource for the resource or for its type.  The
store is asked about the resource alone.
-/

namespace AccessControl

namespace Engine

/-- Whether a check of the engine is true; an engine that fails passes nothing. -/
def passes (engine : Engine) (subject : UserId) (object : PolicyObject) (action : Action) : Bool :=
  Coordinator.allows (engine.answer (.check subject object action)).1

variable {engine : Engine} {request : EngineRequest} {subject : UserId} {object : PolicyObject}
  {action : Action}

theorem passes_iff : engine.passes subject object action = true ↔
    engine.poisoned = false ∧ (engine.base.Holds (.administration subject) ∨
      engine.base.Holds (.fact subject object action)) := by
  cases hpoisoned : engine.poisoned with
  | true => simp [passes, answer, hpoisoned, Coordinator.allows]
  | false =>
    have hcheck : engine.base.check subject object action = true ↔
        engine.base.Holds (.administration subject) ∨
          engine.base.Holds (.fact subject object action) := by
      rw [FactBase.check, Bool.or_eq_true]
      exact Iff.rfl
    simpa [passes, answer, hpoisoned, Coordinator.allows, FactBase.answer] using hcheck

theorem answer_of_poisoned (h : engine.poisoned = true) : (engine.answer request).2 = engine := by
  simp [answer, h]

theorem answer_poisoned : (engine.answer request).2.poisoned = engine.poisoned := by
  cases hpoisoned : engine.poisoned <;> simp [answer, hpoisoned]

theorem answer_base (h : engine.poisoned = false) :
    (engine.answer request).2.base = (engine.base.answer request).2 := by
  simp [answer, h]

theorem answer_of_observes (h : request.Observes) : (engine.answer request).2 = engine := by
  cases hpoisoned : engine.poisoned with
  | true => exact answer_of_poisoned hpoisoned
  | false =>
    cases engine
    cases hpoisoned
    simp [answer, h.answer_base]

/-- A privilege is held after a request that does not give it only if it was held before. -/
theorem holds_of_answer {privilege : Privilege} (hmodest : request.Modest privilege)
    (h : (engine.answer request).2.base.Holds privilege) : engine.base.Holds privilege := by
  cases hpoisoned : engine.poisoned with
  | true => rwa [answer_of_poisoned hpoisoned] at h
  | false =>
    rw [answer_base hpoisoned] at h
    rcases FactBase.holds_answer h with hheld | hconfers | hoffers
    · exact hheld.1
    · exact absurd hconfers hmodest.1
    · exact False.elim (hmodest.2 _ hoffers)

/-- A privilege that is held stays held under a request that does not withdraw it. -/
theorem holds_answer_of_held {privilege : Privilege}
    (hkept : ∀ reply, ¬request.Withdraws privilege reply) (h : engine.base.Holds privilege) :
    (engine.answer request).2.base.Holds privilege := by
  cases hpoisoned : engine.poisoned with
  | true => rwa [answer_of_poisoned hpoisoned]
  | false =>
    rw [answer_base hpoisoned]
    exact FactBase.holds_answer_of_held h (hkept _)

/-- A request that gives nothing makes no check pass. -/
theorem passes_of_answer (hmodest : ∀ privilege, request.Modest privilege)
    (h : (engine.answer request).2.passes subject object action = true) :
    engine.passes subject object action = true := by
  rw [passes_iff, answer_poisoned] at h
  obtain ⟨hworks, hholds⟩ := h
  rw [passes_iff]
  exact ⟨hworks, hholds.imp (holds_of_answer (hmodest _)) (holds_of_answer (hmodest _))⟩

/-- Whether the engine answers and holds a privilege by which a coordinator passes the request. -/
def Allows (engine : Engine) (request : StoreRequest) : Prop :=
  engine.poisoned = false ∧ ∃ privilege ∈ request.privileges, engine.base.Holds privilege

/-- The engine is asked about the resource and then about its type. -/
theorem allows_validateAccess {check : InstanceCheck} : engine.Allows (.validateAccess check) ↔
    engine.passes check.user (.resource check.resource) check.action = true ∨
      engine.passes check.user (.type check.resourceType) check.action = true := by
  simp only [Allows, StoreRequest.privileges, List.mem_cons, List.not_mem_nil, or_false,
    exists_eq_or_imp, exists_eq_left, passes_iff]
  rw [or_or_distrib_left, and_or_left]

theorem allows_validateAccessToType {check : TypeCheck} :
    engine.Allows (.validateAccessToType check) ↔
      engine.passes check.user (.type check.resourceType) check.action = true := by
  simp only [Allows, StoreRequest.privileges, List.mem_cons, List.not_mem_nil, or_false,
    exists_eq_or_imp, exists_eq_left, passes_iff]

end Engine

/-- A store that backs what passes a check of a type allows the check. -/
theorem MemoryStore.allowsType_of_backs {store : MemoryStore} {check : TypeCheck}
    {privilege : Privilege}
    (hmem : privilege ∈ StoreRequest.privileges (.validateAccessToType check))
    (hbacks : store.Backs privilege) : store.allowsType check = true := by
  simp only [StoreRequest.privileges, List.mem_cons, List.not_mem_nil, or_false] at hmem
  rcases hmem with rfl | rfl
  · obtain ⟨role, hrole, hadmin⟩ := hbacks
    simp [allowsType, hrole, hadmin]
  · exact hbacks

namespace LocalCache

/-- The answer of a coordinator whose call nobody interrupts. -/
def answerTo (cache : LocalCache) (request : StoreRequest) : request.Answer :=
  (run (Coordinator.handle request) cache).1

variable {cache : LocalCache}

/-- Whatever becomes of the repair, the check is passed. -/
theorem run_repair (subject : UserId) (object : PolicyObject) (action : Action)
    (seen : Except EngineError FactVersion) :
    (run (Coordinator.repair subject object action seen) cache).1 = .ok () := by
  cases seen with
  | error error => rfl
  | ok version =>
    dsimp only [Coordinator.repair, run]
    split <;> rfl

/-- A call that first asks the engine is passed by the engine, or left to the rest of the call. -/
theorem run_check_eq {subject : UserId} {object : PolicyObject} {action : Action}
    {rest : Call (Except StorageError Unit)} :
    run (.engine (.check subject object action) fun passed =>
      if Coordinator.allows passed then Coordinator.hit else rest) cache =
      run (if cache.engine.passes subject object action then Coordinator.hit else rest) cache := by
  have hengine : (cache.engine.answer (.check subject object action)).2 = cache.engine :=
    Engine.answer_of_observes trivial
  have hpasses : Coordinator.allows (cache.engine.answer (.check subject object action)).1 =
    cache.engine.passes subject object action := rfl
  simp only [run, hengine, hpasses]

theorem run_check {subject : UserId} {object : PolicyObject} {action : Action}
    {rest : Call (Except StorageError Unit)} :
    (run (.engine (.check subject object action) fun passed =>
      if Coordinator.allows passed then Coordinator.hit else rest) cache).1 = .ok () ↔
      cache.engine.passes subject object action = true ∨ (run rest cache).1 = .ok () := by
  rw [run_check_eq]
  cases cache.engine.passes subject object action with
  | true => simp [Coordinator.hit, run]
  | false => simp

/-- A check of a resource passes if the engine holds a privilege that passes it, or if the store
allows it for the resource. -/
theorem answerTo_validateAccess {check : InstanceCheck} :
    cache.answerTo (.validateAccess check) = .ok () ↔
      cache.engine.Allows (.validateAccess check) ∨ cache.store.allowsInstance check = true := by
  rw [answerTo, Coordinator.handle, Coordinator.validateAccess, run_check, run_check,
    Engine.allows_validateAccess, or_assoc]
  refine or_congr_right (or_congr_right ?_)
  cases hallowed : cache.store.allowsInstance check with
  | true => simp [run, MemoryStore.answer, MemoryStore.decision, hallowed, run_repair]
  | false => simp [run, MemoryStore.answer, MemoryStore.decision, hallowed]

/-- A check of a type passes if the engine holds a privilege that passes it, or if the store allows
it. -/
theorem answerTo_validateAccessToType {check : TypeCheck} :
    cache.answerTo (.validateAccessToType check) = .ok () ↔
      cache.engine.Allows (.validateAccessToType check) ∨ cache.store.allowsType check = true := by
  rw [answerTo, Coordinator.handle, Coordinator.validateAccessToType, run_check,
    Engine.allows_validateAccessToType]
  refine or_congr_right ?_
  cases hallowed : cache.store.allowsType check with
  | true => simp [run, MemoryStore.answer, MemoryStore.decision, hallowed, run_repair]
  | false => simp [run, MemoryStore.answer, MemoryStore.decision, hallowed]

/-- What the engine does not pass is answered by the store. -/
theorem answerTo_validateAccess_of_miss {check : InstanceCheck}
    (h : ¬cache.engine.Allows (.validateAccess check)) :
    cache.answerTo (.validateAccess check) = (cache.store.answer (.validateAccess check)).1 := by
  rw [Engine.allows_validateAccess, not_or] at h
  rw [answerTo, Coordinator.handle, Coordinator.validateAccess, run_check_eq, if_neg h.1,
    run_check_eq, if_neg h.2]
  cases hallowed : cache.store.allowsInstance check with
  | true => simp [run, MemoryStore.answer, MemoryStore.decision, hallowed, run_repair]
  | false => simp [run, MemoryStore.answer, MemoryStore.decision, hallowed]

theorem answerTo_validateAccessToType_of_miss {check : TypeCheck}
    (h : ¬cache.engine.Allows (.validateAccessToType check)) :
    cache.answerTo (.validateAccessToType check) =
      (cache.store.answer (.validateAccessToType check)).1 := by
  rw [Engine.allows_validateAccessToType] at h
  rw [answerTo, Coordinator.handle, Coordinator.validateAccessToType, run_check_eq, if_neg h]
  cases hallowed : cache.store.allowsType check with
  | true => simp [run, MemoryStore.answer, MemoryStore.decision, hallowed, run_repair]
  | false => simp [run, MemoryStore.answer, MemoryStore.decision, hallowed]

end LocalCache

end AccessControl
