import AccessControl.Proofs.UpdateRun

/-!
# One call that nobody interrupts

No counter moves while such a call is on its way, so no guarded write of the engine is refused.  The
store is left as its own answer to the request leaves it, and the engine is told what the answer
says: the facts of a new rule, the eviction of an old one, the yes of a check, a role.
-/

namespace AccessControl

/-- The cache after a call that nobody interrupts. -/
def LocalCache.after (cache : LocalCache) (request : StoreRequest) : LocalCache :=
  (run (Coordinator.handle request) cache).2

/-- What a call makes of the fact base, by what the store has answered. -/
inductive Told (store : MemoryStore) (base : FactBase) : StoreRequest → FactBase → Prop where
  | read {request : StoreRequest} (h : request.row? = none) : Told store base request base
  | created {user : UserId} {grant : Grant} (h : (store.create user grant).1 = .ok ()) :
      Told store base (.create user grant)
        (base.withFacts user (.resource grant.resource) grant.actions.toList)
  | notCreated {user : UserId} {grant : Grant} {error : StorageError}
      (h : (store.create user grant).1 = .error error) : Told store base (.create user grant) base
  | replaced {user : UserId} {grant : Grant} (h : 0 < (store.update user grant).1) :
      Told store base (.update user grant)
        (base.replaceFacts user (.resource grant.resource) grant.actions)
  | notReplaced {user : UserId} {grant : Grant} (h : (store.update user grant).1 = 0) :
      Told store base (.update user grant) (base.removeFacts user (.resource grant.resource))
  | deleted {user : UserId} {resource : ResourceId} :
      Told store base (.delete user resource) (base.removeFacts user (.resource resource))
  | learnedRule {check : InstanceCheck} (h : store.allowsInstance check = true) :
      Told store base (.validateAccess check)
        (base.addFact check.user (.resource check.resource) check.action)
  | learnedPolicy {check : TypeCheck} (h : store.allowsType check = true) :
      Told store base (.validateAccessToType check)
        (base.addFact check.user (.type check.resourceType) check.action)
  | recorded {user : UserId} {role : Role} (h : (store.syncUserRole user role).1 = .ok ()) :
      Told store base (.syncUserRole user role)
        ((base.setRole user role).withoutTypeFacts user ResourceType.all)
  | notRecorded {user : UserId} {role : Role} {error : StorageError}
      (h : (store.syncUserRole user role).1 = .error error) :
      Told store base (.syncUserRole user role) base
  | cleared {role : Role} {resourceType : ResourceType} {actions : ActionSet} :
      Told store base (.putRolePolicy role resourceType actions)
        (base.clearObject (.type resourceType))

/-- The cache serves a call, and the engine is told of it. -/
structure Serves (cache : LocalCache) (request : StoreRequest) (next : LocalCache) : Prop where
  works : next.engine.poisoned = false
  store_eq : next.store = (cache.store.answer request).2
  told : Told cache.store cache.engine.base request next.engine.base

namespace LocalCache

variable {α : Type} {cache : LocalCache}

/-- The cache with another store behind it. -/
def withStore (cache : LocalCache) (store : MemoryStore) : LocalCache := { cache with store }

theorem run_store (request : StoreRequest) (onUnknown : List EngineUpdate)
    (next : request.Answer → Call α) :
    run (.store request onUnknown next) cache =
      run (next (cache.store.answer request).1)
        (cache.withStore (cache.store.answer request).2) := rfl

/-- The cache after the count of an event. -/
def counted (cache : LocalCache) (counter : Counter) : LocalCache :=
  { cache with counters := cache.counters.count counter }

theorem run_count (counter : Counter) (next : Call α) :
    run (.count counter next) cache = run next (cache.counted counter) := rfl

variable (h : cache.engine.poisoned = false)

include h

theorem run_engine (request : EngineRequest) (next : Except EngineError request.Reply → Call α) :
    run (.engine request next) cache =
      run (next (.ok (cache.engine.base.answer request).1))
        (cache.withBase (cache.engine.base.answer request).2) := by
  simp [run, Engine.answer, h, withBase]

theorem run_version (subject : UserId) (object : PolicyObject)
    (next : Except EngineError FactVersion → Call α) :
    run (.engine (.version subject object) next) cache =
      run (next (.ok (cache.engine.base.version subject object))) cache :=
  run_engine h (.version subject object) next

theorem run_roleVersion (subject : UserId) (next : Except EngineError FactVersion → Call α) :
    run (.engine (.roleVersion subject) next) cache =
      run (next (.ok (cache.engine.base.roleVersion subject))) cache :=
  run_engine h (.roleVersion subject) next

theorem run_settle (update : EngineUpdate) (result : α) :
    (run (Coordinator.settle update result) cache).2 =
      cache.withBase (cache.engine.base.updated update) := by
  rw [Coordinator.settle, run_bind, run_apply h]
  rfl

theorem serves_of_settle {request : StoreRequest} {update : EngineUpdate} {result : α}
    (htold : Told cache.store cache.engine.base request (cache.engine.base.updated update)) :
    Serves cache request (run (Coordinator.settle update result)
      (cache.withStore (cache.store.answer request).2)).2 := by
  have hworks : (cache.withStore (cache.store.answer request).2).engine.poisoned = false := h
  rw [run_settle hworks]
  exact ⟨h, rfl, htold⟩

/-- The counters have not moved since the check has read them, so the fact is added. -/
theorem run_repair_now (subject : UserId) (object : PolicyObject) (action : Action) :
    (run (Coordinator.repair subject object action
        (.ok (cache.engine.base.version subject object))) cache).2 =
      (cache.withBase (cache.engine.base.addFact subject object action)).counted .repairs := by
  rw [Coordinator.repair, run_engine h]
  have hadded : cache.engine.base.answer (.addFactIfCurrent subject object action
      (cache.engine.base.version subject object)) =
        (true, cache.engine.base.addFact subject object action) := if_pos rfl
  rw [hadded]
  rfl

theorem serves_create (user : UserId) (grant : Grant) :
    Serves cache (.create user grant) (cache.after (.create user grant)) := by
  rw [after, Coordinator.handle, Coordinator.create, run_version h, run_store]
  cases hanswer : (cache.store.answer (.create user grant)).1 with
  | error error => exact ⟨h, rfl, .notCreated hanswer⟩
  | ok reply =>
    refine serves_of_settle h ?_
    -- the store has not touched the engine, so its counters are where the call has seen them
    rw [FactBase.updated, if_pos rfl]
    exact .created hanswer

theorem serves_update (user : UserId) (grant : Grant) :
    Serves cache (.update user grant) (cache.after (.update user grant)) := by
  rw [after, Coordinator.handle, Coordinator.update, run_version h, run_store]
  have hanswer : (cache.store.answer (.update user grant)).1 =
    .ok (cache.store.update user grant).1 := rfl
  rw [hanswer]
  dsimp only
  split
  case isTrue htouched =>
    refine serves_of_settle h ?_
    rw [FactBase.updated, if_pos rfl]
    exact .replaced htouched
  case isFalse huntouched =>
    refine serves_of_settle h (.notReplaced ?_)
    exact Nat.eq_zero_of_not_pos huntouched

theorem serves_delete (user : UserId) (resource : ResourceId) :
    Serves cache (.delete user resource) (cache.after (.delete user resource)) :=
  serves_of_settle h .deleted

theorem serves_putRolePolicy (role : Role) (resourceType : ResourceType) (actions : ActionSet) :
    Serves cache (.putRolePolicy role resourceType actions)
      (cache.after (.putRolePolicy role resourceType actions)) :=
  serves_of_settle h .cleared

theorem serves_syncUserRole (user : UserId) (role : Role) :
    Serves cache (.syncUserRole user role) (cache.after (.syncUserRole user role)) := by
  rw [after, Coordinator.handle, Coordinator.syncUserRole, run_roleVersion h, run_store]
  cases hanswer : (cache.store.answer (.syncUserRole user role)).1 with
  | error error =>
    have hrefused : error.isInternal = false := by
      simp only [MemoryStore.answer, MemoryStore.syncUserRole] at hanswer
      split at hanswer
      · cases hanswer
      · cases hanswer
        rfl
    dsimp only [Coordinator.refused]
    rw [if_neg (Bool.eq_false_iff.1 hrefused)]
    exact ⟨h, rfl, .notRecorded hanswer⟩
  | ok reply =>
    refine serves_of_settle h ?_
    rw [FactBase.updated, if_pos rfl]
    exact .recorded hanswer

/-- A check that the engine does not pass is left to the store, and the engine learns its yes. -/
theorem serves_of_miss {request : StoreRequest} {subject : UserId} {object : PolicyObject}
    {action : Action}
    {answered : Except EngineError FactVersion → request.Answer → Call (Except StorageError Unit)}
    (hrow : request.row? = none)
    (hdenied : ∀ seen error, answered seen (.error error) = .done (.error error))
    (hallowed : ∀ seen reply,
      answered seen (.ok reply) = Coordinator.repair subject object action seen)
    (htold : ∀ reply, (cache.store.answer request).1 = .ok reply → Told cache.store
      cache.engine.base request (cache.engine.base.addFact subject object action)) :
    Serves cache request (run (.count .misses (.engine (.version subject object) fun seen =>
      .store request [] (answered seen))) cache).2 := by
  have hcounted : (cache.counted .misses).engine.poisoned = false := h
  have hworks : ((cache.counted .misses).withStore
      (cache.store.answer request).2).engine.poisoned = false := h
  rw [run_count, run_version hcounted, run_store]
  cases hanswer : ((cache.counted .misses).store.answer request).1 with
  | error error =>
    rw [hdenied]
    exact ⟨h, rfl, .read hrow⟩
  | ok reply =>
    have hrepaired := run_repair_now hworks subject object action
    rw [hallowed]
    exact hrepaired ▸ ⟨h, rfl, htold reply hanswer⟩

/-- A check that the engine passes changes nothing. -/
theorem serves_of_hit {request : StoreRequest} (hrow : request.row? = none) :
    Serves cache request (run Coordinator.hit cache).2 :=
  ⟨h, (MemoryStore.answer_of_row hrow).symm, .read hrow⟩

theorem serves_validateAccess (check : InstanceCheck) :
    Serves cache (.validateAccess check) (cache.after (.validateAccess check)) := by
  rw [after, Coordinator.handle, Coordinator.validateAccess, run_check_eq]
  split
  case isTrue => exact serves_of_hit h rfl
  case isFalse =>
    rw [run_check_eq]
    split
    case isTrue => exact serves_of_hit h rfl
    case isFalse =>
      refine serves_of_miss h rfl (fun _ _ => rfl) (fun _ _ => rfl) fun reply hanswer => ?_
      exact .learnedRule (MemoryStore.of_decision_ok hanswer)

theorem serves_validateAccessToType (check : TypeCheck) :
    Serves cache (.validateAccessToType check) (cache.after (.validateAccessToType check)) := by
  rw [after, Coordinator.handle, Coordinator.validateAccessToType, run_check_eq]
  split
  case isTrue => exact serves_of_hit h rfl
  case isFalse =>
    refine serves_of_miss h rfl (fun _ _ => rfl) (fun _ _ => rfl) fun reply hanswer => ?_
    exact .learnedPolicy (MemoryStore.of_decision_ok hanswer)

/-- Every call is answered by the store, and the engine is told of it. -/
theorem serves (request : StoreRequest) : Serves cache request (cache.after request) := by
  cases request with
  | create user grant => exact serves_create h user grant
  | update user grant => exact serves_update h user grant
  | delete user resource => exact serves_delete h user resource
  | validateAccess check => exact serves_validateAccess h check
  | validateAccessToType check => exact serves_validateAccessToType h check
  | syncUserRole user role => exact serves_syncUserRole h user role
  | putRolePolicy role type actions => exact serves_putRolePolicy h role type actions
  | allPermissions | allUserRoles | commit | rollback => exact ⟨h, rfl, .read rfl⟩

end LocalCache

end AccessControl
