import AccessControl.Proofs.CheckAnswer
import AccessControl.Proofs.CutOff
import AccessControl.Proofs.Uninterrupted

/-!
# Decisions after evictions

While nothing is under way the engine holds only what the store backs, so what is evicted can be
asked of the store again.  The store answers a check of a type for the type, and a check of a
resource for the resource alone.  A decision about a resource that the engine took from a fact about
its type is therefore not taken again once that fact has been evicted.
-/

namespace AccessControl

/-- An eviction from the engine. -/
inductive Eviction where
  | pair (subject : UserId) (object : PolicyObject)
  | allOf (object : PolicyObject)
  deriving DecidableEq, Repr

namespace Eviction

/-- The request that makes the eviction. -/
def request : Eviction → EngineRequest
  | pair subject object => .removeFacts subject object
  | allOf object => .clearObject object

/-- Whether the eviction takes the privilege away. -/
def Hits (privilege : Privilege) : Eviction → Prop
  | pair subject object => ∃ action, privilege = .fact subject object action
  | allOf object => ∃ subject action, privilege = .fact subject object action

theorem hits_of_withdraws {eviction : Eviction} {privilege : Privilege}
    {reply : eviction.request.Reply} (h : eviction.request.Withdraws privilege reply) :
    eviction.Hits privilege := by
  cases eviction with
  | pair => exact h
  | allOf => exact h

end Eviction

namespace Engine

/-- The engine after some evictions. -/
def evictAll (engine : Engine) (evictions : List Eviction) : Engine :=
  evictions.foldl (fun engine eviction => (engine.answer eviction.request).2) engine

variable {engine : Engine} {evictions : List Eviction} {privilege : Privilege}

theorem evictAll_poisoned : (engine.evictAll evictions).poisoned = engine.poisoned := by
  induction evictions generalizing engine with
  | nil => rfl
  | cons eviction rest ih =>
    rw [evictAll, List.foldl_cons, ← evictAll, ih]
    exact answer_poisoned

/-- A privilege that no eviction hits is still held. -/
theorem holds_evictAll (hspared : ∀ eviction ∈ evictions, ¬eviction.Hits privilege)
    (h : engine.base.Holds privilege) : (engine.evictAll evictions).base.Holds privilege := by
  induction evictions generalizing engine with
  | nil => exact h
  | cons eviction rest ih =>
    rw [evictAll, List.foldl_cons, ← evictAll]
    refine ih (fun other hmem => hspared other (List.mem_cons_of_mem eviction hmem)) ?_
    refine holds_answer_of_held (fun reply hwithdraws => ?_) h
    exact hspared eviction List.mem_cons_self (Eviction.hits_of_withdraws hwithdraws)

end Engine

namespace MemoryStore

variable {store : MemoryStore} {user : UserId} {check : InstanceCheck}

/-- Whether two stores decide every check of a user alike. -/
structure GrantsAlike (user : UserId) (left right : MemoryStore) : Prop where
  ofResource : ∀ check : InstanceCheck, check.user = user →
    left.allowsInstance check = right.allowsInstance check
  ofType : ∀ check : TypeCheck, check.user = user → left.allowsType check = right.allowsType check

theorem GrantsAlike.refl (user : UserId) (store : MemoryStore) : store.GrantsAlike user store :=
  ⟨fun _ _ => rfl, fun _ _ => rfl⟩

/-- What is said about another role changes nothing for the user. -/
theorem grantsAlike_putRolePolicy {role : Role} (resourceType : ResourceType) (actions : ActionSet)
    (h : store.users.get? user ≠ some role) :
    GrantsAlike user store (store.putRolePolicy role resourceType actions) := by
  refine ⟨fun _ _ => rfl, ?_⟩
  rintro check rfl
  cases hrole : store.users.get? check.user with
  | none => simp [allowsType, putRolePolicy, hrole]
  | some other =>
    have hother : other ≠ role := by
      rintro rfl
      exact h hrole
    simp [allowsType, putRolePolicy, policyOf, hrole, hother]

/-- A fact about a resource is backed by a rule that passes the check, if the rule names the type of
the check. -/
theorem allowsInstance_of_backs
    (hbacks : store.Backs (.fact check.user (.resource check.resource) check.action))
    (htype : ∀ rule, store.rules.get? (check.user, check.resource) = some rule →
      rule.resourceType = check.resourceType) : store.allowsInstance check = true := by
  obtain ⟨rule, hrule, haction⟩ := hbacks
  have hallowed : rule.actions.contains check.action = true := haction
  simp [allowsInstance, hrule, htype rule hrule, hallowed]

end MemoryStore

namespace System

variable {store : MemoryStore} {base : FactBase} {events : List Event} {system : System}

/-- What a coordinator sees of an idle system after some evictions, when the store has become another
one. -/
def afterEvictions (system : System) (store : MemoryStore) (evictions : List Eviction)
    (reader : Nat) : LocalCache :=
  { system.backend.cacheOf reader with
    store
    engine := system.backend.engine.evictAll evictions }

/-- From an idle system, evictions that leave a user's grants in the store alone cost no decision
about a type.  They cost a decision about a resource only if the store does not allow the check for
the resource, and the engine has passed it by a fact about the type which an eviction has hit. -/
theorem decisions_after_eviction (hrun : (opened store base).run events = some system)
    (hloaded : ∀ privilege, base.Holds privilege → store.Backs privilege)
    (hfew : system.backend.revocations < UInt64.size) (hidle : system.Idle) {user : UserId}
    (hordinary : ¬system.backend.Backs (.administration user)) {later : MemoryStore}
    (halike : MemoryStore.GrantsAlike user system.backend.store later)
    (evictions : List Eviction) (reader : Nat) :
    (∀ check : TypeCheck, check.user = user →
      (system.backend.cacheOf reader).answerTo (.validateAccessToType check) = .ok () →
        (system.afterEvictions later evictions reader).answerTo (.validateAccessToType check) =
          .ok ()) ∧
    ∀ check : InstanceCheck, check.user = user →
      (∀ rule, system.backend.store.rules.get? (check.user, check.resource) = some rule →
        rule.resourceType = check.resourceType) →
      (system.backend.cacheOf reader).answerTo (.validateAccess check) = .ok () →
        (system.afterEvictions later evictions reader).answerTo (.validateAccess check) = .ok () ∨
          system.backend.store.allowsInstance check = false ∧
            system.backend.Holds (.fact user (.type check.resourceType) check.action) ∧
            ∃ eviction ∈ evictions,
              eviction.Hits (.fact user (.type check.resourceType) check.action) := by
  have hbacked : ∀ privilege, system.backend.Holds privilege → system.backend.Backs privilege :=
    fun privilege => ((sound_opened (hloaded privilege)).run hrun hfew).backs_idle hidle
  refine ⟨fun check huser hbefore => ?_, ?_⟩
  · have hallowed : system.backend.store.allowsType check = true := by
      rcases LocalCache.answerTo_validateAccessToType.1 hbefore with
        ⟨-, privilege, hmem, hholds⟩ | hallowed
      · exact MemoryStore.allowsType_of_backs hmem (hbacked privilege hholds)
      · exact hallowed
    rw [halike.ofType check huser] at hallowed
    exact LocalCache.answerTo_validateAccessToType.2 (.inr hallowed)
  · rintro check rfl htype hbefore
    rw [LocalCache.answerTo_validateAccess] at hbefore ⊢
    cases hallowed : system.backend.store.allowsInstance check with
    | true =>
      rw [halike.ofResource check rfl] at hallowed
      exact .inl (.inr hallowed)
    | false =>
      -- the store does not allow the check, so neither a role nor a rule has passed it
      obtain ⟨hworks, privilege, hmem, hholds⟩ :=
        hbefore.resolve_right (Bool.eq_false_iff.1 hallowed)
      simp only [StoreRequest.privileges, List.mem_cons, List.not_mem_nil, or_false] at hmem
      rcases hmem with rfl | rfl | rfl
      · exact absurd (hbacked _ hholds) hordinary
      · have hrule := MemoryStore.allowsInstance_of_backs (hbacked _ hholds) htype
        rw [hallowed] at hrule
        cases hrule
      · by_cases hhit : ∃ eviction ∈ evictions,
            eviction.Hits (.fact check.user (.type check.resourceType) check.action)
        · exact .inr ⟨rfl, hholds, hhit⟩
        · have hspared : ∀ eviction ∈ evictions,
              ¬eviction.Hits (.fact check.user (.type check.resourceType) check.action) :=
            fun eviction hmem hhits => hhit ⟨eviction, hmem, hhits⟩
          refine .inl (.inl ⟨Engine.evictAll_poisoned.trans hworks, _, ?_,
            Engine.holds_evictAll hspared hholds⟩)
          simp [StoreRequest.privileges]

/-- The rule is read from the store again when the fact has been evicted. -/
theorem rule_passes_after_eviction :
    ((opened someStore someBase).afterEvictions someStore [.pair someUser (.resource someResource)]
      0).answerTo (.validateAccess pageCheck) = .ok () := by
  have hrun : (opened someStore someBase).run [] = some (opened someStore someBase) := rfl
  have hidle : (opened someStore someBase).Idle := by
    decide
  have hordinary : ¬(opened someStore someBase).backend.Backs (.administration someUser) := by
    rintro ⟨role, hrole, hadmin⟩
    cases hrole
    cases hadmin
  have hallowed : (opened someStore someBase).backend.store.allowsInstance pageCheck = true := by
    decide
  have htype : ∀ rule, (opened someStore someBase).backend.store.rules.get?
      (pageCheck.user, pageCheck.resource) = some rule →
        rule.resourceType = pageCheck.resourceType := by
    intro rule hrule
    cases hrule
    rfl
  have hbefore : ((opened someStore someBase).backend.cacheOf 0).answerTo
      (.validateAccess pageCheck) = .ok () := LocalCache.answerTo_validateAccess.2 (.inr hallowed)
  have hfew : (opened someStore someBase).backend.revocations < UInt64.size := by
    decide
  have hdecisions := (decisions_after_eviction hrun someStore_backs_someBase hfew hidle hordinary
    (.refl someUser someStore) [.pair someUser (.resource someResource)] 0).2 pageCheck rfl htype
    hbefore
  rcases hdecisions with hafter | hlost
  · exact hafter
  · rw [hallowed] at hlost
    cases hlost.1

/-- A check of a resource for which there is no rule. -/
def unruledCheck : InstanceCheck := ⟨someUser, ⟨.ofNat 3⟩, .page, .get⟩

/-- A check of the type finds the policy of the user's role in the store. -/
def typeChecked : List Event :=
  [.start 0 0 (.validateAccessToType unruledCheck.ofType), .move 0 (.proceed .advance),
    .move 0 (.proceed .advance), .move 0 (.proceed .advance), .move 0 .ask,
    .move 0 (.proceed .receive), .move 0 (.proceed .advance), .move 0 (.proceed .advance)]

/-- A policy of another role is written, and a check that has passed is denied, although the store
grants the user what it granted before. -/
theorem unruled_check_denied_after_eviction : ∃ system,
    (opened someStore someBase).run typeChecked = some system ∧ system.Idle ∧
      system.backend.store.users.get? someUser = some .user ∧
      system.backend.store.rules.get? (unruledCheck.user, unruledCheck.resource) = none ∧
      (system.backend.cacheOf 0).answerTo (.validateAccess unruledCheck) = .ok () ∧
      MemoryStore.GrantsAlike someUser system.backend.store
        (system.backend.store.putRolePolicy .analyst .page (.ofList [.get])) ∧
      (system.afterEvictions (system.backend.store.putRolePolicy .analyst .page (.ofList [.get]))
        [.allOf (.type .page)] 0).answerTo (.validateAccess unruledCheck) =
          .error .accessDenied :=
  ⟨_, rfl, by decide, by decide, by decide, by decide,
    MemoryStore.grantsAlike_putRolePolicy .page _ (by decide), by decide⟩

end System

end AccessControl
