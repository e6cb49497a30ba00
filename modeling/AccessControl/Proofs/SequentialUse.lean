import AccessControl.Proofs.DecisionAtRest
import AccessControl.Proofs.SequentialCall

/-!
# Calls one after another

A cache that one party uses makes its calls one after another, each from its beginning to its end.
However long it is in use, the engine knows the role of every user of record, and the rule of every
pair.  Only an update that names another type than the rule makes it forget a rule that stands, and
later checks teach it no more than the rule allows.
-/

namespace AccessControl

namespace LocalCache

/-- The cache after calls that are made one after another. -/
def afterAll (cache : LocalCache) (requests : List StoreRequest) : LocalCache :=
  requests.foldl after cache

/-- The calls, each with the store that it finds. -/
def history (cache : LocalCache) : List StoreRequest → List (MemoryStore × StoreRequest)
  | [] => []
  | request :: rest => (cache.store, request) :: (cache.after request).history rest

end LocalCache

/-- The actions that the rule of a user for a resource allows. -/
def MemoryStore.actionsOf (store : MemoryStore) (user : UserId) (resource : ResourceId) :
    ActionSet :=
  ((store.rules.get? (user, resource)).map Rule.actions).getD ∅

/-! ## What a request makes of a rule or a role -/

namespace MemoryStore

variable {store : MemoryStore} {user other : UserId} {resource : ResourceId} {grant : Grant}
  {role : Role} {error : StorageError} {request : StoreRequest}

theorem get?_syncUserRole (h : (store.syncUserRole user role).1 = .ok ()) :
    (store.syncUserRole user role).2.users.get? other =
      if other = user then some role else store.users.get? other := by
  unfold syncUserRole at h ⊢
  split at h
  case isTrue hknown => simp [hknown]
  case isFalse => cases h

theorem syncUserRole_of_error (h : (store.syncUserRole user role).1 = .error error) :
    (store.syncUserRole user role).2 = store := by
  unfold syncUserRole at h ⊢
  split at h
  case isTrue => cases h
  case isFalse hunknown => rw [if_neg hunknown]

theorem actionsOf_of_row (h : request.row? ≠ some (.rule user resource)) :
    (store.answer request).2.actionsOf user resource = store.actionsOf user resource := by
  have hsame : (store.answer request).2.rules.get? (user, resource) =
    store.rules.get? (user, resource) := sameAt_of_row h
  rw [actionsOf, hsame, actionsOf]

/-- A rule that is added is the first one of its pair. -/
theorem actionsOf_create (h : (store.create user grant).1 = .ok ()) :
    store.actionsOf user grant.resource = ∅ ∧
      (store.create user grant).2.actionsOf user grant.resource = grant.actions := by
  unfold create at h ⊢
  split at h
  case isFalse => cases h
  case isTrue hknown =>
    split at h
    case isTrue => cases h
    case isFalse hfree =>
      have hnone : store.rules.get? (user, grant.resource) = none := by
        simpa [Table.contains] using hfree
      rw [if_pos hknown, if_neg hfree]
      simp [actionsOf, hnone, Grant.toRule]

theorem create_of_error (h : (store.create user grant).1 = .error error) :
    (store.create user grant).2 = store := by
  unfold create at h ⊢
  split at h
  case isFalse hunknown => rw [if_neg hunknown]
  case isTrue hknown =>
    split at h
    case isTrue htaken => rw [if_pos hknown, if_pos htaken]
    case isFalse => cases h

theorem actionsOf_update (h : 0 < (store.update user grant).1) :
    (store.update user grant).2.actionsOf user grant.resource = grant.actions := by
  unfold update at h ⊢
  split at h
  case h_2 => cases h
  case h_1 rule hrule =>
    split at h
    case isFalse => cases h
    case isTrue htype => simp [htype, actionsOf]

/-- An update that changes nothing finds no rule, or one of another type. -/
theorem update_of_zero (h : (store.update user grant).1 = 0) :
    (store.update user grant).2 = store ∧ ∀ rule,
      store.rules.get? (user, grant.resource) = some rule →
        rule.resourceType ≠ grant.resourceType := by
  unfold update at h ⊢
  split at h
  case h_2 hnone =>
    rw [hnone]
    refine ⟨rfl, fun rule hrule => ?_⟩
    cases hrule
  case h_1 rule hrule =>
    split at h
    case isTrue => cases h
    case isFalse htype =>
      rw [hrule]
      refine ⟨by rw [if_neg htype], fun found hfound => ?_⟩
      obtain rfl := Option.some.inj hfound
      exact htype

theorem actionsOf_delete : (store.delete user resource).actionsOf user resource = ∅ := by
  simp [delete, actionsOf]

theorem mem_actionsOf_iff {action : Action} : action ∈ store.actionsOf user resource ↔
    store.Backs (.fact user (.resource resource) action) := by
  simp only [actionsOf, Backs]
  cases store.rules.get? (user, resource) with
  | none => simp [ActionSet.not_mem_empty]
  | some rule => simp

end MemoryStore

/-! ## Roles -/

/-- The engine knows the role of every user of record, and no other. -/
def FactBase.KnowsRoles (base : FactBase) (store : MemoryStore) : Prop :=
  ∀ user, base.roleOf user = store.users.get? user

theorem FactBase.KnowsRoles.told {store : MemoryStore} {base next : FactBase}
    {request : StoreRequest} (h : base.KnowsRoles store) (htold : Told store base request next) :
    next.KnowsRoles (store.answer request).2 := by
  intro user
  have hother : request.row? ≠ some (.role user) →
      (store.answer request).2.users.get? user = store.users.get? user := MemoryStore.sameAt_of_row
  cases htold with
  | read hrow =>
    rw [MemoryStore.answer_of_row hrow]
    exact h user
  | created haccepted =>
    rw [hother nofun, FactBase.roleOf_withFacts]
    exact h user
  | notCreated hrefused =>
    rw [hother nofun]
    exact h user
  | replaced | notReplaced | deleted | learnedRule | learnedPolicy | cleared =>
    rw [hother nofun, ← h user]
    simp
  | recorded haccepted =>
    rw [FactBase.roleOf_withoutTypeFacts, FactBase.roleOf_setRole, h user]
    exact (MemoryStore.get?_syncUserRole haccepted).symm
  | notRecorded hrefused =>
    rw [MemoryStore.answer, MemoryStore.syncUserRole_of_error hrefused]
    exact h user

/-! ## A rule and its facts -/

/-- A call that updates the pair and names another type than its rule. -/
def Mistypes (user : UserId) (resource : ResourceId) : MemoryStore × StoreRequest → Prop
  | (store, .update owner grant) => owner = user ∧ grant.resource = resource ∧
    ∃ rule, store.rules.get? (user, resource) = some rule ∧ rule.resourceType ≠ grant.resourceType
  | _ => False

/-- A call by which the store adds the rule of the pair, or gives it new actions. -/
def Writes (user : UserId) (resource : ResourceId) : MemoryStore × StoreRequest → Prop
  | (store, .create owner grant) =>
    owner = user ∧ grant.resource = resource ∧ (store.create owner grant).1 = .ok ()
  | (store, .update owner grant) =>
    owner = user ∧ grant.resource = resource ∧ 0 < (store.update owner grant).1
  | _ => False

theorem row_of_writes {user : UserId} {resource : ResourceId} {store : MemoryStore}
    {request : StoreRequest} (h : Writes user resource (store, request)) :
    request.row? = some (.rule user resource) := by
  cases request with
  | create | update =>
    obtain ⟨rfl, rfl, -⟩ := h
    rfl
  | _ => exact False.elim h

/-- The engine knows no action of the pair that the rule does not allow, and it knows the whole rule
unless a mistyped update was made after the last accepted write. -/
structure KnowsRule (user : UserId) (resource : ResourceId)
    (past : List (MemoryStore × StoreRequest)) (store : MemoryStore) (base : FactBase) : Prop where
  allowed : ∀ action ∈ base.actionsFor user (.resource resource),
    action ∈ store.actionsOf user resource
  whole : ¬Lasts (Mistypes user resource) (Writes user resource) past →
    base.actionsFor user (.resource resource) = store.actionsOf user resource

namespace KnowsRule

variable {user : UserId} {resource : ResourceId} {past : List (MemoryStore × StoreRequest)}
  {store after : MemoryStore} {base next : FactBase} {request : StoreRequest}

theorem of_eq (h : next.actionsFor user (.resource resource) = after.actionsOf user resource) :
    KnowsRule user resource past after next := by
  refine ⟨fun action hmem => ?_, fun _ => h⟩
  rw [h] at hmem
  exact hmem

/-- A call that writes no rule, and leaves the facts as they are. -/
theorem of_same (h : KnowsRule user resource past store base)
    (hfacts : next.actionsFor user (.resource resource) = base.actionsFor user (.resource resource))
    (hrule : after.actionsOf user resource = store.actionsOf user resource)
    (hwrites : ¬Writes user resource (store, request)) :
    KnowsRule user resource (past ++ [(store, request)]) after next := by
  refine ⟨?_, fun hlasts => ?_⟩
  · rw [hfacts, hrule]
    exact h.allowed
  · rw [hfacts, hrule]
    refine h.whole fun hpast => hlasts (lasts_append.2 (.inl ⟨hpast, fun call hmem => ?_⟩))
    obtain rfl := List.mem_singleton.1 hmem
    exact hwrites

/-- A call about something else. -/
theorem of_row (h : KnowsRule user resource past store base)
    (hrow : request.row? ≠ some (.rule user resource))
    (hfacts : next.actionsFor user (.resource resource) =
      base.actionsFor user (.resource resource)) :
    KnowsRule user resource (past ++ [(store, request)]) (store.answer request).2 next :=
  h.of_same hfacts (MemoryStore.actionsOf_of_row hrow) fun hwrites => hrow (row_of_writes hwrites)

theorem of_create {grant : Grant} (h : KnowsRule user grant.resource past store base)
    (haccepted : (store.create user grant).1 = .ok ()) :
    KnowsRule user grant.resource (past ++ [(store, .create user grant)])
      (store.create user grant).2
      (base.withFacts user (.resource grant.resource) grant.actions.toList) := by
  obtain ⟨hfree, hrule⟩ := MemoryStore.actionsOf_create haccepted
  refine of_eq ?_
  rw [hrule]
  refine ActionSet.ext_mem fun action => ?_
  rw [FactBase.mem_actionsFor_withFacts]
  constructor
  · rintro (⟨-, hmem⟩ | hmem)
    · exact hmem
    · have hnone := h.allowed action hmem
      rw [hfree] at hnone
      exact absurd hnone (ActionSet.not_mem_empty action)
  · exact fun hmem => .inl ⟨⟨rfl, rfl⟩, hmem⟩

/-- An update that changes nothing leaves nothing in the engine. -/
theorem of_untouched {grant : Grant} (huntouched : (store.update user grant).1 = 0) :
    KnowsRule user grant.resource (past ++ [(store, .update user grant)])
      (store.update user grant).2 (base.removeFacts user (.resource grant.resource)) := by
  obtain ⟨hstore, htype⟩ := MemoryStore.update_of_zero huntouched
  have hfacts : (base.removeFacts user (.resource grant.resource)).actionsFor user
      (.resource grant.resource) = ∅ := by
    simp
  rw [hstore]
  cases hrule : store.rules.get? (user, grant.resource) with
  | none =>
    refine of_eq ?_
    rw [hfacts, MemoryStore.actionsOf, hrule]
    rfl
  | some rule =>
    have hmistypes : Mistypes user grant.resource (store, .update user grant) :=
      ⟨rfl, rfl, rule, hrule, htype rule hrule⟩
    refine ⟨fun action hmem => ?_, fun hlasts => ?_⟩
    · rw [hfacts] at hmem
      exact absurd hmem (ActionSet.not_mem_empty action)
    · have hlast : Lasts (Mistypes user grant.resource) (Writes user grant.resource)
          [(store, .update user grant)] := Or.inl ⟨hmistypes, nofun⟩
      exact absurd (lasts_append.2 (.inr hlast)) hlasts

/-- What a check learns is in the rule. -/
theorem of_check {check : InstanceCheck}
    (h : KnowsRule check.user check.resource past store base)
    (hallowed : store.allowsInstance check = true) :
    KnowsRule check.user check.resource (past ++ [(store, .validateAccess check)]) store
      (base.addFact check.user (.resource check.resource) check.action) := by
  have hrule : check.action ∈ store.actionsOf check.user check.resource :=
    MemoryStore.mem_actionsOf_iff.2 (MemoryStore.backs_of_allowsInstance hallowed)
  have hfacts : (base.addFact check.user (.resource check.resource) check.action).actionsFor
      check.user (.resource check.resource) =
        (base.actionsFor check.user (.resource check.resource)).insert check.action := by
    simp
  have hsame : KnowsRule check.user check.resource (past ++ [(store, .validateAccess check)]) store
      base := h.of_same rfl rfl id
  constructor
  · intro action hmem
    rw [hfacts, ActionSet.mem_insert] at hmem
    rcases hmem with rfl | hmem
    · exact hrule
    · exact h.allowed action hmem
  · intro hlasts
    have hwhole := hsame.whole hlasts
    rw [hfacts, hwhole]
    refine ActionSet.ext_mem fun action => ?_
    rw [ActionSet.mem_insert]
    exact or_iff_right_of_imp fun heq => heq ▸ hrule

/-- Every call leaves the engine with what it may know of the rule. -/
theorem told (h : KnowsRule user resource past store base) (htold : Told store base request next) :
    KnowsRule user resource (past ++ [(store, request)]) (store.answer request).2 next := by
  have hpairs : ∀ owner target, Row.rule owner target ≠ .rule user resource →
      ¬(user = owner ∧ PolicyObject.resource resource = .resource target) := by
    rintro owner target hne ⟨rfl, heq⟩
    cases heq
    exact hne rfl
  cases htold with
  | read hrow =>
    refine h.of_row ?_ rfl
    simp [hrow]
  | notRecorded hrefused => exact h.of_row (by simp [StoreRequest.row?]) rfl
  | recorded haccepted =>
    exact h.of_row (by simp [StoreRequest.row?]) FactBase.actionsFor_withoutTypeFacts
  | learnedPolicy | cleared => exact h.of_row (by simp [StoreRequest.row?]) (by simp)
  | @notCreated owner grant error hrefused =>
    refine h.of_same rfl ?_ fun hwrites => ?_
    · rw [MemoryStore.answer, MemoryStore.create_of_error hrefused]
    · rw [hwrites.2.2] at hrefused
      cases hrefused
  | @created owner grant haccepted =>
    by_cases hrow : Row.rule owner grant.resource = .rule user resource
    · cases hrow
      exact h.of_create haccepted
    · refine h.of_row (fun heq => hrow (Option.some.inj heq)) (ActionSet.ext_mem fun action => ?_)
      rw [FactBase.mem_actionsFor_withFacts]
      exact or_iff_right fun hmem => hpairs _ _ hrow hmem.1
  | @replaced owner grant htouched =>
    by_cases hrow : Row.rule owner grant.resource = .rule user resource
    · cases hrow
      refine of_eq ?_
      rw [MemoryStore.answer, MemoryStore.actionsOf_update htouched]
      simp
    · refine h.of_row (fun heq => hrow (Option.some.inj heq)) ?_
      rw [FactBase.actionsFor_replaceFacts, if_neg (hpairs _ _ hrow)]
  | @notReplaced owner grant huntouched =>
    by_cases hrow : Row.rule owner grant.resource = .rule user resource
    · cases hrow
      exact of_untouched huntouched
    · refine h.of_row (fun heq => hrow (Option.some.inj heq)) ?_
      rw [FactBase.actionsFor_removeFacts, if_neg (hpairs _ _ hrow)]
  | @deleted owner target =>
    by_cases hrow : Row.rule owner target = .rule user resource
    · cases hrow
      refine of_eq ?_
      rw [MemoryStore.answer, MemoryStore.actionsOf_delete]
      simp
    · refine h.of_row (fun heq => hrow (Option.some.inj heq)) ?_
      rw [FactBase.actionsFor_removeFacts, if_neg (hpairs _ _ hrow)]
  | @learnedRule check hallowed =>
    by_cases hrow : Row.rule check.user check.resource = .rule user resource
    · cases hrow
      exact h.of_check hallowed
    · refine h.of_row (by simp [StoreRequest.row?]) ?_
      rw [FactBase.actionsFor_addFact, if_neg (hpairs _ _ hrow)]

end KnowsRule

/-! ## Any number of calls -/

namespace LocalCache

variable {store : MemoryStore} {cache : LocalCache} {user : UserId} {resource : ResourceId}
  {past : List (MemoryStore × StoreRequest)} {requests : List StoreRequest}

theorem knowsRoles_afterAll (hworks : cache.engine.poisoned = false)
    (h : cache.engine.base.KnowsRoles cache.store) :
    (cache.afterAll requests).engine.base.KnowsRoles (cache.afterAll requests).store := by
  induction requests generalizing cache with
  | nil => exact h
  | cons request rest ih =>
    have hserves := serves hworks request
    have hnext := h.told hserves.told
    rw [← hserves.store_eq] at hnext
    exact ih hserves.works hnext

theorem knowsRule_afterAll (hworks : cache.engine.poisoned = false)
    (h : KnowsRule user resource past cache.store cache.engine.base) :
    KnowsRule user resource (past ++ cache.history requests) (cache.afterAll requests).store
      (cache.afterAll requests).engine.base := by
  induction requests generalizing cache past with
  | nil =>
    rw [history, List.append_nil]
    exact h
  | cons request rest ih =>
    have hserves := serves hworks request
    have hnext := h.told hserves.told
    rw [← hserves.store_eq] at hnext
    have hrest := ih hserves.works hnext
    rw [List.append_assoc] at hrest
    exact hrest

theorem knowsRoles_ofStore (hopened : ofStore store = .ok cache) :
    cache.engine.base.KnowsRoles store := by
  rw [ofStore_eq] at hopened
  obtain rfl := Except.ok.inj hopened
  intro user
  rw [FactBase.roleOf_withRules, FactBase.roleOf_withRoles store.users.nodup]
  exact Option.or_none

/-- A newly opened cache knows every role and every rule. -/
theorem knows_ofStore (hkeyed : store.Keyed) (hopened : ofStore store = .ok cache) :
    cache.engine.poisoned = false ∧ cache.engine.base.KnowsRoles cache.store ∧
      ∀ user resource, KnowsRule user resource [] cache.store cache.engine.base := by
  have hholds : ∀ privilege, cache.engine.base.Holds privilege ↔
      ¬privilege.OnType ∧ store.Backs privilege := fun privilege => holds_ofStore hkeyed hopened
  have hroles : cache.engine.base.KnowsRoles store := knowsRoles_ofStore hopened
  rw [ofStore_eq] at hopened
  obtain rfl := Except.ok.inj hopened
  refine ⟨rfl, hroles, fun user resource => .of_eq (ActionSet.ext_mem fun action => ?_)⟩
  rw [MemoryStore.mem_actionsOf_iff]
  exact (hholds (.fact user (.resource resource) action)).trans (and_iff_right id)

/-- However many calls are made of a newly opened cache, one after another, the engine knows in the
end the role of every user of record, and of the rule of every pair at most what it allows.  It
knows the whole rule unless the pair was updated under another type after its last accepted write.
-/
theorem known_after_calls (hkeyed : store.Keyed) (hopened : ofStore store = .ok cache)
    (requests : List StoreRequest) :
    (cache.afterAll requests).engine.base.KnowsRoles (cache.afterAll requests).store ∧
      ∀ user resource, KnowsRule user resource (cache.history requests)
        (cache.afterAll requests).store (cache.afterAll requests).engine.base := by
  obtain ⟨hworks, hroles, hrules⟩ := knows_ofStore hkeyed hopened
  refine ⟨knowsRoles_afterAll hworks hroles, fun user resource => ?_⟩
  exact knowsRule_afterAll hworks (hrules user resource)

open AccessControl.System (someUser someResource someStore someStore_keyed)

/-- An update that takes the rule for a page to be one for a dashboard. -/
def mistypedUpdate : StoreRequest :=
  .update someUser ⟨someResource, .dashboard, .ofList [.get]⟩

/-- An update that gives the rule a second action. -/
def secondUpdate : StoreRequest :=
  .update someUser ⟨someResource, .page, .ofList [.get, .update]⟩

/-- The engine knows the whole rule again once an update has been accepted. -/
theorem rule_known_after_second_update : ∃ cache,
    ofStore someStore = .ok cache ∧
      (cache.afterAll [mistypedUpdate, secondUpdate]).engine.base.roleOf someUser =
        (cache.afterAll [mistypedUpdate, secondUpdate]).store.users.get? someUser ∧
      (cache.afterAll [mistypedUpdate, secondUpdate]).engine.base.actionsFor someUser
        (.resource someResource) =
          (cache.afterAll [mistypedUpdate, secondUpdate]).store.actionsOf someUser
            someResource := by
  obtain ⟨cache, hopened⟩ : ∃ cache, ofStore someStore = .ok cache := ⟨_, ofStore_eq _⟩
  have hstore : cache.store = someStore := by
    rw [ofStore_eq] at hopened
    obtain rfl := Except.ok.inj hopened
    rfl
  have hworks := (knows_ofStore someStore_keyed hopened).1
  have hfound : (cache.after mistypedUpdate).store = someStore := by
    rw [(serves hworks mistypedUpdate).store_eq, hstore]
    rfl
  have hwrites : Writes someUser someResource
      ((cache.after mistypedUpdate).store, secondUpdate) := by
    rw [hfound]
    exact ⟨rfl, rfl, by decide⟩
  obtain ⟨hroles, hrules⟩ := known_after_calls someStore_keyed hopened
    [mistypedUpdate, secondUpdate]
  refine ⟨cache, hopened, hroles _, (hrules someUser someResource).whole ?_⟩
  rintro (⟨-, hnone⟩ | ⟨⟨-, -, rule, hrule, htype⟩, -⟩ | hnever)
  · exact hnone _ (List.mem_singleton_self _) hwrites
  · have hpage : someStore.rules.get? (someUser, someResource) =
        some ⟨someUser, someResource, .page, .ofList [.get]⟩ := by decide
    rw [hfound, hpage] at hrule
    obtain rfl := Option.some.inj hrule
    exact htype rfl
  · exact hnever

end LocalCache

end AccessControl
