import AccessControl.Proofs.EngineFailure
import AccessControl.Proofs.PlainFacts
import AccessControl.Proofs.SequentialUse

/-!
# The warm-up copies the store

A store in memory that has come about by its own operations holds each rule under its own user and
resource, and gives rules to users of record alone.  A fresh engine that is loaded from such a store
knows the rules and the roles and nothing else, in whatever order the store lists them.  An engine
or a store that fails in between leaves no coordinator behind.
-/

namespace AccessControl

/-! ## Stores that come about -/

namespace MemoryStore

/-- What can become of an empty store. -/
inductive Reachable : MemoryStore → Prop
  | empty : Reachable ∅
  | registerUser {store : MemoryStore} (h : Reachable store) (user : UserId) (role : Role) :
      Reachable (store.registerUser user role)
  | answer {store : MemoryStore} (h : Reachable store) (request : StoreRequest) :
      Reachable (store.answer request).2

/-- Every rule is one of a user of record. -/
def Enrolled (store : MemoryStore) : Prop :=
  ∀ user resource, (store.rules.get? (user, resource)).isSome = true →
    (store.users.get? user).isSome = true

variable {store : MemoryStore}

theorem Enrolled.registerUser (h : store.Enrolled) (user : UserId) (role : Role) :
    (store.registerUser user role).Enrolled := by
  intro owner resource hrule
  simp only [MemoryStore.registerUser, Table.get?_insert]
  split
  · rfl
  · exact h owner resource hrule

theorem Enrolled.insert {user : UserId} {resource : ResourceId} {rule : Rule} (h : store.Enrolled)
    (huser : (store.users.get? user).isSome = true) :
    Enrolled { store with rules := store.rules.insert (user, resource) rule } := by
  intro owner target hrule
  simp only [Table.get?_insert] at hrule
  split at hrule
  case isTrue heq =>
    cases heq
    exact huser
  case isFalse => exact h owner target hrule

theorem Enrolled.answer (h : store.Enrolled) (request : StoreRequest) :
    (store.answer request).2.Enrolled := by
  cases request with
  | create user grant =>
    simp only [MemoryStore.answer, create]
    split
    case isTrue hknown =>
      split
      · exact h
      · exact h.insert hknown
    case isFalse => exact h
  | update user grant =>
    simp only [MemoryStore.answer, update]
    split
    case h_1 rule hrule =>
      split
      · exact h.insert (h user grant.resource (by rw [hrule]; rfl))
      · exact h
    case h_2 => exact h
  | delete user resource =>
    intro owner target hrule
    simp only [MemoryStore.answer, delete, Table.get?_erase] at hrule
    split at hrule
    · cases hrule
    · exact h owner target hrule
  | syncUserRole user role =>
    simp only [MemoryStore.answer, syncUserRole]
    split
    · exact h.registerUser user role
    · exact h
  | _ => exact h

theorem Reachable.keyed (h : store.Reachable) : store.Keyed := by
  induction h with
  | empty => exact nofun
  | registerUser h user role ih => exact ih
  | answer h request ih => exact ih.answer request

theorem Reachable.enrolled (h : store.Reachable) : store.Enrolled := by
  induction h with
  | empty => exact nofun
  | registerUser h user role ih => exact ih.registerUser user role
  | answer h request ih => exact ih.answer request

end MemoryStore

/-! ## What the loading leaves -/

namespace FactBase

variable {base : FactBase} {other : UserId}

/-- Facts that are added one by one move no counter. -/
theorem versions_withFacts (subject : UserId) (object : PolicyObject) (actions : List Action) :
    (base.withFacts subject object actions).subjectVersions = base.subjectVersions ∧
      (base.withFacts subject object actions).objectVersions = base.objectVersions := by
  induction actions generalizing base with
  | nil => exact ⟨rfl, rfl⟩
  | cons action rest ih => exact @ih (base.addFact subject object action)

theorem versions_withRules (rules : List Rule) :
    (base.withRules rules).subjectVersions = base.subjectVersions ∧
      (base.withRules rules).objectVersions = base.objectVersions := by
  induction rules generalizing base with
  | nil => exact ⟨rfl, rfl⟩
  | cons rule rest ih =>
    have hrule := @versions_withFacts base rule.user (.resource rule.resource) rule.actions.toList
    have hrest := @ih (base.withFacts rule.user (.resource rule.resource) rule.actions.toList)
    exact ⟨hrest.1.trans hrule.1, hrest.2.trans hrule.2⟩

/-- Each role that is recorded moves the counter of its subject. -/
theorem subjectVersions_withRoles {rows : List (UserId × Role)} (h : (rows.map Prod.fst).Nodup) :
    (base.withRoles rows).subjectVersions.get? other =
      if other ∈ rows.map Prod.fst then some (base.subjectVersion other + 1)
      else base.subjectVersions.get? other := by
  induction rows generalizing base with
  | nil => rfl
  | cons row rest ih =>
    obtain ⟨subject, role⟩ := row
    obtain ⟨habsent, hrest⟩ := List.nodup_cons.1 h
    have hstep : base.withRoles ((subject, role) :: rest) =
      (base.setRole subject role).withRoles rest := rfl
    rw [hstep, ih hrest, subjectVersion_setRole]
    by_cases hsame : other = subject
    · subst hsame
      rw [if_neg habsent]
      simp [setRole, revokeSubject]
    · have hlater : other ∈ ((subject, role) :: rest).map Prod.fst ↔ other ∈ rest.map Prod.fst := by
        simp [hsame]
      simp only [hlater, if_neg hsame]
      simp [setRole, revokeSubject, hsame]

theorem objectVersions_withRoles (rows : List (UserId × Role)) :
    (base.withRoles rows).objectVersions = base.objectVersions := by
  induction rows generalizing base with
  | nil => rfl
  | cons row rest ih => exact ih

theorem Shows.withRoles {plain : PlainBase} (h : base.Shows plain) (rows : List (UserId × Role)) :
    ∃ plain, (base.withRoles rows).Shows plain := by
  induction rows generalizing base plain with
  | nil => exact ⟨plain, h⟩
  | cons row rest ih => exact ih h.setRole

theorem Shows.withFacts {plain : PlainBase} (h : base.Shows plain) (subject : UserId)
    (object : PolicyObject) (actions : List Action) :
    ∃ plain, (base.withFacts subject object actions).Shows plain := by
  induction actions generalizing base plain with
  | nil => exact ⟨plain, h⟩
  | cons action rest ih => exact ih h.addFact

theorem Shows.withRules {plain : PlainBase} (h : base.Shows plain) (rules : List Rule) :
    ∃ plain, (base.withRules rules).Shows plain := by
  induction rules generalizing base plain with
  | nil => exact ⟨plain, h⟩
  | cons rule rest ih =>
    obtain ⟨loaded, hloaded⟩ := h.withFacts rule.user (.resource rule.resource) rule.actions.toList
    exact ih hloaded

/-- The fact bases say the same of every key; their rows may be in different orders. -/
structure SameContent (base other : FactBase) : Prop where
  facts : ∀ pair, base.facts.get? pair = other.facts.get? pair
  roles : ∀ user, base.roles.get? user = other.roles.get? user
  subjectVersions : ∀ user, base.subjectVersions.get? user = other.subjectVersions.get? user
  objectVersions : ∀ object, base.objectVersions.get? object = other.objectVersions.get? object

/-- The fact base knows the rules and the roles of the store, and nothing else.  The record of its
role is all that has moved the counter of a user. -/
structure Copies (base : FactBase) (store : MemoryStore) : Prop where
  rules : ∀ user resource,
    base.actionsFor user (.resource resource) = store.actionsOf user resource
  types : ∀ user resourceType, base.actionsFor user (.type resourceType) = ∅
  kept : ∀ pair, base.facts.get? pair ≠ some ∅
  roles : ∀ user, base.roleOf user = store.users.get? user
  subjects : ∀ user, base.subjectVersions.get? user = (store.users.get? user).map fun _ => 1
  objects : ∀ object, base.objectVersions.get? object = none

/-- The fact base that a fresh engine is loaded with. -/
def loaded (store : MemoryStore) : FactBase :=
  ((∅ : FactBase).withRoles store.users.rows).withRules store.rules.values

variable {store listed : MemoryStore}

theorem loaded_shows (store : MemoryStore) : ∃ plain, (loaded store).Shows plain := by
  obtain ⟨plain, hroles⟩ := shows_empty.withRoles store.users.rows
  exact hroles.withRules store.rules.values

theorem loaded_copies (h : store.Keyed) : (loaded store).Copies store := by
  let cache : LocalCache := { store, engine := { base := loaded store } }
  have hopened : LocalCache.ofStore store = .ok cache := LocalCache.ofStore_eq store
  have hholds : ∀ privilege, cache.engine.base.Holds privilege ↔
      ¬privilege.OnType ∧ store.Backs privilege := fun _ => LocalCache.holds_ofStore h hopened
  obtain ⟨plain, hshows⟩ := loaded_shows store
  obtain ⟨hsubjects, hobjects⟩ := @versions_withRules
    ((∅ : FactBase).withRoles store.users.rows) store.rules.values
  refine ⟨fun user resource => ?_, fun user resourceType => ?_, hshows.kept, fun user => ?_,
    fun user => ?_, fun object => ?_⟩
  · refine ActionSet.ext_mem fun action => ?_
    rw [MemoryStore.mem_actionsOf_iff]
    have hfact := hholds (.fact user (.resource resource) action)
    simpa [Holds, Privilege.OnType] using hfact
  · refine ActionSet.ext_mem fun action => ?_
    have hfact := hholds (.fact user (.type resourceType) action)
    simpa [Holds, Privilege.OnType] using hfact
  · rw [loaded, roleOf_withRules, roleOf_withRoles store.users.nodup]
    exact Option.or_none
  · rw [loaded, hsubjects, subjectVersions_withRoles store.users.nodup]
    cases huser : store.users.get? user with
    | none =>
      rw [if_neg (Table.find?_eq_none.1 huser)]
      rfl
    | some role =>
      rw [if_pos (List.mem_map_of_mem (Table.mem_rows_iff.2 huser))]
      rfl
  · rw [loaded, hobjects, objectVersions_withRoles]
    rfl

/-- The order of the rows does not matter to a copy. -/
theorem Copies.of_sameRows (h : base.Copies listed) (hsame : store.SameRows listed) :
    base.Copies store := by
  have husers := Table.get?_of_perm hsame.users
  have hrules := Table.get?_of_perm hsame.rules
  refine ⟨fun user resource => ?_, h.types, h.kept, fun user => ?_, fun user => ?_, h.objects⟩
  · rw [h.rules, MemoryStore.actionsOf, MemoryStore.actionsOf, hrules]
  · rw [h.roles, husers]
  · rw [h.subjects, husers]

/-- What a copy holds is settled by the store. -/
theorem Copies.sameContent {other : FactBase} (h : base.Copies store)
    (hother : other.Copies store) : base.SameContent other := by
  have hactions : ∀ pair : UserId × PolicyObject,
      base.actionsFor pair.1 pair.2 = other.actionsFor pair.1 pair.2 := by
    rintro ⟨user, object⟩
    cases object with
    | resource resource => rw [h.rules, hother.rules]
    | type resourceType => rw [h.types, hother.types]
  refine ⟨fun pair => ?_, fun user => ?_, fun user => ?_, fun object => ?_⟩
  · have hpair := hactions pair
    have hkept := h.kept pair
    have hkept' := hother.kept pair
    simp only [actionsFor] at hpair
    -- a pair without actions has no row, so that the actions tell the row
    cases hleft : base.facts.get? pair <;> cases hright : other.facts.get? pair <;>
      simp_all
  · exact (h.roles user).trans (hother.roles user).symm
  · rw [h.subjects, hother.subjects]
  · rw [h.objects, hother.objects]

end FactBase

/-- However the rows of a store that has come about are listed, a fresh engine is loaded with a
copy. -/
theorem MemoryStore.Reachable.copies {store listed : MemoryStore} (h : store.Reachable)
    (hsame : store.SameRows listed) : (FactBase.loaded listed).Copies store := by
  have hkeyed : listed.Keyed := fun user resource rule hrule => by
    rw [← Table.get?_of_perm hsame.rules] at hrule
    exact h.keyed user resource rule hrule
  exact (FactBase.loaded_copies hkeyed).of_sameRows hsame

/-! ## How much a copy holds -/

/-- The rules as a table of facts. -/
def MemoryStore.ruleFacts (store : MemoryStore) : Table (UserId × PolicyObject) ActionSet where
  rows := store.rules.rows.map fun row => ((row.1.1, .resource row.1.2), row.2.actions)
  nodup := by
    have hinjective : Function.Injective fun key : UserId × ResourceId =>
        (key.1, PolicyObject.resource key.2) := by
      rintro ⟨user, resource⟩ ⟨user', resource'⟩ heq
      simpa using heq
    have hkeys := store.rules.nodup.map hinjective
    simpa [List.map_map, Function.comp_def] using hkeys

namespace FactBase

variable {base : FactBase} {plain : PlainBase} {store : MemoryStore}

theorem mem_factsOf_ruleFacts {user : UserId} {object : PolicyObject} {action : Action} :
    (user, object, action) ∈ factsOf store.ruleFacts ↔
      ∃ resource, object = .resource resource ∧ action ∈ store.actionsOf user resource := by
  rw [mem_factsOf]
  constructor
  · rintro ⟨actions, hget, hmem⟩
    obtain ⟨⟨⟨owner, resource⟩, rule⟩, hrow, heq⟩ := List.mem_map.1 (Table.mem_rows_iff.2 hget)
    cases heq
    exact ⟨resource, rfl, MemoryStore.mem_actionsOf_iff.2 ⟨rule, Table.mem_rows_iff.1 hrow, hmem⟩⟩
  · rintro ⟨resource, rfl, hmem⟩
    obtain ⟨rule, hrule, haction⟩ := MemoryStore.mem_actionsOf_iff.1 hmem
    refine ⟨rule.actions, Table.mem_rows_iff.1 ?_, haction⟩
    exact List.mem_map.2 ⟨_, Table.mem_rows_iff.2 hrule, rfl⟩

theorem Copies.mem_facts_iff (h : base.Copies store) (hshows : base.Shows plain) {user : UserId}
    {object : PolicyObject} {action : Action} : (user, object, action) ∈ plain.facts ↔
      ∃ resource, object = .resource resource ∧ action ∈ store.actionsOf user resource := by
  rw [hshows.facts]
  cases object with
  | resource resource => simp [h.rules]
  | type resourceType => simp [h.types]

theorem Copies.factCount_eq (h : base.Copies store) (hshows : base.Shows plain) :
    base.factCount = (store.rules.values.map fun rule => rule.actions.size).foldr (· + ·) 0 := by
  have hcount : countOf store.ruleFacts = plain.facts.card := countOf_eq_card fun fact =>
    (h.mem_facts_iff hshows).trans mem_factsOf_ruleFacts.symm
  rw [hshows.factCount_eq, ← hcount]
  simp [countOf, MemoryStore.ruleFacts, Table.values, List.map_map, Function.comp_def]

/-- A rule gives facts to a user who is counted for the role already. -/
theorem Copies.subjectCount_eq (h : base.Copies store) (hshows : base.Shows plain)
    (henrolled : store.Enrolled) : base.subjectCount = store.users.rows.length := by
  rw [hshows.subjectCount_eq]
  refine (card_eq_length store.users.nodup fun user => ?_).trans (List.length_map _)
  have hknown : user ∈ store.users.rows.map Prod.fst ↔ (store.users.get? user).isSome = true := by
    rw [Option.isSome_iff_ne_none, Ne, Table.get?, Table.find?_eq_none, not_not]
  rw [hknown, PlainBase.subjects, Finset.mem_union, Finmap.mem_keys, ← Finmap.lookup_isSome,
    hshows.roles, h.roles]
  refine or_iff_right_of_imp fun hfact => ?_
  obtain ⟨⟨owner, object, action⟩, hmem, rfl⟩ := Finset.mem_image.1 hfact
  obtain ⟨resource, rfl, haction⟩ := (h.mem_facts_iff hshows).1 hmem
  refine henrolled owner resource ?_
  obtain ⟨rule, hrule, -⟩ := MemoryStore.mem_actionsOf_iff.1 haction
  rw [hrule]
  rfl

end FactBase

/-- The engine answers what the store holds. -/
structure Engine.IsCopy (engine : Engine) (store : MemoryStore) : Prop where
  rules : ∀ user resource, (engine.answer (.actionsFor user (.resource resource))).1 =
    .ok (store.actionsOf user resource)
  types : ∀ user resourceType, (engine.answer (.actionsFor user (.type resourceType))).1 = .ok ∅
  roles : ∀ user, (engine.answer (.roleOf user)).1 = .ok (store.users.get? user)
  factCount : (engine.answer .factCount).1 =
    .ok ((store.rules.values.map fun rule => rule.actions.size).foldr (· + ·) 0)
  subjectCount : engine.subjectCount = .ok store.users.rows.length

theorem FactBase.Copies.isCopy {engine : Engine} {store : MemoryStore} {plain : PlainBase}
    (h : engine.base.Copies store) (hshows : engine.base.Shows plain) (henrolled : store.Enrolled)
    (hworks : engine.poisoned = false) : engine.IsCopy store := by
  refine ⟨fun user resource => ?_, fun user resourceType => ?_, fun user => ?_, ?_, ?_⟩
  · rw [Engine.answer_of_works hworks, FactBase.answer, h.rules]
  · rw [Engine.answer_of_works hworks, FactBase.answer, h.types]
  · rw [Engine.answer_of_works hworks, FactBase.answer, h.roles]
  · rw [Engine.answer_of_works hworks, FactBase.answer, h.factCount_eq hshows]
  · rw [Engine.subjectCount, hworks, h.subjectCount_eq hshows henrolled]
    rfl

/-! ## A loading that fails -/

/-- Whether the engine or the store has failed. -/
def CallEvent.Fails : CallEvent → Prop
  | asksEngine _ (.error _) => True
  | hears _ (.error _) => True
  | _ => False

/-- Whether the error is what the engine has replied. -/
def CallEvent.IsReplyOf (error : EngineError) (event : CallEvent) : Prop :=
  ∃ request, event = .asksEngine request (.error error)

/-- Whether the error is what the store has answered, or says that the engine has failed. -/
def CallEvent.IsReasonOf (error : StorageError) (event : CallEvent) : Prop :=
  (∃ request, event = .hears request (.error error)) ∨
    ∃ failure, error = Coordinator.engineFailure failure ∧ event.IsReplyOf failure

section

variable {α β κ κ' ε σ : Type} {engines : PolicyEngine ε} {stores : RuleStore σ}
  {causes : κ → CallEvent → Prop} {causes' : κ' → CallEvent → Prop}

/-- A call in two parts has done what its parts have done. -/
theorem Call.perform_bind (call : Call α) (next : α → Call β) (found : ε) (held : σ) :
    (call.bind next).perform engines stores found held =
      let first := call.perform engines stores found held
      let second := (next first.result).perform engines stores first.engine first.store
      { second with events := first.events ++ second.events } := by
  induction call generalizing found held with
  | done => rfl
  | engine request rest ih => simp [Call.perform, Performance.after, ih]
  | store request onUnknown rest ih => simp [Call.perform, Performance.after, ih]
  | count counter rest ih => simp [Call.perform, Performance.after, ih]

/-- A call that ends well has met no failure, and one that ends with an error has a cause for it. -/
structure Performance.Blames (causes : κ → CallEvent → Prop)
    (performance : Performance (Except κ α) ε σ) : Prop where
  well : ∀ result, performance.result = .ok result → ∀ event ∈ performance.events, ¬event.Fails
  error : ∀ error, performance.result = .error error →
    ∃ event ∈ performance.events, causes error event

/-- Whichever requests fail, the call ends with an error exactly because of them. -/
def Call.Blames (engines : PolicyEngine ε) (stores : RuleStore σ) (causes : κ → CallEvent → Prop)
    (call : Call (Except κ α)) : Prop :=
  ∀ found held, (call.perform engines stores found held).Blames causes

theorem Performance.Blames.after {performance : Performance (Except κ α) ε σ} {event : CallEvent}
    (h : performance.Blames causes) (hfine : ¬event.Fails) :
    (performance.after event).Blames causes where
  well result hresult := List.forall_mem_cons.2 ⟨hfine, h.well result hresult⟩
  error error herror :=
    let ⟨cause, hmem, hcause⟩ := h.error error herror
    ⟨cause, List.mem_cons_of_mem event hmem, hcause⟩

theorem Performance.blames_of_error {performance : Performance (Except κ α) ε σ} {error : κ}
    (hresult : performance.result = .error error)
    (hcause : ∃ event ∈ performance.events, causes error event) : performance.Blames causes where
  well result hwell := by
    rw [hresult] at hwell
    cases hwell
  error other hother := by
    obtain rfl : error = other := Except.error.inj (hresult.symm.trans hother)
    exact hcause

namespace Call

theorem blames_done (result : α) : Call.Blames engines stores causes (.done (.ok result)) :=
  fun _ _ => ⟨fun _ _ _ => (absurd · List.not_mem_nil), nofun⟩

theorem blames_ask {request : EngineRequest}
    {next : request.Reply → Call (Except EngineError α)}
    (h : ∀ reply, (next reply).Blames engines stores CallEvent.IsReplyOf) :
    (Call.ask request next).Blames engines stores CallEvent.IsReplyOf := by
  intro found held
  rw [Call.ask, Call.perform]
  generalize engines found request = exchange
  obtain ⟨reply, left⟩ := exchange
  cases reply with
  | ok reply =>
    have hfine : ¬(CallEvent.asksEngine request (.ok reply)).Fails := id
    exact (h reply left held).after hfine
  | error error =>
    exact Performance.blames_of_error rfl ⟨_, List.mem_cons_self, request, rfl⟩

theorem blames_store {request : StoreRequest} {onUnknown : List EngineUpdate}
    {next : request.Answer → Call (Except StorageError α)}
    (herror : ∀ error, next (.error error) = .done (.error error))
    (h : ∀ reply, (next (.ok reply)).Blames engines stores CallEvent.IsReasonOf) :
    (Call.store request onUnknown next).Blames engines stores CallEvent.IsReasonOf := by
  intro found held
  rw [Call.perform]
  generalize stores held request = exchange
  obtain ⟨answer, left⟩ := exchange
  cases answer with
  | ok reply =>
    have hasks : ¬(CallEvent.asksStore request).Fails := id
    have hhears : ¬(CallEvent.hears request (.ok reply)).Fails := id
    exact ((h reply found left).after hhears).after hasks
  | error error =>
    simp only [herror]
    exact Performance.blames_of_error rfl ⟨_, .tail _ (.head _), .inl ⟨request, rfl⟩⟩

/-- The second part is made only if the first ends well, and passes its error on otherwise. -/
theorem Blames.bind {call : Call (Except κ α)} {next : Except κ α → Call (Except κ' β)}
    (h : call.Blames engines stores causes)
    (hnext : ∀ result, (next (.ok result)).Blames engines stores causes')
    (herror : ∀ error, ∃ told, next (.error error) = .done (.error told) ∧
      ∀ event, causes error event → causes' told event) :
    (call.bind next).Blames engines stores causes' := by
  intro found held
  rw [perform_bind]
  generalize hperformed : call.perform engines stores found held = first
  obtain ⟨hwell, hcause⟩ := hperformed ▸ h found held
  cases hresult : first.result with
  | ok result =>
    have hsecond := hnext result first.engine first.store
    refine ⟨fun last hlast => ?_, fun error hlast => ?_⟩
    · simp only [hresult] at hlast ⊢
      exact List.forall_mem_append.2 ⟨hwell result hresult, hsecond.well last hlast⟩
    · simp only [hresult] at hlast ⊢
      obtain ⟨event, hmem, hevent⟩ := hsecond.error error hlast
      exact ⟨event, List.mem_append_right _ hmem, hevent⟩
  | error error =>
    obtain ⟨told, htold, hpassed⟩ := herror error
    obtain ⟨event, hmem, hevent⟩ := hcause error hresult
    simp only [hresult, htold, Call.perform]
    exact Performance.blames_of_error rfl
      ⟨event, List.mem_append_left _ hmem, hpassed event hevent⟩

end Call

namespace Coordinator

theorem loadRoles_blames (roles : List (UserId × Role)) :
    (loadRoles roles).Blames engines stores CallEvent.IsReplyOf := by
  induction roles with
  | nil => exact Call.blames_done ()
  | cons row rest ih => exact Call.blames_ask fun _ => ih

theorem loadFacts_blames (subject : UserId) (object : PolicyObject) (actions : List Action) :
    (loadFacts subject object actions).Blames engines stores CallEvent.IsReplyOf := by
  induction actions with
  | nil => exact Call.blames_done ()
  | cons action rest ih => exact Call.blames_ask fun _ => ih

theorem loadRules_blames (rules : List Rule) :
    (loadRules rules).Blames engines stores CallEvent.IsReplyOf := by
  induction rules with
  | nil => exact Call.blames_done ()
  | cons rule rest ih =>
    exact (loadFacts_blames _ _ _).bind (fun _ => ih) fun error => ⟨error, rfl, fun _ => id⟩

/-- A warm-up ends with an error exactly if something has failed: with the error of the store, or
with one that says that the engine has failed. -/
theorem warmUp_blames : warmUp.Blames engines stores CallEvent.IsReasonOf := by
  refine Call.blames_store (fun _ => rfl) fun roles => ?_
  refine (loadRoles_blames roles.rows).bind (fun _ => ?_) fun failure =>
    ⟨_, rfl, fun _ hreply => .inr ⟨failure, rfl, hreply⟩⟩
  refine Call.blames_store (fun _ => rfl) fun rules => ?_
  exact (loadRules_blames rules).bind (fun _ => Call.blames_done ()) fun failure =>
    ⟨_, rfl, fun _ hreply => .inr ⟨failure, rfl, hreply⟩⟩

end Coordinator

end

/-- A store in which one user has two rules and another has one. -/
def ruledStore : MemoryStore :=
  let registered := ((∅ : MemoryStore).registerUser System.someUser .user).registerUser
    ⟨.ofNat 7⟩ .admin
  let page : Grant := ⟨System.someResource, .page, .ofList [.get, .update]⟩
  let dashboard : Grant := ⟨⟨.ofNat 8⟩, .dashboard, .ofList [.delete]⟩
  let first := (registered.answer (.create System.someUser page)).2
  let second := (first.answer (.create System.someUser dashboard)).2
  (second.answer (.create ⟨.ofNat 7⟩ page)).2

/-- The same table with its rows in the reverse order. -/
def Table.reverse {κ α : Type} (table : Table κ α) : Table κ α :=
  ⟨table.rows.reverse, by simpa using table.nodup⟩

namespace LocalCache

/-- A cache that is opened over a store that has come about by its own operations has an engine that
answers what the store holds, and whose content does not hang on the order in which the store lists
its rows.  A warm-up during which an engine or a store of any kind fails leaves no coordinator, but
the error of the store, or one that says that the engine has failed. -/
theorem warm_up_copies_store {store : MemoryStore} (hreachable : store.Reachable) :
    (∀ listed, store.SameRows listed → ∃ cache, ofStore listed = .ok cache ∧
      cache.store = listed ∧ cache.counters = {} ∧ cache.engine.IsCopy store ∧
        ∀ other otherCache, store.SameRows other → ofStore other = .ok otherCache →
          otherCache.engine.poisoned = cache.engine.poisoned ∧
            otherCache.engine.base.SameContent cache.engine.base) ∧
    ∀ {ε σ : Type} (engines : PolicyEngine ε) (stores : RuleStore σ) found held,
      let performed := Coordinator.warmUp.perform engines stores found held
      (∃ event ∈ performed.events, event.Fails) → ∃ error, performed.result = .error error ∧
        ∃ event ∈ performed.events, event.IsReasonOf error := by
  constructor
  · intro listed hsame
    let cache : LocalCache := { store := listed, engine := { base := .loaded listed } }
    obtain ⟨plain, hshows⟩ := FactBase.loaded_shows listed
    have hcopy : cache.engine.IsCopy store :=
      (hreachable.copies hsame).isCopy hshows hreachable.enrolled rfl
    refine ⟨cache, ofStore_eq listed, rfl, rfl, hcopy, fun other otherCache hother hopened => ?_⟩
    obtain rfl := Except.ok.inj ((ofStore_eq other).symm.trans hopened)
    exact ⟨rfl, (hreachable.copies hother).sameContent (hreachable.copies hsame)⟩
  · intro ε σ engines stores found held performed hfails
    obtain ⟨hwell, hcause⟩ : performed.Blames CallEvent.IsReasonOf :=
      Coordinator.warmUp_blames found held
    obtain ⟨event, hmem, hfailed⟩ := hfails
    cases hresult : performed.result with
    | ok result => exact absurd hfailed (hwell result hresult event hmem)
    | error error => exact ⟨error, rfl, hcause error hresult⟩

/-- The three rules have five actions in all, and an engine that is loaded from them in the reverse
order has the same content.  An engine that has failed is loaded with none of them. -/
theorem warm_up_of_three_rules :
    let listed : MemoryStore := ⟨ruledStore.rules.reverse, ruledStore.users.reverse,
      ruledStore.policies.reverse⟩
    listed ≠ ruledStore ∧ ∃ cache listedCache,
      ofStore ruledStore = .ok cache ∧ ofStore listed = .ok listedCache ∧
        listedCache.engine.base.SameContent cache.engine.base ∧
        (cache.engine.answer .factCount).1 = .ok 5 ∧ cache.engine.subjectCount = .ok 2 ∧
        ∃ error, (Coordinator.warmUp.perform Engine.answer MemoryStore.answer
          { poisoned := true } ruledStore).result = .error error := by
  intro listed
  have hreachable : ruledStore.Reachable :=
    .answer (.answer (.answer (.registerUser (.registerUser .empty _ _) _ _) _) _) _
  have hlisted : ruledStore.SameRows listed :=
    ⟨(List.reverse_perm _).symm, (List.reverse_perm _).symm, (List.reverse_perm _).symm⟩
  obtain ⟨hcopied, hfailed⟩ := warm_up_copies_store hreachable
  obtain ⟨cache, hopened, -, -, hcopy, hsame⟩ := hcopied ruledStore (.refl ruledStore)
  obtain ⟨listedCache, hreopened, -⟩ := hcopied listed hlisted
  have hsizes :
      (ruledStore.rules.values.map fun rule => rule.actions.size).foldr (· + ·) 0 = 5 := by decide
  refine ⟨by decide, cache, listedCache, hopened, hreopened,
    (hsame listed listedCache hlisted hreopened).2, hsizes ▸ hcopy.factCount, hcopy.subjectCount, ?_⟩
  obtain ⟨error, hresult, -⟩ := hfailed Engine.answer MemoryStore.answer { poisoned := true }
    ruledStore ⟨_, .tail _ (.tail _ (.head _)), trivial⟩
  exact ⟨error, hresult⟩

end LocalCache

end AccessControl
