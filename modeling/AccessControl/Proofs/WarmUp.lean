import AccessControl.Cache.Local
import AccessControl.Proofs.EngineEffect

/-!
# The engine after its loading

A cache over a store in memory loads every role and every rule into a fresh engine.  The engine then
holds exactly what the store backs, save for the facts about resource types, which are learned one
by one from the answers to checks.
-/

namespace AccessControl

namespace FactBase

variable {base : FactBase} {privilege : Privilege} {subject other : UserId}

/-- The fact base after roles have been recorded one by one. -/
def withRoles (base : FactBase) (rows : List (UserId × Role)) : FactBase :=
  rows.foldl (fun base row => base.setRole row.1 row.2) base

/-- The fact base after facts about one object have been added one by one. -/
def withFacts (base : FactBase) (subject : UserId) (object : PolicyObject)
    (actions : List Action) : FactBase :=
  actions.foldl (fun base action => base.addFact subject object action) base

/-- The fact base after the facts of rules have been added one by one. -/
def withRules (base : FactBase) (rules : List Rule) : FactBase :=
  rules.foldl (fun base rule =>
    base.withFacts rule.user (.resource rule.resource) rule.actions.toList) base

/-- The last role that was recorded for a user stands. -/
theorem roleOf_withRoles {rows : List (UserId × Role)} (h : (rows.map Prod.fst).Nodup) :
    (base.withRoles rows).roleOf other = (Table.find? other rows).or (base.roleOf other) := by
  induction rows generalizing base with
  | nil => rfl
  | cons row rest ih =>
    obtain ⟨subject, role⟩ := row
    obtain ⟨habsent, hrest⟩ := List.nodup_cons.1 h
    have hlater : (base.withRoles ((subject, role) :: rest)).roleOf other =
        (Table.find? other rest).or ((base.setRole subject role).roleOf other) := ih hrest
    rw [hlater, roleOf_setRole, Table.find?]
    by_cases hsame : other = subject
    · rw [hsame, Table.find?_eq_none.2 habsent, if_pos rfl, if_pos rfl]
      rfl
    · rw [if_neg hsame, if_neg hsame]

theorem actionsFor_withRoles {rows : List (UserId × Role)} {object : PolicyObject} :
    (base.withRoles rows).actionsFor subject object = base.actionsFor subject object := by
  induction rows generalizing base with
  | nil => rfl
  | cons row rest ih => exact ih.trans actionsFor_setRole

theorem roleOf_withFacts {object : PolicyObject} {actions : List Action} :
    (base.withFacts subject object actions).roleOf other = base.roleOf other := by
  induction actions generalizing base with
  | nil => rfl
  | cons action rest ih => exact ih.trans roleOf_addFact

theorem roleOf_withRules {rules : List Rule} :
    (base.withRules rules).roleOf other = base.roleOf other := by
  induction rules generalizing base with
  | nil => rfl
  | cons rule rest ih => exact ih.trans roleOf_withFacts

theorem holds_withFacts {object : PolicyObject} {actions : List Action} :
    (base.withFacts subject object actions).Holds privilege ↔
      (∃ action ∈ actions, privilege = .fact subject object action) ∨ base.Holds privilege := by
  induction actions generalizing base with
  | nil => simp [withFacts]
  | cons action rest ih =>
    have hlater : (base.withFacts subject object (action :: rest)).Holds privilege ↔
        (∃ later ∈ rest, privilege = .fact subject object later) ∨
          (base.addFact subject object action).Holds privilege := ih
    rw [hlater, holds_addFact]
    simp only [List.mem_cons, or_and_right, exists_or, exists_eq_left]
    exact or_left_comm.trans or_assoc.symm

theorem mem_actionsFor_withFacts {object target : PolicyObject} {actions : ActionSet}
    {action : Action} :
    action ∈ (base.withFacts subject object actions.toList).actionsFor other target ↔
      (other = subject ∧ target = object) ∧ action ∈ actions ∨
        action ∈ base.actionsFor other target := by
  have hholds : (base.withFacts subject object actions.toList).Holds (.fact other target action) ↔
      _ := holds_withFacts
  simp only [Holds, ActionSet.mem_toList, Privilege.fact.injEq] at hholds
  rw [hholds]
  grind

theorem holds_withRules {rules : List Rule} :
    (base.withRules rules).Holds privilege ↔
      (∃ rule ∈ rules, ∃ action ∈ rule.actions,
        privilege = .fact rule.user (.resource rule.resource) action) ∨ base.Holds privilege := by
  induction rules generalizing base with
  | nil => simp [withRules]
  | cons rule rest ih =>
    have hlater : (base.withRules (rule :: rest)).Holds privilege ↔ _ := ih
    rw [hlater, holds_withFacts]
    simp only [List.mem_cons, or_and_right, exists_or, exists_eq_left, ActionSet.mem_toList]
    exact or_left_comm.trans or_assoc.symm

end FactBase

namespace LocalCache

variable {cache : LocalCache}

/-- The cache with another fact base in its engine. -/
def withBase (cache : LocalCache) (base : FactBase) : LocalCache :=
  { cache with engine := { cache.engine with base } }

theorem run_loadRoles (h : cache.engine.poisoned = false) (rows : List (UserId × Role)) :
    run (Coordinator.loadRoles rows) cache =
      (.ok (), cache.withBase (cache.engine.base.withRoles rows)) := by
  induction rows generalizing cache with
  | nil => rfl
  | cons row rest ih =>
    obtain ⟨subject, role⟩ := row
    have hstep : run (Coordinator.loadRoles ((subject, role) :: rest)) cache =
        run (Coordinator.loadRoles rest)
          (cache.withBase (cache.engine.base.setRole subject role)) := by
      simp [Coordinator.loadRoles, Call.ask, run, Engine.answer, h, FactBase.answer, withBase]
    exact hstep.trans (ih h)

theorem run_loadFacts (h : cache.engine.poisoned = false) (subject : UserId)
    (object : PolicyObject) (actions : List Action) :
    run (Coordinator.loadFacts subject object actions) cache =
      (.ok (), cache.withBase (cache.engine.base.withFacts subject object actions)) := by
  induction actions generalizing cache with
  | nil => rfl
  | cons action rest ih =>
    have hstep : run (Coordinator.loadFacts subject object (action :: rest)) cache =
        run (Coordinator.loadFacts subject object rest)
          (cache.withBase (cache.engine.base.addFact subject object action)) := by
      simp [Coordinator.loadFacts, Call.ask, run, Engine.answer, h, FactBase.answer, withBase]
    exact hstep.trans (ih h)

theorem run_loadRules (h : cache.engine.poisoned = false) (rules : List Rule) :
    run (Coordinator.loadRules rules) cache =
      (.ok (), cache.withBase (cache.engine.base.withRules rules)) := by
  induction rules generalizing cache with
  | nil => rfl
  | cons rule rest ih =>
    rw [Coordinator.loadRules, run_bind, run_loadFacts h]
    exact ih h

/-- A cache can be opened over every store; its engine is loaded with the roles and the rules. -/
theorem ofStore_eq (store : MemoryStore) :
    ofStore store = .ok { store, engine :=
      { base := ((∅ : FactBase).withRoles store.users.rows).withRules store.rules.values } } := by
  have hroles : run (Coordinator.loadRoles store.users.rows) { store } = _ := run_loadRoles rfl _
  have hrun : run Coordinator.warmUp { store } = (.ok (), { store, engine :=
      { base := ((∅ : FactBase).withRoles store.users.rows).withRules store.rules.values } }) := by
    rw [Coordinator.warmUp, run]
    simp only [MemoryStore.answer]
    rw [run_bind, hroles]
    simp only [run, MemoryStore.answer, withBase]
    rw [Call.map, run_bind, run_loadRules rfl]
    rfl
  rw [ofStore, hrun]

end LocalCache

/-! ## The order of the rows -/

/-- The value of a key does not hang on the order of the rows. -/
theorem Table.get?_of_perm {κ α : Type} [DecidableEq κ] {left right : Table κ α}
    (h : left.rows.Perm right.rows) (key : κ) : left.get? key = right.get? key := by
  ext value
  rw [← mem_rows_iff, ← mem_rows_iff]
  exact h.mem_iff

/-- The stores have the same rows, perhaps in another order. -/
structure MemoryStore.SameRows (store other : MemoryStore) : Prop where
  rules : store.rules.rows.Perm other.rules.rows
  users : store.users.rows.Perm other.users.rows
  policies : store.policies.rows.Perm other.policies.rows

theorem MemoryStore.SameRows.refl (store : MemoryStore) : store.SameRows store :=
  ⟨.refl _, .refl _, .refl _⟩

/-! ## What the store backs -/

/-- Every rule of the store is held under its own user and resource. -/
def MemoryStore.Keyed (store : MemoryStore) : Prop :=
  ∀ user resource rule, store.rules.get? (user, resource) = some rule →
    rule.user = user ∧ rule.resource = resource

namespace MemoryStore.Keyed

variable {store : MemoryStore} {user : UserId} {resource : ResourceId} {rule : Rule}

theorem insert (h : store.Keyed) (hown : rule.user = user ∧ rule.resource = resource) :
    Keyed { store with rules := store.rules.insert (user, resource) rule } := by
  intro other target found hfound
  simp only [Table.get?_insert] at hfound
  split at hfound
  case isTrue heq =>
    cases heq
    obtain rfl := Option.some.inj hfound
    exact hown
  case isFalse => exact h other target found hfound

/-- No request to a store puts a rule under another user or another resource. -/
theorem answer (h : store.Keyed) (request : StoreRequest) : (store.answer request).2.Keyed := by
  cases request with
  | create owner grant =>
    simp only [MemoryStore.answer, create]
    split
    · split
      · exact h
      · exact h.insert ⟨rfl, rfl⟩
    · exact h
  | update owner grant =>
    simp only [MemoryStore.answer, update]
    split
    case h_1 old hold =>
      split
      · exact h.insert (h owner grant.resource old hold)
      · exact h
    case h_2 => exact h
  | delete owner target =>
    intro other target' found hfound
    simp only [MemoryStore.answer, delete, Table.get?_erase] at hfound
    split at hfound
    · cases hfound
    · exact h other target' found hfound
  | syncUserRole owner role =>
    simp only [MemoryStore.answer, syncUserRole]
    split
    · exact h
    · exact h
  | _ => exact h

end MemoryStore.Keyed

/-- The engine of a newly opened cache holds what the store backs, save for facts about types. -/
theorem LocalCache.holds_ofStore {store : MemoryStore} {cache : LocalCache}
    {privilege : Privilege} (hkeyed : store.Keyed) (h : ofStore store = .ok cache) :
    cache.engine.base.Holds privilege ↔ ¬privilege.OnType ∧ store.Backs privilege := by
  rw [ofStore_eq] at h
  obtain rfl := Except.ok.inj h
  rw [FactBase.holds_withRules]
  cases privilege with
  | administration user =>
    have hrole : (FactBase.withRoles ∅ store.users.rows).roleOf user = store.users.get? user := by
      rw [FactBase.roleOf_withRoles store.users.nodup]
      exact Option.or_none
    simp [FactBase.Holds, FactBase.isAdministrator, hrole, MemoryStore.Backs, Privilege.OnType,
      Option.any_eq_true]
  | fact user object action =>
    have hfresh : ¬(FactBase.withRoles ∅ store.users.rows).Holds (.fact user object action) := by
      have hempty : ¬(∅ : FactBase).Holds (.fact user object action) := FactBase.not_holds_empty
      rw [FactBase.Holds, FactBase.actionsFor_withRoles]
      exact hempty
    rw [or_iff_left hfresh]
    cases object with
    | type resourceType => simp [Privilege.OnType]
    | resource resource =>
      constructor
      · rintro ⟨rule, hmem, action', haction, heq⟩
        cases heq
        obtain ⟨⟨⟨user, resource⟩, rule⟩, hrow, rfl⟩ := List.mem_map.1 hmem
        have hrule := Table.mem_rows_iff.1 hrow
        obtain ⟨huser, hresource⟩ := hkeyed user resource rule hrule
        refine ⟨id, rule, ?_, haction⟩
        rw [huser, hresource]
        exact hrule
      · rintro ⟨-, rule, hrule, haction⟩
        obtain ⟨rfl, rfl⟩ := hkeyed user resource rule hrule
        refine ⟨rule, ?_, action, haction, rfl⟩
        exact List.mem_map.2 ⟨_, Table.mem_rows_iff.2 hrule, rfl⟩

end AccessControl
