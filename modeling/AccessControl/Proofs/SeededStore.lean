import AccessControl.Proofs.IdentifierReading
import AccessControl.Proofs.NameReading
import AccessControl.Proofs.SeededRule

/-!
# What a fixture puts in a store

The entries of a fixture are texts.  A user has the role that the last entry for the user spells, a
role has the policy for a resource type that the last entry for the two spells, and a grant is a
rule, of which there is one for a user and a resource.  Seeding that ends without error lays these
over what the store held before, and a store that was seeded from nothing holds nothing else.
-/

namespace AccessControl

/-- One of the entries is about something and states something of it, and none of the later ones is
about it. -/
def LastStates {α : Type} (about states : α → Prop) (entries : List α) : Prop :=
  ∃ before entry after, entries = before ++ entry :: after ∧ about entry ∧ states entry ∧
    ∀ later ∈ after, ¬about later

/-- The first entry is the last one if no other entry is about the same. -/
theorem lastStates_cons {α : Type} {about states : α → Prop} {entry : α} {rest : List α} :
    LastStates about states (entry :: rest) ↔
      LastStates about states rest ∨
        (∀ later ∈ rest, ¬about later) ∧ about entry ∧ states entry := by
  constructor
  · rintro ⟨before, last, after, heq, habout, hstates, hlater⟩
    cases before with
    | nil =>
      obtain ⟨rfl, rfl⟩ := List.cons.inj heq
      exact .inr ⟨hlater, habout, hstates⟩
    | cons first before =>
      obtain ⟨-, rfl⟩ := List.cons.inj heq
      exact .inl ⟨before, last, after, rfl, habout, hstates, hlater⟩
  · rintro (⟨before, last, after, rfl, hlast⟩ | ⟨hlater, habout, hstates⟩)
    · exact ⟨entry :: before, last, after, rfl, hlast⟩
    · exact ⟨[], entry, rest, rfl, habout, hstates, hlater⟩

/-- Whether the entry is for the user. -/
def FixtureUser.For (entry : FixtureUser) (user : UserId) : Prop := user.id.SpelledBy entry.id

/-- Whether the entry is for the role and the resource type. -/
def FixturePolicy.For (entry : FixturePolicy) (role : Role) (resourceType : ResourceType) : Prop :=
  role.SpelledBy entry.role ∧ resourceType.SpelledBy entry.resourceType

/-- Whether the entry spells the rule. -/
structure FixtureGrant.Spells (entry : FixtureGrant) (rule : Rule) : Prop where
  user : rule.user.id.SpelledBy entry.user
  resource : rule.resource.id.SpelledBy entry.resource
  resourceType : rule.resourceType.SpelledBy entry.resourceType
  actions : rule.actions.SpelledBy entry.actions

/-- A rule is added for a user and a resource that have none. -/
theorem MemoryStore.create_eq_ok {store next : MemoryStore} {user : UserId} {grant : Grant}
    (h : store.create user grant = (.ok (), next)) :
    store.rules.get? (user, grant.resource) = none ∧
      next = { store with rules :=
        store.rules.insert (user, grant.resource) (grant.toRule user) } := by
  rw [create] at h
  split at h
  · split at h
    · cases h
    · rename_i hnone
      exact ⟨by simpa [Table.contains] using hnone, (Prod.mk.inj h).2.symm⟩
  · cases h

namespace Fixture

/-- The role that the last entry for the user names. -/
def RoleOf (fixture : Fixture) (user : UserId) (role : Role) : Prop :=
  LastStates (fun entry => entry.For user) (fun entry => role.SpelledBy entry.role) fixture.users

/-- The actions that the last entry for the role and the resource type names. -/
def PolicyOf (fixture : Fixture) (role : Role) (resourceType : ResourceType)
    (actions : ActionSet) : Prop :=
  LastStates (fun entry => entry.For role resourceType)
    (fun entry => actions.SpelledBy entry.actions) fixture.policies

/-- Whether the rule is one of the grants. -/
def Grants (fixture : Fixture) (rule : Rule) : Prop := ∃ entry ∈ fixture.grants, entry.Spells rule

/-- The store holds what the fixture says, and nothing else. -/
structure Describes (fixture : Fixture) (store : MemoryStore) : Prop where
  role : ∀ user role, store.users.get? user = some role ↔ fixture.RoleOf user role
  policy : ∀ role resourceType actions,
    store.policies.get? (role, resourceType) = some actions ↔
      fixture.PolicyOf role resourceType actions
  rule : ∀ rule, store.rules.get? (rule.user, rule.resource) = some rule ↔ fixture.Grants rule
  keyed : store.Keyed

/-- The store holds what the fixture states over what it held before: of the entries for a user or a
policy the last one counts, and a grant is the first rule of its user and resource. -/
structure Overlays (fixture : Fixture) (store next : MemoryStore) : Prop where
  role : ∀ user role, next.users.get? user = some role ↔
    fixture.RoleOf user role ∨
      (∀ entry ∈ fixture.users, ¬entry.For user) ∧ store.users.get? user = some role
  policy : ∀ role resourceType actions,
    next.policies.get? (role, resourceType) = some actions ↔
      fixture.PolicyOf role resourceType actions ∨
        (∀ entry ∈ fixture.policies, ¬entry.For role resourceType) ∧
          store.policies.get? (role, resourceType) = some actions
  rule : ∀ rule, next.rules.get? (rule.user, rule.resource) = some rule ↔
    fixture.Grants rule ∨ store.rules.get? (rule.user, rule.resource) = some rule

/-! ## One entry -/

variable {store next : MemoryStore}

/-- A user is registered with the role that the entry spells. -/
theorem seedUser_eq_ok {entry : FixtureUser} (h : seedUser store entry = (.ok (), next)) :
    ∃ user role, (∀ other, entry.For other ↔ other = user) ∧
      (∀ other, other.SpelledBy entry.role ↔ other = role) ∧
      next = store.registerUser user role := by
  obtain ⟨stated, hstated, hnext⟩ := enter_eq_ok h
  obtain ⟨user, huser, hrest⟩ := Except.exists_of_bind_ok hstated
  obtain ⟨role, hrole, hvalue⟩ := Except.exists_of_bind_ok hrest
  obtain rfl := Except.ok.inj hvalue
  refine ⟨user, role, fun other => ?_, fun other => ?_, (Prod.mk.inj hnext).2.symm⟩
  · rw [FixtureUser.For, ← readUser_eq_ok, huser, Except.ok.injEq, eq_comm]
  · rw [← Role.ofName_eq_ok, of_readName hrole, Except.ok.injEq, eq_comm]

/-- A policy is put that gives the actions that the entry spells. -/
theorem seedPolicy_eq_ok {entry : FixturePolicy} (h : seedPolicy store entry = (.ok (), next)) :
    ∃ role resourceType actions,
      (∀ role' resourceType', entry.For role' resourceType' ↔
        (role', resourceType') = (role, resourceType)) ∧
      (∀ other, other.SpelledBy entry.actions ↔ other = actions) ∧
      next = store.putRolePolicy role resourceType actions := by
  obtain ⟨stated, hstated, hnext⟩ := enter_eq_ok h
  obtain ⟨role, hrole, hrest⟩ := Except.exists_of_bind_ok hstated
  obtain ⟨resourceType, htype, hrest⟩ := Except.exists_of_bind_ok hrest
  obtain ⟨actions, hactions, hvalue⟩ := Except.exists_of_bind_ok hrest
  obtain rfl := Except.ok.inj hvalue
  refine ⟨role, resourceType, actions, fun role' resourceType' => ?_, fun other => ?_,
    (Prod.mk.inj hnext).2.symm⟩
  · rw [FixturePolicy.For, ← Role.ofName_eq_ok, ← ResourceType.ofName_eq_ok, of_readName hrole,
      of_readName htype, Except.ok.injEq, Except.ok.injEq, Prod.mk.injEq]
    exact and_congr eq_comm eq_comm
  · rw [← ActionSet.ofNames_eq_ok, of_readName hactions, Except.ok.injEq, eq_comm]

/-- A rule is added that the entry spells, for a user and a resource that had none. -/
theorem seedGrant_eq_ok {entry : FixtureGrant} (h : seedGrant store entry = (.ok (), next)) :
    ∃ rule : Rule, (∀ other, entry.Spells other ↔ other = rule) ∧
      store.rules.get? (rule.user, rule.resource) = none ∧
      next = { store with rules := store.rules.insert (rule.user, rule.resource) rule } := by
  obtain ⟨stated, hstated, hcreated⟩ := enter_eq_ok h
  obtain ⟨resource, hresource, hrest⟩ := Except.exists_of_bind_ok hstated
  obtain ⟨resourceType, htype, hrest⟩ := Except.exists_of_bind_ok hrest
  obtain ⟨actions, hactions, hrest⟩ := Except.exists_of_bind_ok hrest
  obtain ⟨user, huser, hvalue⟩ := Except.exists_of_bind_ok hrest
  obtain rfl := Except.ok.inj hvalue
  refine ⟨⟨user, resource, resourceType, actions⟩, fun other => ?_,
    MemoryStore.create_eq_ok hcreated⟩
  constructor
  · intro ⟨hotherUser, hotherResource, hotherType, hotherActions⟩
    rw [← readUser_eq_ok, huser, Except.ok.injEq] at hotherUser
    rw [← readResource_eq_ok, hresource, Except.ok.injEq] at hotherResource
    rw [← ResourceType.ofName_eq_ok, of_readName htype, Except.ok.injEq] at hotherType
    rw [← ActionSet.ofNames_eq_ok, of_readName hactions, Except.ok.injEq] at hotherActions
    rw [hotherUser, hotherResource, hotherType, hotherActions]
  · rintro rfl
    exact ⟨readUser_eq_ok.1 huser, readResource_eq_ok.1 hresource,
      ResourceType.ofName_eq_ok.1 (of_readName htype),
      ActionSet.ofNames_eq_ok.1 (of_readName hactions)⟩

/-! ## A list of entries -/

/-- Of the entries that write to one key, the last one leaves its value there. -/
theorem get?_of_seedEach {α κ β : Type} [DecidableEq κ]
    {seed : MemoryStore → α → Except SeedingError Unit × MemoryStore} {entries : List α} {key : κ}
    {value : β} (view : MemoryStore → Table κ β) (about : κ → α → Prop) (states : β → α → Prop)
    (hseed : ∀ store entry next, seed store entry = (.ok (), next) → ∃ key value,
      (∀ other, about other entry ↔ other = key) ∧ (∀ other, states other entry ↔ other = value) ∧
        view next = (view store).insert key value)
    (h : seedEach seed store entries = (.ok (), next)) :
    (view next).get? key = some value ↔
      LastStates (about key) (states value) entries ∨
        (∀ entry ∈ entries, ¬about key entry) ∧ (view store).get? key = some value := by
  induction entries generalizing store with
  | nil =>
    obtain rfl := (Prod.mk.inj h).2
    simp [LastStates]
  | cons entry rest ih =>
    rw [seedEach] at h
    split at h
    case h_2 => cases h
    case h_1 middle hmiddle =>
      obtain ⟨written, stated, habout, hstates, hview⟩ := hseed store entry middle hmiddle
      rw [ih h, lastStates_cons, hview, Table.get?_insert, List.forall_mem_cons, habout, hstates]
      by_cases hkey : key = written
      · simp [hkey, eq_comm]
      · simp [hkey]

theorem role_of_seedEach {entries : List FixtureUser} {user : UserId} {role : Role}
    (h : seedEach seedUser store entries = (.ok (), next)) :
    next.users.get? user = some role ↔
      LastStates (fun entry => entry.For user) (fun entry => role.SpelledBy entry.role) entries ∨
        (∀ entry ∈ entries, ¬entry.For user) ∧ store.users.get? user = some role := by
  refine get?_of_seedEach MemoryStore.users (fun user entry => entry.For user)
    (fun role entry => role.SpelledBy entry.role) (fun store entry next hseed => ?_) h
  obtain ⟨user, role, hfor, hrole, rfl⟩ := seedUser_eq_ok hseed
  exact ⟨user, role, hfor, hrole, rfl⟩

theorem policy_of_seedEach {entries : List FixturePolicy} {role : Role}
    {resourceType : ResourceType} {actions : ActionSet}
    (h : seedEach seedPolicy store entries = (.ok (), next)) :
    next.policies.get? (role, resourceType) = some actions ↔
      LastStates (fun entry => entry.For role resourceType)
          (fun entry => actions.SpelledBy entry.actions) entries ∨
        (∀ entry ∈ entries, ¬entry.For role resourceType) ∧
          store.policies.get? (role, resourceType) = some actions := by
  refine get?_of_seedEach MemoryStore.policies (fun key entry => entry.For key.1 key.2)
    (fun actions entry => actions.SpelledBy entry.actions) (fun store entry next hseed => ?_) h
  obtain ⟨role, resourceType, actions, hfor, hactions, rfl⟩ := seedPolicy_eq_ok hseed
  exact ⟨(role, resourceType), actions, fun key => hfor key.1 key.2, hactions, rfl⟩

/-- Of the grants there is one for each rule that is added. -/
theorem rule_of_seedEach {entries : List FixtureGrant} {rule : Rule}
    (h : seedEach seedGrant store entries = (.ok (), next)) :
    next.rules.get? (rule.user, rule.resource) = some rule ↔
      (∃ entry ∈ entries, entry.Spells rule) ∨
        store.rules.get? (rule.user, rule.resource) = some rule := by
  induction entries generalizing store with
  | nil =>
    obtain rfl := (Prod.mk.inj h).2
    simp
  | cons entry rest ih =>
    rw [seedEach] at h
    split at h
    case h_2 => cases h
    case h_1 middle hmiddle =>
      obtain ⟨added, hspells, hnone, rfl⟩ := seedGrant_eq_ok hmiddle
      rw [ih h]
      simp only [List.mem_cons, exists_eq_or_imp, hspells, Table.get?_insert]
      by_cases hkey : (rule.user, rule.resource) = (added.user, added.resource)
      · rw [if_pos hkey, hkey, hnone, Option.some.injEq]
        grind
      · have hother : rule ≠ added := fun heq => hkey (by rw [heq])
        rw [if_neg hkey]
        simp [hother]

/-- What no entry changes is as it was. -/
theorem view_of_seedEach {α γ : Type}
    {seed : MemoryStore → α → Except SeedingError Unit × MemoryStore} {entries : List α}
    (view : MemoryStore → γ)
    (hseed : ∀ store entry next, seed store entry = (.ok (), next) → view next = view store)
    (h : seedEach seed store entries = (.ok (), next)) : view next = view store := by
  induction entries generalizing store with
  | nil => rw [(Prod.mk.inj h).2]
  | cons entry rest ih =>
    rw [seedEach] at h
    split at h
    case h_1 middle hmiddle => exact (ih h).trans (hseed store entry middle hmiddle)
    case h_2 => cases h

/-! ## The whole fixture -/

variable {fixture : Fixture} {counts : SeedCounts}

/-- A fixture is seeded without error if each of its three lists is. -/
theorem apply_eq_ok (h : fixture.apply store = (.ok counts, next)) : ∃ registered granted,
    seedEach seedUser store fixture.users = (.ok (), registered) ∧
      seedEach seedGrant registered fixture.grants = (.ok (), granted) ∧
      seedEach seedPolicy granted fixture.policies = (.ok (), next) := by
  rw [apply] at h
  split at h
  case h_1 => cases h
  case h_2 registered husers =>
    split at h
    case h_1 => cases h
    case h_2 granted hgrants =>
      split at h
      case h_1 => cases h
      case h_2 seeded hpolicies =>
        obtain rfl := (Prod.mk.inj h).2
        exact ⟨registered, granted, husers, hgrants, hpolicies⟩

/-- Of the three parts of a store each is written by the entries of one list alone. -/
theorem parts_of_apply (h : fixture.apply store = (.ok counts, next)) : ∃ registered granted,
    seedEach seedUser store fixture.users = (.ok (), registered) ∧
      seedEach seedGrant registered fixture.grants = (.ok (), granted) ∧
      seedEach seedPolicy granted fixture.policies = (.ok (), next) ∧
      registered.rules = store.rules ∧ granted.policies = store.policies ∧
      next.users = registered.users ∧ next.rules = granted.rules := by
  obtain ⟨registered, granted, husers, hgrants, hpolicies⟩ := apply_eq_ok h
  have hregistered : registered.rules = store.rules ∧ registered.policies = store.policies := by
    refine Prod.mk.inj (view_of_seedEach (fun store => (store.rules, store.policies))
      (fun _ _ _ hseed => ?_) husers)
    obtain ⟨user, role, -, -, rfl⟩ := seedUser_eq_ok hseed
    rfl
  have hgranted : granted.users = registered.users ∧ granted.policies = registered.policies := by
    refine Prod.mk.inj (view_of_seedEach (fun store => (store.users, store.policies))
      (fun _ _ _ hseed => ?_) hgrants)
    obtain ⟨rule, -, -, rfl⟩ := seedGrant_eq_ok hseed
    rfl
  have hnext : next.users = granted.users ∧ next.rules = granted.rules := by
    refine Prod.mk.inj (view_of_seedEach (fun store => (store.users, store.rules))
      (fun _ _ _ hseed => ?_) hpolicies)
    obtain ⟨role, resourceType, actions, -, -, rfl⟩ := seedPolicy_eq_ok hseed
    rfl
  exact ⟨registered, granted, husers, hgrants, hpolicies, hregistered.1,
    hgranted.2.trans hregistered.2, hnext.1.trans hgranted.1, hnext.2⟩

/-- A fixture that is seeded without error is laid over the store. -/
theorem overlays_of_apply (h : fixture.apply store = (.ok counts, next)) :
    fixture.Overlays store next := by
  obtain ⟨registered, granted, husers, hgrants, hpolicies, hrules, hold, hroles, hnext⟩ :=
    parts_of_apply h
  refine ⟨fun user role => ?_, fun role resourceType actions => ?_, fun rule => ?_⟩
  · rw [hroles, role_of_seedEach husers]
    rfl
  · rw [policy_of_seedEach hpolicies, hold]
    rfl
  · rw [hnext, rule_of_seedEach hgrants, hrules]
    rfl

/-- Seeding adds each rule under its own user and resource. -/
theorem keyed_of_apply (h : fixture.apply store = (.ok counts, next)) (hkeyed : store.Keyed) :
    next.Keyed := by
  obtain ⟨registered, granted, -, hgrants, -, hrules, -, -, hnext⟩ := parts_of_apply h
  have hstart : registered.Keyed := by
    intro user resource rule hrule
    rw [hrules] at hrule
    exact hkeyed user resource rule hrule
  have hgranted : (seedEach seedGrant registered fixture.grants).2.Keyed := by
    refine seedEach_keeps (fun store entry _ hkeyed => enter_keeps hkeyed fun stated _ => ?_) hstart
    exact hkeyed.answer (.create stated.1 stated.2)
  rw [hgrants] at hgranted
  intro user resource rule hrule
  rw [hnext] at hrule
  exact hgranted user resource rule hrule

/-- A store that is seeded without error from nothing holds what the fixture describes. -/
theorem describes_of_apply (h : fixture.apply ∅ = (.ok counts, store)) :
    fixture.Describes store := by
  have hoverlays : fixture.Overlays ∅ store := overlays_of_apply h
  refine ⟨fun user role => ?_, fun role resourceType actions => ?_, fun rule => ?_, ?_⟩
  · rw [hoverlays.role]
    exact or_iff_left fun hold => by cases hold.2
  · rw [hoverlays.policy]
    exact or_iff_left fun hold => by cases hold.2
  · rw [hoverlays.rule]
    exact or_iff_left fun hold => by cases hold
  · exact keyed_of_apply h nofun

end Fixture

end AccessControl
