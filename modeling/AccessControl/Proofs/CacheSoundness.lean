import AccessControl.Proofs.SystemInvariant

/-!
# The engine allows what the store backs

Calls to any number of coordinators, and transactions beside them, may come one after another or
side by side, may lose the answers of their store and may be given up.  Whatever the order of their
steps, the engine holds a privilege only if the store backs it, or if a call that the store has
carried out is still about to withdraw it.  The revocation counters are machine words, so this is
said of runs that move them fewer times than such a word has values.
-/

namespace AccessControl

/-- A call to a coordinator, carried out by the store, that may have revoked the privilege and has
not come to its end; or a commit that has not come to its end and will not without withdrawing the
privilege. -/
def Party.Owes (privilege : Privilege) : Party → Prop
  | call _ flight => flight.Pending ∧ flight.request.Revokes privilege
  | scope opened => ∃ flight, opened.current = some flight ∧ flight.Pending ∧
      flight.request = .commit ∧ flight.stage.Withdraws privilege

theorem Stage.Withdraws.unfinished {α : Type} {privilege : Privilege} {stage : Stage α}
    (h : stage.Withdraws privilege) : stage.finished = false := by
  cases stage with
  | running rest =>
    cases rest with
    | done => exact False.elim h
    | _ => rfl
  | answered => rfl
  | abandoned rest =>
    cases rest with
    | done => exact False.elim h
    | _ => rfl

/-- A party that covers a privilege has something left to do. -/
theorem Party.Covers.owes {privilege : Privilege} {party : Party} (h : party.Covers privilege) :
    party.Owes privilege := by
  cases party with
  | call coordinator flight =>
    obtain ⟨⟨happlied, hrevokes⟩, hwithdraws⟩ := h
    exact ⟨⟨happlied, hwithdraws.unfinished⟩, hrevokes⟩
  | scope opened =>
    obtain ⟨flight, hcurrent, ⟨happlied, hcommit⟩, hwithdraws⟩ := h
    exact ⟨flight, hcurrent, ⟨happlied, hwithdraws.unfinished⟩, hcommit, hwithdraws⟩

namespace System

variable {store : MemoryStore} {base : FactBase} {events : List Event} {system next : System}
  {privilege : Privilege}

/-! ## Runs without transactions -/

/-- Every party is a call to a coordinator. -/
def OnlyCalls (system : System) : Prop :=
  ∀ id party, system.parties.get? id = some party → ∃ coordinator flight,
    party = .call coordinator flight

theorem OnlyCalls.moved {id coordinator : Nat} {flight : CoordinatorFlight} {backend : Backend}
    (h : system.OnlyCalls) : (system.moved id (.call coordinator flight) backend).OnlyCalls := by
  intro other party hget
  rw [get?_moved] at hget
  split at hget
  · exact ⟨coordinator, flight, (Option.some.inj hget).symm⟩
  · exact h other party hget

theorem OnlyCalls.step {event : Event} (h : system.OnlyCalls)
    (hevent : ∀ id coordinator, event ≠ .openScope id coordinator)
    (hstep : system.Steps event next) : next.OnlyCalls := by
  cases hstep with
  | starts hfree => exact h.moved
  | opens hfree => exact absurd rfl (hevent _ _)
  | moves hget hmoves =>
    obtain ⟨coordinator, flight, rfl⟩ := h _ _ hget
    cases hmoves with
    | callProceeds => exact h.moved
    | callAsks => exact h.moved
  | discards hget =>
    obtain ⟨coordinator, flight, heq⟩ := h _ _ hget
    cases heq

theorem OnlyCalls.run (h : system.OnlyCalls)
    (hevents : ∀ id coordinator, .openScope id coordinator ∉ events)
    (hrun : system.run events = some next) : next.OnlyCalls := by
  induction events generalizing system with
  | nil =>
    obtain rfl := Option.some.inj hrun
    exact h
  | cons event rest ih =>
    obtain ⟨middle, hstep, hrest⟩ := run_cons hrun
    refine ih (h.step (fun id coordinator heq => ?_) hstep) (fun id coordinator hmem => ?_) hrest
    · exact hevents id coordinator (heq ▸ List.mem_cons_self)
    · exact hevents id coordinator (List.mem_cons_of_mem event hmem)

/-- What the engine holds is backed, or a call to a coordinator that may have revoked it is not at
its end. -/
theorem Sound.backed_or_pending (h : system.Sound privilege) (hcalls : system.OnlyCalls)
    (hholds : system.backend.Holds privilege) :
    system.backend.Backs privilege ∨
      ∃ id coordinator flight, system.parties.get? id = some (.call coordinator flight) ∧
        flight.Pending ∧ flight.request.Revokes privilege := by
  refine (h.held hholds).imp_right ?_
  rintro ⟨id, party, hget, hcovers⟩
  obtain ⟨coordinator, flight, rfl⟩ := hcalls id party hget
  obtain ⟨hpending, hrevokes⟩ := hcovers.owes
  exact ⟨id, coordinator, flight, hget, hpending, hrevokes⟩

theorem run_backed_or_pending (hrun : (opened store base).run events = some system)
    (hevents : ∀ id coordinator, .openScope id coordinator ∉ events)
    (hstart : base.Holds privilege → store.Backs privilege)
    (hfew : system.backend.revocations < UInt64.size) (hholds : system.backend.Holds privilege) :
    system.backend.Backs privilege ∨
      ∃ id coordinator flight, system.parties.get? id = some (.call coordinator flight) ∧
        flight.Pending ∧ flight.request.Revokes privilege := by
  have hcalls : (opened store base).OnlyCalls := fun _ _ hget => by simp [opened] at hget
  exact ((sound_opened hstart).run hrun hfew).backed_or_pending (hcalls.run hevents hrun) hholds

/-- A run can be tested at its end. -/
theorem exists_run {test : System → Bool} (h : (system.run events).any test = true) :
    ∃ next, system.run events = some next ∧ test next = true :=
  (Option.any_eq_true ..).1 h

/-! ## Facts about resources -/

/-- A fact about a resource that the engine holds is backed by a rule, unless a call that updates or
deletes that rule has been carried out by the store and is not at its end. -/
theorem resource_facts_backed (hrun : (opened store base).run events = some system)
    (hevents : ∀ id coordinator, .openScope id coordinator ∉ events)
    (hstart : ∀ user resource action, action ∈ base.actionsFor user (.resource resource) →
      ∃ rule, store.rules.get? (user, resource) = some rule ∧ action ∈ rule.actions)
    (hfew : system.backend.revocations < UInt64.size) (user : UserId) (resource : ResourceId)
    (action : Action)
    (hholds : action ∈ system.backend.engine.base.actionsFor user (.resource resource)) :
    (∃ rule, system.backend.store.rules.get? (user, resource) = some rule ∧
        action ∈ rule.actions) ∨
      ∃ id coordinator flight, system.parties.get? id = some (.call coordinator flight) ∧
        flight.Pending ∧
        ((∃ grant, grant.resource = resource ∧ flight.request = .update user grant) ∨
          flight.request = .delete user resource) := by
  have hbacked : system.backend.Backs (.fact user (.resource resource) action) ∨ _ :=
    run_backed_or_pending hrun hevents (hstart user resource action) hfew hholds
  refine hbacked.imp_right ?_
  rintro ⟨id, coordinator, flight, hget, hpending, hrevokes⟩
  refine ⟨id, coordinator, flight, hget, hpending, ?_⟩
  cases hrequest : flight.request <;> simp_all [StoreRequest.Revokes]

/-- A user of some store. -/
def someUser : UserId := ⟨.ofNat 1⟩

/-- A resource of some store. -/
def someResource : ResourceId := ⟨.ofNat 2⟩

/-- A store in which the user may get the resource, and every page. -/
def someStore : MemoryStore where
  rules := (∅ : Table _ _).insert (someUser, someResource)
    ⟨someUser, someResource, .page, .ofList [.get]⟩
  users := (∅ : Table _ _).insert someUser .user
  policies := (∅ : Table _ _).insert (.user, .page) (.ofList [.get])

/-- A store in which the user may get the resource, and no resource type as a whole. -/
def ruleStore : MemoryStore := { someStore with policies := ∅ }

/-- A check that the rule of the store allows. -/
def pageCheck : InstanceCheck := ⟨someUser, someResource, .page, .get⟩

/-- An engine that knows the rule of the user. -/
def someBase : FactBase := (∅ : FactBase).addFact someUser (.resource someResource) .get

/-- The store deletes a rule while a check of the same user and resource is on its way. -/
def checkBesideDelete : List Event :=
  [.start 0 0 (.validateAccess ⟨someUser, someResource, .page, .update⟩),
    .move 0 (.proceed .advance), .move 0 (.proceed .advance), .move 0 (.proceed .advance),
    .move 0 (.proceed .advance), .start 1 1 (.delete someUser someResource), .move 1 .ask]

theorem someStore_backs_someBase (privilege : Privilege) (h : someBase.Holds privilege) :
    someStore.Backs privilege := by
  obtain rfl := (FactBase.holds_addFact.1 h).resolve_right FactBase.not_holds_empty
  exact ⟨⟨someUser, someResource, .page, .ofList [.get]⟩, rfl, rfl⟩

theorem ruleStore_backs_someBase (privilege : Privilege) (h : someBase.Holds privilege) :
    ruleStore.Backs privilege := by
  obtain rfl := (FactBase.holds_addFact.1 h).resolve_right FactBase.not_holds_empty
  exact ⟨⟨someUser, someResource, .page, .ofList [.get]⟩, rfl, rfl⟩

theorem resource_fact_of_deleted_rule : ∃ system id coordinator flight,
    (opened someStore someBase).run checkBesideDelete = some system ∧
      .get ∈ system.backend.engine.base.actionsFor someUser (.resource someResource) ∧
      system.parties.get? id = some (.call coordinator flight) ∧ flight.Pending ∧
        ((∃ grant, grant.resource = someResource ∧ flight.request = .update someUser grant) ∨
          flight.request = .delete someUser someResource) := by
  have hrun : ((opened someStore someBase).run checkBesideDelete).any (fun system =>
      system.backend.revocations < UInt64.size &&
        (system.backend.engine.base.actionsFor someUser (.resource someResource)).contains .get &&
        (system.backend.store.rules.get? (someUser, someResource)).isNone) = true := by decide
  obtain ⟨system, hrun, htest⟩ := exists_run hrun
  simp only [Bool.and_eq_true, decide_eq_true_eq, Option.isNone_iff_eq_none] at htest
  obtain ⟨⟨hfew, hholds⟩, hgone⟩ := htest
  have hbacked := resource_facts_backed hrun (by simp [checkBesideDelete])
    (fun user resource action => someStore_backs_someBase (.fact user (.resource resource) action))
    hfew someUser someResource .get hholds
  obtain ⟨id, coordinator, flight, hpending⟩ := hbacked.resolve_left (by simp [hgone])
  exact ⟨system, id, coordinator, flight, hrun, hholds, hpending⟩

/-! ## Administrators -/

/-- A user whom the engine takes for an administrator is one of record, unless a call that takes the
role away has been carried out by the store and is not at its end. -/
theorem administrators_backed (hrun : (opened store base).run events = some system)
    (hevents : ∀ id coordinator, .openScope id coordinator ∉ events)
    (hstart : ∀ user, base.isAdministrator user = true →
      ∃ role, store.users.get? user = some role ∧ role.isAdministrative = true)
    (hfew : system.backend.revocations < UInt64.size) (user : UserId)
    (hholds : system.backend.engine.base.isAdministrator user = true) :
    (∃ role, system.backend.store.users.get? user = some role ∧ role.isAdministrative = true) ∨
      ∃ id coordinator flight role, system.parties.get? id = some (.call coordinator flight) ∧
        flight.Pending ∧ flight.request = .syncUserRole user role ∧
        role.isAdministrative = false := by
  have hbacked : system.backend.Backs (.administration user) ∨ _ :=
    run_backed_or_pending hrun hevents (hstart user) hfew hholds
  refine hbacked.imp_right ?_
  rintro ⟨id, coordinator, flight, hget, hpending, hrevokes⟩
  cases hrequest : flight.request <;> simp [StoreRequest.Revokes, hrequest] at hrevokes
  obtain ⟨rfl, hordinary⟩ := hrevokes
  exact ⟨id, coordinator, flight, _, hget, hpending, hrequest, hordinary⟩

/-- A store in which the user is an administrator. -/
def administeredStore : MemoryStore where
  users := (∅ : Table _ _).insert someUser .admin

/-- The store takes the role away while a call that gives it is on its way. -/
def promotionBesideDemotion : List Event :=
  [.start 0 0 (.syncUserRole someUser .admin), .move 0 (.proceed .advance),
    .start 1 1 (.syncUserRole someUser .user), .move 1 (.proceed .advance), .move 1 .ask]

theorem administrator_after_demotion : ∃ system id coordinator flight role,
    (opened administeredStore ((∅ : FactBase).setRole someUser .admin)).run
        promotionBesideDemotion = some system ∧
      system.backend.engine.base.isAdministrator someUser = true ∧
      system.parties.get? id = some (.call coordinator flight) ∧ flight.Pending ∧
        flight.request = .syncUserRole someUser role ∧ role.isAdministrative = false := by
  have hrun : ((opened administeredStore ((∅ : FactBase).setRole someUser .admin)).run
      promotionBesideDemotion).any (fun system =>
        system.backend.revocations < UInt64.size &&
          system.backend.engine.base.isAdministrator someUser &&
          system.backend.store.users.get? someUser == some .user) = true := by decide
  obtain ⟨system, hrun, htest⟩ := exists_run hrun
  simp only [Bool.and_eq_true, decide_eq_true_eq, beq_iff_eq] at htest
  obtain ⟨⟨hfew, hholds⟩, hrole⟩ := htest
  have hstart : ∀ user, ((∅ : FactBase).setRole someUser .admin).isAdministrator user = true →
      ∃ role, administeredStore.users.get? user = some role ∧ role.isAdministrative = true := by
    intro user hadmin
    have hset : ((∅ : FactBase).setRole someUser .admin).Holds (.administration user) := hadmin
    rcases FactBase.holds_setRole.1 hset with ⟨hsame, -⟩ | ⟨hold, -⟩
    · cases hsame
      exact ⟨.admin, rfl, rfl⟩
    · exact absurd hold FactBase.not_holds_empty
  have hbacked := administrators_backed hrun (by simp [promotionBesideDemotion]) hstart hfew
    someUser hholds
  obtain ⟨id, coordinator, flight, role, hpending⟩ :=
    hbacked.resolve_left (by simp [hrole, Role.isAdministrative])
  exact ⟨system, id, coordinator, flight, role, hrun, hholds, hpending⟩

/-! ## Facts about resource types -/

/-- A fact about a resource type that the engine holds is one that the store allows, unless a call
that changes the role of the user or a policy for the type has been carried out by the store and is
not at its end. -/
theorem type_facts_backed (hrun : (opened store base).run events = some system)
    (hevents : ∀ id coordinator, .openScope id coordinator ∉ events)
    (hstart : ∀ user resourceType action, action ∈ base.actionsFor user (.type resourceType) →
      store.allowsType ⟨user, resourceType, action⟩ = true)
    (hfew : system.backend.revocations < UInt64.size) (user : UserId) (resourceType : ResourceType)
    (action : Action)
    (hholds : action ∈ system.backend.engine.base.actionsFor user (.type resourceType)) :
    system.backend.store.allowsType ⟨user, resourceType, action⟩ = true ∨
      ∃ id coordinator flight, system.parties.get? id = some (.call coordinator flight) ∧
        flight.Pending ∧
        ((∃ role, flight.request = .syncUserRole user role) ∨
          ∃ role actions, flight.request = .putRolePolicy role resourceType actions) := by
  have hbacked : system.backend.Backs (.fact user (.type resourceType) action) ∨ _ :=
    run_backed_or_pending hrun hevents (hstart user resourceType action) hfew hholds
  refine hbacked.imp_right ?_
  rintro ⟨id, coordinator, flight, hget, hpending, hrevokes⟩
  refine ⟨id, coordinator, flight, hget, hpending, ?_⟩
  cases hrequest : flight.request <;> simp_all [StoreRequest.Revokes]

/-- The store empties the policy from which a fact was learned. -/
def policyWrite : List Event :=
  [.start 0 0 (.putRolePolicy .user .page ∅), .move 0 .ask]

theorem type_fact_of_emptied_policy : ∃ system id coordinator flight,
    (opened someStore ((∅ : FactBase).addFact someUser (.type .page) .get)).run policyWrite =
        some system ∧
      .get ∈ system.backend.engine.base.actionsFor someUser (.type .page) ∧
      system.parties.get? id = some (.call coordinator flight) ∧ flight.Pending ∧
        ((∃ role, flight.request = .syncUserRole someUser role) ∨
          ∃ role actions, flight.request = .putRolePolicy role .page actions) := by
  have hrun : ((opened someStore ((∅ : FactBase).addFact someUser (.type .page) .get)).run
      policyWrite).any (fun system => system.backend.revocations < UInt64.size &&
        (system.backend.engine.base.actionsFor someUser (.type .page)).contains .get &&
        !system.backend.store.allowsType ⟨someUser, .page, .get⟩) = true := by decide
  obtain ⟨system, hrun, htest⟩ := exists_run hrun
  simp only [Bool.and_eq_true, decide_eq_true_eq, Bool.not_eq_true'] at htest
  obtain ⟨⟨hfew, hholds⟩, hdenied⟩ := htest
  have hstart : ∀ user resourceType action,
      action ∈ ((∅ : FactBase).addFact someUser (.type .page) .get).actionsFor user
        (.type resourceType) → someStore.allowsType ⟨user, resourceType, action⟩ = true := by
    intro user resourceType action hfact
    have hadded : ((∅ : FactBase).addFact someUser (.type .page) .get).Holds
        (.fact user (.type resourceType) action) := hfact
    cases (FactBase.holds_addFact.1 hadded).resolve_right FactBase.not_holds_empty
    rfl
  have hbacked := type_facts_backed hrun (by simp [policyWrite]) hstart hfew someUser .page
    .get hholds
  obtain ⟨id, coordinator, flight, hpending⟩ := hbacked.resolve_left (by simp [hdenied])
  exact ⟨system, id, coordinator, flight, hrun, hholds, hpending⟩

/-! ## Transactions -/

/-- A step gives a privilege only if the store backs it, or if another party covers it. -/
theorem Sound.granted (h : system.Sound privilege) {id : Nat} {move : Move}
    (hstep : system.Steps (.move id move) next) (hfew : next.backend.revocations < UInt64.size)
    (hbefore : ¬system.backend.Holds privilege) (hafter : next.backend.Holds privilege) :
    next.backend.Backs privilege ∨ next.CoveredBesides privilege [id] := by
  cases hstep with
  | moves hget hmoves =>
    rw [coveredBesides_moved (List.mem_singleton_self id)]
    exact (hmoves.keeps h.trusted hfew (h.apart id _ hget) (h.inOrder id _ hget)).granted hbefore
      hafter

/-- Beside transactions, too, what the engine holds is backed, unless a revoking call or a commit
has been carried out by the store and is not at its end.  No step of a party gives a privilege that
the store does not back, unless such a call or commit of another party is under way. -/
theorem privileges_backed (hrun : (opened store base).run events = some system)
    (hstart : ∀ privilege, base.Holds privilege → store.Backs privilege)
    (hfew : system.backend.revocations < UInt64.size) (privilege : Privilege) :
    (system.backend.engine.base.Holds privilege →
      system.backend.store.Backs privilege ∨
        ∃ id party, system.parties.get? id = some party ∧ party.Owes privilege) ∧
    ∀ id move next, system.step (.move id move) = some next →
      next.backend.revocations < UInt64.size → ¬system.backend.engine.base.Holds privilege →
      next.backend.engine.base.Holds privilege → next.backend.store.Backs privilege ∨
        ∃ other party, other ≠ id ∧ next.parties.get? other = some party ∧
          party.Owes privilege := by
  have hsound : system.Sound privilege := (sound_opened (hstart privilege)).run hrun hfew
  refine ⟨fun hholds => (hsound.held hholds).imp_right ?_,
    fun id move next hstep hnext hbefore hafter =>
      (hsound.granted (steps_of_step hstep) hnext hbefore hafter).imp_right ?_⟩
  · rintro ⟨id, party, hget, hcovers⟩
    exact ⟨id, party, hget, hcovers.owes⟩
  · rintro ⟨other, party, hother, hget, hcovers⟩
    exact ⟨other, party, List.ne_of_not_mem_cons hother, hget, hcovers.owes⟩

/-- A transaction deletes a rule, a check learns the rule again from the store, and the transaction
is committed. -/
def checkBeforeCommit : List Event :=
  [.openScope 0 0, .move 0 (.invoke (.delete someUser someResource)),
    .move 0 (.askWithin someStore), .move 0 (.proceed .receive), .move 0 (.proceed .advance),
    .move 0 .finish, .start 1 1 (.validateAccess ⟨someUser, someResource, .page, .get⟩),
    .move 1 (.proceed .advance), .move 1 (.proceed .advance), .move 1 (.proceed .advance),
    .move 1 (.proceed .advance), .move 1 .ask, .move 1 (.proceed .receive),
    .move 1 (.proceed .advance), .move 0 (.invoke .commit), .move 0 (.askWithin ∅)]

theorem privilege_of_committed_delete : ∃ system id party,
    (opened someStore someBase).run checkBeforeCommit = some system ∧
      system.backend.engine.base.Holds (.fact someUser (.resource someResource) .get) ∧
      system.parties.get? id = some party ∧
        party.Owes (.fact someUser (.resource someResource) .get) := by
  have hrun : ((opened someStore someBase).run checkBeforeCommit).any (fun system =>
      system.backend.revocations < UInt64.size &&
        (system.backend.engine.base.actionsFor someUser (.resource someResource)).contains .get &&
        (system.backend.store.rules.get? (someUser, someResource)).isNone) = true := by decide
  obtain ⟨system, hrun, htest⟩ := exists_run hrun
  simp only [Bool.and_eq_true, decide_eq_true_eq, Option.isNone_iff_eq_none] at htest
  obtain ⟨⟨hfew, hholds⟩, hgone⟩ := htest
  have hbacked := (privileges_backed hrun someStore_backs_someBase hfew
    (.fact someUser (.resource someResource) .get)).1 hholds
  obtain ⟨id, party, howes⟩ := hbacked.resolve_left (by simp [MemoryStore.Backs, hgone])
  exact ⟨system, id, party, hrun, hholds, howes⟩

end System

end AccessControl
