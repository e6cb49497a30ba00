import AccessControl.Fixture
import AccessControl.Proofs.CoordinatorRun
import AccessControl.Proofs.ServiceCall

/-!
# Rules without actions

The service refuses to give a rule without actions, so no call of it leaves one in the store.  A
fixture is seeded past the service, and a grant whose list of actions is empty becomes a rule that
grants nothing.  No other rule without actions is ever stored.
-/

namespace AccessControl

/-! ## What calls ask of the store -/

namespace Call

variable {α : Type} {call : Call α} {allowed : StoreRequest → Prop}

/-- Whatever the engine replies, the call asks the store for an allowed request, and then for
nothing more, or for nothing at all. -/
def AsksOnce (allowed : StoreRequest → Prop) (call : Call α) : Prop :=
  call.Comes (fun request next => allowed request ∧ ∀ answer, (next answer).Leaves fun _ => True)
    fun _ => True

theorem Comes.imp
    {atStore atStore' : (request : StoreRequest) → (request.Answer → Call α) → Prop}
    {atEnd atEnd' : α → Prop} (h : call.Comes atStore atEnd)
    (hstore : ∀ request next, atStore request next → atStore' request next)
    (hend : ∀ result, atEnd result → atEnd' result) : call.Comes atStore' atEnd' := by
  induction call with
  | done result => exact hend result h
  | engine request next ih => exact fun reply => ih reply (h reply)
  | store request onUnknown next => exact hstore request next h
  | count counter next ih => exact ih h

theorem Leaves.asksOnce (h : call.Leaves fun _ => True) : call.AsksOnce allowed :=
  Comes.imp h (fun _ _ => False.elim) fun _ => id

end Call

theorem Coordinator.handle_asksOnce {allowed : StoreRequest → Prop} {request : StoreRequest}
    (h : allowed request) : (handle request).AsksOnce allowed := by
  refine (handle_comes request).imp (fun asked next hasked => ?_) fun _ _ => trivial
  refine ⟨hasked.request_eq ▸ h, fun answer => ?_⟩
  exact (hasked.failure_eq answer).imp fun _ _ => trivial

namespace Stage

variable {α : Type} {allowed : StoreRequest → Prop} {stage stage' : Stage α} {coordinator : Nat}
  {before after : Backend} {progress : Progress}

/-- However the call goes on from where it stands, it asks the store for an allowed request at
most. -/
def AsksOnce (allowed : StoreRequest → Prop) : Stage α → Prop
  | running rest => rest.AsksOnce allowed
  | answered _ _ next _ => ∀ answer, (next answer).Leaves fun _ => True
  | abandoned rest => rest.Leaves fun _ => True

theorem Proceeds.asksOnce (h : stage.AsksOnce allowed)
    (hproceeds : stage.Proceeds coordinator before progress stage' after) :
    stage'.AsksOnce allowed := by
  cases hproceeds with
  | advance hstep => exact Call.Comes.step h hstep
  | windUp hstep => exact Call.Comes.step h hstep
  | receive request onUnknown next answer => exact (h answer).asksOnce
  | refuse error request onUnknown next => exact (h.2 (.error error)).asksOnce
  | lose reason request onUnknown next answer => exact (h (.error (.internal reason))).asksOnce
  | giveUp request onUnknown next => exact EngineUpdate.applyAll_leaves onUnknown
  | giveUpAnswered request onUnknown next answer => exact EngineUpdate.applyAll_leaves onUnknown

end Stage

theorem Event.Starts.imp {event : Event} {allowed allowed' : StoreRequest → Prop}
    (h : event.Starts allowed) (himp : ∀ request, allowed request → allowed' request) :
    event.Starts allowed' := by
  cases event with
  | start id coordinator request => exact himp request h
  | openScope id coordinator => exact h
  | move id move => trivial
  | discard id => trivial

namespace System

variable {system next : System} {event : Event} {events : List Event}
  {allowed : StoreRequest → Prop}

/-- Every party is a call to a coordinator that asks the store for allowed requests only. -/
def AsksOnce (allowed : StoreRequest → Prop) (system : System) : Prop :=
  ∀ id party, system.parties.get? id = some party → ∃ coordinator flight,
    party = .call coordinator flight ∧ flight.stage.AsksOnce allowed

theorem asksOnce_opened {store : MemoryStore} {base : FactBase} :
    (opened store base).AsksOnce allowed := by
  intro id party hget
  cases hget

theorem AsksOnce.moved {id coordinator : Nat} {flight : CoordinatorFlight} {backend : Backend}
    (h : system.AsksOnce allowed) (hflight : flight.stage.AsksOnce allowed) :
    (system.moved id (.call coordinator flight) backend).AsksOnce allowed := by
  intro other party hget
  rw [get?_moved] at hget
  split at hget
  · exact ⟨coordinator, flight, (Option.some.inj hget).symm, hflight⟩
  · exact h other party hget

/-- An event changes the store by an allowed request, or not at all. -/
theorem AsksOnce.step (h : system.AsksOnce allowed) (htrusted : system.backend.Trusted)
    (hstep : system.Steps event next) (hevent : event.Starts allowed) :
    next.AsksOnce allowed ∧ (next.backend.store = system.backend.store ∨
      ∃ request, allowed request ∧
        next.backend.store = (system.backend.store.answer request).2) := by
  cases hstep with
  | starts hfree => exact ⟨h.moved (Coordinator.handle_asksOnce hevent), .inl rfl⟩
  | opens hfree => exact False.elim hevent
  | discards hget =>
    obtain ⟨coordinator, flight, heq, -⟩ := h _ _ hget
    cases heq
  | moves hget hmoves =>
    obtain ⟨coordinator, flight, rfl, hflight⟩ := h _ _ hget
    cases hmoves with
    | callProceeds hproceeds =>
      exact ⟨h.moved (hproceeds.asksOnce hflight), .inl (hproceeds.store htrusted)⟩
    | callAsks hask =>
      obtain ⟨request, onUnknown, answered, hstage, -, rfl, rfl⟩ :=
        CoordinatorFlight.ask_cases hask
      rw [hstage] at hflight
      exact ⟨h.moved hflight.2, .inr ⟨request, hflight.1, rfl⟩⟩

/-- What every allowed request keeps true of the store is true after a run, which ends with a system
of the same kind. -/
theorem AsksOnce.run {keeps : MemoryStore → Prop} (h : system.AsksOnce allowed)
    (htrusted : system.backend.Trusted) (hrun : system.run events = some next)
    (hevents : ∀ event ∈ events, event.Starts allowed)
    (hkeeps : ∀ store request, allowed request → keeps store → keeps (store.answer request).2)
    (hstore : keeps system.backend.store) :
    next.AsksOnce allowed ∧ next.backend.Trusted ∧ keeps next.backend.store := by
  induction events generalizing system with
  | nil =>
    obtain rfl := Option.some.inj hrun
    exact ⟨h, htrusted, hstore⟩
  | cons event rest ih =>
    obtain ⟨middle, hstep, hrest⟩ := run_cons hrun
    rw [List.forall_mem_cons] at hevents
    obtain ⟨hasks, hchange⟩ := h.step htrusted hstep hevents.1
    refine ih hasks (hstep.trusted htrusted) hrest hevents.2 ?_
    rcases hchange with hsame | ⟨request, hrequest, hanswer⟩
    · rw [hsame]
      exact hstore
    · rw [hanswer]
      exact hkeeps _ request hrequest hstore

end System

/-! ## Rules in the store -/

namespace MemoryStore

variable {store seeded : MemoryStore} {request : StoreRequest}

/-- Every rule of the store that gives no action is a rule of the seeded store. -/
def IdleRulesFrom (seeded store : MemoryStore) : Prop :=
  ∀ pair rule, store.rules.get? pair = some rule → rule.actions = ∅ →
    seeded.rules.get? pair = some rule

theorem IdleRulesFrom.refl (store : MemoryStore) : store.IdleRulesFrom store :=
  fun _ _ hrule _ => hrule

theorem IdleRulesFrom.insert {key : UserId × ResourceId} {written : Rule}
    (h : seeded.IdleRulesFrom store) (hactions : written.actions ≠ ∅) :
    seeded.IdleRulesFrom { store with rules := store.rules.insert key written } := by
  intro pair rule hrule hidle
  rw [Table.get?_insert] at hrule
  split at hrule
  · obtain rfl := Option.some.inj hrule
    exact absurd hidle hactions
  · exact h pair rule hrule hidle

/-- A request that gives actions leaves no new rule without any. -/
theorem IdleRulesFrom.answer (h : seeded.IdleRulesFrom store) (hgives : request.GivesActions) :
    seeded.IdleRulesFrom (store.answer request).2 := by
  cases request with
  | create user grant =>
    simp only [MemoryStore.answer, create]
    split
    · split
      · exact h
      · exact h.insert hgives
    · exact h
  | update user grant =>
    simp only [MemoryStore.answer, update]
    split
    · split
      · exact h.insert hgives
      · exact h
    · exact h
  | delete user resource =>
    intro pair rule hrule hidle
    simp only [MemoryStore.answer, delete, Table.get?_erase] at hrule
    split at hrule
    · cases hrule
    · exact h pair rule hrule hidle
  | syncUserRole user role =>
    simp only [MemoryStore.answer, syncUserRole]
    split <;> exact h
  | _ => exact h

end MemoryStore

/-- A list of names without a set of actions is empty. -/
theorem ActionSet.eq_nil_of_ofNames {texts : List String} (h : ofNames texts = .ok ∅) :
    texts = [] := by
  cases texts with
  | nil => rfl
  | cons text rest =>
    cases hnames : Action.ofNames (text :: rest) with
    | error error =>
      rw [ofNames, hnames] at h
      cases h
    | ok actions =>
      rw [ofNames, hnames] at h
      have hset : ofList actions = ∅ := Except.ok.inj h
      obtain ⟨action, -, hrest⟩ := Except.exists_of_bind_ok hnames
      obtain ⟨others, -, hactions⟩ := Except.exists_of_bind_ok hrest
      obtain rfl := Except.ok.inj hactions
      have hmem : action ∈ ofList (action :: others) := by simp
      rw [hset] at hmem
      exact absurd hmem (not_mem_empty action)

/-- Whether the entry is a grant without actions for the pair. -/
def FixtureGrant.Idle (entry : FixtureGrant) (user : UserId) (resource : ResourceId) : Prop :=
  entry.actions = [] ∧ Fixture.readUser entry.user = .ok user ∧
    Fixture.readResource entry.resource = .ok resource

namespace Fixture

variable {fixture : Fixture} {store next : MemoryStore} {user : UserId} {resource : ResourceId}

/-- Every rule of the store that gives no action is that of a grant without actions. -/
def IdleRulesGranted (fixture : Fixture) (store : MemoryStore) : Prop :=
  ∀ user resource rule, store.rules.get? (user, resource) = some rule → rule.actions = ∅ →
    ∃ entry ∈ fixture.grants, entry.Idle user resource

/-- What every entry keeps true of the store is true however far the seeding comes. -/
theorem seedEach_keeps {α : Type} {seed : MemoryStore → α → Except SeedingError Unit × MemoryStore}
    {entries : List α} {keeps : MemoryStore → Prop}
    (hseed : ∀ store, ∀ entry ∈ entries, keeps store → keeps (seed store entry).2)
    (h : keeps store) : keeps (seedEach seed store entries).2 := by
  induction entries generalizing store with
  | nil => exact h
  | cons entry rest ih =>
    have hfirst : keeps (seed store entry).2 := hseed store entry List.mem_cons_self h
    rw [seedEach]
    split
    case h_1 next hnext =>
      rw [hnext] at hfirst
      exact ih (fun store other hmem => hseed store other (List.mem_cons_of_mem _ hmem)) hfirst
    case h_2 error next hnext => rwa [hnext] at hfirst

section Entry

variable {α : Type} {stated : Except SeedingError α}
  {write : α → Except StorageError Unit × MemoryStore}

/-- What is true of the store stays so if what is written keeps it true. -/
theorem enter_keeps {keeps : MemoryStore → Prop} (h : keeps store)
    (hwrite : ∀ value, stated = .ok value → keeps (write value).2) :
    keeps (enter store stated write).2 := by
  cases stated with
  | error error => exact h
  | ok value => exact hwrite value rfl

/-- An entry is seeded if it can be read, and what it states can be written. -/
theorem enter_eq_ok (h : enter store stated write = (.ok (), next)) :
    ∃ value, stated = .ok value ∧ write value = (.ok (), next) := by
  cases stated with
  | error error => cases (Prod.mk.inj h).1
  | ok value =>
    obtain ⟨hresult, hnext⟩ := Prod.mk.inj h
    refine ⟨value, rfl, Prod.ext ?_ hnext⟩
    cases hwritten : (write value).1 with
    | ok done => rfl
    | error error =>
      rw [hwritten] at hresult
      cases hresult

end Entry

theorem of_readName {α : Type} {result : Except UnknownName α} {value : α}
    (h : readName result = .ok value) : result = .ok value := by
  cases result with
  | error error => cases h
  | ok read => exact congrArg Except.ok (Except.ok.inj h)

/-- A grant names its user, its resource and its actions. -/
theorem of_statedGrant {entry : FixtureGrant} {grant : Grant}
    (h : statedGrant entry = .ok (user, grant)) :
    readUser entry.user = .ok user ∧ readResource entry.resource = .ok grant.resource ∧
      ActionSet.ofNames entry.actions = .ok grant.actions := by
  obtain ⟨target, htarget, hrest⟩ := Except.exists_of_bind_ok h
  obtain ⟨resourceType, -, hrest⟩ := Except.exists_of_bind_ok hrest
  obtain ⟨actions, hactions, hrest⟩ := Except.exists_of_bind_ok hrest
  obtain ⟨owner, howner, hgrant⟩ := Except.exists_of_bind_ok hrest
  obtain ⟨rfl, rfl⟩ := Prod.mk.inj (Except.ok.inj hgrant)
  exact ⟨howner, htarget, of_readName hactions⟩

/-- Whether it is refused or not, a grant leaves no other rule than its own beside the old ones. -/
theorem get?_of_create {owner : UserId} {grant : Grant} {rule : Rule}
    (hrule : (store.create owner grant).2.rules.get? (user, resource) = some rule) :
    store.rules.get? (user, resource) = some rule ∨
      user = owner ∧ resource = grant.resource ∧ rule.actions = grant.actions := by
  simp only [MemoryStore.create] at hrule
  split at hrule
  · split at hrule
    · exact .inl hrule
    · rw [Table.get?_insert] at hrule
      split at hrule
      case isTrue hpair =>
        obtain ⟨rfl, rfl⟩ := Prod.mk.inj hpair
        obtain rfl := Option.some.inj hrule
        exact .inr ⟨rfl, rfl, rfl⟩
      case isFalse => exact .inl hrule
  · exact .inl hrule

theorem IdleRulesGranted.seedGrant {entry : FixtureGrant} (h : fixture.IdleRulesGranted store)
    (hentry : entry ∈ fixture.grants) : fixture.IdleRulesGranted (seedGrant store entry).2 := by
  refine enter_keeps h fun (owner, grant) hstated => ?_
  obtain ⟨huser, hresource, hactions⟩ := of_statedGrant hstated
  intro user resource rule hrule hidle
  rcases get?_of_create hrule with hold | ⟨rfl, rfl, hgranted⟩
  · exact h user resource rule hold hidle
  · rw [← hgranted, hidle] at hactions
    exact ⟨entry, hentry, ActionSet.eq_nil_of_ofNames hactions, huser, hresource⟩

/-- However far the seeding of a fixture comes, it stores a rule without actions for a grant
without actions only. -/
theorem idleRulesGranted_apply : fixture.IdleRulesGranted (fixture.apply ∅).2 := by
  have hempty : fixture.IdleRulesGranted ∅ := fun _ _ _ hrule => nomatch hrule
  have husers : fixture.IdleRulesGranted (seedEach seedUser ∅ fixture.users).2 :=
    seedEach_keeps (fun _ _ _ h => enter_keeps h fun _ _ => h) hempty
  have hgrants : fixture.IdleRulesGranted (seedEach seedGrant _ fixture.grants).2 :=
    seedEach_keeps (fun _ _ hentry h => h.seedGrant hentry) husers
  have hpolicies : fixture.IdleRulesGranted (seedEach seedPolicy _ fixture.policies).2 :=
    seedEach_keeps (fun _ _ _ h => enter_keeps h fun _ _ => h) hgrants
  -- each of the three lists may be the last one that is come to
  rw [apply]
  split
  case h_1 hfirst => rwa [hfirst] at husers
  case h_2 hfirst =>
    rw [hfirst] at hgrants hpolicies
    split
    case h_1 hsecond => rwa [hsecond] at hgrants
    case h_2 hsecond =>
      rw [hsecond] at hpolicies
      split <;> rename_i hthird <;> rwa [hthird] at hpolicies

end Fixture

namespace System

variable {fixture : Fixture} {base : FactBase} {system : System} {events : List Event}
  {user : UserId} {resource : ResourceId} {rule : Rule}

/-- A rule without actions that is stored after any calls of the service has been stored at every
moment since the seeding, and a grant of the fixture without actions asks for it. -/
theorem idle_rule_seeded
    (hevents : ∀ event ∈ events, event.Starts fun request =>
      ∃ (call : ServiceCall) (deadline : Duration), call.PassesOn deadline request)
    (hrun : (opened (fixture.apply ∅).2 base).run events = some system)
    (hrule : system.backend.store.rules.get? (user, resource) = some rule)
    (hidle : rule.actions = ∅) :
    (∀ moment, (opened (fixture.apply ∅).2 base).Visits events moment →
        moment.backend.store.rules.get? (user, resource) = some rule) ∧
      ∃ entry ∈ fixture.grants, entry.Idle user resource := by
  have hgives : ∀ event ∈ events, event.Starts StoreRequest.GivesActions := fun event hmem =>
    Event.Starts.imp (hevents event hmem) fun _ ⟨_, _, hpasses⟩ => hpasses.givesActions
  have hstored : ∀ moment, (opened (fixture.apply ∅).2 base).Visits events moment →
      moment.backend.store.rules.get? (user, resource) = some rule := by
    rintro moment ⟨past, rest, rfl, hpast⟩
    rw [List.forall_mem_append] at hgives
    obtain ⟨hasks, htrusted, -⟩ : moment.AsksOnce StoreRequest.GivesActions ∧
        moment.backend.Trusted ∧ (fixture.apply ∅).2.IdleRulesFrom moment.backend.store :=
      asksOnce_opened.run rfl hpast hgives.1 (fun _ _ hallowed h => h.answer hallowed) (.refl _)
    -- the rest of the run begins at the moment, and cannot have brought the rule in
    have hsince : moment.backend.store.IdleRulesFrom system.backend.store :=
      (hasks.run htrusted (run_rest hrun hpast) hgives.2
        (fun _ _ hallowed h => h.answer hallowed) (.refl _)).2.2
    exact hsince _ _ hrule hidle
  exact ⟨hstored, Fixture.idleRulesGranted_apply user resource rule (hstored _ visits_self) hidle⟩

/-- A fixture that grants its user no action on a resource. -/
def idleFixture : Fixture where
  users := [⟨"6f1c2a4e-8b3d-4c5e-9f70-1a2b3c4d5e6f", "USER"⟩]
  grants := [⟨"6f1c2a4e-8b3d-4c5e-9f70-1a2b3c4d5e6f", "0e9d8c7b-6a59-4837-a261-504f3e2d1c0b",
    "DASHBOARD", []⟩]

/-- The user of the fixture. -/
def idleUser : UserId := ⟨.ofNat 0x6f1c2a4e8b3d4c5e9f701a2b3c4d5e6f⟩

/-- The resource on which the fixture grants nothing. -/
def idleResource : ResourceId := ⟨.ofNat 0x0e9d8c7b6a594837a261504f3e2d1c0b⟩

/-- What the service grants the user besides. -/
def pageGrant : Grant := ⟨⟨.ofNat 2⟩, .page, .ofList [.get]⟩

/-- A call of the service that is carried out after the seeding. -/
def pageGranted : List Event :=
  [.start 0 0 (.create idleUser pageGrant), .move 0 (.proceed .advance), .move 0 .ask,
    .move 0 (.proceed .receive)]

theorem run_pageGranted : ((opened (idleFixture.apply ∅).2 ∅).run pageGranted).any (fun system =>
    system.backend.store.rules.get? (idleUser, idleResource) =
      some ⟨idleUser, idleResource, .dashboard, ∅⟩) = true := by decide +kernel

theorem pageGranted_passed_on : ∀ event ∈ pageGranted, event.Starts fun request =>
    ∃ (call : ServiceCall) (deadline : Duration), call.PassesOn deadline request := by
  intro event hmem
  simp only [pageGranted, List.mem_cons, List.not_mem_nil, or_false] at hmem
  rcases hmem with rfl | rfl | rfl | rfl
  · have hgives : ¬pageGrant.actions.isEmpty := by decide
    refine ⟨.grant idleUser pageGrant, .ofSeconds 5, ?_⟩
    rw [ServiceCall.PassesOn, ServiceCall.attempt, Service.grant, if_neg hgives]
    exact ⟨_, _, _, rfl⟩
  all_goals trivial

theorem idle_rule_beside_grant : ∃ system,
    (opened (idleFixture.apply ∅).2 ∅).run pageGranted = some system ∧
      (∀ moment, (opened (idleFixture.apply ∅).2 ∅).Visits pageGranted moment →
        moment.backend.store.rules.get? (idleUser, idleResource) =
          some ⟨idleUser, idleResource, .dashboard, ∅⟩) ∧
        ∃ entry ∈ idleFixture.grants, entry.Idle idleUser idleResource := by
  obtain ⟨system, hrun, hrule⟩ := exists_run run_pageGranted
  rw [decide_eq_true_eq] at hrule
  exact ⟨system, hrun, idle_rule_seeded pageGranted_passed_on hrun hrule rfl⟩

/-- The fixture is seeded to its end, and leaves a rule without actions.  The rule stays stored while
the service grants something else. -/
theorem rule_without_actions_stored : (idleFixture.apply ∅).1 = .ok ⟨1, 1, 0⟩ ∧
    ∃ system rule, (opened (idleFixture.apply ∅).2 ∅).run pageGranted = some system ∧
      system.backend.store.rules.get? (idleUser, idleResource) = some rule ∧ rule.actions = ∅ := by
  obtain ⟨system, hrun, hrule⟩ := exists_run run_pageGranted
  rw [decide_eq_true_eq] at hrule
  exact ⟨by decide +kernel, system, _, hrun, hrule, rfl⟩

end System

end AccessControl
