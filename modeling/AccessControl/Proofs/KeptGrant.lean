import AccessControl.Proofs.CoordinatorRequests

/-!
# No grant is lost without a revocation

A call that adds a rule reads the counters of its pair, and then adds its facts one after another,
each guarded by what it has read.  The guard is coarse, since one counter stands for all that a user
is allowed.  But nothing moves the counters of the pair except a revocation from that very user: no
coordinator clears a resource, and additions move no counter.  So whatever else runs beside the call,
all its facts are there when it succeeds.
-/

namespace AccessControl

/-! ## The counters of a pair while nothing is revoked -/

theorem EngineUpdate.eq_clearObject_of_asks {update : EngineUpdate} {target : PolicyObject}
    (h : update.Asks (.clearObject target)) : update = .clearObject target := by
  cases update with
  | clearObject object =>
    cases h
    rfl
  | _ => simp [Asks, DemotionAsks] at h

/-- A coordinator clears resource types only. -/
theorem StoreRequest.Asks.not_revokesObject {request : StoreRequest} {asked : EngineRequest}
    (h : request.Asks asked) (resource : ResourceId) (reply : asked.Reply) :
    EngineEvent.revokesObject (.resource resource) ⟨asked, reply⟩ = false := by
  rcases h with hobserves | ⟨update, htells, hasks⟩
  · cases asked with
    | clearObject => exact False.elim hobserves
    | _ => rfl
  · cases asked with
    | clearObject target =>
      obtain rfl := EngineUpdate.eq_clearObject_of_asks hasks
      cases request with
      | putRolePolicy role resourceType actions =>
        cases htells
        rfl
      | _ => simp [StoreRequest.Tells] at htells
    | _ => rfl

/-- Whether a request leaves the store as it is or adds a rule. -/
def StoreRequest.Adds (request : StoreRequest) : Prop :=
  request.row? = none ∨ ∃ user grant, request = .create user grant

/-- A coordinator revokes nothing on account of a read or an addition. -/
theorem StoreRequest.Asks.not_revokesSubject {request : StoreRequest} {asked : EngineRequest}
    (hadds : request.Adds) (h : request.Asks asked) (user : UserId) (reply : asked.Reply) :
    EngineEvent.revokesSubject user ⟨asked, reply⟩ = false := by
  rcases h with hobserves | ⟨update, htells, hasks⟩
  · cases asked <;> first | rfl | exact False.elim hobserves
  · suffices hgrant : ∃ subject object actions seen, update = .grant subject object actions seen by
      obtain ⟨subject, object, actions, seen, rfl⟩ := hgrant
      obtain ⟨action, -, rfl⟩ := hasks
      rfl
    rcases hadds with hrow | ⟨owner, grant, rfl⟩
    · exact htells.grant_of_row hrow
    · obtain ⟨seen, rfl⟩ := htells
      exact ⟨_, _, _, _, rfl⟩

namespace FactBase

variable {base : FactBase} {asked : EngineRequest} {user : UserId} {object : PolicyObject}

/-- A request that revokes nothing from the pair leaves its counters and its facts. -/
theorem kept_of_answer
    (huser : EngineEvent.revokesSubject user ⟨asked, (base.answer asked).1⟩ = false)
    (hobject : EngineEvent.revokesObject object ⟨asked, (base.answer asked).1⟩ = false) :
    (base.answer asked).2.version user object = base.version user object ∧
      ∀ action, base.Holds (.fact user object action) →
        (base.answer asked).2.Holds (.fact user object action) := by
  constructor
  · simp [version, subjectVersion_answer, objectVersion_answer, huser, hobject]
  · intro action hholds
    refine holds_answer_of_held hholds fun hwithdraws => ?_
    have hrevokes : EngineEvent.revokesSubject user ⟨asked, (base.answer asked).1⟩ = true ∨
        EngineEvent.revokesObject object ⟨asked, (base.answer asked).1⟩ = true :=
      EngineEvent.revokes_of_withdraws hwithdraws
    simp [huser, hobject] at hrevokes

end FactBase

/-! ## The call -/

/-- If the call succeeds, the user may perform the wanted actions on the object.  This is said of a
call beside which the counters of the pair stay at `seen` and no fact of the pair is lost; those of
`held` are there already. -/
def Call.Grants (user : UserId) (object : PolicyObject) (wanted : ActionSet) (seen : FactVersion) :
    (Action → Prop) → Call (Except StorageError Unit) → Prop
  | held, done result => result = .ok () → ∀ action ∈ wanted, held action
  | held, engine request next => ∀ base : FactBase, base.version user object = seen →
      (∀ action, held action → base.Holds (.fact user object action)) →
      (next (.ok (base.answer request).1)).Grants user object wanted seen fun action =>
        (base.answer request).2.Holds (.fact user object action)
  | held, store _ _ next => ∀ answer, (next answer).Grants user object wanted seen held
  | held, count _ next => next.Grants user object wanted seen held

/-- If the call succeeds from where it stands, its facts are there. -/
def Stage.Grants (user : UserId) (object : PolicyObject) (wanted : ActionSet) (seen : FactVersion)
    (held : Action → Prop) : Stage (Except StorageError Unit) → Prop
  | running rest => rest.Grants user object wanted seen held
  | answered _ _ next _ => ∀ answer, (next answer).Grants user object wanted seen held
  | abandoned _ => True

section

variable {user : UserId} {object : PolicyObject} {wanted : ActionSet} {seen : FactVersion}
  {held held' : Action → Prop}

theorem Call.Grants.mono {call : Call (Except StorageError Unit)}
    (h : call.Grants user object wanted seen held) (hheld : ∀ action, held action → held' action) :
    call.Grants user object wanted seen held' := by
  induction call with
  | done result => exact fun hok action hmem => hheld action (h hok action hmem)
  | engine request next =>
    intro base hseen hbase
    exact h base hseen fun action haction => hbase action (hheld action haction)
  | store request onUnknown next ih => exact fun answer => ih answer (h answer)
  | count counter next ih => exact ih h

theorem Stage.Grants.mono {stage : Stage (Except StorageError Unit)}
    (h : stage.Grants user object wanted seen held)
    (hheld : ∀ action, held action → held' action) :
    stage.Grants user object wanted seen held' := by
  cases stage with
  | running rest => exact Call.Grants.mono h hheld
  | answered => exact fun answer => (h answer).mono hheld
  | abandoned => trivial

/-- The facts are added one after another, and none is refused. -/
theorem addFacts_grants {actions : List Action}
    (h : ∀ action ∈ wanted, action ∈ actions ∨ held action) :
    ((EngineUpdate.addFacts user object seen actions).bind fun _ => .done (.ok ())).Grants user
      object wanted seen held := by
  induction actions generalizing held with
  | nil => exact fun _ action hmem => (h action hmem).resolve_left (List.not_mem_nil)
  | cons first rest ih =>
    intro base hseen hbase
    have hadded : base.answer (.addFactIfCurrent user object first seen) =
      (true, base.addFact user object first) := if_pos hseen
    rw [hadded]
    refine ih fun action hmem => ?_
    rcases h action hmem with hlisted | hheld
    · rcases List.mem_cons.1 hlisted with rfl | hrest
      · exact .inr (FactBase.holds_addFact.2 (.inl rfl))
      · exact .inl hrest
    · exact .inr (FactBase.holds_addFact.2 (.inr (hbase action hheld)))

theorem create_grants (user : UserId) (grant : Grant) :
    (Coordinator.create user grant).Grants user (.resource grant.resource) grant.actions seen
      held := by
  rintro base rfl hbase (error | reply)
  · exact fun hok => by cases hok
  · exact addFacts_grants fun action hmem => .inl (ActionSet.mem_toList.2 hmem)

end

/-- Progress of the call keeps what is there, and brings in what it says. -/
theorem Stage.Proceeds.grants {user : UserId} {object : PolicyObject} {wanted : ActionSet}
    {stage stage' : Stage (Except StorageError Unit)} {coordinator : Nat} {before after : Backend}
    {progress : Progress} (h : stage.Proceeds coordinator before progress stage' after)
    (htrusted : before.Trusted)
    (hgrants : stage.Grants user object wanted (before.engine.base.version user object)
      fun action => before.Holds (.fact user object action)) :
    stage'.Grants user object wanted (before.engine.base.version user object)
      fun action => after.Holds (.fact user object action) := by
  cases h with
  | advance hstep =>
    rcases Call.step_cases hstep htrusted with ⟨counter, rfl, rfl⟩ | ⟨asked, next, rfl, rfl, rfl⟩
    · exact hgrants
    · have hrest := hgrants before.engine.base rfl fun _ => id
      simp only [Backend.Holds, Backend.askEngine_base htrusted]
      exact hrest
  | receive request onUnknown next answer => exact hgrants answer
  | refuse error => exact hgrants (.error error)
  | lose reason => exact hgrants (.error (.internal reason))
  | windUp | giveUp | giveUpAnswered => trivial

theorem Party.grants_of_move {user : UserId} {grant : Grant} {object : PolicyObject}
    {stage : Stage (StoreRequest.create user grant).Answer} {applied : Bool} {coordinator : Nat}
    {locked : List Row} {before after : Backend} {move : Move} {party' : Party}
    (hmove : (Party.call coordinator ⟨.create user grant, stage, applied⟩).move locked before move =
      some (party', after)) (htrusted : before.Trusted)
    (hgrants : stage.Grants user object grant.actions (before.engine.base.version user object)
      fun action => before.Holds (.fact user object action)) :
    ∃ stage' applied', party' = .call coordinator ⟨.create user grant, stage', applied'⟩ ∧
      stage'.Grants user object grant.actions (before.engine.base.version user object)
        fun action => after.Holds (.fact user object action) := by
  rcases Party.call_moves hmove with ⟨progress, stage', -, hproceeds, rfl⟩ | ⟨flight', -, hask, rfl⟩
  · exact ⟨stage', applied, rfl, hproceeds.grants htrusted hgrants⟩
  · obtain ⟨request, onUnknown, next, hstage, -, rfl, rfl⟩ := CoordinatorFlight.ask_cases hask
    have hasked : Stage.Grants user object grant.actions
        (before.engine.base.version user object)
        (fun action => before.Holds (.fact user object action))
        (.running (.store request onUnknown next)) := by
      rw [← hstage]
      exact hgrants
    exact ⟨_, _, rfl, hasked⟩

/-! ## The call beside others -/

namespace System

variable {system next : System} {event : Event} {events : List Event} {id : Nat} {user : UserId}
  {grant : Grant} {allowed : StoreRequest → Prop}

/-- The call that adds a rule is under way, and its facts will be there if it succeeds and if nothing
is revoked from the user meanwhile. -/
def Granting (id : Nat) (user : UserId) (grant : Grant) (system : System) : Prop :=
  ∃ coordinator stage applied,
    system.parties.get? id = some (.call coordinator ⟨.create user grant, stage, applied⟩) ∧
      stage.Grants user (.resource grant.resource) grant.actions
        (system.backend.engine.base.version user (.resource grant.resource))
        fun action => system.backend.Holds (.fact user (.resource grant.resource) action)

/-- At an event that revokes nothing from the user, his pairs keep their counters and their facts. -/
theorem ProperCalls.kept_step (h : system.ProperCalls allowed)
    (hstep : system.step event = some next)
    (hkept : ∀ made ∈ system.engineEvent? event, made.revokesSubject user = false)
    (resource : ResourceId) :
    next.backend.engine.base.version user (.resource resource) =
        system.backend.engine.base.version user (.resource resource) ∧
      ∀ action, system.backend.Holds (.fact user (.resource resource) action) →
        next.backend.Holds (.fact user (.resource resource) action) := by
  rcases h.base_step hstep with hsame | ⟨asked, hasked, hbase⟩
  · simp only [Backend.Holds, hsame]
    exact ⟨trivial, fun _ => id⟩
  · obtain ⟨request, -, hasks⟩ := h.asks hasked
    simp only [Backend.Holds, hbase]
    refine FactBase.kept_of_answer ?_ (hasks.not_revokesObject resource _)
    exact hkept _ (by simp [engineEvent?, hasked])

theorem Granting.step (h : system.Granting id user grant) (hcalls : system.ProperCalls allowed)
    (hstep : system.step event = some next)
    (hkept : ∀ made ∈ system.engineEvent? event, made.revokesSubject user = false) :
    next.Granting id user grant := by
  obtain ⟨coordinator, stage, applied, hget, hgrants⟩ := h
  obtain ⟨hversion, hheld⟩ := hcalls.kept_step hstep hkept grant.resource
  rcases step_party hstep hget with hstays | ⟨move, party', rfl, hmove, hget'⟩ | ⟨-, _, _, _, heq⟩
  · refine ⟨coordinator, stage, applied, hstays, ?_⟩
    rw [hversion]
    exact hgrants.mono hheld
  · obtain ⟨stage', applied', rfl, hgrants'⟩ := Party.grants_of_move hmove hcalls.trusted hgrants
    refine ⟨coordinator, stage', applied', hget', ?_⟩
    rw [hversion]
    exact hgrants'
  · cases heq

theorem Granting.run (h : system.Granting id user grant) (hcalls : system.ProperCalls allowed)
    (hrun : system.run events = some next)
    (hevents : ∀ event ∈ events, event.Starts allowed)
    (hkept : ∀ made ∈ system.engineEvents events, made.revokesSubject user = false) :
    next.Granting id user grant := by
  induction events generalizing system with
  | nil =>
    obtain rfl := Option.some.inj hrun
    exact h
  | cons event rest ih =>
    obtain ⟨middle, hstep, hrest⟩ := Option.bind_eq_some_iff.1 hrun
    rw [engineEvents_cons hstep, List.forall_mem_append] at hkept
    rw [List.forall_mem_cons] at hevents
    have hmiddle : middle.ProperCalls allowed := hcalls.step (steps_of_step hstep) hevents.1
    refine ih (h.step hcalls hstep fun made hmade => ?_) hmiddle hrest hevents.2 hkept.2
    exact hkept.1 made (by simpa using hmade)

/-- A call that has succeeded has all its facts in the engine. -/
theorem Granting.held (h : system.Granting id user grant)
    (hanswer : system.answer? id (.create user grant) = some (.ok ())) :
    ∀ action ∈ grant.actions,
      action ∈ system.backend.engine.base.actionsFor user (.resource grant.resource) := by
  obtain ⟨coordinator, stage, applied, hget, hgrants⟩ := h
  rw [answer?, hget, Option.bind_some] at hanswer
  obtain ⟨applied', heq⟩ := Party.answer?_call hanswer
  cases heq
  exact hgrants rfl

/-! ## Additions alone -/

/-- Every call that adds a rule is on its way to its facts. -/
def GrantsAll (system : System) : Prop :=
  ∀ id coordinator user grant stage applied, system.parties.get? id =
    some (.call coordinator ⟨.create user grant, stage, applied⟩) → system.Granting id user grant

theorem grantsAll_opened {store : MemoryStore} {base : FactBase} : (opened store base).GrantsAll := by
  intro id coordinator user grant stage applied hget
  cases hget

theorem GrantsAll.step (h : system.GrantsAll) (hcalls : system.ProperCalls allowed)
    (hstep : system.step event = some next)
    (hkept : ∀ user, ∀ made ∈ system.engineEvent? event, made.revokesSubject user = false) :
    next.GrantsAll := by
  intro id coordinator user grant stage applied hget
  rcases (steps_of_step hstep).call_before hget with ⟨stage₀, applied₀, hbefore⟩ | hstarted
  · exact (h id coordinator user grant stage₀ applied₀ hbefore).step hcalls hstep
      (hkept user)
  · rw [hstarted] at hget
    exact ⟨coordinator, _, _, hget, create_grants user grant⟩

/-- A run of reads and additions revokes nothing, so that every addition that succeeds has all its
facts in the engine. -/
theorem GrantsAll.run (h : system.GrantsAll) (hcalls : system.ProperCalls StoreRequest.Adds)
    (hrun : system.run events = some next)
    (hevents : ∀ event ∈ events, event.Starts StoreRequest.Adds) : next.GrantsAll := by
  induction events generalizing system with
  | nil =>
    obtain rfl := Option.some.inj hrun
    exact h
  | cons event rest ih =>
    obtain ⟨middle, hstep, hrest⟩ := Option.bind_eq_some_iff.1 hrun
    rw [List.forall_mem_cons] at hevents
    have hmiddle := hcalls.step (steps_of_step hstep) hevents.1
    refine ih (h.step hcalls hstep fun user made hmade => ?_) hmiddle hrest hevents.2
    obtain ⟨asked, hasked, rfl⟩ := Option.map_eq_some_iff.1 hmade
    obtain ⟨request, hadds, hasks⟩ := hcalls.asks hasked
    exact hasks.not_revokesSubject hadds user _

/-- Where every party is a call, an answer is that of a call that has come to its end. -/
theorem ProperCalls.get?_of_answer? {asked : StoreRequest} {answer : asked.Answer}
    (h : system.ProperCalls allowed) (hanswer : system.answer? id asked = some answer) :
    ∃ coordinator applied, system.parties.get? id =
      some (.call coordinator ⟨asked, .running (.done answer), applied⟩) := by
  obtain ⟨party, hget, hparty⟩ := Option.bind_eq_some_iff.1 hanswer
  obtain ⟨coordinator, flight, rfl, -⟩ := h.calls id party hget
  obtain ⟨applied, rfl⟩ := Party.answer?_call hparty
  exact ⟨coordinator, applied, hget⟩

/-! ## Grants in the engine -/

/-- A call that adds a rule beside any other calls to coordinators, and succeeds, has all its facts
in the engine, unless something was revoked from the user after the call had read the counters.  If
all calls read or add rules, every addition that has succeeded is served from the engine. -/
theorem grants_kept (store : MemoryStore) (base : FactBase) :
    (∀ past before id coordinator user grant applied rest after,
      (∀ event ∈ past ++ rest, event.Starts fun _ => True) →
      (opened store base).run past = some before →
      before.parties.get? id = some (.call coordinator
        ⟨.create user grant, .running (Coordinator.create user grant), applied⟩) →
      before.run (.move id (.proceed .advance) :: rest) = some after →
      (∀ made ∈ before.engineEvents (.move id (.proceed .advance) :: rest),
        made.revokesSubject user = false) →
      after.answer? id (.create user grant) = some (.ok ()) →
      ∀ action ∈ grant.actions,
        action ∈ after.backend.engine.base.actionsFor user (.resource grant.resource)) ∧
    ∀ events after, (∀ event ∈ events, event.Starts StoreRequest.Adds) →
      (opened store base).run events = some after →
      ∀ id user grant, after.answer? id (.create user grant) = some (.ok ()) →
      ∀ action ∈ grant.actions,
        action ∈ after.backend.engine.base.actionsFor user (.resource grant.resource) ∧
          after.backend.engine.passes user (.resource grant.resource) action = true := by
  constructor
  · intro past before id coordinator user grant applied rest after hevents hpast hget hrun hkept
      hanswer
    rw [List.forall_mem_append] at hevents
    have hcalls : before.ProperCalls fun _ => True := properCalls_opened.run hpast hevents.1
    have hgranting : before.Granting id user grant :=
      ⟨coordinator, _, applied, hget, create_grants user grant⟩
    have hrest : ∀ event ∈ Event.move id (.proceed .advance) :: rest, event.Starts fun _ => True :=
      List.forall_mem_cons.2 ⟨trivial, hevents.2⟩
    exact (hgranting.run hcalls hrun hrest hkept).held hanswer
  · intro events after hevents hrun id user grant hanswer action hmem
    have hcalls := properCalls_opened.run hrun hevents
    obtain ⟨coordinator, applied, hget⟩ := hcalls.get?_of_answer? hanswer
    have hgranting : after.Granting id user grant :=
      grantsAll_opened.run properCalls_opened hrun hevents _ _ _ _ _ _ hget
    have hheld := hgranting.held hanswer action hmem
    exact ⟨hheld, Engine.passes_iff.2 ⟨hcalls.trusted, .inr hheld⟩⟩

/-- A grant of two actions on a resource for which the user has no rule. -/
def newGrant : Grant := ⟨⟨.ofNat 3⟩, .page, .ofList [.get, .update]⟩

/-- While the grant is written, a policy for its type is changed and another rule of the same user is
added. -/
def grantBesidePolicyWrite : List Event :=
  [.start 1 1 (.putRolePolicy .user .page ∅), .start 2 1 (.create someUser ⟨⟨.ofNat 4⟩, .page, ∅⟩),
    .move 2 (.proceed .advance), .move 0 .ask, .move 1 .ask, .move 2 .ask,
    .move 0 (.proceed .receive), .move 1 (.proceed .receive), .move 0 (.proceed .advance),
    .move 1 (.proceed .advance), .move 0 (.proceed .advance), .move 2 (.proceed .receive)]

/-- The grant is written while nobody else is there. -/
def grantAlone : List Event :=
  [.start 0 0 (.create someUser newGrant), .move 0 (.proceed .advance), .move 0 .ask,
    .move 0 (.proceed .receive), .move 0 (.proceed .advance), .move 0 (.proceed .advance)]

theorem grant_kept_beside_policy_write : ∃ before after alone,
    (opened someStore someBase).run [.start 0 0 (.create someUser newGrant)] = some before ∧
      before.run (.move 0 (.proceed .advance) :: grantBesidePolicyWrite) = some after ∧
      (∀ action ∈ newGrant.actions,
        action ∈ after.backend.engine.base.actionsFor someUser (.resource newGrant.resource)) ∧
      (opened someStore someBase).run grantAlone = some alone ∧
      alone.backend.engine.passes someUser (.resource newGrant.resource) .update = true := by
  obtain ⟨hbeside, halone⟩ := grants_kept someStore someBase
  refine ⟨_, _, _, rfl, rfl, ?_, rfl, ?_⟩
  · refine hbeside [.start 0 0 (.create someUser newGrant)] _ 0 0 someUser newGrant false
      grantBesidePolicyWrite _ ?_ rfl rfl rfl (by decide) (by decide)
    simp [grantBesidePolicyWrite, Event.Starts]
  · refine (halone grantAlone _ ?_ rfl 0 someUser newGrant (by decide) .update (by decide)).2
    simp [grantAlone, Event.Starts, StoreRequest.Adds]

end System

end AccessControl
