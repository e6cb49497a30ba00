import AccessControl.Proofs.CoordinatorRun
import AccessControl.Proofs.PromotionStep
import AccessControl.Proofs.ScopeSession
import AccessControl.Proofs.VersionSnapshot

/-!
# What a coordinator asks of the engine

Besides looking at it, a call to a coordinator asks the engine for the updates that belong to its
own request.  A run of the system is followed here through the requests that the engine answers in
the course of it: each event makes one of them at most, and nothing else changes the fact base.
-/

namespace AccessControl

namespace StoreRequest

/-- Whether a coordinator may tell the engine the update on account of the request.  A check that
the store allows is told as a grant of the one action. -/
def Tells : StoreRequest → EngineUpdate → Prop
  | create user grant, told =>
    ∃ seen, told = .grant user (.resource grant.resource) grant.actions seen
  | update user grant, told =>
    (∃ seen, told = .replace user (.resource grant.resource) grant.actions seen) ∨
      told = .remove user (.resource grant.resource)
  | delete user resource, told => told = .remove user (.resource resource)
  | validateAccess check, told =>
    ∃ seen, told = .grant check.user (.resource check.resource) (.ofList [check.action]) seen
  | validateAccessToType check, told =>
    ∃ seen, told = .grant check.user (.type check.resourceType) (.ofList [check.action]) seen
  | syncUserRole user role, told =>
    (∃ seen, told = .assignRole user role seen) ∨ told = .demote user role
  | putRolePolicy _ resourceType _, told => told = .clearObject (.type resourceType)
  | _, _ => False

/-- Whether a coordinator may ask the engine on account of the request. -/
def Asks (request : StoreRequest) (asked : EngineRequest) : Prop :=
  asked.Observes ∨ ∃ update, request.Tells update ∧ update.Asks asked

/-- A read tells the engine nothing but a fact that it has learned. -/
theorem Tells.grant_of_row {request : StoreRequest} {told : EngineUpdate} (h : request.Tells told)
    (hrow : request.row? = none) :
    ∃ subject object actions seen, told = .grant subject object actions seen := by
  cases request with
  | validateAccess check | validateAccessToType check =>
    obtain ⟨seen, rfl⟩ := h
    exact ⟨_, _, _, seen, rfl⟩
  | allPermissions | allUserRoles | commit | rollback => exact False.elim h
  | _ => cases hrow

end StoreRequest

/-! ## One call -/

namespace Coordinator

variable {request : StoreRequest} {heard : (request : StoreRequest) → request.Answer → Prop}

theorem settle_only {α : Type} {told : EngineUpdate} {result : α} (h : request.Tells told) :
    (settle told result).Only request.Asks heard := by
  have happly : told.apply.Only request.Asks heard :=
    EngineUpdate.apply_only fun _ hasks => .inr ⟨told, h, hasks⟩
  exact happly.bind fun _ => trivial

/-- What is done when the outcome of a write is unknown belongs to the request, if the update does
that stands for the write. -/
theorem asks_of_onUnknown (request : StoreRequest) (write : EngineUpdate)
    (h : ∀ fallback, write.onUnknown = some fallback → request.Tells fallback) :
    ∀ fallback ∈ EngineUpdate.onUnknownAll [write], ∀ asked, fallback.Asks asked →
      request.Asks asked := by
  intro fallback hmem asked hasks
  obtain ⟨source, hsource, hfallback⟩ := List.mem_filterMap.1 hmem
  obtain rfl := List.mem_singleton.1 hsource
  exact .inr ⟨fallback, h fallback hfallback, hasks⟩

theorem repair_only {subject : UserId} {object : PolicyObject} {action : Action}
    {seen : Except EngineError FactVersion}
    (h : ∀ version, request.Tells (.grant subject object (.ofList [action]) version)) :
    (repair subject object action seen).Only request.Asks heard := by
  cases seen with
  | error error => trivial
  | ok version =>
    have hasked : request.Asks (.addFactIfCurrent subject object action version) := by
      refine .inr ⟨_, h version, action, ?_, rfl⟩
      simp
    refine ⟨hasked, fun reply => ?_⟩
    dsimp only
    split <;> trivial

theorem validateAccess_only (check : InstanceCheck) :
    (validateAccess check).Only (StoreRequest.validateAccess check).Asks heard := by
  refine ⟨.inl trivial, fun ofResource => ?_⟩
  dsimp only
  split
  case isTrue => trivial
  case isFalse =>
    refine ⟨.inl trivial, fun ofType => ?_⟩
    dsimp only
    split
    case isTrue => trivial
    case isFalse =>
      refine ⟨.inl trivial, fun seen => ⟨nofun, fun answer _ => ?_⟩⟩
      cases answer with
      | error error => trivial
      | ok reply => exact repair_only fun version => ⟨version, rfl⟩

theorem validateAccessToType_only (check : TypeCheck) :
    (validateAccessToType check).Only (StoreRequest.validateAccessToType check).Asks heard := by
  refine ⟨.inl trivial, fun ofType => ?_⟩
  dsimp only
  split
  case isTrue => trivial
  case isFalse =>
    refine ⟨.inl trivial, fun seen => ⟨nofun, fun answer _ => ?_⟩⟩
    cases answer with
    | error error => trivial
    | ok reply => exact repair_only fun version => ⟨version, rfl⟩

theorem update_only (user : UserId) (grant : Grant) :
    (update user grant).Only (StoreRequest.update user grant).Asks heard := by
  have hunknown := asks_of_onUnknown (.update user grant)
    (.remove user (.resource grant.resource))
    fun fallback hfallback => .inr (Option.some.inj hfallback).symm
  refine ⟨.inl trivial, fun seen => ⟨hunknown, fun answer _ => ?_⟩⟩
  cases answer with
  | error error => exact refused_only hunknown
  | ok touched =>
    dsimp only
    split
    · split
      · exact settle_only (.inl ⟨_, rfl⟩)
      · exact settle_only (.inr rfl)
    · exact settle_only (.inr rfl)

theorem syncUserRole_only (user : UserId) (role : Role) :
    (syncUserRole user role).Only (StoreRequest.syncUserRole user role).Asks heard := by
  have hunknown := asks_of_onUnknown (.syncUserRole user role)
    (.demote user role)
    fun fallback hfallback => .inr (Option.some.inj hfallback).symm
  refine ⟨.inl trivial, fun seen => ⟨hunknown, fun answer _ => ?_⟩⟩
  cases answer with
  | error error => exact refused_only hunknown
  | ok reply =>
    dsimp only
    split
    · exact settle_only (.inl ⟨_, rfl⟩)
    · exact settle_only (.inr rfl)

/-- A call to a coordinator asks the engine for nothing but what belongs to its request. -/
theorem handle_only (request : StoreRequest) : (handle request).Only request.Asks heard := by
  cases request with
  | create user grant =>
    refine ⟨.inl trivial, fun seen => ⟨nofun, fun answer _ => ?_⟩⟩
    cases answer with
    | error error => trivial
    | ok reply =>
      cases seen with
      | error error => trivial
      | ok version => exact settle_only ⟨version, rfl⟩
  | update user grant => exact update_only user grant
  | delete user resource =>
    have hunknown := asks_of_onUnknown (.delete user resource)
      (.remove user (.resource resource))
      fun fallback hfallback => (Option.some.inj hfallback).symm
    refine ⟨hunknown, fun answer _ => ?_⟩
    cases answer with
    | error error => exact refused_only hunknown
    | ok reply => exact settle_only rfl
  | validateAccess check => exact validateAccess_only check
  | validateAccessToType check => exact validateAccessToType_only check
  | syncUserRole user role => exact syncUserRole_only user role
  | putRolePolicy role resourceType actions =>
    have hunknown := asks_of_onUnknown (.putRolePolicy role resourceType actions)
      (.clearObject (.type resourceType))
      fun fallback hfallback => (Option.some.inj hfallback).symm
    refine ⟨hunknown, fun answer _ => ?_⟩
    cases answer with
    | error error => exact refused_only hunknown
    | ok reply => exact settle_only rfl
  | allPermissions | allUserRoles | commit | rollback => exact ⟨nofun, fun _ _ => trivial⟩

end Coordinator

/-! ## The parties of a run -/

/-- However the call goes on, it asks the engine for nothing but what belongs to its request. -/
def CoordinatorFlight.Proper (flight : CoordinatorFlight) : Prop :=
  flight.stage.Every fun call => call.Only flight.request.Asks fun _ _ => True

theorem Stage.Proceeds.proper {request : StoreRequest} {stage stage' : Stage request.Answer}
    {applied : Bool} {coordinator : Nat} {before after : Backend} {progress : Progress}
    (h : stage.Proceeds coordinator before progress stage' after)
    (hproper : CoordinatorFlight.Proper ⟨request, stage, applied⟩) :
    CoordinatorFlight.Proper ⟨request, stage', applied⟩ := by
  cases h with
  | advance hstep => exact (Call.Only.step hproper hstep).1
  | windUp hstep => exact (Call.Only.step hproper hstep).1
  | receive => exact hproper.1
  | refuse error => exact hproper.2 (.error error) trivial
  | lose reason => exact hproper.2.1 reason
  | giveUp => exact EngineUpdate.applyAll_only hproper.1
  | giveUpAnswered => exact hproper.2.2

/-- What a call asks of the engine when it goes on, and what that makes of the fact base. -/
theorem Stage.Proceeds.base_eq {α : Type} {stage stage' : Stage α} {coordinator : Nat}
    {before after : Backend} {progress : Progress}
    (h : stage.Proceeds coordinator before progress stage' after) (htrusted : before.Trusted) :
    after.engine.base = before.engine.base ∨
      ∃ asked, progress = .advance ∧ stage.next? = some asked ∧
        after.engine.base = (before.engine.base.answer asked).2 := by
  cases h with
  | advance hstep | windUp hstep =>
    rcases Call.step_cases hstep htrusted with ⟨counter, -, rfl⟩ | ⟨request, next, rfl, -, rfl⟩
    · exact .inl rfl
    · exact .inr ⟨request, rfl, rfl, Backend.askEngine_base htrusted request⟩
  | _ => exact .inl rfl

theorem CoordinatorFlight.Proper.of_next {flight : CoordinatorFlight} {asked : EngineRequest}
    (h : flight.Proper) (hnext : flight.stage.next? = some asked) : flight.request.Asks asked := by
  obtain ⟨request, stage, applied⟩ := flight
  have hcall : ∀ {α : Type} {call : Call α}, call.Only request.Asks (fun _ _ => True) →
      call.next? = some asked → request.Asks asked := by
    intro α call honly hasked
    cases call with
    | engine first next =>
      obtain rfl := Option.some.inj hasked
      exact honly.1
    | _ => cases hasked
  cases stage with
  | running rest => exact hcall h hnext
  | answered => cases hnext
  | abandoned rest => exact hcall h hnext

theorem CoordinatorFlight.ask_proper {flight flight' : CoordinatorFlight} {locked : List Row}
    {before after : Backend} (h : flight.Proper)
    (hask : flight.ask locked before = some (flight', after)) : flight'.Proper := by
  obtain ⟨request, onUnknown, next, hstage, -, rfl, -⟩ := ask_cases hask
  rw [Proper, hstage] at h
  exact ⟨h.2 _ trivial, fun reason => h.2 _ trivial, EngineUpdate.applyAll_only h.1⟩

namespace System

variable {system next : System} {event : Event} {events : List Event} {id : Nat}
  {allowed : StoreRequest → Prop}

/-- The engine answers, and every party is a call to a coordinator that was made for an allowed
request and keeps to it. -/
structure ProperCalls (allowed : StoreRequest → Prop) (system : System) : Prop where
  trusted : system.backend.Trusted
  calls : ∀ id party, system.parties.get? id = some party → ∃ coordinator flight,
    party = .call coordinator flight ∧ allowed flight.request ∧ flight.Proper

theorem properCalls_opened {store : MemoryStore} {base : FactBase} :
    (opened store base).ProperCalls allowed :=
  ⟨rfl, fun _ _ hget => by cases hget⟩

theorem ProperCalls.moved {coordinator : Nat} {flight : CoordinatorFlight} {backend : Backend}
    (h : system.ProperCalls allowed) (htrusted : backend.Trusted) (hallowed : allowed flight.request)
    (hflight : flight.Proper) :
    (system.moved id (.call coordinator flight) backend).ProperCalls allowed := by
  refine ⟨htrusted, fun other party hget => ?_⟩
  rw [get?_moved] at hget
  split at hget
  · exact ⟨coordinator, flight, (Option.some.inj hget).symm, hallowed, hflight⟩
  · exact h.calls other party hget

theorem ProperCalls.step (h : system.ProperCalls allowed) (hstep : system.Steps event next)
    (hevent : event.Starts allowed) : next.ProperCalls allowed := by
  cases hstep with
  | starts hfree => exact h.moved h.trusted hevent (Coordinator.handle_only _)
  | opens hfree => exact False.elim hevent
  | discards hget =>
    obtain ⟨coordinator, flight, heq, -⟩ := h.calls _ _ hget
    cases heq
  | moves hget hmoves =>
    have htrusted := hmoves.trusted h.trusted
    obtain ⟨coordinator, flight, rfl, hallowed, hproper⟩ := h.calls _ _ hget
    cases hmoves with
    | callProceeds hproceeds => exact h.moved htrusted hallowed (hproceeds.proper hproper)
    | callAsks hask =>
      have hrequest := CoordinatorFlight.ask_proper hproper hask
      obtain ⟨_, _, _, -, -, rfl, -⟩ := CoordinatorFlight.ask_cases hask
      exact h.moved htrusted hallowed hrequest

theorem ProperCalls.run (h : system.ProperCalls allowed) (hrun : system.run events = some next)
    (hevents : ∀ event ∈ events, event.Starts allowed) : next.ProperCalls allowed := by
  induction events generalizing system with
  | nil =>
    obtain rfl := Option.some.inj hrun
    exact h
  | cons event rest ih =>
    obtain ⟨middle, hstep, hrest⟩ := run_cons hrun
    rw [List.forall_mem_cons] at hevents
    exact ih (h.step hstep hevents.1) hrest hevents.2

/-! ## The requests in the course of a run -/

/-- The request to the engine that is made at the event. -/
def asks? (system : System) : Event → Option EngineRequest
  | .move id (.proceed .advance) => (system.parties.get? id).bind Party.next?
  | _ => none

/-- The request that the engine answers at the event, with its reply. -/
def engineEvent? (system : System) (event : Event) : Option EngineEvent :=
  (system.asks? event).map fun asked => ⟨asked, (system.backend.engine.base.answer asked).1⟩

/-- The requests that the engine answers in the course of the events. -/
def engineEvents (system : System) : List Event → List EngineEvent
  | [] => []
  | event :: rest =>
    (system.engineEvent? event).toList ++
      match system.step event with
      | some next => next.engineEvents rest
      | none => []

theorem engineEvents_cons {rest : List Event} (hstep : system.step event = some next) :
    system.engineEvents (event :: rest) =
      (system.engineEvent? event).toList ++ next.engineEvents rest := by
  rw [engineEvents, hstep]

/-- A request to the engine belongs to the request of a call that is on its way. -/
theorem ProperCalls.asks (h : system.ProperCalls allowed) {asked : EngineRequest}
    (hasked : system.asks? event = some asked) :
    ∃ request, allowed request ∧ request.Asks asked := by
  unfold asks? at hasked
  split at hasked
  case h_1 id =>
    obtain ⟨party, hget, hnext⟩ := Option.bind_eq_some_iff.1 hasked
    obtain ⟨coordinator, flight, rfl, hallowed, hproper⟩ := h.calls id party hget
    exact ⟨flight.request, hallowed, hproper.of_next hnext⟩
  case h_2 => cases hasked

/-- An event leaves the fact base alone, or makes one request of the engine. -/
theorem ProperCalls.base_step (h : system.ProperCalls allowed)
    (hstep : system.step event = some next) :
    next.backend.engine.base = system.backend.engine.base ∨
      ∃ asked, system.asks? event = some asked ∧
        next.backend.engine.base = (system.backend.engine.base.answer asked).2 := by
  cases event with
  | move id move =>
    obtain ⟨party, party', after, hget, hmove, rfl⟩ := step_move hstep
    obtain ⟨coordinator, flight, rfl, -, -⟩ := h.calls id party hget
    rcases Party.call_moves hmove with ⟨progress, stage', rfl, hproceeds, rfl⟩ |
      ⟨flight', rfl, hask, rfl⟩
    · rcases hproceeds.base_eq h.trusted with hsame | ⟨asked, rfl, hnext, hbase⟩
      · exact .inl hsame
      · refine .inr ⟨asked, ?_, hbase⟩
        rw [asks?, hget]
        exact hnext
    · obtain ⟨_, _, _, -, -, -, rfl⟩ := CoordinatorFlight.ask_cases hask
      exact .inl rfl
  | start | openScope | discard =>
    cases steps_of_step hstep
    exact .inl rfl

/-- A call that is there after an event was there before it, or is made by it. -/
theorem Steps.call_before {coordinator : Nat} {flight : CoordinatorFlight}
    (h : system.Steps event next)
    (hget : next.parties.get? id = some (.call coordinator flight)) :
    (∃ stage applied, system.parties.get? id =
        some (.call coordinator ⟨flight.request, stage, applied⟩)) ∨
      flight = ⟨flight.request, .running (Coordinator.handle flight.request), false⟩ := by
  have hold : ∀ {found : Option Party}, found = some (.call coordinator flight) →
      ∃ stage applied, found = some (.call coordinator ⟨flight.request, stage, applied⟩) :=
    fun hfound => ⟨flight.stage, flight.applied, hfound⟩
  cases h with
  | starts hfree =>
    rw [get?_moved] at hget
    split at hget
    · cases hget
      exact .inr rfl
    · exact .inl (hold hget)
  | opens hfree =>
    rw [get?_moved] at hget
    split at hget
    · cases hget
    · exact .inl (hold hget)
  | moves hmover hmoves =>
    rw [get?_moved] at hget
    split at hget
    case isTrue hself =>
      subst hself
      obtain rfl := Option.some.inj hget
      cases hmoves with
      | callProceeds hproceeds => exact .inl ⟨_, _, hmover⟩
      | callAsks hask =>
        obtain ⟨_, _, _, -, -, rfl, -⟩ := CoordinatorFlight.ask_cases hask
        exact .inl ⟨_, _, hmover⟩
    case isFalse => exact .inl (hold hget)
  | discards hgone =>
    rw [Table.get?_erase] at hget
    split at hget
    · cases hget
    · exact .inl (hold hget)

end System

end AccessControl
