import AccessControl.Proofs.AuditReading
import AccessControl.Proofs.FailureKind
import AccessControl.Proofs.RejectedWrite
import AccessControl.Proofs.SeededStore

/-!
# The audit trail tells the store

A service makes its calls one after another, over a coordinator on a store in memory.  Each change
that it reports as made leaves one event, and nothing else leaves any.  If no call is given up or
fails for a reason that leaves its outcome open, the trail alone says what has become of the store:
who makes its changes again, reading only the texts of the fields, comes to the same store.
-/

namespace AccessControl

/-! ## The event of a change -/

/-- The event that a successful call leaves, if it is one that changes the store. -/
def ServiceCall.event? : (call : ServiceCall) → call.Reply → Option AuditEvent
  | .grant user given, _ => some (.granted user given)
  | .updateGrant user given, touched => some (.updated user given touched)
  | .revoke user resource, _ => some (.revoked user resource)
  | .syncUserRole user role, _ => some (.roleSynchronised user role)
  | .setRolePolicy role resourceType actions, _ => some (.policyWritten role resourceType actions)
  | _, _ => none

/-- Whether the call is to change what the store holds. -/
def ServiceCall.Administers : ServiceCall → Prop
  | .authorize .. => False
  | .authorizeRequest .. => False
  | .listPermissions _ => False
  | _ => True

theorem ServiceCall.isSome_event? {call : ServiceCall} (reply : call.Reply) :
    (call.event? reply).isSome = true ↔ call.Administers := by
  cases call <;> simp [event?, Administers]

/-- The event that tells of a request that the store has fulfilled. -/
def StoreRequest.event? : (request : StoreRequest) → request.Reply → Option AuditEvent
  | .create user grant, _ => some (.granted user grant)
  | .update user grant, count => some (.updated user grant (decide (0 < count)))
  | .delete user resource, _ => some (.revoked user resource)
  | .syncUserRole user role, _ => some (.roleSynchronised user role)
  | .putRolePolicy role resourceType actions, _ => some (.policyWritten role resourceType actions)
  | _, _ => none

/-- The event of a request makes the store what the request has made it. -/
theorem MemoryStore.redo_event? {store : MemoryStore} {request : StoreRequest}
    {reply : request.Reply} (h : (store.answer request).1 = .ok reply) :
    (request.event? reply).toList.foldl AuditEvent.redo store = (store.answer request).2 := by
  cases request with
  | create user grant =>
    have hcreated : store.create user grant = (.ok (), (store.create user grant).2) :=
      Prod.ext h rfl
    exact (create_eq_ok hcreated).2.symm
  | update user grant =>
    simp only [answer, update] at h ⊢
    cases hrule : store.rules.get? (user, grant.resource) with
    | none =>
      rw [hrule] at h
      obtain rfl : 0 = reply := Except.ok.inj h
      rfl
    | some rule =>
      rw [hrule] at h
      by_cases htype : rule.resourceType = grant.resourceType
      · simp only [if_pos htype] at h ⊢
        obtain rfl : 1 = reply := Except.ok.inj h
        simp [StoreRequest.event?, AuditEvent.redo, hrule]
      · simp only [if_neg htype] at h ⊢
        obtain rfl : 0 = reply := Except.ok.inj h
        rfl
  | delete user resource => rfl
  | syncUserRole user role =>
    simp only [answer, syncUserRole] at h ⊢
    split at h
    case isTrue hknown =>
      rw [if_pos hknown]
      rfl
    case isFalse => cases h
  | putRolePolicy role resourceType actions => rfl
  | _ => rfl

/-! ## How the service hands a call over -/

namespace ServiceCall

/-- Whether the service hands the request over, and reports the event of what is answered. -/
def Reports (call : ServiceCall) (deadline : Duration) (request : StoreRequest) : Prop :=
  ∃ operation context report, call.attempt deadline =
      Service.run deadline operation context (Coordinator.handle request) report ∧
    ∀ reply, (report reply).2 = (call.event? (report reply).1).toList ∧
      request.event? reply = call.event? (report reply).1

/-- What the service does with a call, and what it reports. -/
inductive Audited (deadline : Duration) (call : ServiceCall) : Prop
  | refused (hattempt : ∃ operation context cause,
      call.attempt deadline = Service.refuse operation context cause)
  | handedOver (request : StoreRequest) (hreports : call.Reports deadline request)

variable {deadline : Duration} {user : UserId} {resourceType : ResourceType}

theorem authorize_audited (action : Action) (resource : Option String) :
    (authorize user resourceType action resource).Audited deadline := by
  cases resource with
  | none =>
    refine .handedOver (.validateAccessToType ⟨user, resourceType, action⟩) ?_
    simp only [Reports, attempt, Service.authorize]
    exact ⟨_, _, _, rfl, fun _ => ⟨rfl, rfl⟩⟩
  | some text =>
    cases hid : ResourceId.ofText text with
    | ok id =>
      refine .handedOver (.validateAccess ⟨user, id, resourceType, action⟩) ?_
      simp only [Reports, attempt, Service.authorize, hid]
      exact ⟨_, _, _, rfl, fun _ => ⟨rfl, rfl⟩⟩
    | error error =>
      refine .refused ?_
      simp only [attempt, Service.authorize, hid]
      exact ⟨_, _, _, rfl⟩

theorem authorizeRequest_audited (method : String) (resource : Option String) :
    (authorizeRequest user resourceType method resource).Audited deadline := by
  cases haction : Action.ofMethod? method with
  | none =>
    refine .refused ?_
    simp only [attempt, Service.authorizeRequest, haction]
    exact ⟨_, _, _, rfl⟩
  | some action =>
    have hattempt : (authorizeRequest user resourceType method resource).attempt deadline =
        (authorize user resourceType action resource).attempt deadline :=
      attempt_authorizeRequest haction
    have haudited : (authorize user resourceType action resource).Audited deadline :=
      authorize_audited action resource
    cases haudited with
    | refused h => exact .refused (hattempt ▸ h)
    | handedOver request h =>
      obtain ⟨operation, context, report, heq, hreport⟩ := h
      exact .handedOver request ⟨operation, context, report, hattempt.trans heq, hreport⟩

/-- Every call is refused or handed over, and reported by its event alone. -/
theorem audited (call : ServiceCall) (deadline : Duration) : call.Audited deadline := by
  cases call with
  | authorize user resourceType action resource => exact authorize_audited action resource
  | authorizeRequest user resourceType method resource =>
    exact authorizeRequest_audited method resource
  | grant user given =>
    by_cases hempty : given.actions.isEmpty = true
    · exact .refused ⟨_, _, _, if_pos hempty⟩
    · refine .handedOver (.create user given) ?_
      exact ⟨_, _, _, if_neg hempty, fun _ => ⟨rfl, rfl⟩⟩
  | updateGrant user given =>
    by_cases hempty : given.actions.isEmpty = true
    · exact .refused ⟨_, _, _, if_pos hempty⟩
    · refine .handedOver (.update user given) ?_
      exact ⟨_, _, _, if_neg hempty, fun _ => ⟨rfl, rfl⟩⟩
  | revoke user resource =>
    refine .handedOver (.delete user resource) ?_
    simp only [Reports, attempt, Service.revoke]
    exact ⟨_, _, _, rfl, fun _ => ⟨rfl, rfl⟩⟩
  | syncUserRole user role =>
    refine .handedOver (.syncUserRole user role) ?_
    simp only [Reports, attempt, Service.syncUserRole]
    exact ⟨_, _, _, rfl, fun _ => ⟨rfl, rfl⟩⟩
  | setRolePolicy role resourceType actions =>
    refine .handedOver (.putRolePolicy role resourceType actions) ?_
    simp only [Reports, attempt, Service.setRolePolicy]
    exact ⟨_, _, _, rfl, fun _ => ⟨rfl, rfl⟩⟩
  | listPermissions user =>
    refine .handedOver .allPermissions ?_
    simp only [Reports, attempt, Service.listPermissions]
    exact ⟨_, _, _, rfl, fun _ => ⟨rfl, rfl⟩⟩

end ServiceCall

/-! ## Runs -/

/-- How a request to a coordinator runs: an engine that says yes passes a read without the store, or
the store answers, or it is late. -/
inductive Coordinator.Ran (request : StoreRequest) :
    List StoreExchange → Option request.Answer → Prop
  | passed (hread : request.row? = none) (reply : request.Reply) :
      Ran request [] (some (.ok reply))
  | answered (answer : request.Answer) : Ran request [⟨request, some answer⟩] (some answer)
  | late : Ran request [⟨request, none⟩] none

namespace Coordinator

variable {request : StoreRequest} {exchanges : List StoreExchange} {ending : Option request.Answer}

theorem Settles.runs {evictions onUnknown : List EngineUpdate}
    {answered : request.Answer → Call request.Answer} (h : Settles evictions answered)
    (hruns : (Call.store request onUnknown answered).Runs exchanges ending) :
    Ran request exchanges ending := by
  cases hruns with
  | answered answer rest =>
    obtain ⟨rfl, result, rfl, hresult⟩ := (h.leaves answer).of_runs rest
    subst hresult
    exact .answered result
  | late => exact .late

theorem Decides.runs {call : Call request.Answer} (h : Decides request call)
    (hruns : call.Runs exchanges ending) : Ran request exchanges ending := by
  induction h with
  | look hread reply hpassed hrest ih =>
    cases hruns with
    | engine passed rest =>
      cases hallows : allows passed with
      | true =>
        rw [hpassed passed hallows] at rest
        cases rest with
        | count rest =>
          cases rest
          exact .passed hread reply
      | false => exact ih passed hallows rest
  | count h ih =>
    cases hruns with
    | count rest => exact ih rest
  | snapshot hasked hsettles hfailed =>
    cases hruns with
    | engine seen rest => exact (hsettles seen).runs rest
  | ask hsettles => exact hsettles.runs hruns

end Coordinator

/-- A read leaves no event. -/
theorem StoreRequest.event?_of_row {request : StoreRequest} (h : request.row? = none)
    (reply : request.Reply) : request.event? reply = none := by
  cases request with
  | create | update | delete | syncUserRole | putRolePolicy => cases h
  | _ => rfl

namespace ServiceCall

/-- How a call ends, and what the service has exchanged with its store for it. -/
inductive Ended (call : ServiceCall) : List StoreExchange → Outcome call.Reply → Prop
  /-- It is refused at once. -/
  | refused (error : ServiceError) : Ended call [] { result := .error error }
  /-- It is a read that is passed without the store. -/
  | passed (reply : call.Reply) (hquiet : call.event? reply = none) :
      Ended call [] { result := .ok reply }
  /-- The store has done what it was asked. -/
  | accepted {request : StoreRequest} {answer : request.Reply} (reply : call.Reply)
      (hevent : request.event? answer = call.event? reply) :
      Ended call [⟨request, some (.ok answer)⟩]
        { result := .ok reply, events := (call.event? reply).toList }
  /-- The store has refused what it was asked, or has failed. -/
  | rejected {request : StoreRequest} {cause : StorageError} (error : ServiceError)
      (hkind : error.kind = cause.kind) :
      Ended call [⟨request, some (.error cause)⟩] { result := .error error }
  /-- The store is late. -/
  | late {request : StoreRequest} (error : ServiceError) (hkind : error.kind = .internal) :
      Ended call [⟨request, none⟩] { result := .error error }

variable {call : ServiceCall} {deadline : Duration} {exchanges : List StoreExchange}
  {outcome : Outcome call.Reply}

theorem ended (h : (call.attempt deadline).Ends exchanges outcome) :
    call.Ended exchanges outcome := by
  cases call.audited deadline with
  | refused hattempt =>
    obtain ⟨operation, context, cause, heq⟩ := hattempt
    rw [heq] at h
    obtain ⟨ending, hruns, rfl⟩ := h
    cases hruns
    exact .refused _
  | handedOver request hreports =>
    obtain ⟨operation, context, report, heq, hreport⟩ := hreports
    rw [heq] at h
    obtain ⟨ending, hruns, rfl⟩ := h
    obtain ⟨original, horiginal, rfl⟩ := hruns.of_map
    cases (Coordinator.decides request).runs horiginal with
    | passed hread answer =>
      obtain ⟨hevents, hevent⟩ := hreport answer
      have hquiet : call.event? (report answer).1 = none := by
        rw [← hevent]
        exact StoreRequest.event?_of_row hread answer
      rw [hquiet] at hevents
      show call.Ended [] { result := .ok (report answer).1, events := (report answer).2 }
      rw [hevents]
      exact .passed _ hquiet
    | answered answer =>
      cases answer with
      | ok answer =>
        obtain ⟨hevents, hevent⟩ := hreport answer
        show call.Ended _ { result := .ok (report answer).1, events := (report answer).2 }
        rw [hevents]
        exact .accepted _ hevent
      | error cause => exact .rejected _ rfl
    | late => exact .late _ rfl

end ServiceCall

/-- What becomes of a store in memory that is asked: it answers each request, or fails without a
change, or is late, when the request may be fulfilled or not. -/
inductive MemoryStore.Undergoes : MemoryStore → List StoreExchange → MemoryStore → Prop
  | nil {store : MemoryStore} : Undergoes store [] store
  | answered {store after : MemoryStore} {request : StoreRequest} {answer : request.Answer}
      {rest : List StoreExchange} (hanswer : (store.answer request).1 = answer)
      (hrest : Undergoes (store.answer request).2 rest after) :
      Undergoes store (⟨request, some answer⟩ :: rest) after
  | failed {store after : MemoryStore} {request : StoreRequest} {rest : List StoreExchange}
      (reason : String) (hrest : Undergoes store rest after) :
      Undergoes store (⟨request, some (.error (.internal reason))⟩ :: rest) after
  | late {store between after : MemoryStore} {request : StoreRequest} {rest : List StoreExchange}
      (hbetween : between = store ∨ between = (store.answer request).2)
      (hrest : Undergoes between rest after) : Undergoes store (⟨request, none⟩ :: rest) after

/-- A call that the service was asked to make, and how it has ended. -/
structure ServedCall where
  call : ServiceCall
  outcome : Outcome call.Reply

/-- The event that the call has to leave: that of its change, if it has succeeded. -/
def ServedCall.event? (served : ServedCall) : Option AuditEvent :=
  match served.outcome.result with
  | .ok reply => served.call.event? reply
  | .error _ => none

/-- Calls that a service makes one after another, whatever its engine replies. -/
inductive ServiceRun (deadline : Duration) : MemoryStore → List ServedCall → MemoryStore → Prop
  | nil {store : MemoryStore} : ServiceRun deadline store [] store
  | cons {store between after : MemoryStore} {served : ServedCall} {rest : List ServedCall}
      {exchanges : List StoreExchange}
      (hends : (served.call.attempt deadline).Ends exchanges served.outcome)
      (hundergoes : store.Undergoes exchanges between)
      (hrest : ServiceRun deadline between rest after) :
      ServiceRun deadline store (served :: rest) after

/-- The events of the calls, in the order in which they are left. -/
def auditTrail (served : List ServedCall) : List AuditEvent :=
  served.flatMap fun one => one.outcome.events

namespace ServiceCall

variable {call : ServiceCall} {exchanges : List StoreExchange} {outcome : Outcome call.Reply}
  {store after : MemoryStore}

/-- A call leaves the event of its change and no other. -/
theorem Ended.events_eq (h : call.Ended exchanges outcome) :
    outcome.events = (ServedCall.mk call outcome).event?.toList := by
  cases h with
  | passed reply hquiet =>
    show [] = (call.event? reply).toList
    rw [hquiet]
    rfl
  | refused | accepted | rejected | late => rfl

/-- Unless its outcome is open, a call has made the store what its events make it. -/
theorem Ended.redo_eq (h : call.Ended exchanges outcome) (hstore : store.Undergoes exchanges after)
    (hclosed : outcome.kind? ≠ some .internal) :
    outcome.events.foldl AuditEvent.redo store = after := by
  cases h with
  | refused | passed =>
    cases hstore
    rfl
  | accepted reply hevent =>
    cases hstore with
    | answered hanswer hrest =>
      cases hrest
      rw [← hevent]
      exact MemoryStore.redo_event? hanswer
  | rejected error hkind =>
    cases hstore with
    | answered hanswer hrest =>
      cases hrest
      exact (MemoryStore.answer_of_error hanswer).symm
    | failed reason hrest => exact absurd (congrArg some hkind) hclosed
  | late error hkind => exact absurd (congrArg some hkind) hclosed

end ServiceCall

/-! ## The trail of a run -/

section

variable {deadline : Duration} {store after : MemoryStore} {served : List ServedCall}

theorem ServiceRun.events_eq (h : ServiceRun deadline store served after) :
    ∀ one ∈ served, one.outcome.events = one.event?.toList := by
  induction h with
  | nil => exact fun _ => (absurd · List.not_mem_nil)
  | cons hends hundergoes hrest ih =>
    exact List.forall_mem_cons.2 ⟨(ServiceCall.ended hends).events_eq, ih⟩

theorem ServiceRun.redo_eq (h : ServiceRun deadline store served after)
    (hclosed : ∀ one ∈ served, one.outcome.kind? ≠ some .internal) :
    (auditTrail served).foldl AuditEvent.redo store = after := by
  induction h with
  | nil => rfl
  | cons hends hundergoes hrest ih =>
    rw [List.forall_mem_cons] at hclosed
    rw [auditTrail, List.flatMap_cons, List.foldl_append,
      (ServiceCall.ended hends).redo_eq hundergoes hclosed.1]
    exact ih hclosed.2

end

/-- An event has to be left exactly for a change that has been made. -/
theorem ServedCall.isSome_event? (one : ServedCall) : one.event?.isSome = true ↔
    one.call.Administers ∧ ∃ reply, one.outcome.result = .ok reply := by
  rw [event?]
  cases one.outcome.result with
  | ok reply => simp [ServiceCall.isSome_event?]
  | error error => simp

namespace LocalCache

/-- Makes calls of a service one after another, each from its beginning to its end. -/
def serve (deadline : Duration) : LocalCache → List ServiceCall → List ServedCall × LocalCache
  | cache, [] => ([], cache)
  | cache, call :: rest =>
    let (outcome, next) := run (call.attempt deadline).call cache
    let (served, last) := next.serve deadline rest
    (⟨call, outcome⟩ :: served, last)

/-- A call that is run to its end has asked its store in one of the ways that are open to it. -/
theorem runs_run {α : Type} (call : Call α) (cache : LocalCache) : ∃ exchanges,
    call.Runs exchanges (some (run call cache).1) ∧
      cache.store.Undergoes exchanges (run call cache).2.store := by
  induction call generalizing cache with
  | done result => exact ⟨[], .done result, .nil⟩
  | engine request next ih =>
    obtain ⟨exchanges, hruns, hstore⟩ := ih (cache.engine.answer request).1
      { cache with engine := (cache.engine.answer request).2 }
    exact ⟨exchanges, .engine _ hruns, hstore⟩
  | store request onUnknown next ih =>
    obtain ⟨exchanges, hruns, hstore⟩ := ih (cache.store.answer request).1
      { cache with store := (cache.store.answer request).2 }
    exact ⟨_, .answered _ hruns, .answered rfl hstore⟩
  | count counter next ih =>
    obtain ⟨exchanges, hruns, hstore⟩ := ih { cache with counters := cache.counters.count counter }
    exact ⟨exchanges, .count hruns, hstore⟩

theorem serviceRun_serve (deadline : Duration) (cache : LocalCache) (calls : List ServiceCall) :
    ServiceRun deadline cache.store (cache.serve deadline calls).1
      (cache.serve deadline calls).2.store := by
  induction calls generalizing cache with
  | nil => exact .nil
  | cons call rest ih =>
    obtain ⟨exchanges, hruns, hstore⟩ := runs_run (call.attempt deadline).call cache
    exact .cons ⟨_, hruns, rfl⟩ hstore (ih _)

end LocalCache

/-- Whatever the engine of its coordinator replies, a service leaves one event for each change that
it reports as made, in the order of its calls, and none for a call that it refuses or that changes
nothing.  If no call is late or fails for a reason that leaves its outcome open, then the fields of
the events lead from the store before the calls to the store after them. -/
theorem audit_trail_replays {deadline : Duration} {store after : MemoryStore}
    {served : List ServedCall} (hrun : ServiceRun deadline store served after) :
    (∀ one ∈ served, (one.event?.isSome = true ↔
        one.call.Administers ∧ ∃ reply, one.outcome.result = .ok reply) ∧
      one.outcome.events = one.event?.toList) ∧
    ((∀ one ∈ served, one.outcome.kind? ≠ some .internal) →
      AuditEvent.replay store ((auditTrail served).map AuditEvent.fields) = some after) := by
  constructor
  · intro one hmem
    exact ⟨one.isSome_event?, hrun.events_eq one hmem⟩
  · intro hclosed
    rw [AuditEvent.replay_map_fields, hrun.redo_eq hclosed]

/-- A cache over a store with one user. -/
def someUserCache : LocalCache := { store := (∅ : MemoryStore).registerUser System.someUser .user }

/-- A grant and the same again, an update that takes the page for a dashboard and one that does not, a
check, a policy, a new role, a grant for another resource and its revocation. -/
def someCalls : List ServiceCall :=
  [.grant System.someUser ⟨System.someResource, .page, .ofList [.get]⟩,
    .grant System.someUser ⟨System.someResource, .page, .ofList [.get]⟩,
    .updateGrant System.someUser ⟨System.someResource, .dashboard, .ofList [.delete]⟩,
    .updateGrant System.someUser ⟨System.someResource, .page, .ofList [.get, .update]⟩,
    .authorize System.someUser .page .get none, .setRolePolicy .user .page (.ofList [.get]),
    .syncUserRole System.someUser .admin,
    .grant System.someUser ⟨⟨.ofNat 8⟩, .dashboard, .ofList [.delete]⟩,
    .revoke System.someUser ⟨.ofNat 8⟩]

/-- The second grant and the check leave no event; the first update leaves one, but changes nothing.
The trail leads to the store that has the new actions of the page and no rule for the other
resource. -/
theorem trail_of_some_calls :
    let done := someUserCache.serve Service.defaultDeadline someCalls
    (auditTrail done.1).length = 7 ∧
      AuditEvent.replay someUserCache.store ((auditTrail done.1).map AuditEvent.fields) =
        some done.2.store ∧
      done.2.store.rules.values =
        [⟨System.someUser, System.someResource, .page, .ofList [.get, .update]⟩] := by
  intro done
  have hclosed : ∀ one ∈ done.1, one.outcome.kind? ≠ some .internal := by decide +kernel
  obtain ⟨-, hreplays⟩ := audit_trail_replays
    (LocalCache.serviceRun_serve Service.defaultDeadline someUserCache someCalls)
  exact ⟨by decide +kernel, hreplays hclosed, by decide +kernel⟩

end AccessControl
