import AccessControl.Proofs.DeferredUpdate
import AccessControl.Service

/-!
# Calls of the service

Whatever the service is asked, it refuses at once or hands one request over to its coordinator.  The
coordinator asks the store for that request and nothing else, or is content with what the engine
says.  The properties of this module hold whatever the engine replies, its failures included, and
whatever the store answers, if it answers in time at all.
-/

namespace AccessControl

/-- What the service can be asked. -/
inductive ServiceCall where
  | authorize (user : UserId) (resourceType : ResourceType) (action : Action)
      (resource : Option String)
  | authorizeRequest (user : UserId) (resourceType : ResourceType) (method : String)
      (resource : Option String)
  | grant (user : UserId) (grant : Grant)
  | updateGrant (user : UserId) (grant : Grant)
  | revoke (user : UserId) (resource : ResourceId)
  | syncUserRole (user : UserId) (role : Role)
  | setRolePolicy (role : Role) (resourceType : ResourceType) (actions : ActionSet)
  | listPermissions (user : Option UserId)
  deriving DecidableEq, Repr

/-- Whether a request to the store gives some action, if it gives a rule at all. -/
def StoreRequest.GivesActions : StoreRequest → Prop
  | create _ grant => grant.actions ≠ ∅
  | update _ grant => grant.actions ≠ ∅
  | _ => True

namespace ServiceCall

/-- What the service replies to a call that succeeds. -/
abbrev Reply : ServiceCall → Type
  | .updateGrant .. => Bool
  | .listPermissions _ => List Rule
  | _ => Unit

/-- The call under the deadline of the service. -/
def attempt (deadline : Duration) : (call : ServiceCall) → Attempt (Outcome call.Reply)
  | .authorize user resourceType action resource =>
    Service.authorize deadline user resourceType action resource
  | .authorizeRequest user resourceType method resource =>
    Service.authorizeRequest deadline user resourceType method resource
  | .grant user given => Service.grant deadline user given
  | .updateGrant user given => Service.updateGrant deadline user given
  | .revoke user resource => Service.revoke deadline user resource
  | .syncUserRole user role => Service.syncUserRole deadline user role
  | .setRolePolicy role resourceType actions =>
    Service.setRolePolicy deadline role resourceType actions
  | .listPermissions user => Service.listPermissions deadline user

/-- Whether a text is given that names no resource. -/
def NamesNothing (resource : Option String) : Prop :=
  ∃ text, resource = some text ∧ ∀ id, ResourceId.ofText text ≠ .ok id

/-- Whether the call could not succeed, whatever the store holds. -/
def Malformed : ServiceCall → Prop
  | .authorize _ _ _ resource => NamesNothing resource
  | .authorizeRequest _ _ method resource =>
    Action.ofMethod? method = none ∨ NamesNothing resource
  | .grant _ given => given.actions = ∅
  | .updateGrant _ given => given.actions = ∅
  | _ => False

/-- Whether the service hands the request over to its coordinator to answer the call. -/
def PassesOn (call : ServiceCall) (deadline : Duration) (request : StoreRequest) : Prop :=
  ∃ operation context report, call.attempt deadline =
    Service.run deadline operation context (Coordinator.handle request) report

/-- What the service does with a call. -/
inductive Handled (deadline : Duration) (call : ServiceCall) : Prop
  /-- The call is refused before the store is asked. -/
  | refused (hmalformed : call.Malformed)
      (hattempt : ∃ operation context cause, cause.kind = .precondition ∧
        call.attempt deadline = Service.refuse operation context cause)
  /-- One request is handed over to the coordinator. -/
  | handedOver (request : StoreRequest) (hwell : ¬call.Malformed) (hgives : request.GivesActions)
      (hpasses : call.PassesOn deadline request)

variable {deadline : Duration} {user : UserId} {resourceType : ResourceType}

theorem authorize_handled (action : Action) (resource : Option String) :
    (authorize user resourceType action resource).Handled deadline := by
  cases resource with
  | none =>
    refine .handedOver (.validateAccessToType ⟨user, resourceType, action⟩) ?_ trivial ?_
    · rintro ⟨text, ⟨⟩, -⟩
    · rw [PassesOn, attempt, Service.authorize]
      exact ⟨_, _, _, rfl⟩
  | some text =>
    cases hid : ResourceId.ofText text with
    | ok id =>
      refine .handedOver (.validateAccess ⟨user, id, resourceType, action⟩) ?_ trivial ?_
      · rintro ⟨_, ⟨⟩, hnone⟩
        exact hnone id hid
      · simp only [PassesOn, attempt, Service.authorize, hid]
        exact ⟨_, _, _, rfl⟩
    | error error =>
      refine .refused ⟨text, rfl, fun id hok => ?_⟩ ?_
      · rw [hid] at hok
        cases hok
      · simp only [attempt, Service.authorize, hid]
        exact ⟨_, _, .invalidIdentifier error, rfl, rfl⟩

/-- A request whose method has an action is a check of that action. -/
theorem attempt_authorizeRequest {method : String} {action : Action} {resource : Option String}
    (h : Action.ofMethod? method = some action) :
    (authorizeRequest user resourceType method resource).attempt deadline =
      (authorize user resourceType action resource).attempt deadline := by
  simp only [attempt, Service.authorizeRequest, h]

theorem authorizeRequest_handled (method : String) (resource : Option String) :
    (authorizeRequest user resourceType method resource).Handled deadline := by
  cases haction : Action.ofMethod? method with
  | none =>
    refine .refused (Or.inl haction) ?_
    simp only [attempt, Service.authorizeRequest, haction]
    exact ⟨_, _, .unsupportedMethod method, rfl, rfl⟩
  | some action =>
    have hattempt : (authorizeRequest user resourceType method resource).attempt deadline =
        (authorize user resourceType action resource).attempt deadline :=
      attempt_authorizeRequest haction
    have hmalformed : (authorizeRequest user resourceType method resource).Malformed ↔
        (authorize user resourceType action resource).Malformed := by
      simp [Malformed, haction]
    have hhandled : (authorize user resourceType action resource).Handled deadline :=
      authorize_handled action resource
    cases hhandled with
    | refused hbad h => exact .refused (hmalformed.2 hbad) (hattempt ▸ h)
    | handedOver request hwell hgives h =>
      refine .handedOver request (fun hbad => hwell (hmalformed.1 hbad)) hgives ?_
      rw [PassesOn, hattempt]
      exact h

/-- The service refuses the calls that could not succeed, and hands one request over for each
other. -/
theorem handled (call : ServiceCall) (deadline : Duration) : call.Handled deadline := by
  cases call with
  | authorize user resourceType action resource => exact authorize_handled action resource
  | authorizeRequest user resourceType method resource =>
    exact authorizeRequest_handled method resource
  | grant user given =>
    by_cases hempty : given.actions = ∅
    · refine .refused hempty ?_
      simp only [attempt, Service.grant, ActionSet.isEmpty_iff.2 hempty, if_true]
      exact ⟨_, _, .emptyActions, rfl, rfl⟩
    · refine .handedOver (.create user given) hempty hempty ?_
      simp only [PassesOn, attempt, Service.grant, ActionSet.isEmpty_iff, hempty, if_false]
      exact ⟨_, _, _, rfl⟩
  | updateGrant user given =>
    by_cases hempty : given.actions = ∅
    · refine .refused hempty ?_
      simp only [attempt, Service.updateGrant, ActionSet.isEmpty_iff.2 hempty, if_true]
      exact ⟨_, _, .emptyActions, rfl, rfl⟩
    · refine .handedOver (.update user given) hempty hempty ?_
      simp only [PassesOn, attempt, Service.updateGrant, ActionSet.isEmpty_iff, hempty, if_false]
      exact ⟨_, _, _, rfl⟩
  | revoke user resource =>
    refine .handedOver (.delete user resource) id trivial ?_
    rw [PassesOn, attempt, Service.revoke]
    exact ⟨_, _, _, rfl⟩
  | syncUserRole user role =>
    refine .handedOver (.syncUserRole user role) id trivial ?_
    rw [PassesOn, attempt, Service.syncUserRole]
    exact ⟨_, _, _, rfl⟩
  | setRolePolicy role resourceType actions =>
    refine .handedOver (.putRolePolicy role resourceType actions) id trivial ?_
    rw [PassesOn, attempt, Service.setRolePolicy]
    exact ⟨_, _, _, rfl⟩
  | listPermissions user =>
    refine .handedOver .allPermissions id trivial ?_
    simp only [PassesOn, attempt, Service.listPermissions]
    exact ⟨_, _, _, rfl⟩

end ServiceCall

/-! ## Runs of a call -/

/-- A request to the store, and its answer if it came in time. -/
structure StoreExchange where
  request : StoreRequest
  answer : Option request.Answer

/-- What a call can ask the store and end with.  The engine may reply anything.  A call whose store
does not answer in time is given up and ends with nothing. -/
inductive Call.Runs {α : Type} : Call α → List StoreExchange → Option α → Prop
  | done (result : α) : Runs (.done result) [] (some result)
  | engine {request : EngineRequest} {next : Except EngineError request.Reply → Call α}
      {exchanges : List StoreExchange} {ending : Option α}
      (reply : Except EngineError request.Reply) (rest : Runs (next reply) exchanges ending) :
      Runs (.engine request next) exchanges ending
  | answered {request : StoreRequest} {onUnknown : List EngineUpdate}
      {next : request.Answer → Call α} {exchanges : List StoreExchange} {ending : Option α}
      (answer : request.Answer) (rest : Runs (next answer) exchanges ending) :
      Runs (.store request onUnknown next) (⟨request, some answer⟩ :: exchanges) ending
  | late {request : StoreRequest} {onUnknown : List EngineUpdate}
      {next : request.Answer → Call α} :
      Runs (.store request onUnknown next) [⟨request, none⟩] none
  | count {counter : Counter} {next : Call α} {exchanges : List StoreExchange} {ending : Option α}
      (rest : Runs next exchanges ending) : Runs (.count counter next) exchanges ending

/-- What an attempt can ask the store and end with: if the call is given up, with what is said when
the deadline passes. -/
def Attempt.Ends {α : Type} (attempt : Attempt α) (exchanges : List StoreExchange) (outcome : α) :
    Prop :=
  ∃ ending, attempt.call.Runs exchanges ending ∧ outcome = ending.getD attempt.onDeadline

namespace Call

variable {α β : Type} {call : Call α} {exchanges : List StoreExchange} {ending : Option α}

/-- A call with its result changed runs as the call itself. -/
theorem Runs.of_map {f : α → β} {ending : Option β} (h : (call.map f).Runs exchanges ending) :
    ∃ original, call.Runs exchanges original ∧ ending = original.map f := by
  induction call generalizing exchanges with
  | done result =>
    cases h
    exact ⟨_, .done result, rfl⟩
  | engine request next ih =>
    cases h with
    | engine reply rest =>
      obtain ⟨original, hruns, heq⟩ := ih reply rest
      exact ⟨original, .engine reply hruns, heq⟩
  | store request onUnknown next ih =>
    cases h with
    | answered answer rest =>
      obtain ⟨original, hruns, heq⟩ := ih answer rest
      exact ⟨original, .answered answer hruns, heq⟩
    | late => exact ⟨none, .late, rfl⟩
  | count counter next ih =>
    cases h with
    | count rest =>
      obtain ⟨original, hruns, heq⟩ := ih rest
      exact ⟨original, .count hruns, heq⟩

theorem Runs.map {f : α → β} (h : call.Runs exchanges ending) :
    (call.map f).Runs exchanges (ending.map f) := by
  induction h with
  | done result => exact .done (f result)
  | engine reply rest ih => exact .engine reply ih
  | answered answer rest ih => exact .answered answer ih
  | late => exact .late
  | count rest ih => exact .count ih

/-- A call that does not ask the store comes to its end. -/
theorem Leaves.of_runs {property : α → Prop} (h : call.Leaves property)
    (hruns : call.Runs exchanges ending) :
    exchanges = [] ∧ ∃ result, ending = some result ∧ property result := by
  induction hruns with
  | done result => exact ⟨rfl, result, rfl, h⟩
  | engine reply rest ih => exact ih (h reply)
  | count rest ih => exact ih h
  | answered | late => exact False.elim h

/-- What a call asks the store is what it comes to wait for. -/
theorem Comes.of_runs
    {atStore : (request : StoreRequest) → (request.Answer → Call α) → Prop} {atEnd : α → Prop}
    (h : call.Comes atStore atEnd) (hruns : call.Runs exchanges ending) :
    (exchanges = [] ∧ ∃ result, ending = some result ∧ atEnd result) ∨
      ∃ request next, atStore request next ∧
        ((∃ answer rest, exchanges = ⟨request, some answer⟩ :: rest ∧
            (next answer).Runs rest ending) ∨
          exchanges = [⟨request, none⟩] ∧ ending = none) := by
  induction hruns with
  | done result => exact .inl ⟨rfl, result, rfl, h⟩
  | engine reply rest ih => exact ih (h reply)
  | count rest ih => exact ih h
  | answered answer rest => exact .inr ⟨_, _, h, .inl ⟨answer, _, rfl, rest⟩⟩
  | late => exact .inr ⟨_, _, h, .inr ⟨rfl, rfl⟩⟩

end Call

/-! ## Results -/

/-- The error of a result, if it is one. -/
def failure? {ε α : Type} : Except ε α → Option ε
  | .ok _ => none
  | .error error => some error

namespace Except

variable {ε α β : Type} {first : Except ε α} {rest : α → Except ε β}

theorem exists_of_bind_ok {result : β} (h : first >>= rest = .ok result) :
    ∃ value, first = .ok value ∧ rest value = .ok result := by
  cases first with
  | error error => cases h
  | ok value => exact ⟨value, rfl, h⟩

theorem exists_of_map_ok {f : α → β} {result : β} (h : first.map f = .ok result) :
    ∃ value, first = .ok value ∧ f value = result := by
  cases first with
  | error error => cases h
  | ok value => exact ⟨value, rfl, Except.ok.inj h⟩

theorem of_bind_error {error : ε} (h : first >>= rest = .error error) :
    first = .error error ∨ ∃ value, first = .ok value ∧ rest value = .error error := by
  cases first with
  | error other => exact .inl (congrArg Except.error (Except.error.inj h))
  | ok value => exact .inr ⟨value, rfl, h⟩

end Except

/-! ## What a coordinator asks the store -/

/-- The request of a coordinator to its store: it is the one that the coordinator was asked, and the
call ends with an error exactly if the store answers with that error. -/
structure HandsOver {α : Type} (asked request : StoreRequest)
    (next : request.Answer → Call (Except StorageError α)) : Prop where
  request_eq : request = asked
  failure_eq : ∀ answer, (next answer).Leaves fun result => failure? result = failure? answer

namespace Coordinator

theorem refused_leaves {α : Type} {error : StorageError} (onUnknown : List EngineUpdate) :
    (refused (α := α) error onUnknown).Leaves fun result => result = .error error := by
  unfold refused
  split
  · exact (EngineUpdate.applyAll_leaves onUnknown).bind fun _ _ => rfl
  · rfl

/-- A write that is answered with an error ends with it, and one that is accepted ends well. -/
theorem handsOver_write {α : Type} {request : StoreRequest} (onUnknown : List EngineUpdate)
    {next : request.Answer → Call (Except StorageError α)}
    (hrefused : ∀ error, next (.error error) = .done (.error error) ∨
      next (.error error) = refused error onUnknown)
    (haccepted : ∀ reply, (next (.ok reply)).Leaves fun result => failure? result = none) :
    HandsOver request request next := by
  refine ⟨rfl, fun answer => ?_⟩
  cases answer with
  | ok reply => exact haccepted reply
  | error error =>
    rcases hrefused error with heq | heq
    · rw [heq]
      rfl
    · rw [heq]
      exact (refused_leaves onUnknown).imp fun _ hresult => congrArg failure? hresult

theorem settle_leaves {α : Type} (update : EngineUpdate) (result : α) :
    (settle update result).Leaves fun result => failure? result = none :=
  update.apply_leaves.bind fun _ _ => rfl

theorem repair_leaves (subject : UserId) (object : PolicyObject) (action : Action)
    (seen : Except EngineError FactVersion) :
    (repair subject object action seen).Leaves fun result => failure? result = none := by
  cases seen with
  | error error => rfl
  | ok version =>
    intro reply
    match reply with
    | .ok true => rfl
    | .ok false => rfl
    | .error _ => rfl

/-- A coordinator asks its store for what it was asked and passes the error of the answer on.  A
check that it passes without the store ends well. -/
theorem handle_comes (asked : StoreRequest) :
    (handle asked).Comes (HandsOver asked) fun result => failure? result = none := by
  cases asked with
  | create user grant =>
    -- whether the version could be taken decides only how an accepted write is settled
    intro seen
    refine handsOver_write [] (fun _ => .inl rfl) fun reply => ?_
    cases seen with
    | ok version => exact settle_leaves _ _
    | error error => rfl
  | update user grant =>
    intro seen
    refine handsOver_write _ (fun _ => .inr rfl) fun touched => ?_
    cases seen with
    | ok version =>
      dsimp only
      split <;> exact settle_leaves _ _
    | error error => exact settle_leaves _ _
  | delete user resource => exact handsOver_write _ (fun _ => .inr rfl) fun _ => settle_leaves _ _
  | validateAccess check =>
    intro ofResource
    dsimp only
    split
    · rfl
    · intro ofType
      dsimp only
      split
      · rfl
      · exact fun seen => handsOver_write [] (fun _ => .inl rfl)
          fun _ => repair_leaves _ _ _ seen
  | validateAccessToType check =>
    intro ofType
    dsimp only
    split
    · rfl
    · exact fun seen => handsOver_write [] (fun _ => .inl rfl)
        fun _ => repair_leaves _ _ _ seen
  | syncUserRole user role =>
    intro seen
    refine handsOver_write _ (fun _ => .inr rfl) fun reply => ?_
    cases seen <;> exact settle_leaves _ _
  | putRolePolicy role resourceType actions =>
    exact handsOver_write _ (fun _ => .inr rfl) fun _ => settle_leaves _ _
  | allPermissions | allUserRoles | commit | rollback => exact ⟨rfl, fun _ => rfl⟩

/-- How a call of a coordinator runs: it passes a check without the store, or asks the store for
what it was asked and ends with the error that the store answers, or is given up. -/
theorem runs_handle {asked : StoreRequest} {exchanges : List StoreExchange}
    {ending : Option asked.Answer} (h : (handle asked).Runs exchanges ending) :
    (exchanges = [] ∧ ∃ result, ending = some result ∧ failure? result = none) ∨
      (∃ answer result, exchanges = [⟨asked, some answer⟩] ∧ ending = some result ∧
        failure? result = failure? answer) ∨
      exchanges = [⟨asked, none⟩] ∧ ending = none := by
  rcases (handle_comes asked).of_runs h with hhit | ⟨request, next, hasked, hruns⟩
  · exact .inl hhit
  · obtain ⟨rfl, hfailure⟩ := hasked
    rcases hruns with ⟨answer, rest, rfl, hruns⟩ | hlate
    · obtain ⟨rfl, result, rfl, heq⟩ := (hfailure answer).of_runs hruns
      exact .inr (.inl ⟨answer, result, rfl, rfl, heq⟩)
    · exact .inr (.inr hlate)

/-- A coordinator whose engine fails asks the store, and the store may be late. -/
theorem runs_late (asked : StoreRequest) : (handle asked).Runs [⟨asked, none⟩] none := by
  cases asked with
  | create | update | syncUserRole => exact .engine (.error .poisoned) .late
  | validateAccess =>
    exact .engine (.error .poisoned) (.engine (.error .poisoned)
      (.count (.engine (.error .poisoned) .late)))
  | validateAccessToType =>
    exact .engine (.error .poisoned) (.count (.engine (.error .poisoned) .late))
  | delete | putRolePolicy | allPermissions | allUserRoles | commit | rollback => exact .late

end Coordinator

/-- What the service hands over for a call gives actions, if it gives a rule: a call that gives none
is refused. -/
theorem ServiceCall.PassesOn.givesActions {call : ServiceCall} {deadline : Duration}
    {request : StoreRequest} (h : call.PassesOn deadline request) : request.GivesActions := by
  obtain ⟨operation, context, report, hattempt⟩ := h
  have hlate : (call.attempt deadline).call.Runs [⟨request, none⟩] none := by
    rw [hattempt]
    exact (Coordinator.runs_late request).map
  cases call.handled deadline with
  | refused hmalformed hrefused =>
    obtain ⟨operation, context, cause, -, hrefused⟩ := hrefused
    rw [hrefused] at hlate
    cases hlate
  | handedOver other hwell hgives hpasses =>
    obtain ⟨operation, context, report, hother⟩ := hpasses
    rw [hother] at hlate
    obtain ⟨original, hruns, hending⟩ := hlate.of_map
    rcases Coordinator.runs_handle hruns with
      ⟨hnone, -⟩ | ⟨answer, result, -, rfl, -⟩ | ⟨hexchanges, -⟩
    · cases hnone
    · cases hending
    · obtain rfl : request = other := by simpa using congrArg (List.map (·.request)) hexchanges
      exact hgives

end AccessControl
