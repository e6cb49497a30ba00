import AccessControl.Proofs.DatabaseFailure

/-!
# What the kind of an error tells

The service reports a denial exactly if the store has answered in time that the check is denied, and
a failure of the store, or a store that is late, never as anything but a failure.  A malformed call
is refused without asking the store.  The relational store in turn denies a check only if the
database says so.
-/

namespace AccessControl

namespace StorageError

variable {error : StorageError}

theorem kind_eq_denied_iff : error.kind = .denied ↔ error = .accessDenied := by
  cases error <;> simp [kind, ServiceCause.kind]

theorem kind_eq_duplicateEntry_iff : error.kind = .duplicateEntry ↔ error = .duplicateEntry := by
  cases error <;> simp [kind, ServiceCause.kind]

theorem kind_eq_notFound_iff : error.kind = .notFound ↔ ∃ what, error = .notFound what := by
  cases error <;> simp [kind, ServiceCause.kind]

theorem kind_eq_internal_iff : error.kind = .internal ↔ ∃ reason, error = .internal reason := by
  cases error <;> simp [kind, ServiceCause.kind]

theorem kind_ne_precondition : error.kind ≠ .precondition := by
  cases error <;> simp [kind, ServiceCause.kind]

end StorageError

namespace StoreExchange

/-- Whether the store has answered the request in time with an error. -/
def Refuses (exchange : StoreExchange) (error : StorageError) : Prop :=
  exchange.answer = some (.error error)

/-- What is wrong with an exchange: no answer in time is a failure of the store. -/
def fault (exchange : StoreExchange) : Option ErrorKind :=
  match exchange.answer with
  | none => some .internal
  | some answer => failureKind? answer

theorem fault_eq_some_iff (exchange : StoreExchange) {kind : ErrorKind} :
    exchange.fault = some kind ↔ (exchange.answer = none ∧ kind = .internal) ∨
      ∃ error, exchange.Refuses error ∧ error.kind = kind := by
  obtain ⟨request, answer⟩ := exchange
  cases answer with
  | none => simp [fault, Refuses, eq_comm]
  | some answer => cases answer <;> simp [fault, Refuses, failureKind?, failure?]

end StoreExchange

/-- The kind of error that a call of the service has ended with, if it has not succeeded. -/
def Outcome.kind? {α : Type} (outcome : Outcome α) : Option ErrorKind :=
  (failure? outcome.result).map ServiceError.kind

/-- How a request that is handed over under a deadline ends: well without asking the store, or as
the one exchange with the store says. -/
theorem Service.ends_run {β : Type} {deadline : Duration} {operation context : String}
    {request : StoreRequest} {report : request.Reply → β × List AuditEvent}
    {exchanges : List StoreExchange} {outcome : Outcome β}
    (h : (run deadline operation context (Coordinator.handle request) report).Ends exchanges
      outcome) : exchanges = [] ∧ outcome.kind? = none ∨
        ∃ exchange, exchanges = [exchange] ∧ outcome.kind? = exchange.fault := by
  obtain ⟨ending, hruns, rfl⟩ := h
  obtain ⟨original, horiginal, rfl⟩ := hruns.of_map
  rcases Coordinator.runs_handle horiginal with
    ⟨rfl, result, rfl, hwell⟩ | ⟨answer, result, rfl, rfl, hfailure⟩ | ⟨rfl, rfl⟩
  · cases result with
    | ok reply => exact .inl ⟨rfl, rfl⟩
    | error error => cases hwell
  · refine .inr ⟨_, rfl, ?_⟩
    have hfault : StoreExchange.fault ⟨request, some answer⟩ = failureKind? result := by
      rw [failureKind?, hfailure]
      rfl
    rw [hfault]
    cases result <;> rfl
  · exact .inr ⟨_, rfl, rfl⟩

namespace ServiceCall

variable {call : ServiceCall} {deadline : Duration} {exchanges : List StoreExchange}
  {outcome : Outcome call.Reply}

/-- How a call ends: refused for what it says, or as its one exchange with the store says. -/
theorem kind_of_ends (h : (call.attempt deadline).Ends exchanges outcome) :
    (call.Malformed ∧ exchanges = [] ∧ outcome.kind? = some .precondition) ∨
      ¬call.Malformed ∧ (exchanges = [] ∧ outcome.kind? = none ∨
        ∃ exchange, exchanges = [exchange] ∧ outcome.kind? = exchange.fault) := by
  cases call.handled deadline with
  | refused hmalformed hattempt =>
    obtain ⟨operation, context, cause, hkind, heq⟩ := hattempt
    rw [heq] at h
    obtain ⟨ending, hruns, rfl⟩ := h
    cases hruns
    exact .inl ⟨hmalformed, rfl, congrArg some hkind⟩
  | handedOver request hwell hgives hattempt =>
    obtain ⟨operation, context, report, heq⟩ := hattempt
    rw [heq] at h
    exact .inr ⟨hwell, Service.ends_run h⟩

/-- What the kind of error that a call has ended with tells of its exchanges with the store. -/
structure KindTells (call : ServiceCall) (exchanges : List StoreExchange)
    (outcome : Outcome call.Reply) : Prop where
  denied : outcome.kind? = some .denied ↔
    ∃ exchange ∈ exchanges, exchange.Refuses .accessDenied
  notFound : outcome.kind? = some .notFound ↔
    ∃ exchange ∈ exchanges, ∃ what, exchange.Refuses (.notFound what)
  duplicateEntry : outcome.kind? = some .duplicateEntry ↔
    ∃ exchange ∈ exchanges, exchange.Refuses .duplicateEntry
  precondition : outcome.kind? = some .precondition ↔ call.Malformed
  unasked : call.Malformed → exchanges = []
  internal : outcome.kind? = some .internal ↔ ∃ exchange ∈ exchanges,
    exchange.answer = none ∨ ∃ reason, exchange.Refuses (.internal reason)
  retryable : ∀ error, outcome.result = .error error →
    (error.isRetryable = true ↔ error.kind = .internal)

theorem kindTells (h : (call.attempt deadline).Ends exchanges outcome) :
    call.KindTells exchanges outcome := by
  have hretryable : ∀ error : ServiceError, error.isRetryable = true ↔ error.kind = .internal := by
    intro error
    rw [ServiceError.isRetryable]
    cases error.kind <;> simp [ErrorKind.isRetryable]
  rcases kind_of_ends h with
    ⟨hmalformed, rfl, hkind⟩ | ⟨hwell, ⟨rfl, hkind⟩ | ⟨exchange, rfl, hkind⟩⟩
  · constructor <;> simp [hkind, hmalformed, hretryable]
  · constructor <;> simp [hkind, hwell, hretryable]
  · -- a store that is late can only be at fault for a failure
    have hlate : ∀ kind : ErrorKind, kind ≠ .internal →
        (exchange.fault = some kind ↔ ∃ error, exchange.Refuses error ∧ error.kind = kind) := by
      intro kind hother
      simp [StoreExchange.fault_eq_some_iff, hother]
    constructor
    case denied => simp [hkind, hlate, StorageError.kind_eq_denied_iff]
    case notFound =>
      have hfault := hlate .notFound nofun
      simp only [StorageError.kind_eq_notFound_iff] at hfault
      grind
    case duplicateEntry => simp [hkind, hlate, StorageError.kind_eq_duplicateEntry_iff]
    case precondition => simp [hkind, hlate, StorageError.kind_ne_precondition, hwell]
    case unasked => exact fun hmalformed => absurd hmalformed hwell
    case internal =>
      have hfault : exchange.fault = some .internal ↔ _ := exchange.fault_eq_some_iff
      simp only [StorageError.kind_eq_internal_iff] at hfault
      grind
    case retryable => exact fun error _ => hretryable error

end ServiceCall

/-- No failure is reported as a denial and no denial as a failure.  However a call of the service
ends, the kind of its error tells what the store has answered in time.  However a request to the
relational store ends, on a connection of the pool or in a transaction, it is an error of the kind
that the first faulty exchange with the database calls for, and a fault calls for a denial only if a
row says no, for an entry that is not found or there already only if a row could not be written, or
no user was there to be changed.  A row that cannot be read is a failure. -/
theorem failures_keep_their_kind :
    (∀ (call : ServiceCall) (deadline : Duration) (exchanges : List StoreExchange)
      (outcome : Outcome call.Reply), (call.attempt deadline).Ends exchanges outcome →
        call.KindTells exchanges outcome) ∧
      (∀ request, (RelationalStore.pooled request).ReportsFaults) ∧
      (∀ request, (RelationalStore.inTransaction request).ReportsFaults) ∧
      (∀ user role, (RelationalStore.registerUser user role).ReportsFaults) ∧
      RelationalStore.openTransaction.ReportsFaults ∧
      ∀ (sent : Statement) (reply : Except DatabaseError sent.Result), sent.KindsTell reply := by
  refine ⟨fun call deadline exchanges outcome => ServiceCall.kindTells, ?_, ?_, ?_, ?_, ?_⟩
  · exact fun request => (RelationalStore.pooled_owes request).reportsFaults
  · exact fun request => (RelationalStore.inTransaction_owes request).reportsFaults
  · exact fun user role => (RelationalStore.registerUser_owes user role).reportsFaults
  · exact RelationalStore.openTransaction_owes.reportsFaults
  · exact Statement.kindsTell

/-- A check of a whole type. -/
def someTypeCheck : TypeCheck := ⟨⟨.ofNat 1⟩, .page, .get⟩

/-- A denial of the store is reported as one although the engine fails, and a reference that the
database does not accept in a role as a failure. -/
theorem denied_while_engine_fails :
    (∃ outcome, ((ServiceCall.authorize ⟨.ofNat 1⟩ .page .get none).attempt (.ofSeconds 5)).Ends
        [⟨.validateAccessToType someTypeCheck, some (.error .accessDenied)⟩] outcome ∧
      outcome.kind? = some .denied) ∧
    ∃ result, (RelationalStore.pooled (.syncUserRole ⟨.ofNat 1⟩ .admin)).Runs
        [.statement (.updateUserRole ⟨.ofNat 1⟩ .admin) (.error (.refused "23503" "role"))] result ∧
      failureKind? result = some .internal := by
  constructor
  · have hends : ((ServiceCall.authorize ⟨.ofNat 1⟩ .page .get none).attempt (.ofSeconds 5)).Ends
        [⟨.validateAccessToType someTypeCheck, some (.error .accessDenied)⟩] _ :=
      ⟨_, .engine (.error .poisoned) (.count (.engine (.error .poisoned)
        (.answered (.error .accessDenied) (.done _)))), rfl⟩
    exact ⟨_, hends, (failures_keep_their_kind.1 _ _ _ _ hends).denied.2
      ⟨_, List.mem_cons_self, rfl⟩⟩
  · have hruns : (RelationalStore.pooled (.syncUserRole ⟨.ofNat 1⟩ .admin)).Runs
        [.statement (.updateUserRole ⟨.ofNat 1⟩ .admin) (.error (.refused "23503" "role"))] _ :=
      .statement _ (.done _)
    exact ⟨_, hruns, failures_keep_their_kind.2.1 _ _ _ hruns⟩

end AccessControl
