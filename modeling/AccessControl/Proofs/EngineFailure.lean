import AccessControl.Proofs.ReadEffect
import AccessControl.Proofs.ServiceCall

/-!
# Engines that fail

An engine is known to a coordinator by its replies alone, and each request to it may be answered or
may fail.  Whatever engine it is and whichever of the requests fail, a coordinator decides nothing
by a failure: a check is passed by a lookup that has said yes, and everything else is what the store
answers.  What an engine failure may cost is a fact that is not learned.
-/

namespace AccessControl

/-! ## Engines and stores of any kind -/

/-- How an engine with states `ε` replies. -/
abbrev PolicyEngine (ε : Type) : Type :=
  ε → (request : EngineRequest) → Except EngineError request.Reply × ε

/-- How a rule store with states `σ` answers. -/
abbrev RuleStore (σ : Type) : Type := σ → (request : StoreRequest) → request.Answer × σ

/-- One thing that a call does or that happens to it. -/
inductive CallEvent where
  | asksEngine (request : EngineRequest) (reply : Except EngineError request.Reply)
  | asksStore (request : StoreRequest)
  | hears (request : StoreRequest) (answer : request.Answer)
  /-- It is given up while it waits for its store. -/
  | isDropped
  | counts (counter : Counter)

namespace CallEvent

/-- The request to the store that the call makes. -/
def storeRequest? : CallEvent → Option StoreRequest
  | asksStore request => some request
  | _ => none

/-- Whether the engine has answered a lookup with yes. -/
def Passes (event : CallEvent) : Prop :=
  ∃ subject object action, event = .asksEngine (.check subject object action) (.ok true)

/-- Whether the engine has failed when a version was to be taken. -/
def MissesVersion (event : CallEvent) : Prop :=
  (∃ subject object error, event = .asksEngine (.version subject object) (.error error)) ∨
    ∃ subject error, event = .asksEngine (.roleVersion subject) (.error error)

@[simp] theorem not_passes_asksStore {request : StoreRequest} : ¬(asksStore request).Passes := by
  rintro ⟨_, _, _, ⟨⟩⟩

@[simp] theorem not_passes_hears {request : StoreRequest} {answer : request.Answer} :
    ¬(hears request answer).Passes := by
  rintro ⟨_, _, _, ⟨⟩⟩

@[simp] theorem not_passes_counts {counter : Counter} : ¬(counts counter).Passes := by
  rintro ⟨_, _, _, ⟨⟩⟩

/-- A failure says yes to nothing. -/
@[simp] theorem not_passes_error {request : EngineRequest} {error : EngineError} :
    ¬(asksEngine request (.error error)).Passes := by
  rintro ⟨_, _, _, heq⟩
  cases request <;> cases heq

end CallEvent

/-- A call that has come to its end: what it has done, its result, and what it has left. -/
structure Performance (α ε σ : Type) where
  events : List CallEvent
  result : α
  engine : ε
  store : σ

namespace Performance

variable {α ε σ : Type}

/-- The performance with one event before it. -/
def after (event : CallEvent) (performance : Performance α ε σ) : Performance α ε σ :=
  { performance with events := event :: performance.events }

/-- The requests to the store, in order. -/
def storeRequests (performance : Performance α ε σ) : List StoreRequest :=
  performance.events.filterMap CallEvent.storeRequest?

/-- Whether one of the lookups has been answered with yes. -/
def IsPassed (performance : Performance α ε σ) : Prop :=
  ∃ event ∈ performance.events, event.Passes

/-- Whether a version could not be taken. -/
def MissesVersion (performance : Performance α ε σ) : Prop :=
  ∃ event ∈ performance.events, event.MissesVersion

/-- Whether every request to the engine has the property. -/
def AsksOnly (property : EngineRequest → Prop) (performance : Performance α ε σ) : Prop :=
  ∀ request reply, .asksEngine request reply ∈ performance.events → property request

variable {performance : Performance α ε σ} {property : EngineRequest → Prop}
  {request : EngineRequest} {reply : Except EngineError request.Reply}

theorem asksOnly_after {event : CallEvent} :
    (performance.after event).AsksOnly property ↔
      (∀ request reply, event = .asksEngine request reply → property request) ∧
        performance.AsksOnly property := by
  simp only [AsksOnly, after, List.mem_cons]
  constructor
  · intro h
    exact ⟨fun request reply heq => h request reply (.inl heq.symm),
      fun request reply hmem => h request reply (.inr hmem)⟩
  · rintro ⟨hhead, hrest⟩ request reply (heq | hmem)
    · exact hhead request reply heq.symm
    · exact hrest request reply hmem

@[simp] theorem engine_after {event : CallEvent} :
    (performance.after event).engine = performance.engine := rfl

theorem isPassed_after {event : CallEvent} :
    (performance.after event).IsPassed ↔ event.Passes ∨ performance.IsPassed := by
  simp [IsPassed, after]

theorem missesVersion_after {event : CallEvent} :
    (performance.after event).MissesVersion ↔
      event.MissesVersion ∨ performance.MissesVersion := by
  simp [MissesVersion, after]

theorem storeRequests_after {event : CallEvent} :
    (performance.after event).storeRequests =
      event.storeRequest?.toList ++ performance.storeRequests := by
  cases event <;> rfl

/-- Where the engine is only written to, no lookup says yes. -/
theorem AsksOnly.not_isPassed
    (h : performance.AsksOnly fun asked => ¬asked.Observes) : ¬performance.IsPassed := by
  rintro ⟨event, hmem, subject, object, action, rfl⟩
  exact h _ _ hmem trivial

/-- Where the engine is only written to, no version is missed. -/
theorem AsksOnly.not_missesVersion
    (h : performance.AsksOnly fun asked => ¬asked.Observes) : ¬performance.MissesVersion := by
  rintro ⟨event, hmem, ⟨subject, object, error, rfl⟩ | ⟨subject, error, rfl⟩⟩
  · exact h _ _ hmem trivial
  · exact h _ _ hmem trivial

end Performance

namespace Call

variable {α ε σ : Type}

/-- Makes a call from its beginning to its end, with an engine and a store of any kind that are in
the states `found` and `held`. -/
def perform (engines : PolicyEngine ε) (stores : RuleStore σ) :
    Call α → ε → σ → Performance α ε σ
  | done result, found, held => ⟨[], result, found, held⟩
  | engine request next, found, held =>
    let (reply, left) := engines found request
    ((next reply).perform engines stores left held).after (.asksEngine request reply)
  | store request _ next, found, held =>
    let (answer, left) := stores held request
    (((next answer).perform engines stores found left).after (.hears request answer)).after
      (.asksStore request)
  | count counter next, found, held =>
    (next.perform engines stores found held).after (.counts counter)

variable {engines : PolicyEngine ε} {stores : RuleStore σ} {call : Call α} {found : ε} {held : σ}
  {property : EngineRequest → Prop}

/-- A call that does not ask the store comes to its end without it. -/
theorem Leaves.perform {ending : α → Prop} (h : call.Leaves ending) :
    let performed := call.perform engines stores found held
    ending performed.result ∧ performed.storeRequests = [] ∧ performed.store = held := by
  induction call generalizing found held with
  | done result => exact ⟨h, rfl, rfl⟩
  | engine request next ih => exact ih _ (h _)
  | store => exact False.elim h
  | count counter next ih => exact ih h

/-- The requests to the engine are among those that the call may make. -/
theorem Only.perform (h : call.Only property fun _ _ => True) :
    (call.perform engines stores found held).AsksOnly property := by
  induction call generalizing found held with
  | done result => exact fun _ _ hmem => absurd hmem List.not_mem_nil
  | engine request next ih =>
    refine Performance.asksOnly_after.2 ⟨?_, ih _ (h.2 _)⟩
    rintro _ _ ⟨⟩
    exact h.1
  | store request onUnknown next ih =>
    have hrest : ((next (stores held request).1).perform engines stores found
        (stores held request).2).AsksOnly property := ih _ (h.2 _ trivial)
    intro asked reply hmem
    exact hrest asked reply (by simpa [Call.perform, Performance.after] using hmem)
  | count counter next ih =>
    exact Performance.asksOnly_after.2 ⟨(fun _ _ heq => nomatch heq), ih h⟩

end Call

/-! ## How a coordinator decides -/

theorem CallEvent.passes_check_iff {subject : UserId} {object : PolicyObject} {action : Action}
    {reply : Except EngineError Bool} :
    (asksEngine (.check subject object action) reply).Passes ↔ Coordinator.allows reply = true := by
  constructor
  · rintro ⟨_, _, _, ⟨⟩⟩
    rfl
  · intro hallows
    cases reply with
    | error error => cases hallows
    | ok said =>
      obtain rfl : said = true := hallows
      exact ⟨subject, object, action, rfl⟩

theorem CallEvent.not_missesVersion_check {subject : UserId} {object : PolicyObject}
    {action : Action} {reply : Except EngineError Bool} :
    ¬(asksEngine (.check subject object action) reply).MissesVersion := by
  rintro (⟨_, _, _, ⟨⟩⟩ | ⟨_, _, ⟨⟩⟩)

theorem CallEvent.not_missesVersion_counts {counter : Counter} :
    ¬(counts counter).MissesVersion := by
  rintro (⟨_, _, _, ⟨⟩⟩ | ⟨_, _, ⟨⟩⟩)

theorem EngineUpdate.not_observes_of_asks {update : EngineUpdate} {request : EngineRequest}
    (h : update.Asks request) : ¬request.Observes := by
  have hdemotion : ∀ subject role, EngineUpdate.DemotionAsks subject role request →
      ¬request.Observes := by
    rintro subject role (⟨-, rfl⟩ | ⟨resourceType, rfl⟩) <;> exact id
  cases update with
  | grant subject object actions seen =>
    obtain ⟨action, -, rfl⟩ := h
    exact id
  | replace subject object actions seen => rcases h with rfl | rfl <;> exact id
  | remove | clearObject =>
    obtain rfl := h
    exact id
  | assignRole subject role seen =>
    rcases h with rfl | hasks
    · exact id
    · exact hdemotion subject role hasks
  | demote subject role => exact hdemotion subject role h

namespace Coordinator

/-- How a call goes on when the store has answered: it ends with that answer, and only writes to the
engine before.  An error that leaves the outcome open is followed by the evictions. -/
structure Settles {α : Type} (evictions : List EngineUpdate)
    (answered : Except StorageError α → Call (Except StorageError α)) : Prop where
  refused : ∀ error, answered (.error error) = refused error evictions
  result : ∀ reply, (answered (.ok reply)).Leaves fun result => result = .ok reply
  writes : ∀ reply, (answered (.ok reply)).Only (fun asked => ¬asked.Observes) fun _ _ => True

/-- How a call comes to its answer: lookups may pass it, and otherwise the store is asked, perhaps
after a version has been taken.  Without the version nothing is given. -/
inductive Decides (request : StoreRequest) : Call request.Answer → Prop
  | look {subject : UserId} {object : PolicyObject} {action : Action}
      {next : Except EngineError Bool → Call request.Answer} (hread : request.row? = none)
      (reply : request.Reply)
      (hpassed : ∀ passed, allows passed = true → next passed = .count .hits (.done (.ok reply)))
      (hrest : ∀ passed, allows passed = false → Decides request (next passed)) :
      Decides request (.engine (.check subject object action) next)
  | count {counter : Counter} {rest : Call request.Answer} (h : Decides request rest) :
      Decides request (.count counter rest)
  | snapshot {asked : EngineRequest}
      {answered : Except EngineError asked.Reply → request.Answer → Call request.Answer}
      (hasked : (∃ subject object, asked = .version subject object) ∨
        ∃ subject, asked = .roleVersion subject)
      (hsettles : ∀ seen, Settles request.evictions (answered seen))
      (hfailed : ∀ error reply, (answered (.error error) (.ok reply)).Only
        (fun asked => ∀ privilege, asked.Modest privilege) fun _ _ => True) :
      Decides request (.engine asked fun seen => .store request request.evictions (answered seen))
  | ask {answered : request.Answer → Call request.Answer}
      (hsettles : Settles request.evictions answered) :
      Decides request (.store request request.evictions answered)

section

variable {α : Type} {evictions : List EngineUpdate}
  {answered : Except StorageError α → Call (Except StorageError α)}

theorem refused_nothing {error : StorageError} :
    refused (α := α) error [] = .done (.error error) := by
  unfold refused
  split <;> rfl

theorem Settles.leaves (h : Settles evictions answered) (answer : Except StorageError α) :
    (answered answer).Leaves fun result => result = answer := by
  cases answer with
  | error error =>
    rw [h.refused]
    exact refused_leaves evictions
  | ok reply => exact h.result reply

theorem Settles.only (h : Settles evictions answered) (answer : Except StorageError α) :
    (answered answer).Only (fun asked => ¬asked.Observes) fun _ _ => True := by
  cases answer with
  | error error =>
    rw [h.refused]
    exact refused_only fun _ _ _ => EngineUpdate.not_observes_of_asks
  | ok reply => exact h.writes reply

/-- A write that is accepted is settled by an update of the engine, or by none. -/
theorem settles_write (hrefused : ∀ error, answered (.error error) = refused error evictions)
    (haccepted : ∀ reply, answered (.ok reply) = .done (.ok reply) ∨
      ∃ update, answered (.ok reply) = settle update reply) : Settles evictions answered := by
  refine ⟨hrefused, fun reply => ?_, fun reply => ?_⟩
  · rcases haccepted reply with heq | ⟨update, heq⟩
    · rw [heq]
      rfl
    · rw [heq]
      exact update.apply_leaves.bind fun _ _ => rfl
  · rcases haccepted reply with heq | ⟨update, heq⟩
    · rw [heq]
      trivial
    · have happly : update.apply.Only (fun asked => ¬asked.Observes) fun _ _ => True :=
        EngineUpdate.apply_only fun _ => EngineUpdate.not_observes_of_asks
      rw [heq]
      exact happly.bind fun _ => trivial

/-- The store's yes is written into the engine or not, and the check is passed. -/
theorem settles_check {answered : Except StorageError Unit → Call (Except StorageError Unit)}
    {subject : UserId} {object : PolicyObject} {action : Action}
    {seen : Except EngineError FactVersion}
    (hdenied : ∀ error, answered (.error error) = .done (.error error))
    (hallowed : answered (.ok ()) = repair subject object action seen) :
    Settles [] answered := by
  refine ⟨fun error => (hdenied error).trans refused_nothing.symm, fun _ => ?_, fun _ => ?_⟩
  · rw [hallowed]
    cases seen with
    | error error => rfl
    | ok version => rintro (_ | _ | _) <;> rfl
  · rw [hallowed]
    cases seen with
    | error error => trivial
    | ok version =>
      refine ⟨id, ?_⟩
      rintro (_ | _ | _) <;> trivial

/-- What only takes away gives nothing. -/
theorem settle_modest {update : EngineUpdate} {result : α}
    (hevicts : update.Evicts) :
    (settle update result).Only (fun asked => ∀ privilege, asked.Modest privilege)
      fun _ _ => True := by
  have happly : update.apply.Only (fun asked => ∀ privilege, asked.Modest privilege)
      fun _ _ => True :=
    EngineUpdate.apply_only fun _ hasks _ => hevicts.modest hasks
  exact happly.bind fun _ => trivial

theorem refused_modest (request : StoreRequest) {error : StorageError} :
    (refused (α := α) error request.evictions).Only
      (fun asked => ∀ privilege, asked.Modest privilege) fun _ _ => True :=
  refused_only fun _ hmem _ hasks _ => (StoreRequest.evicts_of_mem_evictions hmem).modest hasks

end

variable {subject : UserId} {object : PolicyObject} {action : Action}

/-- The engine may pass a check before the rest of the call decides it. -/
theorem Decides.first {request : StoreRequest} (hread : request.row? = none)
    (reply : request.Reply) {rest : Call request.Answer} (h : Decides request rest) :
    Decides request (.engine (.check subject object action) fun passed =>
      if allows passed then .count .hits (.done (.ok reply)) else rest) := by
  refine .look hread reply (fun _ hallows => if_pos hallows) fun passed hallows => ?_
  rw [hallows]
  exact h

theorem decides_validateAccess (check : InstanceCheck) :
    Decides (.validateAccess check) (validateAccess check) := by
  have hread : (StoreRequest.validateAccess check).row? = none := rfl
  refine .first hread () (.first hread () (.count ?_))
  refine .snapshot (.inl ⟨_, _, rfl⟩) (fun seen => ?_) fun error reply => trivial
  exact settles_check (fun _ => rfl) rfl

theorem decides_validateAccessToType (check : TypeCheck) :
    Decides (.validateAccessToType check) (validateAccessToType check) := by
  have hread : (StoreRequest.validateAccessToType check).row? = none := rfl
  refine .first hread () (.count ?_)
  refine .snapshot (.inl ⟨_, _, rfl⟩) (fun seen => ?_) fun error reply => trivial
  exact settles_check (fun _ => rfl) rfl

/-- A coordinator comes to its answer in one of these ways, whatever it is asked. -/
theorem decides (request : StoreRequest) : Decides request (handle request) := by
  cases request with
  | create user grant =>
    refine .snapshot (.inl ⟨_, _, rfl⟩) (fun seen => ?_) fun error reply => trivial
    refine settles_write (fun _ => refused_nothing.symm) fun reply => ?_
    cases seen with
    | ok version => exact .inr ⟨_, rfl⟩
    | error error => exact .inl rfl
  | update user grant =>
    refine .snapshot (.inl ⟨_, _, rfl⟩) (fun seen => ?_) fun error touched => settle_modest trivial
    refine settles_write (fun _ => rfl) fun touched => .inr ?_
    cases seen with
    | ok version =>
      dsimp only
      split <;> exact ⟨_, rfl⟩
    | error error => exact ⟨_, rfl⟩
  | delete user resource => exact .ask (settles_write (fun _ => rfl) fun _ => .inr ⟨_, rfl⟩)
  | validateAccess check => exact decides_validateAccess check
  | validateAccessToType check => exact decides_validateAccessToType check
  | syncUserRole user role =>
    refine .snapshot (.inr ⟨_, rfl⟩) (fun seen => ?_) fun error reply => settle_modest trivial
    refine settles_write (fun _ => rfl) fun reply => .inr ?_
    cases seen <;> exact ⟨_, rfl⟩
  | putRolePolicy role resourceType actions =>
    exact .ask (settles_write (fun _ => rfl) fun _ => .inr ⟨_, rfl⟩)
  | allPermissions | allUserRoles | commit | rollback =>
    exact .ask (settles_write (fun _ => refused_nothing.symm) fun _ => .inl rfl)

/-! ## Whatever the engine replies -/

section

variable {ε σ : Type} {engines : PolicyEngine ε} {stores : RuleStore σ} {found : ε} {held : σ}
  {request : StoreRequest} {performed : Performance request.Answer ε σ}

/-- The store is asked for the request, once and for nothing else, and the result is its answer. -/
structure IsAnswered (stores : RuleStore σ) (held : σ) (request : StoreRequest)
    (performed : Performance request.Answer ε σ) : Prop where
  requests : performed.storeRequests = [request]
  result : performed.result = (stores held request).1
  store : performed.store = (stores held request).2

/-- The request is a read that is passed without the store. -/
structure IsGranted (held : σ) (request : StoreRequest)
    (performed : Performance request.Answer ε σ) : Prop where
  read : request.row? = none
  requests : performed.storeRequests = []
  result : ∃ reply, performed.result = .ok reply
  store : performed.store = held

/-- A lookup that has said yes passes the request.  Otherwise the store answers it.  Without a
version nothing is given to the engine. -/
structure Decided (stores : RuleStore σ) (held : σ) (request : StoreRequest)
    (performed : Performance request.Answer ε σ) : Prop where
  passed : performed.IsPassed → IsGranted held request performed
  asked : ¬performed.IsPassed → IsAnswered stores held request performed
  cautious : performed.MissesVersion →
    performed.AsksOnly fun asked => ∀ privilege, asked.Modest privilege

/-- An event that passes nothing and only looks at the engine. -/
theorem Decided.cons {event : CallEvent} (h : Decided stores held request performed)
    (hpasses : ¬event.Passes) (hquiet : event.storeRequest? = none)
    (hlooks : ∀ asked reply, event = .asksEngine asked reply → asked.Observes)
    (hmisses : event.MissesVersion →
      performed.AsksOnly fun asked => ∀ privilege, asked.Modest privilege) :
    Decided stores held request (performed.after event) := by
  have hpassed : (performed.after event).IsPassed ↔ performed.IsPassed := by
    rw [Performance.isPassed_after]
    exact or_iff_right hpasses
  have hrequests : (performed.after event).storeRequests = performed.storeRequests := by
    rw [Performance.storeRequests_after, hquiet]
    rfl
  constructor
  · rw [hpassed]
    intro hsaid
    obtain ⟨hread, hnone, hresult, hstore⟩ := h.passed hsaid
    exact ⟨hread, hrequests.trans hnone, hresult, hstore⟩
  · rw [hpassed]
    intro hunsaid
    obtain ⟨hone, hresult, hstore⟩ := h.asked hunsaid
    exact ⟨hrequests.trans hone, hresult, hstore⟩
  · rw [Performance.missesVersion_after, Performance.asksOnly_after]
    intro hversion
    exact ⟨fun asked reply heq privilege => (hlooks asked reply heq).modest,
      hversion.elim hmisses h.cautious⟩

/-- The store is asked, and after its answer nothing is looked up any more. -/
theorem Settles.decided {evictions onUnknown : List EngineUpdate}
    {answered : request.Answer → Call request.Answer} (h : Settles evictions answered) :
    Decided stores held request
      ((Call.store request onUnknown answered).perform engines stores found held) := by
  let rest := (answered (stores held request).1).perform engines stores found
    (stores held request).2
  have hleaves : rest.result = (stores held request).1 ∧ rest.storeRequests = [] ∧
      rest.store = (stores held request).2 := (h.leaves _).perform
  have hwrites : rest.AsksOnly fun asked => ¬asked.Observes := (h.only _).perform
  have hperformed : (Call.store request onUnknown answered).perform engines stores found held =
    (rest.after (.hears request (stores held request).1)).after (.asksStore request) := rfl
  obtain ⟨hresult, hrequests, hstore⟩ := hleaves
  rw [hperformed]
  constructor
  · intro hpassed
    simp [Performance.isPassed_after, hwrites.not_isPassed] at hpassed
  · intro _
    refine ⟨?_, hresult, hstore⟩
    simp [Performance.storeRequests_after, CallEvent.storeRequest?, hrequests]
  · intro hmisses
    simp [Performance.missesVersion_after, CallEvent.MissesVersion, hwrites.not_missesVersion]
      at hmisses

/-- Whatever the engine replies and whatever the store answers, the request is decided so. -/
theorem Decides.decided {call : Call request.Answer} (h : Decides request call) :
    Decided stores held request (call.perform engines stores found held) := by
  induction h generalizing found with
  | @look subject object action next hread reply hpassed hrest ih =>
    let asked : EngineRequest := .check subject object action
    have hperformed : (Call.engine asked next).perform engines stores found held =
      ((next (engines found asked).1).perform engines stores (engines found asked).2 held).after
        (.asksEngine asked (engines found asked).1) := rfl
    rw [hperformed]
    cases hallows : allows (engines found asked).1 with
    | true =>
      have hpasses : (CallEvent.asksEngine asked (engines found asked).1).Passes :=
        CallEvent.passes_check_iff.2 hallows
      rw [hpassed _ hallows]
      refine ⟨fun _ => ⟨hread, rfl, ⟨reply, rfl⟩, rfl⟩, fun hnot => ?_, fun hmisses => ?_⟩
      · exact absurd (Performance.isPassed_after.2 (.inl hpasses)) hnot
      · rcases Performance.missesVersion_after.1 hmisses with hmisses | ⟨event, hmem, hmisses⟩
        · exact absurd hmisses CallEvent.not_missesVersion_check
        · obtain rfl := List.mem_singleton.1 hmem
          exact absurd hmisses CallEvent.not_missesVersion_counts
    | false =>
      refine (ih _ hallows).cons ?_ rfl ?_ ?_
      · rw [CallEvent.passes_check_iff, hallows]
        exact Bool.false_ne_true
      · rintro _ _ ⟨⟩
        trivial
      · exact fun hmisses => absurd hmisses CallEvent.not_missesVersion_check
  | count h ih =>
    exact ih.cons CallEvent.not_passes_counts rfl (fun _ _ heq => nomatch heq) fun hmisses =>
      absurd hmisses CallEvent.not_missesVersion_counts
  | @snapshot asked answered hasked hsettles hfailed =>
    have hperformed : (Call.engine asked fun seen =>
        .store request request.evictions (answered seen)).perform engines stores found held =
      ((Call.store request request.evictions (answered (engines found asked).1)).perform engines
        stores (engines found asked).2 held).after
          (.asksEngine asked (engines found asked).1) := rfl
    rw [hperformed]
    generalize engines found asked = exchange
    obtain ⟨seen, left⟩ := exchange
    refine (hsettles seen).decided.cons ?_ rfl ?_ ?_
    · rintro ⟨_, _, _, heq⟩
      rcases hasked with ⟨subject, object, rfl⟩ | ⟨subject, rfl⟩ <;> cases heq
    · rintro _ _ ⟨⟩
      rcases hasked with ⟨subject, object, rfl⟩ | ⟨subject, rfl⟩ <;> trivial
    · intro hmisses
      obtain ⟨error, rfl⟩ : ∃ error, seen = .error error := by
        rcases hmisses with ⟨_, _, error, heq⟩ | ⟨_, error, heq⟩ <;> cases heq <;> exact ⟨_, rfl⟩
      refine Performance.asksOnly_after.2 ⟨(fun _ _ heq => nomatch heq),
        Performance.asksOnly_after.2 ⟨(fun _ _ heq => nomatch heq), ?_⟩⟩
      cases (stores held request).1 with
      | ok reply => exact (hfailed error reply).perform
      | error failure =>
        rw [(hsettles _).refused]
        exact (refused_modest request).perform
  | ask hsettles => exact hsettles.decided

end

end Coordinator

/-! ## A poisoned engine -/

section

variable {α σ : Type} {stores : RuleStore σ} {engine : Engine} {held : σ}

/-- Answers requests one after another. -/
def RuleStore.serve (stores : RuleStore σ) : List StoreRequest → σ → List StoreExchange × σ
  | [], held => ([], held)
  | request :: rest, held =>
    let (answer, left) := stores held request
    let (exchanges, left) := stores.serve rest left
    (⟨request, some answer⟩ :: exchanges, left)

/-- Makes the calls of a coordinator one after another. -/
def Coordinator.serve {ε : Type} (engines : PolicyEngine ε) (stores : RuleStore σ) :
    List StoreRequest → ε → σ → List StoreExchange × ε × σ
  | [], found, held => ([], found, held)
  | request :: rest, found, held =>
    let performed := (handle request).perform engines stores found held
    let (exchanges, left) := serve engines stores rest performed.engine performed.store
    (⟨request, some performed.result⟩ :: exchanges, left)

/-- A poisoned engine says yes to no lookup and stays as it is. -/
theorem Call.perform_poisoned (h : engine.poisoned = true) (call : Call α) :
    let performed := call.perform Engine.answer stores engine held
    ¬performed.IsPassed ∧ performed.engine = engine := by
  have hanswer : ∀ request, engine.answer request = (.error .poisoned, engine) :=
    fun _ => if_pos h
  induction call generalizing held with
  | done result =>
    refine ⟨?_, rfl⟩
    rintro ⟨_, hmem, -⟩
    exact absurd hmem List.not_mem_nil
  | engine request next ih =>
    simpa [Call.perform, hanswer, Performance.isPassed_after] using ih (.error .poisoned)
  | store request onUnknown next ih =>
    simpa [Call.perform, Performance.isPassed_after] using ih (stores held request).1
  | count counter next ih => simpa [Call.perform, Performance.isPassed_after] using ih

/-- Once its engine is poisoned, a coordinator answers every request as its store does. -/
theorem Coordinator.serve_poisoned (h : engine.poisoned = true) (requests : List StoreRequest) :
    serve Engine.answer stores requests engine held =
      ((stores.serve requests held).1, engine, (stores.serve requests held).2) := by
  induction requests generalizing held with
  | nil => rfl
  | cons request rest ih =>
    have hfirst : ¬((handle request).perform Engine.answer stores engine held).IsPassed ∧
        ((handle request).perform Engine.answer stores engine held).engine = engine :=
      Call.perform_poisoned h (handle request)
    obtain ⟨hunpassed, hengine⟩ := hfirst
    have hanswered := (decides request).decided.asked hunpassed
    simp only [serve, RuleStore.serve, hengine, hanswered.store, hanswered.result, ih]

end

namespace Coordinator

/-- Whatever engine a coordinator has, and whichever requests to it fail, each operation comes to
its result in one of two ways.  A read is passed, and the store left alone, if a lookup has said
yes.  Otherwise, and so for every write, the store is asked exactly once and its answer is the
result; an error of the engine never is.  If the version could not be taken, nothing is given to
the engine.  A poisoned engine stays as it is, and leaves every decision to the store. -/
theorem engine_failures_decide_nothing {ε σ : Type} (engines : PolicyEngine ε)
    (stores : RuleStore σ) (request : StoreRequest) (found : ε) (held : σ) :
    let performed := (handle request).perform engines stores found held
    (performed.IsPassed → IsGranted held request performed) ∧
      (¬performed.IsPassed → IsAnswered stores held request performed) ∧
      (request.row?.isSome = true → IsAnswered stores held request performed) ∧
      (performed.MissesVersion →
        performed.AsksOnly fun asked => ∀ privilege, asked.Modest privilege) ∧
      ∀ base requests, serve Engine.answer stores requests { base, poisoned := true } held =
        ((stores.serve requests held).1, { base, poisoned := true },
          (stores.serve requests held).2) := by
  intro performed
  have hdecided : Decided stores held request performed := (decides request).decided
  refine ⟨hdecided.passed, hdecided.asked, fun hwrite => ?_, hdecided.cautious, fun base => ?_⟩
  · refine hdecided.asked fun hpassed => ?_
    rw [(hdecided.passed hpassed).read] at hwrite
    cases hwrite
  · exact serve_poisoned rfl

/-- An engine of which some requests fail, as a list says in advance. -/
def faltering : PolicyEngine (List Bool × Engine)
  | (true :: later, engine), _ => (.error .poisoned, later, engine)
  | (later, engine), request => ((engine.answer request).1, later.tail, (engine.answer request).2)

/-- The lookup of the resource fails, that of its type says no, and then the version fails too. -/
theorem check_answered_past_failures :
    let request := StoreRequest.validateAccess System.pageCheck
    let found := ([true, false, true], ({} : Engine))
    let performed :=
      (handle request).perform faltering MemoryStore.answer found System.someStore
    performed.result = .ok () ∧ performed.storeRequests = [request] ∧
      performed.engine = ([], {}) ∧
      performed.AsksOnly (fun asked => ∀ privilege, asked.Modest privilege) ∧
      (serve Engine.answer MemoryStore.answer [request] { poisoned := true }
        System.someStore).1 = [⟨request, some (.ok ())⟩] := by
  intro request found performed
  have hdecided := engine_failures_decide_nothing faltering MemoryStore.answer request found
    System.someStore
  have hevents : performed.events =
      [.asksEngine (.check System.someUser (.resource System.someResource) .get)
          (.error .poisoned),
        .asksEngine (.check System.someUser (.type .page) .get) (.ok false),
        .counts .misses,
        .asksEngine (.version System.someUser (.resource System.someResource)) (.error .poisoned),
        .asksStore request, .hears request (.ok ()), .counts .repairFailures] := rfl
  have hmisses : performed.MissesVersion := by
    rw [Performance.MissesVersion, hevents]
    exact ⟨_, .tail _ (.tail _ (.tail _ (.head _))), .inl ⟨_, _, _, rfl⟩⟩
  have hunpassed : ¬performed.IsPassed := by
    have hversion : ¬(CallEvent.asksEngine (.version System.someUser
        (.resource System.someResource)) (.error .poisoned)).Passes :=
      CallEvent.not_passes_error
    rw [Performance.IsPassed, hevents]
    simp [CallEvent.passes_check_iff, allows, hversion]
  obtain ⟨hrequests, hresult, -⟩ := hdecided.2.1 hunpassed
  refine ⟨hresult, hrequests, rfl, hdecided.2.2.2.1 hmisses, ?_⟩
  rw [hdecided.2.2.2.2]
  rfl

end Coordinator

end AccessControl
