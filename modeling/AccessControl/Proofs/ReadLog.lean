import AccessControl.Proofs.EngineFailure

/-!
# What a call has done where it rests

A call is followed from its beginning to a moment at which it waits for its store or has ended.  The
engine may reply anything to each of its requests, the store may answer anything, and the call may
be given up while it waits.  A check has then been counted once, as a hit or as a miss, and a miss
that the store of a coordinator has allowed has been counted once more.  No other call is counted.
-/

namespace AccessControl

/-! ## Calls in progress -/

/-- Where a call stands; with what it ends is left out. -/
inductive CallStage where
  | running (rest : Call Unit)
  /-- The store has been asked and has not answered. -/
  | waiting (request : StoreRequest) (onUnknown : List EngineUpdate)
      (next : request.Answer → Call Unit)

namespace CallStage

/-- Whether the call waits for its store or has ended. -/
def Rests : CallStage → Prop
  | running (.done _) => True
  | running _ => False
  | waiting .. => True

/-- One event takes a call from where it stands to where it stands then. -/
inductive Goes : CallStage → CallEvent → CallStage → Prop
  | asksEngine {request : EngineRequest} {next : Except EngineError request.Reply → Call Unit}
      (reply : Except EngineError request.Reply) :
      Goes (running (.engine request next)) (.asksEngine request reply) (running (next reply))
  | asksStore {request : StoreRequest} {onUnknown : List EngineUpdate}
      {next : request.Answer → Call Unit} :
      Goes (running (.store request onUnknown next)) (.asksStore request)
        (waiting request onUnknown next)
  | hears {request : StoreRequest} {onUnknown : List EngineUpdate}
      {next : request.Answer → Call Unit} (answer : request.Answer) :
      Goes (waiting request onUnknown next) (.hears request answer) (running (next answer))
  | isDropped {request : StoreRequest} {onUnknown : List EngineUpdate}
      {next : request.Answer → Call Unit} :
      Goes (waiting request onUnknown next) .isDropped (running (EngineUpdate.applyAll onUnknown))
  | counts {counter : Counter} {rest : Call Unit} :
      Goes (running (.count counter rest)) (.counts counter) (running rest)

/-- Events one after another. -/
inductive Path : CallStage → List CallEvent → CallStage → Prop
  | nil (stage : CallStage) : Path stage [] stage
  | cons {stage next last : CallStage} {event : CallEvent} {events : List CallEvent}
      (hgoes : stage.Goes event next) (hpath : Path next events last) :
      Path stage (event :: events) last

variable {stage last next : CallStage} {events : List CallEvent} {event : CallEvent}

/-- One event more. -/
theorem Path.concat (h : Path stage events last) (hgoes : last.Goes event next) :
    Path stage (events ++ [event]) next := by
  induction h with
  | nil => exact .cons hgoes (.nil _)
  | cons hfirst _ ih => exact .cons hfirst (ih hgoes)

/-! ## Paths that have come to rest -/

variable {counter : Counter} {rest : Call Unit}

theorem Path.of_done (h : Path (running (.done ())) events last) : events = [] := by
  cases h with
  | nil => rfl
  | cons hgoes => cases hgoes

theorem Path.of_count (h : Path (running (.count counter rest)) events last) (hrests : last.Rests) :
    ∃ later, events = .counts counter :: later ∧ Path (running rest) later last := by
  cases h with
  | nil => exact False.elim hrests
  | cons hgoes hrest =>
    cases hgoes
    exact ⟨_, rfl, hrest⟩

theorem Path.of_engine {request : EngineRequest}
    {next : Except EngineError request.Reply → Call Unit}
    (h : Path (running (.engine request next)) events last) (hrests : last.Rests) :
    ∃ reply later, events = .asksEngine request reply :: later ∧
      Path (running (next reply)) later last := by
  cases h with
  | nil => exact False.elim hrests
  | cons hgoes hrest =>
    cases hgoes
    exact ⟨_, _, rfl, hrest⟩

/-- A call that leaves nothing to be done if it is given up waits, is given up, or goes on with an
answer. -/
theorem Path.of_store {request : StoreRequest} {next : request.Answer → Call Unit}
    (h : Path (running (.store request [] next)) events last) (hrests : last.Rests) :
    events = [.asksStore request] ∨ events = [.asksStore request, .isDropped] ∨
      ∃ answer later, events = .asksStore request :: .hears request answer :: later ∧
        Path (running (next answer)) later last := by
  cases h with
  | nil => exact False.elim hrests
  | cons hgoes hrest =>
    cases hgoes
    cases hrest with
    | nil => exact .inl rfl
    | cons hgoes hrest =>
      cases hgoes with
      | hears answer => exact .inr (.inr ⟨answer, _, rfl, hrest⟩)
      | isDropped =>
        obtain rfl := hrest.of_done
        exact .inr (.inl rfl)

end CallStage

/-! ## Whose call it is -/

/-- Whether a request is a check. -/
def StoreRequest.isCheck : StoreRequest → Bool
  | validateAccess _ => true
  | validateAccessToType _ => true
  | _ => false

theorem StoreRequest.isCheck_iff {request : StoreRequest} :
    request.isCheck = true ↔ ∃ check : AccessCheck, request = check.request := by
  constructor
  · intro h
    cases request with
    | validateAccess check => exact ⟨.ofResource check, rfl⟩
    | validateAccessToType check => exact ⟨.ofType check, rfl⟩
    | _ => cases h
  · rintro ⟨check, rfl⟩
    cases check <;> rfl

/-- Who makes a call, and what is asked for. -/
inductive Caller where
  | coordinator (request : StoreRequest)
  /-- A scope that has held updates back for its commit. -/
  | scope (deferred : List EngineUpdate) (request : StoreRequest)
  deriving DecidableEq

namespace Caller

def request : Caller → StoreRequest
  | coordinator request => request
  | scope _ request => request

def isCoordinator : Caller → Bool
  | coordinator _ => true
  | scope .. => false

/-- Whether the call is a check. -/
def isCheck (caller : Caller) : Bool := caller.request.isCheck

/-- The call, with what it ends with left out. -/
def call : Caller → Call Unit
  | coordinator request => (Coordinator.handle request).map fun _ => ()
  | scope deferred request => (Scope.handle deferred request).map fun _ => ()

end Caller

/-! ## What is told from the events of a call -/

namespace CallEvent

/-- Whether the counter is moved. -/
def isCountOf (counter : Counter) : CallEvent → Bool
  | counts moved => moved = counter
  | _ => false

/-- Whether the store is asked to decide a check. -/
def asksCheck : CallEvent → Bool
  | asksStore request => request.isCheck
  | _ => false

/-- Whether the store has passed a check. -/
def hearsYes : CallEvent → Bool
  | hears request (.ok _) => request.isCheck
  | _ => false

end CallEvent

/-- How often the counter has been moved. -/
def tally (counter : Counter) (events : List CallEvent) : Nat :=
  events.countP (CallEvent.isCountOf counter)

/-! ## Checks -/

/-- As what the insertion of a fact is counted. -/
def Coordinator.repairCounter : Except EngineError Bool → Counter
  | .ok true => .repairs
  | .ok false => .staleRepairs
  | .error _ => .repairFailures

/-- What a check has done where it rests; `own` says that a coordinator makes it, and not a scope.
The engine was asked about some objects.  Then it was a hit, or a miss whose store has not allowed
it so far, or has allowed it.  A coordinator that was told so has made its insertion, if it could
take a version before. -/
inductive ReadLog (check : AccessCheck) : Bool → List CallEvent → Prop
  | look {own : Bool} {object : PolicyObject} {events : List CallEvent}
      (reply : Except EngineError Bool) (h : ReadLog check own events) :
      ReadLog check own (.asksEngine (.check check.subject object check.action) reply :: events)
  | hit (own : Bool) : ReadLog check own [.counts .hits]
  | unallowed (own : Bool) (taken rest : List CallEvent)
      (htaken : taken = [] ∨ ∃ seen, taken = [.asksEngine check.snapshot seen])
      (hrest : rest = [] ∨ rest = [.isDropped] ∨
        ∃ error, rest = [.hears check.request (.error error)]) :
      ReadLog check own (.counts .misses :: taken ++ .asksStore check.request :: rest)
  | passedOn (reply : check.request.Reply) : ReadLog check false
      [.counts .misses, .asksStore check.request, .hears check.request (.ok reply)]
  | unversioned (error : EngineError) (reply : check.request.Reply) : ReadLog check true
      [.counts .misses, .asksEngine check.snapshot (.error error), .asksStore check.request,
        .hears check.request (.ok reply), .counts .repairFailures]
  | inserted (seen : FactVersion) (reply : check.request.Reply) (made : Except EngineError Bool) :
      ReadLog check true [.counts .misses, .asksEngine check.snapshot (.ok seen),
        .asksStore check.request, .hears check.request (.ok reply),
        .asksEngine (check.insertion seen) made, .counts (Coordinator.repairCounter made)]

namespace ReadLog

open CallStage

variable {check : AccessCheck} {own : Bool} {last : CallStage} {events : List CallEvent}
  {call rest : Call (Except StorageError Unit)}

/-- However the call comes to rest, it has done what a check does. -/
def Logs (check : AccessCheck) (own : Bool) (call : Call (Except StorageError Unit)) : Prop :=
  ∀ events last, Path (running (call.map fun _ => ())) events last → last.Rests →
    ReadLog check own events

theorem logs_first {object : PolicyObject} (h : Logs check own rest) :
    Logs check own (check.first object rest) := by
  intro events last hpath hrests
  obtain ⟨reply, later, rfl, hlater⟩ := hpath.of_engine hrests
  refine .look reply ?_
  cases hallows : Coordinator.allows reply with
  | true =>
    simp only [hallows, if_true] at hlater
    obtain ⟨ended, rfl, hended⟩ := hlater.of_count hrests
    obtain rfl := hended.of_done
    exact .hit own
  | false =>
    simp only [hallows, Bool.false_eq_true, if_false] at hlater
    exact h _ _ hlater hrests

/-- A scope passes the answer of its store on. -/
theorem logs_scope (check : AccessCheck) {answered : check.request.Answer → _}
    (hdone : ∀ answer, ∃ result, answered answer = .done result) :
    Logs check false (.count .misses (.store check.request [] answered)) := by
  intro events last hpath hrests
  obtain ⟨later, rfl, hlater⟩ := hpath.of_count hrests
  rcases hlater.of_store hrests with rfl | rfl | ⟨answer, ended, rfl, hended⟩
  · exact .unallowed false [] [] (.inl rfl) (.inl rfl)
  · exact .unallowed false [] [.isDropped] (.inl rfl) (.inr (.inl rfl))
  · obtain ⟨result, hresult⟩ := hdone answer
    simp only [hresult] at hended
    obtain rfl := hended.of_done
    cases answer with
    | ok reply => exact .passedOn reply
    | error error => exact .unallowed false [] [_] (.inl rfl) (.inr (.inr ⟨error, rfl⟩))

theorem path_repair {seen : Except EngineError FactVersion}
    (hpath : Path (running ((Coordinator.repair check.subject check.object check.action seen).map
      fun _ => ())) events last) (hrests : last.Rests) :
    (∃ error, seen = .error error ∧ events = [.counts .repairFailures]) ∨
      ∃ version made, seen = .ok version ∧ events =
        [.asksEngine (check.insertion version) made,
          .counts (Coordinator.repairCounter made)] := by
  cases seen with
  | error error =>
    obtain ⟨ended, rfl, hended⟩ := hpath.of_count hrests
    obtain rfl := hended.of_done
    exact .inl ⟨error, rfl, rfl⟩
  | ok version =>
    obtain ⟨made, later, rfl, hlater⟩ := hpath.of_engine hrests
    refine .inr ⟨version, made, rfl, ?_⟩
    match made with
    | .ok true | .ok false | .error _ =>
      obtain ⟨ended, rfl, hended⟩ := hlater.of_count hrests
      obtain rfl := hended.of_done
      rfl

/-- A coordinator writes a yes of its store into the engine. -/
theorem logs_miss {answered} (hheeds : check.Heeds answered) :
    Logs check true (check.miss answered) := by
  intro events last hpath hrests
  obtain ⟨missed, rfl, hmissed⟩ := hpath.of_count hrests
  obtain ⟨seen, later, rfl, hlater⟩ := CallStage.Path.of_engine hmissed hrests
  have htaken : ∃ taken, [CallEvent.asksEngine check.snapshot seen] =
    [.asksEngine check.snapshot taken] := ⟨seen, rfl⟩
  rcases hlater.of_store hrests with rfl | rfl | ⟨answer, ended, rfl, hended⟩
  · exact .unallowed true _ [] (.inr htaken) (.inl rfl)
  · exact .unallowed true _ [.isDropped] (.inr htaken) (.inr (.inl rfl))
  · cases answer with
    | error error =>
      simp only [hheeds.denied] at hended
      obtain rfl := hended.of_done
      exact .unallowed true _ [_] (.inr htaken) (.inr (.inr ⟨error, rfl⟩))
    | ok reply =>
      simp only [hheeds.allowed] at hended
      rcases path_repair hended hrests with ⟨error, rfl, rfl⟩ | ⟨version, made, rfl, rfl⟩
      · exact .unversioned error reply
      · exact .inserted version reply made

/-- What a scope reads leaves nothing for the commit. -/
theorem map_plain (call : Call (Except StorageError Unit)) :
    ((Scope.plain call).map fun _ => ()) = call.map fun _ => () :=
  Call.bind_assoc call _ _

/-- Whoever makes a check has done so much where the check rests. -/
theorem of_path {caller : Caller} (hcheck : caller.request = check.request)
    (hpath : Path (running caller.call) events last) (hrests : last.Rests) :
    ReadLog check caller.isCoordinator events := by
  cases caller with
  | coordinator request =>
    obtain rfl : request = check.request := hcheck
    have hlogs : Logs check true check.call :=
      AccessCheck.call_induction (fun _ => logs_miss) fun _ _ => logs_first
    cases check <;> exact hlogs _ _ hpath hrests
  | scope deferred request =>
    obtain rfl : request = check.request := hcheck
    cases check with
    | ofResource check =>
      have hlogs : Logs (.ofResource check) false (Scope.validateAccess check) :=
        logs_first (logs_first (logs_scope (.ofResource check) fun answer => ⟨answer, rfl⟩))
      refine hlogs events last ?_ hrests
      rw [← map_plain]
      exact hpath
    | ofType check =>
      have hlogs : Logs (.ofType check) false (Scope.validateAccessToType check) :=
        logs_first (logs_scope (.ofType check) fun answer => ⟨answer, rfl⟩)
      refine hlogs events last ?_ hrests
      rw [← map_plain]
      exact hpath

/-! ## What a check has counted -/

/-- A check has been counted once, as a hit or as a miss, and its store has been asked exactly if it
was a miss.  A miss that the store of a coordinator has allowed has been counted once more, and no
other. -/
theorem tallies (h : ReadLog check own events) :
    tally .hits events + tally .misses events = 1 ∧
      events.countP CallEvent.asksCheck = tally .misses events ∧
        tally .repairs events + tally .staleRepairs events + tally .repairFailures events =
          (own && events.any CallEvent.hearsYes).toNat := by
  have hcheck : check.request.isCheck = true := StoreRequest.isCheck_iff.2 ⟨check, rfl⟩
  induction h with
  | look reply h ih =>
    simpa [tally, CallEvent.isCountOf, CallEvent.asksCheck, CallEvent.hearsYes] using ih
  | unallowed own taken rest htaken hrest =>
    rcases htaken with rfl | ⟨seen, rfl⟩ <;> rcases hrest with rfl | rfl | ⟨error, rfl⟩ <;>
      simp [tally, CallEvent.isCountOf, CallEvent.asksCheck, CallEvent.hearsYes, hcheck]
  | inserted seen reply made =>
    match made with
    | .ok true | .ok false | .error _ =>
      simp [tally, CallEvent.isCountOf, CallEvent.asksCheck, CallEvent.hearsYes, hcheck,
        Coordinator.repairCounter]
  | _ => simp [tally, CallEvent.isCountOf, CallEvent.asksCheck, CallEvent.hearsYes, hcheck]

/-- The insertion of a check is counted as stale exactly if it was not made. -/
theorem tally_staleRepairs {seen : FactVersion} {made : Except EngineError Bool}
    (h : ReadLog check own events)
    (hmem : .asksEngine (check.insertion seen) made ∈ events) :
    tally .staleRepairs events = if made = .ok false then 1 else 0 := by
  induction h with
  | look reply h ih =>
    have hlater := (List.mem_cons.1 hmem).resolve_left nofun
    simpa [tally, CallEvent.isCountOf] using ih hlater
  | unallowed own taken rest htaken hrest =>
    rcases htaken with rfl | ⟨seen, rfl⟩ <;> rcases hrest with rfl | rfl | ⟨error, rfl⟩ <;>
      simp at hmem
  | inserted version reply other =>
    obtain ⟨rfl, rfl⟩ : seen = version ∧ made = other := by simpa using hmem
    match made with
    | .ok true | .ok false | .error _ => rfl
  | _ => simp at hmem

/-- A check that is counted as stale has taken its snapshot, and later has not made its
insertion. -/
theorem exists_of_stale (h : ReadLog check own events) (hstale : tally .staleRepairs events ≠ 0) :
    ∃ seen before between after, events = before ++ .asksEngine check.snapshot (.ok seen) ::
      (between ++ .asksEngine (check.insertion seen) (.ok false) :: after) := by
  induction h with
  | look reply h ih =>
    obtain ⟨seen, before, between, after, rfl⟩ :=
      ih (by simpa [tally, CallEvent.isCountOf] using hstale)
    exact ⟨seen, _ :: before, between, after, rfl⟩
  | unallowed own taken rest htaken hrest =>
    rcases htaken with rfl | ⟨seen, rfl⟩ <;> rcases hrest with rfl | rfl | ⟨error, rfl⟩ <;>
      exact absurd rfl hstale
  | inserted seen reply made =>
    match made with
    | .ok false => exact ⟨seen, [_], [_, _], [_], rfl⟩
    | .ok true | .error _ => exact absurd rfl hstale
  | _ => exact absurd rfl hstale

end ReadLog

/-! ## All other calls -/

namespace Call

variable {α β : Type} {call : Call α}

/-- Nothing that the call may still do is counted, and the store is not asked to decide a check. -/
def Uncounted : Call α → Prop
  | done _ => True
  | engine _ next => ∀ reply, (next reply).Uncounted
  | store request _ next => request.isCheck = false ∧ ∀ answer, (next answer).Uncounted
  | count .. => False

theorem Uncounted.bind {next : α → Call β} (h : call.Uncounted)
    (hnext : ∀ result, (next result).Uncounted) : (call.bind next).Uncounted := by
  induction call with
  | done result => exact hnext result
  | engine request rest ih => exact fun reply => ih reply (h reply)
  | store request onUnknown rest ih => exact ⟨h.1, fun answer => ih answer (h.2 answer)⟩
  | count => exact False.elim h

theorem Uncounted.ask {request : EngineRequest} {next : request.Reply → Call (Except EngineError α)}
    (hnext : ∀ reply, (next reply).Uncounted) : (Call.ask request next).Uncounted := by
  rintro (error | reply)
  · trivial
  · exact hnext reply

end Call

theorem EngineUpdate.apply_uncounted (update : EngineUpdate) : update.apply.Uncounted :=
  apply_induction (fun _ => trivial) (fun _ _ _ => Call.Uncounted.ask)
    fun _ (_ : update.Asks _) => trivial

theorem EngineUpdate.applyAll_uncounted (updates : List EngineUpdate) :
    (applyAll updates).Uncounted := by
  induction updates with
  | nil => trivial
  | cons update rest ih => exact update.apply_uncounted.bind fun _ => ih

namespace Coordinator

theorem settle_uncounted {α : Type} (update : EngineUpdate) (result : α) :
    (settle update result).Uncounted :=
  update.apply_uncounted.bind fun _ => trivial

theorem refused_uncounted {α : Type} (error : StorageError) (onUnknown : List EngineUpdate) :
    (refused (α := α) error onUnknown).Uncounted := by
  unfold refused
  split
  · exact (EngineUpdate.applyAll_uncounted onUnknown).bind fun _ => trivial
  · trivial

theorem handle_uncounted {request : StoreRequest} (h : request.isCheck = false) :
    (handle request).Uncounted := by
  cases request with
  | create user grant =>
    refine fun seen => ⟨rfl, ?_⟩
    rintro (error | reply)
    · trivial
    · cases seen with
      | ok version => exact settle_uncounted _ _
      | error error => trivial
  | update user grant =>
    refine fun seen => ⟨rfl, ?_⟩
    rintro (error | touched)
    · exact refused_uncounted error _
    · cases seen with
      | ok version =>
        dsimp only
        split <;> exact settle_uncounted _ _
      | error error => exact settle_uncounted _ _
  | syncUserRole user role =>
    refine fun seen => ⟨rfl, ?_⟩
    rintro (error | reply)
    · exact refused_uncounted error _
    · cases seen <;> exact settle_uncounted _ _
  | delete | putRolePolicy =>
    refine ⟨rfl, ?_⟩
    rintro (error | reply)
    · exact refused_uncounted error _
    · exact settle_uncounted _ _
  | validateAccess | validateAccessToType => cases h
  | allPermissions | allUserRoles | commit | rollback => exact ⟨rfl, fun _ => trivial⟩

end Coordinator

theorem Scope.handle_uncounted {request : StoreRequest} (h : request.isCheck = false)
    (deferred : List EngineUpdate) : (handle deferred request).Uncounted := by
  cases request with
  | create user grant =>
    refine ⟨rfl, ?_⟩
    rintro (error | reply)
    · trivial
    · rintro (error | seen) <;> trivial
  | update user grant =>
    refine ⟨rfl, ?_⟩
    rintro (error | touched)
    · trivial
    · refine (EngineUpdate.apply_uncounted _).bind fun _ => ?_
      rintro (error | seen)
      · trivial
      · dsimp only
        split <;> trivial
  | syncUserRole user role =>
    refine ⟨rfl, ?_⟩
    rintro (error | reply)
    · trivial
    · refine (EngineUpdate.apply_uncounted _).bind fun _ => ?_
      rintro (error | seen) <;> trivial
  | delete | putRolePolicy =>
    refine ⟨rfl, ?_⟩
    rintro (error | reply)
    · trivial
    · exact (EngineUpdate.apply_uncounted _).bind fun _ => trivial
  | commit =>
    refine ⟨rfl, ?_⟩
    rintro (error | reply)
    · exact (Coordinator.refused_uncounted error _).bind fun _ => trivial
    · refine Call.Uncounted.bind ?_ fun _ => trivial
      exact (EngineUpdate.applyAll_uncounted deferred).bind fun _ => trivial
  | validateAccess | validateAccessToType => cases h
  | allPermissions | allUserRoles | rollback => exact ⟨rfl, fun _ => trivial⟩

/-- What is not a check is never counted, whoever asks for it. -/
theorem Caller.call_uncounted {caller : Caller} (h : caller.isCheck = false) :
    caller.call.Uncounted := by
  cases caller with
  | coordinator request =>
    have hhandle : (Coordinator.handle request).Uncounted := Coordinator.handle_uncounted h
    exact hhandle.bind fun _ => trivial
  | scope deferred request =>
    have hhandle : (Scope.handle deferred request).Uncounted := Scope.handle_uncounted h deferred
    exact hhandle.bind fun _ => trivial

namespace CallStage

/-- Nothing that the call may still do is counted, wherever it stands. -/
def Uncounted : CallStage → Prop
  | running rest => rest.Uncounted
  | waiting _ _ next => ∀ answer, (next answer).Uncounted

variable {stage next last : CallStage} {event : CallEvent} {events : List CallEvent}

theorem Goes.uncounted (h : stage.Goes event next) (hstage : stage.Uncounted) :
    (∀ counter, event.isCountOf counter = false) ∧ event.asksCheck = false ∧ next.Uncounted := by
  cases h with
  | asksEngine reply => exact ⟨fun _ => rfl, rfl, hstage reply⟩
  | asksStore => exact ⟨fun _ => rfl, hstage⟩
  | hears answer => exact ⟨fun _ => rfl, rfl, hstage answer⟩
  | isDropped => exact ⟨fun _ => rfl, rfl, EngineUpdate.applyAll_uncounted _⟩
  | counts => exact False.elim hstage

theorem Path.uncounted (h : Path stage events last) (hstage : stage.Uncounted) :
    (∀ counter, tally counter events = 0) ∧ events.countP CallEvent.asksCheck = 0 := by
  induction h with
  | nil => exact ⟨fun _ => rfl, rfl⟩
  | cons hgoes hpath ih =>
    obtain ⟨hcounts, hasks, hnext⟩ := hgoes.uncounted hstage
    obtain ⟨htally, hnone⟩ := ih hnext
    refine ⟨fun counter => ?_, ?_⟩
    · simpa [tally, hcounts counter] using htally counter
    · simpa [hasks] using hnone

end CallStage

end AccessControl
