import AccessControl.Proofs.ReadLog

/-!
# The counters account for every read

A coordinator and the scopes that it has opened make any number of calls, whose events come in any
order, and others use the same engine beside them.  Each request to the engine may fail, and each
request to the store may be answered with anything or be given up.  A request that fails although it
was carried out is one of those that others make.  Whenever each check waits for its store or has
ended, the counters of the coordinator say how the checks have gone.
-/

namespace AccessControl

/-! ## Calls that share an engine and counters -/

/-- A call that has been started: what it has done so far, and where it stands. -/
structure StartedCall where
  caller : Caller
  events : List CallEvent := []
  stage : CallStage := .running caller.call

namespace StartedCall

/-- What some number of each call makes for all of them. -/
def total (count : StartedCall → Nat) : List StartedCall → Nat
  | [] => 0
  | call :: rest => count call + total count rest

variable {count other : StartedCall → Nat} {calls : List StartedCall} {call : StartedCall}

theorem total_concat : total count (calls ++ [call]) = total count calls + count call := by
  induction calls with
  | nil => simp [total]
  | cons first rest ih => simp only [List.cons_append, total, ih, Nat.add_assoc]

theorem total_set {id : Nat} (h : calls[id]? = some call) (next : StartedCall) :
    total count (calls.set id next) + count call = total count calls + count next := by
  induction calls generalizing id with
  | nil => simp at h
  | cons first rest ih =>
    cases id with
    | zero =>
      obtain rfl : first = call := by simpa using h
      simp only [List.set_cons_zero, total]
      omega
    | succ id =>
      have hrest := ih (by simpa using h)
      simp only [List.set_cons_succ, total]
      omega

theorem total_add :
    total (fun call => count call + other call) calls = total count calls + total other calls := by
  induction calls with
  | nil => rfl
  | cons first rest ih =>
    simp only [total, ih]
    omega

/-- A property of every call gives a number of calls. -/
theorem total_eq_countP {property : StartedCall → Bool}
    (h : ∀ call ∈ calls, count call = (property call).toNat) :
    total count calls = calls.countP property := by
  induction calls with
  | nil => rfl
  | cons first rest ih =>
    rw [List.forall_mem_cons] at h
    rw [total, h.1, ih h.2]
    cases hfirst : property first <;> simp [hfirst, Nat.add_comm]

theorem total_congr (h : ∀ call ∈ calls, count call = other call) :
    total count calls = total other calls := by
  induction calls with
  | nil => rfl
  | cons first rest ih =>
    rw [List.forall_mem_cons] at h
    rw [total, total, h.1, ih h.2]

end StartedCall

/-- An engine, the counters of one coordinator, and the calls that it and its scopes make. -/
structure ReadSystem where
  base : FactBase
  counters : Counters := {}
  calls : List StartedCall := []

/-- What can happen. -/
inductive Happening where
  | starts (caller : Caller)
  /-- An event of the call with this number. -/
  | goes (id : Nat) (event : CallEvent)
  /-- Somebody else makes a request to the engine. -/
  | others (request : EngineRequest) (reply : request.Reply)

namespace Happening

/-- The request that reaches the engine, with its reply. -/
def engineEvent? : Happening → Option EngineEvent
  | goes _ (.asksEngine request (.ok reply)) => some ⟨request, reply⟩
  | others request reply => some ⟨request, reply⟩
  | _ => none

/-- The event of one call. -/
def eventOf? (id : Nat) : Happening → Option CallEvent
  | goes other event => if other = id then some event else none
  | _ => none

end Happening

/-- What an event of a call does to the engine: a request is carried out, or fails and does
nothing. -/
inductive CallEvent.Meets (base : FactBase) : CallEvent → FactBase → Prop
  | answered (request : EngineRequest) :
      Meets base (.asksEngine request (.ok (base.answer request).1)) (base.answer request).2
  | failed (request : EngineRequest) (error : EngineError) :
      Meets base (.asksEngine request (.error error)) base
  | asksStore (request : StoreRequest) : Meets base (.asksStore request) base
  | hears (request : StoreRequest) (answer : request.Answer) :
      Meets base (.hears request answer) base
  | isDropped : Meets base .isDropped base
  | counts (counter : Counter) : Meets base (.counts counter) base

namespace Counters

/-- How often something was counted, as a machine word says it. -/
def read (counters : Counters) : Counter → UInt64
  | .hits => counters.hits
  | .misses => counters.misses
  | .repairs => counters.repairs
  | .staleRepairs => counters.staleRepairs
  | .repairFailures => counters.repairFailures

/-- The counters after an event of a call. -/
def after (counters : Counters) : CallEvent → Counters
  | .counts counter => counters.count counter
  | _ => counters

theorem read_after (counters : Counters) (event : CallEvent) (counter : Counter) :
    (counters.after event).read counter =
      counters.read counter + .ofNat (event.isCountOf counter).toNat := by
  cases event with
  | counts moved => cases moved <;> cases counter <;> simp [after, count, read, CallEvent.isCountOf]
  | _ => simp [after, CallEvent.isCountOf]

end Counters

namespace ReadSystem

/-- What can happen, and the system after it. -/
inductive Step : ReadSystem → Happening → ReadSystem → Prop
  | starts (system : ReadSystem) (caller : Caller) :
      Step system (.starts caller) { system with calls := system.calls ++ [{ caller }] }
  | goes {system : ReadSystem} {id : Nat} {call : StartedCall} {event : CallEvent}
      {stage : CallStage} {base : FactBase} (hcall : system.calls[id]? = some call)
      (hgoes : call.stage.Goes event stage) (hmeets : event.Meets system.base base) :
      Step system (.goes id event)
        { base, counters := system.counters.after event
          calls := system.calls.set id { call with events := call.events ++ [event], stage } }
  | others (system : ReadSystem) (request : EngineRequest) :
      Step system (.others request (system.base.answer request).1)
        { system with base := (system.base.answer request).2 }

/-- What happens one after another. -/
inductive Runs : ReadSystem → List Happening → ReadSystem → Prop
  | nil (system : ReadSystem) : Runs system [] system
  | cons {system next last : ReadSystem} {happening : Happening} {rest : List Happening}
      (hstep : system.Step happening next) (hruns : Runs next rest last) :
      Runs system (happening :: rest) last

variable {system next last : ReadSystem} {happening : Happening}
  {happenings before after : List Happening}

/-- A run can be cut at any moment. -/
theorem Runs.of_append (h : Runs system (before ++ after) last) :
    ∃ next, Runs system before next ∧ Runs next after last := by
  induction before generalizing system with
  | nil => exact ⟨system, .nil system, h⟩
  | cons happening rest ih =>
    cases h with
    | cons hstep hruns =>
      obtain ⟨next, hbefore, hafter⟩ := ih hruns
      exact ⟨next, .cons hstep hbefore, hafter⟩

theorem Runs.of_cons (h : Runs system (happening :: after) last) :
    ∃ next, system.Step happening next ∧ Runs next after last := by
  cases h with
  | cons hstep hruns => exact ⟨_, hstep, hruns⟩

/-! ## The engine -/

theorem Step.engine (h : system.Step happening next) :
    ∃ requests, next.base = system.base.afterAll requests ∧
      system.base.events requests = happening.engineEvent?.toList := by
  cases h with
  | starts => exact ⟨[], rfl, rfl⟩
  | others request => exact ⟨[request], rfl, rfl⟩
  | goes hcall hgoes hmeets =>
    cases hmeets with
    | answered request => exact ⟨[request], rfl, rfl⟩
    | _ => exact ⟨[], rfl, rfl⟩

/-- What reaches the engine is all that happens to it. -/
theorem Runs.engine (h : Runs system happenings last) :
    ∃ requests, last.base = system.base.afterAll requests ∧
      system.base.events requests = happenings.filterMap Happening.engineEvent? := by
  induction h with
  | nil => exact ⟨[], rfl, rfl⟩
  | @cons system next last happening rest hstep hruns ih =>
    obtain ⟨first, hfirst, hone⟩ := hstep.engine
    obtain ⟨later, hlater, hmany⟩ := ih
    refine ⟨first ++ later, ?_, ?_⟩
    · rw [hlater, hfirst, FactBase.afterAll_append]
    · rw [FactBase.events_append, ← hfirst, hone, hmany]
      cases hevent : happening.engineEvent? <;> simp [hevent]

/-- A snapshot says where the counters stand and changes nothing. -/
theorem Step.of_snapshot {id : Nat} {subject : UserId} {object : PolicyObject} {seen : FactVersion}
    (h : system.Step (.goes id (.asksEngine (.version subject object) (.ok seen))) next) :
    seen = system.base.version subject object ∧ next.base = system.base := by
  cases h with
  | goes hcall hgoes hmeets =>
    cases hmeets
    exact ⟨rfl, rfl⟩

/-- An insertion is made exactly if the counters stand where its snapshot says. -/
theorem Step.of_insertion {id : Nat} {subject : UserId} {object : PolicyObject} {action : Action}
    {seen : FactVersion} {made : Bool}
    (h : system.Step (.goes id (.asksEngine (.addFactIfCurrent subject object action seen)
      (.ok made))) next) : made = true ↔ system.base.version subject object = seen := by
  cases h with
  | goes hcall hgoes hmeets =>
    cases hmeets
    simp only [FactBase.answer]
    split <;> simp [*]

/-! ## The calls -/

/-- What the call with a number has done, if there is one. -/
def eventsOf (system : ReadSystem) (id : Nat) : List CallEvent :=
  (system.calls[id]?).elim [] StartedCall.events

theorem eventsOf_of_getElem? {id : Nat} {call : StartedCall} (h : system.calls[id]? = some call) :
    system.eventsOf id = call.events := by
  rw [eventsOf, h]
  rfl

theorem Step.eventsOf (h : system.Step happening next) (id : Nat) :
    next.eventsOf id = system.eventsOf id ++ (happening.eventOf? id).toList := by
  cases h with
  | starts caller =>
    -- the new call has done nothing so far
    have hnew : ∀ index : Nat,
        (([{ caller }] : List StartedCall)[index]?).elim [] StartedCall.events = [] := by
      intro index
      cases index <;> rfl
    simp only [ReadSystem.eventsOf, Happening.eventOf?, Option.toList_none, List.append_nil,
      List.getElem?_append]
    split
    case isTrue => rfl
    case isFalse hlength => rw [hnew, List.getElem?_eq_none (Nat.le_of_not_lt hlength), Option.elim]
  | others request => exact (List.append_nil _).symm
  | @goes other call event stage base hcall hgoes hmeets =>
    have hlength : other < system.calls.length := (List.getElem?_eq_some_iff.1 hcall).1
    simp only [ReadSystem.eventsOf, Happening.eventOf?]
    by_cases hid : other = id
    · subst hid
      simp [List.getElem?_set_self hlength, hcall]
    · simp [List.getElem?_set_ne hid, hid]

/-- A call has done what has happened to it. -/
theorem Runs.eventsOf (h : Runs system happenings last) (id : Nat) :
    last.eventsOf id = system.eventsOf id ++ happenings.filterMap (Happening.eventOf? id) := by
  induction h with
  | nil => simp
  | @cons system next last happening rest hstep hruns ih =>
    rw [ih, hstep.eventsOf id]
    cases hevent : happening.eventOf? id <;> simp [hevent]

/-- How many events of the calls have a property. -/
def number (property : CallEvent → Bool) (system : ReadSystem) : Nat :=
  StartedCall.total (fun call => call.events.countP property) system.calls

/-- The number after one event more of a call. -/
theorem number_goes {property : CallEvent → Bool} {id : Nat} {call : StartedCall}
    {event : CallEvent} {stage : CallStage} {base : FactBase} {counters : Counters}
    (h : system.calls[id]? = some call) :
    number property
        { base, counters
          calls := system.calls.set id { call with events := call.events ++ [event], stage } } =
      system.number property + (property event).toNat := by
  have hset : number property
        { base, counters
          calls := system.calls.set id { call with events := call.events ++ [event], stage } } +
          call.events.countP property =
        system.number property + (call.events ++ [event]).countP property :=
    StartedCall.total_set h _
  cases hevent : property event <;> simp [hevent] at hset ⊢ <;> omega

/-- What holds at every moment: each call has come from its beginning to where it stands, and the
counters say how often they were moved. -/
structure Kept (system : ReadSystem) : Prop where
  paths : ∀ call ∈ system.calls,
    CallStage.Path (.running call.caller.call) call.events call.stage
  counters : ∀ counter,
    system.counters.read counter = .ofNat (system.number (CallEvent.isCountOf counter))

theorem kept_initial (base : FactBase) : Kept { base } := by
  refine ⟨fun _ hmem => absurd hmem List.not_mem_nil, fun counter => ?_⟩
  cases counter <;> rfl

theorem Step.kept (h : system.Step happening next) (hkept : system.Kept) : next.Kept := by
  obtain ⟨hpaths, hcounters⟩ := hkept
  cases h with
  | starts caller =>
    refine ⟨fun call hmem => ?_, fun counter => ?_⟩
    · rcases List.mem_append.1 hmem with hold | hnew
      · exact hpaths call hold
      · obtain rfl := List.mem_singleton.1 hnew
        exact .nil _
    · rw [number, StartedCall.total_concat]
      exact hcounters counter
  | others request => exact ⟨hpaths, hcounters⟩
  | @goes id call event stage base hcall hgoes hmeets =>
    refine ⟨fun other hmem => ?_, fun counter => ?_⟩
    · rcases List.mem_or_eq_of_mem_set hmem with hold | rfl
      · exact hpaths other hold
      · exact (hpaths call (List.mem_of_getElem? hcall)).concat hgoes
    · rw [number_goes hcall, UInt64.ofNat_add, Counters.read_after, hcounters]

theorem Runs.kept (h : Runs system happenings last) (hkept : system.Kept) : last.Kept := by
  induction h with
  | nil => exact hkept
  | cons hstep hruns ih => exact ih (hstep.kept hkept)

/-! ## What the counters say -/

/-- Every check waits for its store or has ended. -/
def ChecksRest (system : ReadSystem) : Prop :=
  ∀ call ∈ system.calls, call.caller.isCheck = true → call.stage.Rests

/-- How many checks have been started. -/
def checks (system : ReadSystem) : Nat := system.calls.countP fun call => call.caller.isCheck

end ReadSystem

/-- Whether a check of the coordinator itself has been passed by its store. -/
def StartedCall.isAllowed (call : StartedCall) : Bool :=
  call.caller.isCoordinator && call.caller.isCheck && call.events.any CallEvent.hearsYes

/-- Whether one of the requests has revoked something from the subject or about the object. -/
def AccessCheck.Revoked (check : AccessCheck) (events : List EngineEvent) : Prop :=
  ∃ event ∈ events,
    event.revokesSubject check.subject = true ∨ event.revokesObject check.object = true

/-- What happens between the snapshot and the insertion of a check, where the engine has failed
neither. -/
def AccessCheck.Spans (check : AccessCheck) (id : Nat) (happenings between : List Happening) :
    Prop :=
  ∃ seen made before after, happenings =
    before ++ .goes id (.asksEngine check.snapshot (.ok seen)) ::
      (between ++ .goes id (.asksEngine (check.insertion seen) (.ok made)) :: after)

/-- The requests that reach the engine, each with its reply. -/
def engineEvents (happenings : List Happening) : List EngineEvent :=
  happenings.filterMap Happening.engineEvent?

/-- A check has been counted as stale exactly if both its snapshot and its insertion have reached
the engine and a revocation has between them.  Counters that wrap around may miss a revocation only
if as many are made as a counter has values. -/
structure AccessCheck.StaleExactly (check : AccessCheck) (id : Nat) (happenings : List Happening)
    (events : List CallEvent) : Prop where
  spanned : tally .staleRepairs events ≠ 0 → ∃ between, check.Spans id happenings between
  revoked : ∀ between, check.Spans id happenings between →
    tally .staleRepairs events ≠ 0 → check.Revoked (engineEvents between)
  counted : ∀ between, check.Spans id happenings between →
    check.Revoked (engineEvents between) →
      (engineEvents between).countP EngineEvent.moves < UInt64.size →
        tally .staleRepairs events ≠ 0

/-- What the counters of a coordinator say after everything that has happened. -/
structure ReadSystem.Accounted (system : ReadSystem) (happenings : List Happening) : Prop where
  /-- Each check has been counted as a hit or as a miss. -/
  reads : system.counters.hits.toNat + system.counters.misses.toNat = system.checks
  /-- The store has been asked once for each miss. -/
  asked : system.number CallEvent.asksCheck = system.counters.misses.toNat
  /-- Each miss of the coordinator itself that its store has passed has been counted again. -/
  passed : system.counters.repairs.toNat + system.counters.staleRepairs.toNat +
    system.counters.repairFailures.toNat = system.calls.countP StartedCall.isAllowed
  once : ∀ call ∈ system.calls, call.isAllowed = true →
    tally .repairs call.events + tally .staleRepairs call.events +
      tally .repairFailures call.events = 1
  stale : ∀ (id : Nat) (call : StartedCall) (check : AccessCheck),
    system.calls[id]? = some call → call.caller = .coordinator check.request →
      check.StaleExactly id happenings call.events
  uncounted : ∀ call ∈ system.calls, call.caller.isCheck = false →
    ∀ counter, tally counter call.events = 0

/-! ## Stale insertions -/

/-- Without a revocation the version of a pair stays. -/
theorem FactBase.version_of_not_revoked {base : FactBase} {requests : List EngineRequest}
    {check : AccessCheck} (h : ¬check.Revoked (base.events requests)) :
    (base.afterAll requests).version check.subject check.object =
      base.version check.subject check.object := by
  have hunrevoked : ∀ event ∈ base.events requests,
      event.revokesSubject check.subject = false ∧ event.revokesObject check.object = false := by
    simpa [AccessCheck.Revoked, not_or] using h
  rw [version_afterAll, subjectRevocations_eq_zero.2 fun event hmem => (hunrevoked event hmem).1,
    objectRevocations_eq_zero.2 fun event hmem => (hunrevoked event hmem).2]
  exact FactVersion.advanced_zero

theorem Happening.eventOf?_eq_some {id : Nat} {happening : Happening} {event : CallEvent} :
    happening.eventOf? id = some event ↔ happening = .goes id event := by
  cases happening with
  | goes other event => by_cases h : other = id <;> simp [eventOf?, h]
  | _ => simp [eventOf?]

/-- Two events of a call are two moments of the run. -/
theorem Happening.exists_of_filterMap {id : Nat} {happenings : List Happening}
    {before between after : List CallEvent} {first second : CallEvent}
    (h : happenings.filterMap (eventOf? id) = before ++ first :: (between ++ second :: after)) :
    ∃ before between after, happenings =
      before ++ .goes id first :: (between ++ .goes id second :: after) := by
  obtain ⟨early, late, rfl, -, hlate⟩ := List.filterMap_eq_append_iff.1 h
  obtain ⟨quiet, happening, rest, rfl, -, hfirst, hrest⟩ := List.filterMap_eq_cons_iff.1 hlate
  obtain ⟨middle, later, rfl, -, hlater⟩ := List.filterMap_eq_append_iff.1 hrest
  obtain ⟨silent, other, final, rfl, -, hsecond, -⟩ := List.filterMap_eq_cons_iff.1 hlater
  obtain rfl := eventOf?_eq_some.1 hfirst
  obtain rfl := eventOf?_eq_some.1 hsecond
  exact ⟨early ++ quiet, middle ++ silent, final, by simp⟩

namespace ReadSystem

variable {base : FactBase} {system : ReadSystem} {happenings : List Happening}

theorem Runs.staleExactly {id : Nat} {check : AccessCheck} {events : List CallEvent}
    (h : Runs { base } happenings system)
    (hevents : events = happenings.filterMap (Happening.eventOf? id))
    (hlog : ReadLog check true events) : check.StaleExactly id happenings events := by
  -- what comes between decides whether the insertion is made
  have hspan : ∀ between, check.Spans id happenings between →
      ∃ base requests made, FactBase.events base requests = engineEvents between ∧
        (made = true ↔ (base.afterAll requests).version check.subject check.object =
          base.version check.subject check.object) ∧
        tally .staleRepairs events = if made = false then 1 else 0 := by
    rintro between ⟨seen, made, before, after, rfl⟩
    obtain ⟨first, -, hfirst⟩ := h.of_append
    obtain ⟨second, hsnapshot, hsecond⟩ := hfirst.of_cons
    obtain ⟨third, hbetween, hthird⟩ := hsecond.of_append
    obtain ⟨fourth, hinsertion, -⟩ := hthird.of_cons
    obtain ⟨rfl, hsame⟩ := hsnapshot.of_snapshot
    obtain ⟨requests, hthirdBase, hreached⟩ := hbetween.engine
    rw [hsame] at hthirdBase hreached
    refine ⟨first.base, requests, made, hreached, ?_, ?_⟩
    · rw [← hthirdBase]
      exact hinsertion.of_insertion
    · have hmem : .asksEngine (check.insertion (first.base.version check.subject check.object))
          (.ok made) ∈ events := by
        rw [hevents, List.mem_filterMap]
        exact ⟨_, by simp, Happening.eventOf?_eq_some.2 rfl⟩
      simpa using hlog.tally_staleRepairs hmem
  refine ⟨fun hstale => ?_, fun between hspans hstale => ?_, fun between hspans hrevoked hfew => ?_⟩
  · obtain ⟨seen, before, between, after, heq⟩ := hlog.exists_of_stale hstale
    obtain ⟨before, between, after, rfl⟩ := Happening.exists_of_filterMap (hevents.symm.trans heq)
    exact ⟨between, seen, false, before, after, rfl⟩
  · obtain ⟨base, requests, made, hreached, hmade, htally⟩ := hspan between hspans
    rw [← hreached]
    refine Classical.byContradiction fun hunrevoked => ?_
    have hmade : made = true := hmade.2 (FactBase.version_of_not_revoked hunrevoked)
    simp [htally, hmade] at hstale
  · obtain ⟨base, requests, made, hreached, hmade, htally⟩ := hspan between hspans
    rw [← hreached] at hrevoked hfew
    have hnot : made = false := by
      rw [← Bool.not_eq_true, hmade, FactBase.version_afterAll_eq_iff hfew]
      intro hunrevoked
      obtain ⟨event, hmem, hrevokes⟩ := hrevoked
      simp [hunrevoked event hmem] at hrevokes
    simp [htally, hnot]

end ReadSystem

/-! ## Every read is accounted for -/

/-- A single call has been counted as it should be. -/
structure StartedCall.IsAccounted (call : StartedCall) : Prop where
  reads : tally .hits call.events + tally .misses call.events = call.caller.isCheck.toNat
  asked : call.events.countP CallEvent.asksCheck = tally .misses call.events
  passed : tally .repairs call.events + tally .staleRepairs call.events +
    tally .repairFailures call.events = call.isAllowed.toNat

namespace ReadSystem

variable {base : FactBase} {system : ReadSystem} {happenings : List Happening}
  {call : StartedCall}

theorem Kept.readLog (h : system.Kept) (hrests : system.ChecksRest) (hmem : call ∈ system.calls)
    {check : AccessCheck} (hcheck : call.caller.request = check.request) :
    ReadLog check call.caller.isCoordinator call.events :=
  .of_path hcheck (h.paths call hmem)
    (hrests call hmem (StoreRequest.isCheck_iff.2 ⟨check, hcheck⟩))

theorem Kept.uncounted (h : system.Kept) (hmem : call ∈ system.calls)
    (hother : call.caller.isCheck = false) :
    (∀ counter, tally counter call.events = 0) ∧ call.events.countP CallEvent.asksCheck = 0 :=
  (h.paths call hmem).uncounted (Caller.call_uncounted hother)

/-- Where every check rests, each call is accounted for. -/
theorem Kept.isAccounted (h : system.Kept) (hrests : system.ChecksRest)
    (hmem : call ∈ system.calls) : call.IsAccounted := by
  cases hcheck : call.caller.isCheck with
  | true =>
    have hallowed : call.isAllowed =
        (call.caller.isCoordinator && call.events.any CallEvent.hearsYes) := by
      simp [StartedCall.isAllowed, hcheck]
    obtain ⟨check, hrequest⟩ := StoreRequest.isCheck_iff.1 hcheck
    obtain ⟨hreads, hasked, hpassed⟩ := (h.readLog hrests hmem hrequest).tallies
    refine ⟨?_, hasked, ?_⟩
    · rw [hcheck, hreads]
      rfl
    · rw [hallowed, hpassed]
  | false =>
    obtain ⟨htally, hnone⟩ := h.uncounted hmem hcheck
    refine ⟨?_, ?_, ?_⟩ <;> simp [htally, hnone, StartedCall.isAllowed, hcheck]

/-- A counter that is moved fewer times than it has values says how often it was moved. -/
theorem Kept.read_toNat (h : system.Kept) (counter : Counter)
    (hfew : system.number (CallEvent.isCountOf counter) < UInt64.size) :
    (system.counters.read counter).toNat = system.number (CallEvent.isCountOf counter) := by
  rw [h.counters, UInt64.toNat_ofNat_of_lt' hfew]

/-- At every moment at which each check waits for its store or has ended, the counters account for
all the checks that have been started, whatever the engine and the stores have replied, and whoever
else has used the engine.  No other call of the coordinator or of a scope has moved a counter. -/
theorem counters_account_for_reads (hruns : Runs { base } happenings system)
    (hrests : system.ChecksRest) (hfew : system.checks < UInt64.size) :
    system.Accounted happenings := by
  have hkept := hruns.kept (kept_initial base)
  have hcalls : ∀ call ∈ system.calls, call.IsAccounted := fun call => hkept.isAccounted hrests
  have hreads : system.number (CallEvent.isCountOf .hits) +
      system.number (CallEvent.isCountOf .misses) = system.checks := by
    rw [number, number, ← StartedCall.total_add]
    exact StartedCall.total_eq_countP fun call hmem => (hcalls call hmem).reads
  have hpassed : system.number (CallEvent.isCountOf .repairs) +
      system.number (CallEvent.isCountOf .staleRepairs) +
        system.number (CallEvent.isCountOf .repairFailures) =
          system.calls.countP StartedCall.isAllowed := by
    rw [number, number, number, ← StartedCall.total_add, ← StartedCall.total_add]
    exact StartedCall.total_eq_countP fun call hmem => (hcalls call hmem).passed
  have hfewer : system.calls.countP StartedCall.isAllowed ≤ system.checks := by
    refine List.countP_mono_left fun call _ hallowed => ?_
    simp only [StartedCall.isAllowed, Bool.and_eq_true] at hallowed
    exact hallowed.1.2
  -- there are too few checks for a counter to have wrapped around
  have hhits : system.counters.hits.toNat = _ := hkept.read_toNat .hits (by omega)
  have hmisses : system.counters.misses.toNat = _ := hkept.read_toNat .misses (by omega)
  have hmade : system.counters.repairs.toNat = _ := hkept.read_toNat .repairs (by omega)
  have hstale : system.counters.staleRepairs.toNat = _ := hkept.read_toNat .staleRepairs (by omega)
  have hfailed : system.counters.repairFailures.toNat = _ :=
    hkept.read_toNat .repairFailures (by omega)
  refine ⟨by omega, ?_, by omega, ?_, ?_, fun call hmem hother => (hkept.uncounted hmem hother).1⟩
  · rw [hmisses]
    exact StartedCall.total_congr fun call hmem => (hcalls call hmem).asked
  · intro call hmem hallowed
    rw [(hcalls call hmem).passed, hallowed]
    rfl
  · intro id call check hcall hcaller
    have hmem := List.mem_of_getElem? hcall
    have hevents : call.events = happenings.filterMap (Happening.eventOf? id) := by
      have hdone := hruns.eventsOf id
      rwa [eventsOf_of_getElem? hcall] at hdone
    have hlog := hkept.readLog hrests hmem (congrArg Caller.request hcaller)
    rw [hcaller] at hlog
    exact hruns.staleExactly hevents hlog

/-- The store of a coordinator passes a check after its fact was revoked, while the engine fails at
times.  The same check within a scope is given up. -/
def staleRead : List Happening :=
  let check := AccessCheck.ofResource System.pageCheck
  let lookup : EngineRequest := .check check.subject check.object check.action
  let broad : EngineRequest := .check check.subject (.type .page) check.action
  [.starts (.coordinator check.request), .starts (.scope [] check.request),
    .goes 0 (.asksEngine lookup (.error .poisoned)), .goes 0 (.asksEngine broad (.ok false)),
    .goes 0 (.counts .misses), .goes 0 (.asksEngine check.snapshot (.ok ⟨0, 0⟩)),
    .goes 1 (.asksEngine lookup (.ok false)), .goes 0 (.asksStore check.request),
    .others (.removeFacts check.subject check.object) 0,
    .goes 1 (.asksEngine broad (.error .poisoned)), .goes 1 (.counts .misses),
    .goes 0 (.hears check.request (.ok ())), .goes 1 (.asksStore check.request),
    .goes 0 (.asksEngine (check.insertion ⟨0, 0⟩) (.ok false)), .goes 1 .isDropped,
    .goes 0 (.counts .staleRepairs)]

theorem Step.exists_runs {next : ReadSystem} {happening : Happening} {property : ReadSystem → Prop}
    (hstep : system.Step happening next)
    (hrest : ∃ last, Runs next happenings last ∧ property last) :
    ∃ last, Runs system (happening :: happenings) last ∧ property last := by
  obtain ⟨last, hruns, hlast⟩ := hrest
  exact ⟨last, .cons hstep hruns, hlast⟩

theorem staleRead_accounted : ∃ system : ReadSystem,
    Runs { base := ∅ } staleRead system ∧ system.Accounted staleRead ∧
      system.counters = { misses := 2, staleRepairs := 1 } := by
  have hrun : ∃ system, Runs { base := ∅ } staleRead system ∧
      system.calls.map StartedCall.stage = [.running (.done ()), .running (.done ())] ∧
        system.counters = { misses := 2, staleRepairs := 1 } := by
    refine Step.exists_runs (.starts _ _) (Step.exists_runs (.starts _ _) ?_)
    refine Step.exists_runs (.goes rfl (.asksEngine _) (.failed _ _)) ?_
    refine Step.exists_runs (.goes rfl (.asksEngine _) (.answered _)) ?_
    refine Step.exists_runs (.goes rfl .counts (.counts _)) ?_
    refine Step.exists_runs (.goes rfl (.asksEngine _) (.answered _)) ?_
    refine Step.exists_runs (.goes rfl (.asksEngine _) (.answered _)) ?_
    refine Step.exists_runs (.goes rfl .asksStore (.asksStore _)) ?_
    refine Step.exists_runs (.others _ _) ?_
    refine Step.exists_runs (.goes rfl (.asksEngine _) (.failed _ _)) ?_
    refine Step.exists_runs (.goes rfl .counts (.counts _)) ?_
    refine Step.exists_runs (.goes rfl (.hears _) (.hears _ _)) ?_
    refine Step.exists_runs (.goes rfl .asksStore (.asksStore _)) ?_
    refine Step.exists_runs (.goes rfl (.asksEngine _) (.answered _)) ?_
    refine Step.exists_runs (.goes rfl .isDropped .isDropped) ?_
    refine Step.exists_runs (.goes rfl .counts (.counts _)) ?_
    exact ⟨_, .nil _, rfl, rfl⟩
  obtain ⟨system, hruns, hstages, hcounters⟩ := hrun
  have hrests : system.ChecksRest := by
    intro call hmem _
    have hstage : call.stage ∈ system.calls.map StartedCall.stage := List.mem_map_of_mem hmem
    have hdone : call.stage = .running (.done ()) := by simpa [hstages] using hstage
    rw [hdone]
    trivial
  have hfew : system.checks < UInt64.size := by
    have hcalls : system.calls.length = 2 := by
      simpa using congrArg List.length hstages
    have hchecks : system.checks ≤ system.calls.length := List.countP_le_length
    have hsize : 2 < UInt64.size := by decide
    omega
  exact ⟨system, hruns, counters_account_for_reads hruns hrests hfew, hcounters⟩

end ReadSystem

end AccessControl
