import AccessControl.Proofs.CacheSoundness
import AccessControl.Proofs.Moments

/-!
# Runs without transactions

Where every party is a call to a coordinator, only the requests of calls that are on their way can
change the store.  So what those requests keep true of the store is true at every moment of a run.
-/

namespace AccessControl

/-- A call in order asks the store for what it was made for. -/
theorem CoordinatorFlight.InOrder.request_eq {privilege : Privilege} {backend : Backend}
    {others : Prop} {flight : CoordinatorFlight} {request : StoreRequest}
    {onUnknown : List EngineUpdate} {next : request.Answer → Call flight.request.Answer}
    (h : flight.InOrder privilege backend others)
    (hstage : flight.stage = .running (.store request onUnknown next)) :
    request = flight.request := by
  rw [InOrder, hstage] at h
  rcases h with ⟨seen, -, hwaits⟩ | hoffers
  · have hpromise : CoordinatorWaits privilege flight.request seen request onUnknown next := hwaits
    exact hpromise.request_eq
  · exact False.elim hoffers

/-- A call that has come to its end goes on no further. -/
theorem Stage.Proceeds.unfinished {α : Type} {stage stage' : Stage α} {coordinator : Nat}
    {before after : Backend} {progress : Progress}
    (h : stage.Proceeds coordinator before progress stage' after) : stage.finished = false := by
  cases h with
  | advance hstep | windUp hstep =>
    rename_i call rest
    cases call with
    | done => cases hstep
    | _ => rfl
  | _ => rfl

/-- The event opens no transaction, and a request that it makes has the property. -/
def Event.Starts (allowed : StoreRequest → Prop) : Event → Prop
  | start _ _ request => allowed request
  | openScope .. => False
  | _ => True

namespace System

variable {system next moment : System} {event : Event} {events : List Event} {id : Nat}
  {allowed : StoreRequest → Prop} {privilege : Privilege}

/-- Every party is a call to a coordinator, and the requests of those that are not at their end have
the property. -/
def CallsOnly (allowed : StoreRequest → Prop) (system : System) : Prop :=
  ∀ id party, system.parties.get? id = some party → ∃ coordinator flight,
    party = .call coordinator flight ∧ (flight.stage.finished = false → allowed flight.request)

theorem callsOnly_opened {store : MemoryStore} {base : FactBase} :
    (opened store base).CallsOnly allowed := by
  intro id party hget
  cases hget

theorem CallsOnly.onlyCalls (h : system.CallsOnly allowed) : system.OnlyCalls := by
  intro id party hget
  obtain ⟨coordinator, flight, rfl, -⟩ := h id party hget
  exact ⟨coordinator, flight, rfl⟩

theorem CallsOnly.moved {coordinator : Nat} {flight : CoordinatorFlight} {backend : Backend}
    (h : system.CallsOnly allowed) (hflight : flight.stage.finished = false →
      allowed flight.request) :
    (system.moved id (.call coordinator flight) backend).CallsOnly allowed := by
  intro other party hget
  rw [get?_moved] at hget
  split at hget
  · exact ⟨coordinator, flight, (Option.some.inj hget).symm, hflight⟩
  · exact h other party hget

/-- An event changes the store only by the request of a call that is on its way. -/
theorem CallsOnly.step (h : system.CallsOnly allowed) (hsound : system.Sound privilege)
    (hstep : system.Steps event next) (hevent : event.Starts allowed) :
    next.CallsOnly allowed ∧ (next.backend.store = system.backend.store ∨
      ∃ request, allowed request ∧
        next.backend.store = (system.backend.store.answer request).2) := by
  cases hstep with
  | starts hfree => exact ⟨h.moved fun _ => hevent, .inl rfl⟩
  | opens hfree => exact False.elim hevent
  | discards hget =>
    obtain ⟨coordinator, flight, heq, -⟩ := h _ _ hget
    cases heq
  | moves hget hmoves =>
    obtain ⟨coordinator, flight, rfl, hallowed⟩ := h _ _ hget
    cases hmoves with
    | callProceeds hproceeds =>
      have hrequest := hallowed hproceeds.unfinished
      exact ⟨h.moved fun _ => hrequest, .inl (hproceeds.store hsound.trusted)⟩
    | callAsks hask =>
      obtain ⟨request, onUnknown, answered, hstage, -, rfl, rfl⟩ :=
        CoordinatorFlight.ask_cases hask
      have horder : flight.InOrder privilege system.backend _ := hsound.inOrder _ _ hget
      obtain rfl := horder.request_eq hstage
      have hrequest : allowed flight.request := hallowed (by rw [hstage]; rfl)
      exact ⟨h.moved fun _ => hrequest, .inr ⟨flight.request, hrequest, rfl⟩⟩

/-- What every allowed request keeps true of the store is true at every moment of a run. -/
theorem CallsOnly.run {keeps : MemoryStore → Prop} (h : system.CallsOnly allowed)
    (hsound : system.Sound privilege) (hrun : system.run events = some next)
    (hfew : next.backend.revocations < UInt64.size)
    (hevents : ∀ event ∈ events, event.Starts allowed)
    (hkeeps : ∀ store request, allowed request → keeps store → keeps (store.answer request).2)
    (hstore : keeps system.backend.store) :
    next.CallsOnly allowed ∧ keeps next.backend.store := by
  induction events generalizing system with
  | nil =>
    obtain rfl := Option.some.inj hrun
    exact ⟨h, hstore⟩
  | cons event rest ih =>
    obtain ⟨middle, hstep, hrest⟩ := run_cons hrun
    have hmiddle : middle.backend.revocations < UInt64.size :=
      Nat.lt_of_le_of_lt (run_revocations hrest) hfew
    obtain ⟨hcalls, hchange⟩ := h.step hsound hstep (hevents event List.mem_cons_self)
    refine ih hcalls (hsound.step hstep hmiddle) hrest
      (fun other hmem => hevents other (List.mem_cons_of_mem event hmem)) ?_
    rcases hchange with hsame | ⟨request, hrequest, hanswer⟩
    · rw [hsame]
      exact hstore
    · rw [hanswer]
      exact hkeeps _ request hrequest hstore

theorem CallsOnly.visits {keeps : MemoryStore → Prop} (h : system.CallsOnly allowed)
    (hsound : system.Sound privilege) (hrun : system.run events = some next)
    (hfew : next.backend.revocations < UInt64.size)
    (hevents : ∀ event ∈ events, event.Starts allowed)
    (hkeeps : ∀ store request, allowed request → keeps store → keeps (store.answer request).2)
    (hstore : keeps system.backend.store) (hvisits : system.Visits events moment) :
    moment.CallsOnly allowed ∧ keeps moment.backend.store := by
  obtain ⟨past, rest, rfl, hpast⟩ := hvisits
  have hmoment : moment.backend.revocations < UInt64.size :=
    Nat.lt_of_le_of_lt (run_revocations (run_rest hrun hpast)) hfew
  exact h.run hsound hpast hmoment
    (fun event hmem => hevents event (List.mem_append_left rest hmem)) hkeeps hstore

end System

end AccessControl
