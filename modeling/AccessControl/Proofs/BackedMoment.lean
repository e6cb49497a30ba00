import AccessControl.Proofs.CoordinatorRequests

/-!
# What the engine holds was backed at some moment

A call to a coordinator gives a privilege only on the strength of an answer of its store.  So what
the engine holds after a run of such calls it held at the beginning, or the store backed it at some
moment of the run.  This says less than soundness, since the backing may be gone, but it holds
whatever the revocation counters do, and while revoking calls are under way.
-/

namespace AccessControl

/-- A call that has not come to its store yet gives nothing before, and will then keep its promise. -/
def Stage.Awaits {α : Type} (privilege : Privilege) (owned : StoreRequest) : Stage α → Prop
  | running call => ∃ seen, call.Until privilege (CoordinatorWaits privilege owned)
      (fun _ _ => True) seen
  | _ => False

/-- The call gives the privilege only after an answer of a store that backs it. -/
def CoordinatorFlight.Honest (privilege : Privilege) (flight : CoordinatorFlight) : Prop :=
  flight.stage.Awaits privilege flight.request ∨ flight.stage.OffersOnly privilege fun _ => False

section

variable {privilege : Privilege} {locked : List Row} {before after : Backend} {coordinator : Nat}
  {request : StoreRequest} {stage stage' : Stage request.Answer} {applied : Bool}
  {progress : Progress}

/-- As it stands, the call gives nothing. -/
theorem CoordinatorFlight.Honest.head
    (h : CoordinatorFlight.Honest privilege ⟨request, stage, applied⟩) :
    stage.Head (EngineRequest.OffersOnly privilege fun _ => False) := by
  rcases h with hawaits | hoffers
  · cases stage with
    | running call =>
      obtain ⟨seen, huntil⟩ := hawaits
      rintro asked next rfl
      exact huntil.1
    | answered => exact False.elim hawaits
    | abandoned => exact False.elim hawaits
  · exact hoffers.head

theorem CoordinatorFlight.Honest.proceed
    (h : CoordinatorFlight.Honest privilege ⟨request, stage, applied⟩)
    (hproceeds : stage.Proceeds coordinator before progress stage' after)
    (htrusted : before.Trusted) :
    CoordinatorFlight.Honest privilege ⟨request, stage', applied⟩ := by
  rcases h with hawaits | hoffers
  · cases hproceeds with
    | advance hstep =>
      obtain ⟨seen, huntil⟩ := hawaits
      obtain ⟨shown, hrest, -⟩ := Call.Until.step hstep htrusted huntil
      exact .inl ⟨shown, hrest⟩
    | refuse error =>
      obtain ⟨seen, huntil⟩ := hawaits
      exact .inr (huntil.refused error)
    | giveUp =>
      obtain ⟨seen, huntil⟩ := hawaits
      exact .inr huntil.unknown
    | _ => exact False.elim hawaits
  · exact .inr (hproceeds.offersOnly htrusted hoffers)

/-- A call that hears of a store that does not back the privilege gives nothing from then on. -/
theorem CoordinatorFlight.Honest.ask {flight flight' : CoordinatorFlight}
    (h : flight.Honest privilege) (hask : flight.ask locked before = some (flight', after))
    (hunbacked : ¬after.Backs privilege) : flight'.Honest privilege := by
  obtain ⟨asked, onUnknown, next, hstage, -, rfl, rfl⟩ := ask_cases hask
  simp only [Honest, hstage] at h
  obtain ⟨seen, hwaits⟩ := h.resolve_right id
  replace hwaits : CoordinatorWaits privilege flight.request seen asked onUnknown next := hwaits
  refine .inr ⟨?_, fun reason => hwaits.refused _, hwaits.unknown⟩
  cases hanswer : (before.store.answer asked).1 with
  | error error => exact hwaits.refused error
  | ok reply =>
    refine (hwaits.offers before.store reply hanswer).imp fun _ hoffers => hoffers.imp ?_
    rintro version ⟨-, hbacks⟩
    exact hunbacked hbacks

end

namespace System

variable {system next : System} {event : Event} {events : List Event} {id : Nat}
  {privilege : Privilege} {allowed : StoreRequest → Prop}

/-- Every call gives the privilege only after an answer of a store that backs it. -/
def Honest (privilege : Privilege) (system : System) : Prop :=
  ∀ id coordinator flight, system.parties.get? id = some (.call coordinator flight) →
    flight.Honest privilege

theorem Honest.moved {coordinator : Nat} {flight : CoordinatorFlight} {backend : Backend}
    (h : system.Honest privilege) (hflight : flight.Honest privilege) :
    (system.moved id (.call coordinator flight) backend).Honest privilege := by
  intro other reader found hget
  rw [get?_moved] at hget
  split at hget
  · cases hget
    exact hflight
  · exact h other reader found hget

/-- An event gives nothing that the store does not back then. -/
theorem Honest.step (h : system.Honest privilege) (hcalls : system.ProperCalls allowed)
    (hstep : system.Steps event next) (hevent : event.Starts allowed)
    (hunbacked : ¬next.backend.Backs privilege) :
    next.Honest privilege ∧ (next.backend.Holds privilege → system.backend.Holds privilege) := by
  cases hstep with
  | starts hfree =>
    exact ⟨h.moved (.inl ⟨fun _ => False, Coordinator.handle_until _⟩), id⟩
  | opens hfree => exact False.elim hevent
  | discards hget =>
    obtain ⟨coordinator, flight, heq, -⟩ := hcalls.calls _ _ hget
    cases heq
  | moves hget hmoves =>
    obtain ⟨coordinator, flight, rfl, -⟩ := hcalls.calls _ _ hget
    have hflight : flight.Honest privilege := h _ _ _ hget
    cases hmoves with
    | callProceeds hproceeds =>
      refine ⟨h.moved (hflight.proceed hproceeds hcalls.trusted), fun hholds => ?_⟩
      exact ((hproceeds.holds hcalls.trusted hflight.head hholds).resolve_right id).1
    | callAsks hask =>
      refine ⟨h.moved (hflight.ask hask hunbacked), fun hholds => ?_⟩
      obtain ⟨_, _, _, -, -, -, rfl⟩ := CoordinatorFlight.ask_cases hask
      exact hholds

/-- A privilege that the store backs at no moment of a run is held at its end only if it was held at
its beginning. -/
theorem Honest.run (h : system.Honest privilege) (hcalls : system.ProperCalls allowed)
    (hrun : system.run events = some next) (hevents : ∀ event ∈ events, event.Starts allowed)
    (hunbacked : ∀ moment, system.Visits events moment → ¬moment.backend.Backs privilege)
    (hholds : next.backend.Holds privilege) : system.backend.Holds privilege := by
  induction events generalizing system with
  | nil =>
    obtain rfl := Option.some.inj hrun
    exact hholds
  | cons event rest ih =>
    obtain ⟨middle, hstep, hrest⟩ := Option.bind_eq_some_iff.1 hrun
    rw [List.forall_mem_cons] at hevents
    have hsteps : system.Steps event middle := steps_of_step hstep
    obtain ⟨hmiddle, hback⟩ := h.step hcalls hsteps hevents.1
      (hunbacked middle (visits_self.cons hstep))
    refine hback (ih hmiddle (hcalls.step hsteps hevents.1) hrest hevents.2 fun moment hvisits => ?_)
    exact hunbacked moment (hvisits.cons hstep)

/-- What the engine holds after a run of calls to coordinators it held at the beginning, or the store
backed it at some moment of the run. -/
theorem held_or_backed {store : MemoryStore} {base : FactBase}
    (hrun : (opened store base).run events = some next)
    (hevents : ∀ event ∈ events, event.Starts allowed) (hholds : next.backend.Holds privilege) :
    base.Holds privilege ∨
      ∃ moment, (opened store base).Visits events moment ∧ moment.backend.Backs privilege := by
  by_cases hbacked : ∃ moment, (opened store base).Visits events moment ∧
      moment.backend.Backs privilege
  · exact .inr hbacked
  · have hstart : (opened store base).Honest privilege := fun _ _ _ hget => by cases hget
    refine .inl (hstart.run properCalls_opened hrun hevents (fun moment hvisits hbacks => ?_) hholds)
    exact hbacked ⟨moment, hvisits, hbacks⟩

end System

end AccessControl
