import AccessControl.Proofs.CoordinatorRun
import AccessControl.Proofs.Eviction

/-!
# One revocation among calls

Of all calls to coordinators only one may revoke what passes a check.  While the engine holds the
fact, every such check is passed; and when the fact is withdrawn, the one call has come to its end.
-/

namespace AccessControl

/-- Whether the request revokes something that passes the check. -/
def StoreRequest.Takes (check : InstanceCheck) (request : StoreRequest) : Prop :=
  ∃ privilege ∈ StoreRequest.privileges (.validateAccess check), request.Revokes privilege

theorem StoreRequest.takes_of_revokes {check : InstanceCheck} {request : StoreRequest}
    (h : request.Revokes check.fact) : request.Takes check :=
  ⟨check.fact, by simp [privileges], h⟩

/-- A request that writes no row revokes nothing. -/
theorem StoreRequest.not_takes_of_row {check : InstanceCheck} {request : StoreRequest}
    (h : request.row? = none) : ¬request.Takes check := by
  rintro ⟨privilege, -, hrevokes⟩
  exact not_revokes_of_row h hrevokes

/-- The event opens no transaction, and a call that it makes does not revoke what passes the check,
unless it is `revoker`. -/
def Event.RevokedBy (check : InstanceCheck) (revoker : Nat) : Event → Prop
  | start id _ request => request.Takes check → id = revoker
  | openScope .. => False
  | _ => True

namespace System

variable {system next moment : System} {event : Event} {events : List Event}
  {check : InstanceCheck} {revoker id coordinator : Nat} {flight : CoordinatorFlight}
  {backend : Backend}

/-- Every party is a call to a coordinator, and only `revoker` may revoke what passes the check. -/
def RevokedBy (check : InstanceCheck) (revoker : Nat) (system : System) : Prop :=
  ∀ id party, system.parties.get? id = some party → ∃ coordinator flight,
    party = .call coordinator flight ∧ (flight.request.Takes check → id = revoker) ∧
      flight.stage.WithdrawsLast check.fact (id = revoker)

/-- The engine holds the fact, and every check of it is about to be passed. -/
structure Passing (check : InstanceCheck) (system : System) : Prop where
  held : system.backend.Holds check.fact
  passes : ∀ id coordinator flight, system.parties.get? id = some (.call coordinator flight) →
    flight.request = .validateAccess check →
    flight.stage.EndsWhile check.fact fun answer => ∃ reply, answer = .ok reply

/-- The call has been made and has come to its end. -/
def Ended (id : Nat) (system : System) : Prop :=
  ∃ coordinator flight, system.parties.get? id = some (.call coordinator flight) ∧
    flight.stage.finished = true

theorem revokedBy_opened {store : MemoryStore} {base : FactBase} :
    (opened store base).RevokedBy check revoker := by
  intro id party hget
  cases hget

theorem passing_opened {store : MemoryStore} {base : FactBase} (h : base.Holds check.fact) :
    (opened store base).Passing check := by
  refine ⟨h, fun id coordinator flight hget => ?_⟩
  cases hget

theorem RevokedBy.moved (h : system.RevokedBy check revoker)
    (hrevokes : flight.request.Takes check → id = revoker)
    (hlast : flight.stage.WithdrawsLast check.fact (id = revoker)) :
    (system.moved id (.call coordinator flight) backend).RevokedBy check revoker := by
  intro other party hget
  rw [get?_moved] at hget
  split at hget
  case isTrue heq =>
    subst heq
    exact ⟨coordinator, flight, (Option.some.inj hget).symm, hrevokes, hlast⟩
  case isFalse => exact h other party hget

theorem Passing.moved (h : system.Passing check) (hheld : backend.Holds check.fact)
    (hpasses : flight.request = .validateAccess check →
      flight.stage.EndsWhile check.fact fun answer => ∃ reply, answer = .ok reply) :
    (system.moved id (.call coordinator flight) backend).Passing check := by
  refine ⟨hheld, fun other coordinator' flight' hget => ?_⟩
  rw [get?_moved] at hget
  split at hget
  · cases hget
    exact hpasses
  · exact h.passes other coordinator' flight' hget

theorem RevokedBy.step (h : system.RevokedBy check revoker) (htrusted : system.backend.Trusted)
    (hstep : system.step event = some next) (hevent : event.RevokedBy check revoker) :
    next.RevokedBy check revoker := by
  cases event with
  | start id coordinator request =>
    obtain ⟨-, rfl⟩ := enter_cases hstep
    exact h.moved hevent (Coordinator.handle_withdrawsLast request fun hrevokes =>
      hevent (StoreRequest.takes_of_revokes hrevokes))
  | openScope => exact False.elim hevent
  | move id move =>
    obtain ⟨party, party', after, hget, hmove, rfl⟩ := step_move hstep
    obtain ⟨coordinator, flight, rfl, hrevokes, hlast⟩ := h id party hget
    rcases Party.call_moves hmove with ⟨progress, stage', -, hproceeds, rfl⟩ |
      ⟨flight', -, hask, rfl⟩
    · exact h.moved hrevokes (hproceeds.withdrawsLast htrusted hlast)
    · obtain ⟨request, onUnknown, answered, hstage, -, rfl, -⟩ := CoordinatorFlight.ask_cases hask
      rw [hstage] at hlast
      exact h.moved hrevokes (hlast.answered _)
  | discard id =>
    cases steps_of_step hstep with
    | discards hget =>
      obtain ⟨coordinator, flight, heq, -⟩ := h id _ hget
      cases heq

/-- While the engine holds the fact every check of it is passed, until the revoking call has come to
its end. -/
theorem Passing.step (h : system.Passing check) (hrevoked : system.RevokedBy check revoker)
    (htrusted : system.backend.Trusted) (hstep : system.step event = some next)
    (hevent : event.RevokedBy check revoker) : next.Passing check ∨ next.Ended revoker := by
  cases event with
  | start id coordinator request =>
    obtain ⟨-, rfl⟩ := enter_cases hstep
    refine .inl (h.moved h.held ?_)
    rintro rfl
    exact Coordinator.validateAccess_endsWhile check
  | openScope => exact False.elim hevent
  | move id move =>
    obtain ⟨party, party', after, hget, hmove, rfl⟩ := step_move hstep
    obtain ⟨coordinator, flight, rfl, -, hlast⟩ := hrevoked id party hget
    have hpasses := h.passes id coordinator flight hget
    rcases Party.call_moves hmove with ⟨progress, stage', -, hproceeds, rfl⟩ |
      ⟨flight', -, hask, rfl⟩
    · rcases hproceeds.held_or_finished htrusted hlast h.held with hheld | ⟨rfl, hfinished⟩
      · exact .inl (h.moved hheld fun heq => hproceeds.endsWhile htrusted (hpasses heq) h.held)
      · exact .inr ⟨coordinator, _, get?_moved_self, hfinished⟩
    · obtain ⟨request, onUnknown, answered, hstage, -, rfl, rfl⟩ := CoordinatorFlight.ask_cases hask
      refine .inl (h.moved h.held fun heq => ?_)
      -- a check that is about to be passed does not ask the store
      have hasks := hpasses heq
      rw [hstage] at hasks
      exact False.elim hasks
  | discard id =>
    cases steps_of_step hstep with
    | discards hget =>
      obtain ⟨coordinator, flight, heq, -⟩ := hrevoked id _ hget
      cases heq

/-- A call that has come to its end stays there. -/
theorem Ended.step (h : system.Ended id) (hstep : system.step event = some next) :
    next.Ended id := by
  obtain ⟨coordinator, flight, hget, hfinished⟩ := h
  rcases step_party hstep hget with hsame | ⟨move, party', -, hmove, -⟩ | ⟨-, _, _, _, heq⟩
  · exact ⟨coordinator, flight, hsame, hfinished⟩
  · rcases Party.call_moves hmove with ⟨progress, stage', -, hproceeds, -⟩ | ⟨flight', -, hask, -⟩
    · rw [hproceeds.unfinished] at hfinished
      cases hfinished
    · obtain ⟨request, onUnknown, answered, hstage, -⟩ := CoordinatorFlight.ask_cases hask
      rw [hstage] at hfinished
      cases hfinished
  · cases heq

theorem Ended.run (h : system.Ended id) (hrun : system.run events = some next) :
    next.Ended id := by
  induction events generalizing system with
  | nil =>
    obtain rfl := Option.some.inj hrun
    exact h
  | cons event rest ih =>
    obtain ⟨middle, hstep, hrest⟩ := Option.bind_eq_some_iff.1 hrun
    exact ih (h.step hstep) hrest

theorem Ended.visits (h : system.Ended id) (hvisits : system.Visits events moment) :
    moment.Ended id := by
  obtain ⟨past, rest, -, hpast⟩ := hvisits
  exact h.run hpast

/-- Over a run, only `revoker` may revoke what passes the check, and the check is passed while
the engine holds the fact, until that call has come to its end. -/
theorem RevokedBy.run (h : system.RevokedBy check revoker) (htrusted : system.backend.Trusted)
    (hrun : system.run events = some next)
    (hevents : ∀ event ∈ events, event.RevokedBy check revoker) :
    next.RevokedBy check revoker ∧ (system.Passing check ∨ system.Ended revoker →
      next.Passing check ∨ next.Ended revoker) := by
  induction events generalizing system with
  | nil =>
    obtain rfl := Option.some.inj hrun
    exact ⟨h, fun hphase => hphase⟩
  | cons event rest ih =>
    obtain ⟨middle, hstep, hrest⟩ := Option.bind_eq_some_iff.1 hrun
    have hevent := hevents event List.mem_cons_self
    obtain ⟨hnext, hphases⟩ := ih (h.step htrusted hstep hevent)
      ((steps_of_step hstep).trusted htrusted) hrest
      fun other hmem => hevents other (List.mem_cons_of_mem event hmem)
    refine ⟨hnext, fun hphase => hphases ?_⟩
    rcases hphase with hpassing | hended
    · exact hpassing.step h htrusted hstep hevent
    · exact .inr (hended.step hstep)

theorem RevokedBy.visits (h : system.RevokedBy check revoker)
    (htrusted : system.backend.Trusted) (hevents : ∀ event ∈ events, event.RevokedBy check revoker)
    (hvisits : system.Visits events moment) : moment.RevokedBy check revoker := by
  obtain ⟨past, rest, rfl, hpast⟩ := hvisits
  exact (h.run htrusted hpast fun event hmem => hevents event (List.mem_append_left rest hmem)).1

/-- A check of the fact that has been denied was not about to be passed. -/
theorem Passing.answer_ok {error : StorageError} (h : system.Passing check)
    (hrevoked : system.RevokedBy check revoker) :
    system.answer? id (.validateAccess check) ≠ some (.error error) := by
  intro hanswer
  obtain ⟨party, hget, hparty⟩ := Option.bind_eq_some_iff.1 hanswer
  obtain ⟨coordinator, flight, rfl, -⟩ := hrevoked id party hget
  obtain ⟨applied, rfl⟩ := Party.answer?_call hparty
  obtain ⟨reply, heq⟩ := h.passes id coordinator _ hget rfl
  cases heq

/-- A check of a fact that the engine held at the beginning is denied only after the revoking call
has come to its end. -/
theorem ended_of_denied {store : MemoryStore} {base : FactBase} {error : StorageError}
    (hwarm : base.Holds check.fact) (hrun : (opened store base).run events = some next)
    (hevents : ∀ event ∈ events, event.RevokedBy check revoker)
    (hdenied : next.answer? id (.validateAccess check) = some (.error error)) :
    next.Ended revoker := by
  obtain ⟨hrevoked, hphase⟩ := revokedBy_opened.run rfl hrun hevents
  rcases hphase (.inl (passing_opened hwarm)) with hpassing | hended
  · exact absurd hdenied (hpassing.answer_ok hrevoked)
  · exact hended

end System

end AccessControl
