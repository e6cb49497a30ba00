import AccessControl.Proofs.SystemInvariant

/-!
# The moments of a run

A run passes through one state of the system after another.  What holds of one party at the end of a
run is shown by following that party through these states: an event is either a move of the party,
or it leaves the party where it stands.
-/

namespace AccessControl

/-- Answers can be compared. -/
instance decidableEqExcept {ε α : Type} [DecidableEq ε] [DecidableEq α] : DecidableEq (Except ε α)
  | .ok left, .ok right => decidable_of_iff (left = right) ⟨congrArg Except.ok, Except.ok.inj⟩
  | .error left, .error right =>
    decidable_of_iff (left = right) ⟨congrArg Except.error, Except.error.inj⟩
  | .ok _, .error _ => isFalse nofun
  | .error _, .ok _ => isFalse nofun

/-- The answer of a call of the party that has come to its end. -/
def Party.answer? (asked : StoreRequest) : Party → Option asked.Answer
  | call _ ⟨request, .running (.done answer), _⟩ =>
    if h : request = asked then some (h ▸ answer) else none
  | scope ⟨_, _, _, some ⟨request, .running (.done ending), _⟩⟩ =>
    if h : request = asked then some (h ▸ ending.result) else none
  | _ => none

/-- The answer of a call that has come to its end. -/
def System.answer? (system : System) (id : Nat) (asked : StoreRequest) : Option asked.Answer :=
  (system.parties.get? id).bind (Party.answer? asked)

theorem Party.answer?_call {asked : StoreRequest} {coordinator : Nat} {flight : CoordinatorFlight}
    {answer : asked.Answer} (h : (Party.call coordinator flight).answer? asked = some answer) :
    ∃ applied, flight = ⟨asked, .running (.done answer), applied⟩ := by
  unfold answer? at h
  split at h
  case h_1 coordinator' request result applied heq =>
    cases heq
    split at h
    case isTrue hasked =>
      subst hasked
      obtain rfl := Option.some.inj h
      exact ⟨applied, rfl⟩
    case isFalse => cases h
  case h_2 heq => cases heq
  case h_3 => cases h

theorem Party.answer?_scope {asked : StoreRequest} {opened : OpenScope}
    {stage : Stage (ScopedResult asked.Reply)} {applied : Bool} {answer : asked.Answer}
    (hcurrent : opened.current = some ⟨asked, stage, applied⟩)
    (h : (Party.scope opened).answer? asked = some answer) :
    ∃ ending, stage = .running (.done ending) ∧ ending.result = answer := by
  obtain ⟨coordinator, draft, deferred, current⟩ := opened
  obtain rfl : current = some ⟨asked, stage, applied⟩ := hcurrent
  unfold answer? at h
  split at h
  case h_1 heq => cases heq
  case h_2 coordinator' draft' deferred' request ending applied' heq =>
    cases heq
    exact ⟨ending, rfl, by simpa using h⟩
  case h_3 => cases h

/-- Every move of a party leaves the engine trusted. -/
theorem Party.Moves.trusted {locked : List Row} {before after : Backend} {party party' : Party}
    (h : party.Moves locked before party' after) (htrusted : before.Trusted) : after.Trusted := by
  cases h with
  | callProceeds hstage => exact hstage.trusted htrusted
  | callAsks hask =>
    obtain ⟨_, _, _, -, -, -, rfl⟩ := CoordinatorFlight.ask_cases hask
    exact htrusted
  | scopeProceeds hproceed =>
    obtain ⟨_, _, -, -, hstage, -⟩ := OpenScope.proceed_cases hproceed
    exact hstage.trusted htrusted
  | scopeAsks hask =>
    obtain ⟨_, _, _, _, _, -, -, -, -, rfl⟩ := OpenScope.ask_cases hask
    exact htrusted
  | invokes => exact htrusted
  | finishes => exact htrusted

/-- What a call to a coordinator does at one of its moves. -/
theorem Party.call_moves {locked : List Row} {before after : Backend} {move : Move}
    {coordinator : Nat} {flight : CoordinatorFlight} {party' : Party}
    (h : (Party.call coordinator flight).move locked before move = some (party', after)) :
    (∃ progress stage', move = .proceed progress ∧
        flight.stage.Proceeds coordinator before progress stage' after ∧
        party' = .call coordinator { flight with stage := stage' }) ∨
      ∃ flight', move = .ask ∧ flight.ask locked before = some (flight', after) ∧
        party' = .call coordinator flight' := by
  cases move with
  | proceed progress =>
    obtain ⟨⟨stage', backend⟩, hstage, heq⟩ := Option.map_eq_some_iff.1 h
    cases heq
    exact .inl ⟨progress, stage', rfl, Stage.proceeds_of_proceed hstage, rfl⟩
  | ask =>
    obtain ⟨⟨flight', backend⟩, hask, heq⟩ := Option.map_eq_some_iff.1 h
    cases heq
    exact .inr ⟨flight', rfl, hask, rfl⟩
  | _ => cases h

/-- What a transaction does at one of its moves. -/
theorem Party.scope_moves {locked : List Row} {before after : Backend} {move : Move}
    {opened : OpenScope} {party' : Party}
    (h : (Party.scope opened).move locked before move = some (party', after)) :
    ∃ opened', party' = .scope opened' ∧
      ((∃ progress, move = .proceed progress ∧
          opened.proceed before progress = some (opened', after)) ∨
        (∃ reading, move = .askWithin reading ∧
          opened.ask locked before reading = some (opened', after)) ∨
        (∃ request, move = .invoke request ∧ opened.invoke request = some opened' ∧
          after = before) ∨
        move = .finish ∧ opened.finish = some opened' ∧ after = before) := by
  cases move with
  | proceed progress =>
    obtain ⟨⟨opened', backend⟩, hproceed, heq⟩ := Option.map_eq_some_iff.1 h
    cases heq
    exact ⟨opened', rfl, .inl ⟨progress, rfl, hproceed⟩⟩
  | askWithin reading =>
    obtain ⟨⟨opened', backend⟩, hask, heq⟩ := Option.map_eq_some_iff.1 h
    cases heq
    exact ⟨opened', rfl, .inr (.inl ⟨reading, rfl, hask⟩)⟩
  | invoke request =>
    obtain ⟨opened', hinvoke, heq⟩ := Option.map_eq_some_iff.1 h
    cases heq
    exact ⟨opened', rfl, .inr (.inr (.inl ⟨request, rfl, hinvoke, rfl⟩))⟩
  | finish =>
    obtain ⟨opened', hfinish, heq⟩ := Option.map_eq_some_iff.1 h
    cases heq
    exact ⟨opened', rfl, .inr (.inr (.inr ⟨rfl, hfinish, rfl⟩))⟩
  | ask => cases h

namespace System

variable {system middle next moment : System} {event : Event} {events past rest : List Event}
  {id : Nat} {party : Party} {privilege : Privilege}

/-! ## Runs in parts -/

theorem run_step (hstep : system.step event = some middle) :
    system.run (event :: rest) = middle.run rest := by
  rw [run, hstep, Option.bind_some]

theorem run_append : system.run (past ++ rest) = (system.run past).bind fun moment =>
    moment.run rest := by
  induction past generalizing system with
  | nil => rfl
  | cons event past ih =>
    rw [List.cons_append, run, run, Option.bind_assoc]
    exact congrArg _ (funext fun middle => ih)

/-- A run goes on from a moment that it passes through. -/
theorem run_rest (hrun : system.run (past ++ rest) = some next)
    (hpast : system.run past = some moment) : moment.run rest = some next := by
  rwa [run_append, hpast, Option.bind_some] at hrun

/-- A run of the events passes through the moment. -/
def Visits (system : System) (events : List Event) (moment : System) : Prop :=
  ∃ past rest, events = past ++ rest ∧ system.run past = some moment

theorem visits_self : system.Visits events system := ⟨[], events, rfl, rfl⟩

theorem Visits.cons (hstep : system.step event = some middle)
    (h : middle.Visits rest moment) : system.Visits (event :: rest) moment := by
  obtain ⟨past, after, rfl, hrun⟩ := h
  exact ⟨event :: past, after, rfl, (run_step hstep).trans hrun⟩

/-- A run keeps a system sound at all the moments that it passes through. -/
theorem Sound.visits (h : system.Sound privilege) (hrun : system.run events = some next)
    (hfew : next.backend.revocations < UInt64.size) (hvisits : system.Visits events moment) :
    moment.Sound privilege := by
  obtain ⟨past, rest, rfl, hpast⟩ := hvisits
  have hmoment : moment.backend.revocations < UInt64.size :=
    Nat.lt_of_le_of_lt (run_revocations (run_rest hrun hpast)) hfew
  exact h.run hpast hmoment

/-! ## One party -/

theorem Steps.trusted (h : system.Steps event next) (htrusted : system.backend.Trusted) :
    next.backend.Trusted := by
  cases h with
  | moves _ hmoves => exact hmoves.trusted htrusted
  | _ => exact htrusted

theorem step_move {move : Move} (h : system.step (.move id move) = some next) :
    ∃ party party' after, system.parties.get? id = some party ∧
      party.move (system.lockedFor id) system.backend move = some (party', after) ∧
      next = system.moved id party' after := by
  simp only [step] at h
  split at h
  case h_1 party hget =>
    obtain ⟨⟨party', after⟩, hmove, rfl⟩ := Option.map_eq_some_iff.1 h
    exact ⟨party, party', after, hget, hmove, rfl⟩
  case h_2 => cases h

/-- What an event does to one of the parties: it is a move of that party, or it ends an idle
transaction, or the party stays as it is. -/
theorem step_party (h : system.step event = some next)
    (hget : system.parties.get? id = some party) :
    next.parties.get? id = some party ∨
      (∃ move party', event = .move id move ∧
        party.move (system.lockedFor id) system.backend move = some (party', next.backend) ∧
        next.parties.get? id = some party') ∨
      (event = .discard id ∧ ∃ coordinator draft deferred,
        party = .scope ⟨coordinator, draft, deferred, none⟩) := by
  -- who comes in does so under a new name
  have henter : ∀ other entering, system.enter other entering = some next →
      next.parties.get? id = some party := by
    intro other entering hentered
    obtain ⟨hfree, rfl⟩ := enter_cases hentered
    have hne : id ≠ other := by
      rintro rfl
      rw [hget] at hfree
      cases hfree
    rw [get?_moved, if_neg hne, hget]
  cases event with
  | start other coordinator request => exact .inl (henter other _ h)
  | openScope other coordinator => exact .inl (henter other _ h)
  | move other move =>
    by_cases hother : id = other
    · subst hother
      obtain ⟨found, party', after, hfound, hmove, rfl⟩ := step_move h
      obtain rfl := Option.some.inj (hget.symm.trans hfound)
      exact .inr (.inl ⟨move, party', rfl, hmove, get?_moved_self⟩)
    · cases steps_of_step h
      rw [get?_moved, if_neg hother, hget]
      exact .inl rfl
  | discard other =>
    by_cases hother : id = other
    · subst hother
      simp only [step, hget] at h
      split at h
      case h_1 coordinator draft deferred heq =>
        exact .inr (.inr ⟨rfl, coordinator, draft, deferred, Option.some.inj heq⟩)
      case h_2 => cases h
    · cases steps_of_step h
      rw [Table.get?_erase, if_neg hother, hget]
      exact .inl rfl

end System

end AccessControl
