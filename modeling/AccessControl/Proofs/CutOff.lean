import AccessControl.Proofs.CacheSoundness
import AccessControl.Proofs.Moments

/-!
# Writes that are cut off inside a transaction

A call inside a transaction evicts what it revokes, and leaves its update for the commit, only after
its store has answered.  If it is cut off before that, although the store has made the write, then
nobody withdraws what it has revoked, and the commit brings it into the data of record all the same.
What the engine then holds beyond the store are privileges that a request that was cut off revokes.
-/

namespace AccessControl

/-- A call inside a transaction is cut off at its request: it is given up, or it is told that the
store has failed.  Whether the store has answered before that is said by `late`. -/
def OpenScope.cutOff (backend : Backend) (request : StoreRequest) (late : Bool)
    (progress : Progress) (scope : OpenScope) : Option (OpenScope × Backend) :=
  match scope.current with
  | some flight =>
    if flight.request = request && flight.stage.hasAnswer == late && progress.fails then
      (flight.stage.proceed scope.coordinator backend progress).map fun (stage, backend) =>
        ({ scope with
          draft := draftAfter progress flight.request scope.draft
          current := some { flight with stage } }, backend)
    else none
  | none => none

/-- What can happen where writes inside a transaction can be cut off. -/
inductive FaultyEvent where
  | regular (event : Event)
  | cutOff (id : Nat) (request : StoreRequest) (late : Bool) (progress : Progress)

namespace System

/-- The system after an event, if the event can happen. -/
def stepFaulty (system : System) : FaultyEvent → Option System
  | .regular event => system.step event
  | .cutOff id request late progress =>
    match system.parties.get? id with
    | some (.scope opened) =>
      (opened.cutOff system.backend request late progress).map fun (opened, backend) =>
        { backend, parties := system.parties.insert id (.scope opened) }
    | _ => none

/-- The system after a list of events, if they can happen one after another. -/
def runFaulty (system : System) : List FaultyEvent → Option System
  | [] => some system
  | event :: rest => (system.stepFaulty event).bind fun next => next.runFaulty rest

end System

theorem OpenScope.cutOff_cases {scope scope' : OpenScope} {before after : Backend}
    {request : StoreRequest} {late : Bool} {progress : Progress}
    (h : scope.cutOff before request late progress = some (scope', after)) :
    ∃ flight stage', scope.current = some flight ∧ flight.request = request ∧
      flight.stage.hasAnswer = late ∧
      flight.stage.Proceeds scope.coordinator before progress stage' after ∧
      scope' = ⟨scope.coordinator, draftAfter progress flight.request scope.draft, scope.deferred,
        some ⟨flight.request, stage', flight.applied⟩⟩ := by
  unfold cutOff at h
  split at h
  case h_2 => cases h
  case h_1 flight hcurrent =>
    split at h
    case isFalse => cases h
    case isTrue hguard =>
      simp only [Bool.and_eq_true, decide_eq_true_eq, beq_iff_eq] at hguard
      obtain ⟨⟨hrequest, hlate⟩, -⟩ := hguard
      obtain ⟨⟨stage', backend⟩, hstage, heq⟩ := Option.map_eq_some_iff.1 h
      cases heq
      exact ⟨flight, stage', hcurrent, hrequest, hlate, Stage.proceeds_of_proceed hstage, rfl⟩

/-- Whether no call of the party is under way. -/
def Party.quiet : Party → Bool
  | call _ flight => flight.stage.finished
  | scope opened => opened.current.all fun flight => flight.stage.finished

theorem Party.Owes.unquiet {privilege : Privilege} {party : Party} (h : party.Owes privilege) :
    party.quiet = false := by
  cases party with
  | call coordinator flight => exact h.1.2
  | scope opened =>
    obtain ⟨flight, hcurrent, hpending, -⟩ := h
    rw [quiet, hcurrent]
    exact hpending.2

namespace System

variable {store : MemoryStore} {base : FactBase} {system next : System} {privilege : Privilege}
  {id : Nat} {request : StoreRequest} {late : Bool} {progress : Progress}
  {events : List FaultyEvent}

/-- No call is under way. -/
def Idle (system : System) : Prop :=
  ∀ id party, system.parties.get? id = some party → party.quiet = true

theorem idle_iff : system.Idle ↔ ∀ row ∈ system.parties.rows, row.2.quiet = true := by
  constructor
  · rintro h ⟨id, party⟩ hrow
    exact h id party (Table.mem_rows_iff.1 hrow)
  · intro h id party hget
    exact h (id, party) (Table.mem_rows_iff.2 hget)

instance (system : System) : Decidable system.Idle := decidable_of_iff _ idle_iff.symm

/-- With no call under way the engine holds only what the store backs. -/
theorem Sound.backs_idle (h : system.Sound privilege) (hidle : system.Idle)
    (hholds : system.backend.Holds privilege) : system.backend.Backs privilege := by
  rcases h.held hholds with hbacks | ⟨id, party, hget, hcovers⟩
  · exact hbacks
  · have hquiet : party.quiet = true := hidle id party hget
    rw [hcovers.owes.unquiet] at hquiet
    cases hquiet

theorem stepFaulty_cutOff (h : system.stepFaulty (.cutOff id request late progress) = some next) :
    ∃ opened flight stage' after, system.parties.get? id = some (.scope opened) ∧
      opened.current = some flight ∧ flight.request = request ∧ flight.stage.hasAnswer = late ∧
      flight.stage.Proceeds opened.coordinator system.backend progress stage' after ∧
      next = system.moved id (.scope ⟨opened.coordinator,
        OpenScope.draftAfter progress flight.request opened.draft, opened.deferred,
        some ⟨flight.request, stage', flight.applied⟩⟩) after := by
  simp only [stepFaulty] at h
  split at h
  case h_1 opened hget =>
    obtain ⟨⟨opened', after⟩, hcutOff, rfl⟩ := Option.map_eq_some_iff.1 h
    obtain ⟨flight, stage', hcurrent, hrequest, hlate, hproceeds, rfl⟩ :=
      OpenScope.cutOff_cases hcutOff
    exact ⟨opened, flight, stage', after, hget, hcurrent, hrequest, hlate, hproceeds, rfl⟩
  case h_2 => cases h

theorem stepFaulty_revocations {event : FaultyEvent} (h : system.stepFaulty event = some next) :
    system.backend.revocations ≤ next.backend.revocations := by
  cases event with
  | regular event => exact (steps_of_step h).revocations
  | cutOff id request late progress =>
    obtain ⟨_, _, _, _, -, -, -, -, hproceeds, rfl⟩ := stepFaulty_cutOff h
    exact hproceeds.revocations

theorem runFaulty_revocations (h : system.runFaulty events = some next) :
    system.backend.revocations ≤ next.backend.revocations := by
  induction events generalizing system with
  | nil =>
    obtain rfl := Option.some.inj h
    exact Nat.le_refl _
  | cons event rest ih =>
    obtain ⟨middle, hstep, hrest⟩ := Option.bind_eq_some_iff.1 h
    exact Nat.le_trans (stepFaulty_revocations hstep) (ih hrest)

/-- A system stays sound for a privilege when a request is cut off, unless the store has answered it
and it revokes the privilege. -/
theorem Sound.cutOff (h : system.Sound privilege)
    (hstep : system.stepFaulty (.cutOff id request late progress) = some next)
    (hfew : next.backend.revocations < UInt64.size)
    (hspared : late = true → ¬request.Revokes privilege) : next.Sound privilege := by
  obtain ⟨opened, flight, stage', after, hget, hcurrent, rfl, rfl, hproceeds, rfl⟩ :=
    stepFaulty_cutOff hstep
  exact h.moved hget hfew (OpenScope.proceeds_keeps hcurrent hproceeds
    (fun hlate _ => hspared hlate) h.trusted hfew (h.inOrder id _ hget))

theorem Sound.stepFaulty {event : FaultyEvent} (h : system.Sound privilege)
    (hstep : system.stepFaulty event = some next) (hfew : next.backend.revocations < UInt64.size)
    (hspared : ∀ id request progress, event = .cutOff id request true progress →
      ¬request.Revokes privilege) : next.Sound privilege := by
  cases event with
  | regular event => exact h.step (steps_of_step hstep) hfew
  | cutOff id request late progress =>
    refine h.cutOff hstep hfew fun hlate => hspared id request progress ?_
    rw [hlate]

theorem Sound.runFaulty (h : system.Sound privilege) (hrun : system.runFaulty events = some next)
    (hfew : next.backend.revocations < UInt64.size)
    (hspared : ∀ id request progress, .cutOff id request true progress ∈ events →
      ¬request.Revokes privilege) : next.Sound privilege := by
  induction events generalizing system with
  | nil =>
    obtain rfl := Option.some.inj hrun
    exact h
  | cons event rest ih =>
    obtain ⟨middle, hstep, hrest⟩ := Option.bind_eq_some_iff.1 hrun
    have hmiddle : middle.backend.revocations < UInt64.size :=
      Nat.lt_of_le_of_lt (runFaulty_revocations hrest) hfew
    refine ih (h.stepFaulty hstep hmiddle fun id request progress heq => ?_) hrest
      fun id request progress hmem => ?_
    · exact hspared id request progress (heq ▸ List.mem_cons_self)
    · exact hspared id request progress (List.mem_cons_of_mem event hmem)

/-- What the engine holds is backed by the store, or a party under way is bound to withdraw it, or a
call inside a transaction was cut off after its store had answered a request that revokes it. -/
theorem held_beyond_store_was_cut_off (hrun : (opened store base).runFaulty events = some system)
    (hloaded : ∀ privilege, base.Holds privilege → store.Backs privilege)
    (hfew : system.backend.revocations < UInt64.size) (privilege : Privilege)
    (hholds : system.backend.engine.base.Holds privilege) :
    system.backend.store.Backs privilege ∨
      (∃ id party, system.parties.get? id = some party ∧ party.Owes privilege) ∨
      ∃ id request progress, .cutOff id request true progress ∈ events ∧
        request.Revokes privilege := by
  by_cases hcut : ∃ id request progress, FaultyEvent.cutOff id request true progress ∈ events ∧
      request.Revokes privilege
  · exact .inr (.inr hcut)
  · have hsound : system.Sound privilege := (sound_opened (hloaded privilege)).runFaulty hrun hfew
      fun id request progress hmem hrevokes => hcut ⟨id, request, progress, hmem, hrevokes⟩
    rcases hsound.held hholds with hbacks | ⟨id, party, hget, hcovers⟩
    · exact .inl hbacks
    · exact .inr (.inl ⟨id, party, hget, hcovers.owes⟩)

/-- A transaction makes a deletion and is cut off before it hears of it; then it is committed. -/
def deleteCutOff : List FaultyEvent :=
  [.regular (.openScope 0 0), .regular (.move 0 (.invoke (.delete someUser someResource))),
    .regular (.move 0 (.askWithin someStore)),
    .cutOff 0 (.delete someUser someResource) true .giveUp, .regular (.move 0 .finish),
    .regular (.move 0 (.invoke .commit)), .regular (.move 0 (.askWithin ∅)),
    .regular (.move 0 (.proceed .receive))]

/-- After the commit has been answered, and with nothing under way, the engine still allows what the
committed deletion has taken away. -/
theorem deleted_rule_held_after_commit : ∃ system,
    (opened someStore someBase).runFaulty deleteCutOff = some system ∧
      system.answer? 0 .commit = some (.ok ()) ∧
      (∀ row ∈ system.parties.rows, row.2.quiet = true) ∧
      system.backend.engine.base.check someUser (.resource someResource) .get = true ∧
      system.backend.store.rules.get? (someUser, someResource) = none ∧
      system.backend.store.users.get? someUser = some .user :=
  ⟨_, rfl, by decide, by decide, by decide, by decide, by decide⟩

theorem held_rule_was_deleted_by_cut_off_call :
    ∃ system id request progress, (opened someStore someBase).runFaulty deleteCutOff = some system ∧
      system.backend.engine.base.Holds (.fact someUser (.resource someResource) .get) ∧
      .cutOff id request true progress ∈ deleteCutOff ∧
      request.Revokes (.fact someUser (.resource someResource) .get) := by
  have hrun : ((opened someStore someBase).runFaulty deleteCutOff).any (fun system =>
      system.backend.revocations < UInt64.size &&
        (system.backend.engine.base.actionsFor someUser (.resource someResource)).contains .get &&
        (system.backend.store.rules.get? (someUser, someResource)).isNone &&
        system.parties.rows.all fun row => row.2.quiet) = true := by decide
  obtain ⟨system, hrun, htest⟩ := (Option.any_eq_true ..).1 hrun
  simp only [Bool.and_eq_true, decide_eq_true_eq, Option.isNone_iff_eq_none,
    List.all_eq_true] at htest
  obtain ⟨⟨⟨hfew, hholds⟩, hgone⟩, hquiet⟩ := htest
  rcases held_beyond_store_was_cut_off hrun someStore_backs_someBase hfew
      (.fact someUser (.resource someResource) .get) hholds with
    ⟨rule, hrule, -⟩ | ⟨id, party, hget, howes⟩ | ⟨id, request, progress, hcut⟩
  · rw [hgone] at hrule
    cases hrule
  · have hparty : party.quiet = true := hquiet (id, party) (Table.mem_rows_iff.2 hget)
    rw [howes.unquiet] at hparty
    cases hparty
  · exact ⟨system, id, request, progress, hrun, hholds, hcut⟩

end System

end AccessControl
