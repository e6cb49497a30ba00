import AccessControl.Proofs.CacheSoundness
import AccessControl.Proofs.CheckAnswer
import AccessControl.Proofs.ScopeRun

/-!
# One transaction beside anybody

The store of one transaction may answer anything, and beside the transaction others may change what
is shared in whatever way.  A run may stop anywhere: after the end of the transaction, after one of
its calls was given up, or between two of them.  As long as the commit has not been answered with
success, no step of the transaction makes a check of the engine pass.
-/

namespace AccessControl

/-- A transaction and what it shares with others. -/
structure ScopeSession where
  backend : Backend
  scope : OpenScope

/-- What can happen. -/
inductive ScopeEvent where
  | invoke (request : StoreRequest)
  /-- The call that is under way makes a step of its own, or is given up. -/
  | proceed (progress : Progress)
  /-- The store answers the call that is under way. -/
  | hear (request : StoreRequest) (answer : request.Answer)
  | finish
  /-- Others change what is shared. -/
  | disturb (shared : Backend)

/-- Whether an event is a step of the transaction. -/
def ScopeEvent.Own : ScopeEvent → Prop
  | disturb _ => False
  | _ => True

namespace ScopeSession

/-- A transaction that has just been opened. -/
def opened (coordinator : Nat) (backend : Backend) : ScopeSession := ⟨backend, { coordinator }⟩

/-- The session after an event, if the event can happen. -/
def step (session : ScopeSession) : ScopeEvent → Option ScopeSession
  | .invoke request =>
    (session.scope.invoke request).map fun scope => { session with scope }
  | .proceed progress =>
    match session.scope.current with
    | some flight =>
      (flight.stage.proceed session.scope.coordinator session.backend progress).map
        fun (stage, backend) =>
          ⟨backend, { session.scope with current := some { flight with stage } }⟩
    | none => none
  | .hear request answer =>
    match session.scope.current with
    | some ⟨owned, .running (.store asked _ next), applied⟩ =>
      if h : request = asked then
        let flight := ⟨owned, .running (next (h ▸ answer)), applied⟩
        some { session with scope := { session.scope with current := some flight } }
      else none
    | _ => none
  | .finish => session.scope.finish.map fun scope => { session with scope }
  | .disturb backend => some { session with backend }

/-- The session after a list of events, if they can happen one after another. -/
def run (session : ScopeSession) : List ScopeEvent → Option ScopeSession
  | [] => some session
  | event :: rest => (session.step event).bind fun next => next.run rest

/-- A run of the events takes the step. -/
def Takes (session : ScopeSession) (events : List ScopeEvent) (before : ScopeSession)
    (event : ScopeEvent) (after : ScopeSession) : Prop :=
  ∃ past rest, events = past ++ event :: rest ∧ session.run past = some before ∧
    before.step event = some after

end ScopeSession

/-! ## What a transaction may still ask of the engine -/

/-- Every request that the call may still make to the engine has the property. -/
def Stage.Only {α : Type} (property : EngineRequest → Prop)
    (heard : (request : StoreRequest) → request.Answer → Prop) : Stage α → Prop
  | running rest => rest.Only property heard
  | answered .. => False
  | abandoned rest => rest.Only property heard

/-- The engine goes from one state to another by at most one request that has the property. -/
def Engine.AsksOnly (property : EngineRequest → Prop) (before after : Engine) : Prop :=
  after = before ∨ ∃ asked, property asked ∧ after = (before.answer asked).2

theorem Engine.AsksOnly.refl {property : EngineRequest → Prop} {engine : Engine} :
    engine.AsksOnly property engine := .inl rfl

section

variable {α : Type} {property : EngineRequest → Prop}
  {heard : (request : StoreRequest) → request.Answer → Prop} {coordinator : Nat}
  {before after : Backend}

theorem Call.Only.step {call rest : Call α} (h : call.Only property heard)
    (hstep : call.step coordinator before = some (rest, after)) :
    rest.Only property heard ∧ before.engine.AsksOnly property after.engine := by
  cases call with
  | engine request next =>
    simp only [Call.step, Option.some.injEq, Prod.mk.injEq] at hstep
    obtain ⟨rfl, rfl⟩ := hstep
    exact ⟨h.2 _, .inr ⟨request, h.1, rfl⟩⟩
  | count counter next =>
    simp only [Call.step, Option.some.injEq, Prod.mk.injEq] at hstep
    obtain ⟨rfl, rfl⟩ := hstep
    exact ⟨h, .refl⟩
  | done | store => cases hstep

/-- A call that is not waiting for an answer goes on by at most one request to the engine. -/
theorem Stage.Only.proceed {stage stage' : Stage α} {progress : Progress}
    (h : stage.Only property heard)
    (hfailure : ∀ request error, heard request (.error error))
    (hstage : stage.proceed coordinator before progress = some (stage', after)) :
    stage'.Only property heard ∧ before.engine.AsksOnly property after.engine := by
  cases Stage.proceeds_of_proceed hstage with
  | advance hstep => exact Call.Only.step h hstep
  | windUp hstep => exact Call.Only.step h hstep
  | refuse error request onUnknown next => exact ⟨h.2 _ (hfailure request error), .refl⟩
  | giveUp request onUnknown next => exact ⟨EngineUpdate.applyAll_only h.1, .refl⟩
  | receive | lose | giveUpAnswered => exact False.elim h

end

namespace ScopeSession

variable {session before after next : ScopeSession} {event : ScopeEvent}
  {events : List ScopeEvent} {property : StoreRequest → EngineRequest → Prop}
  {heard : (request : StoreRequest) → request.Answer → Prop}

/-- Every request that the call under way may still make to the engine has the property that is
asked of the calls of its kind. -/
def Only (property : StoreRequest → EngineRequest → Prop)
    (heard : (request : StoreRequest) → request.Answer → Prop) (session : ScopeSession) : Prop :=
  ∀ flight, session.scope.current = some flight →
    flight.stage.Only (property flight.request) heard

/-- The event is let in: an answer is one that may be heard, and a call keeps to the property. -/
def Fits (property : StoreRequest → EngineRequest → Prop)
    (heard : (request : StoreRequest) → request.Answer → Prop) : ScopeEvent → Prop
  | .hear request answer => heard request answer
  | .invoke request =>
    ∀ deferred, (Scope.handle deferred request).Only (property request) heard
  | _ => True

theorem only_opened {coordinator : Nat} {backend : Backend} :
    (opened coordinator backend).Only property heard := by
  intro flight hcurrent
  cases hcurrent

/-- A step keeps the calls to the property.  One that the transaction makes asks the engine at most
for what the call under way may ask. -/
theorem Only.step (h : session.Only property heard)
    (hfailure : ∀ request error, heard request (.error error))
    (hstep : session.step event = some next) (hfits : Fits property heard event) :
    next.Only property heard ∧ (event.Own →
      next.backend.engine = session.backend.engine ∨
        ∃ flight asked, session.scope.current = some flight ∧ property flight.request asked ∧
          next.backend.engine = (session.backend.engine.answer asked).2) := by
  cases event with
  | invoke request =>
    obtain ⟨scope, hinvoke, rfl⟩ := Option.map_eq_some_iff.1 hstep
    obtain ⟨-, rfl⟩ := OpenScope.invoke_cases hinvoke
    refine ⟨fun flight hcurrent => ?_, fun _ => .inl rfl⟩
    cases hcurrent
    exact hfits _
  | proceed progress =>
    simp only [ScopeSession.step] at hstep
    split at hstep
    case h_2 => cases hstep
    case h_1 flight hcurrent =>
      obtain ⟨⟨stage, backend⟩, hstage, rfl⟩ := Option.map_eq_some_iff.1 hstep
      obtain ⟨honly, hengine⟩ := (h flight hcurrent).proceed hfailure hstage
      refine ⟨fun flight' hcurrent' => ?_, fun _ => hengine.imp_right ?_⟩
      · cases hcurrent'
        exact honly
      · rintro ⟨asked, hasked, hengine⟩
        exact ⟨flight, asked, hcurrent, hasked, hengine⟩
  | hear request answer =>
    simp only [ScopeSession.step] at hstep
    split at hstep
    case h_2 => cases hstep
    case h_1 owned asked onUnknown rest applied hcurrent =>
      split at hstep
      case isFalse => cases hstep
      case isTrue hasked =>
        subst hasked
        obtain rfl := Option.some.inj hstep
        refine ⟨fun flight hcurrent' => ?_, fun _ => .inl rfl⟩
        cases hcurrent'
        have honly : (Call.store request onUnknown rest).Only (property owned) heard :=
          h _ hcurrent
        exact honly.2 answer hfits
  | finish =>
    obtain ⟨scope, hfinish, rfl⟩ := Option.map_eq_some_iff.1 hstep
    obtain ⟨more, rfl⟩ := OpenScope.finish_cases hfinish
    refine ⟨fun flight hcurrent => ?_, fun _ => .inl rfl⟩
    cases hcurrent
  | disturb shared =>
    obtain rfl := Option.some.inj hstep
    exact ⟨h, False.elim⟩

theorem Only.run (h : session.Only property heard)
    (hfailure : ∀ request error, heard request (.error error))
    (hrun : session.run events = some next) (hfits : ∀ event ∈ events, Fits property heard event) :
    next.Only property heard := by
  induction events generalizing session with
  | nil =>
    obtain rfl := Option.some.inj hrun
    exact h
  | cons event rest ih =>
    obtain ⟨middle, hstep, hrest⟩ := Option.bind_eq_some_iff.1 hrun
    have hmiddle := (h.step hfailure hstep (hfits event List.mem_cons_self)).1
    exact ih hmiddle hrest fun other hmem => hfits other (List.mem_cons_of_mem event hmem)

theorem Takes.mem (h : session.Takes events before event after) : event ∈ events := by
  obtain ⟨past, rest, rfl, -⟩ := h
  exact List.mem_append_right past List.mem_cons_self

theorem Takes.head {rest : List ScopeEvent} (hstep : session.step event = some next) :
    session.Takes (event :: rest) session event next := ⟨[], rest, rfl, rfl, hstep⟩

theorem Takes.cons {first : ScopeEvent} {middle : ScopeSession}
    (hstep : session.step first = some middle) (h : middle.Takes events before event after) :
    session.Takes (first :: events) before event after := by
  obtain ⟨past, rest, rfl, hpast, hevent⟩ := h
  refine ⟨first :: past, rest, rfl, ?_, hevent⟩
  rw [ScopeSession.run, hstep, Option.bind_some, hpast]

theorem Only.takes (h : session.Only property heard)
    (hfailure : ∀ request error, heard request (.error error))
    (hfits : ∀ event ∈ events, Fits property heard event)
    (htakes : session.Takes events before event after) : before.Only property heard := by
  obtain ⟨past, rest, rfl, hpast, -⟩ := htakes
  exact h.run hfailure hpast fun other hmem => hfits other (List.mem_append_left _ hmem)

/-! ## Before the commit -/

/-- The requests to the engine of a call that is not a successful commit: they give nothing, and
those of a read change nothing. -/
def Humble (request : StoreRequest) (asked : EngineRequest) : Prop :=
  (∀ privilege, asked.Modest privilege) ∧
    (request.row? = none → request ≠ .commit → asked.Observes)

/-- The answers that are no success of the commit. -/
def Uncommitted (request : StoreRequest) (answer : request.Answer) : Prop :=
  request = .commit → ∃ error, answer = .error error

theorem handle_humble {request : StoreRequest} {deferred : List EngineUpdate} :
    (Scope.handle deferred request).Only (Humble request) Uncommitted := by
  refine Scope.handle_only (fun asked hobserves => ⟨fun _ => hobserves.modest, fun _ _ => hobserves⟩)
    (fun _ _ update hmem asked hasks => ?_) (fun hcommit => ⟨fun reply hheard => ?_, ?_⟩)
  · have hevicts : update.Evicts := StoreRequest.evicts_of_mem_evictions hmem
    refine ⟨fun _ => hevicts.modest hasks, fun hrow _ => ?_⟩
    rw [StoreRequest.evictions_of_row hrow] at hmem
    cases hmem
  · obtain ⟨error, herror⟩ := hheard rfl
    cases herror
  · intro update hmem asked hasks
    have hevicts : update.Evicts := EngineUpdate.evicts_of_mem_onUnknownAll hmem
    exact ⟨fun _ => hevicts.modest hasks, fun _ hne => absurd hcommit hne⟩

theorem fits_of_uncommitted (h : .hear .commit (.ok ()) ∉ events) (hmem : event ∈ events) :
    Fits Humble Uncommitted event := by
  cases event with
  | invoke request => exact fun _ => handle_humble
  | hear request answer =>
    rintro rfl
    cases answer with
    | error error => exact ⟨error, rfl⟩
    | ok reply => exact absurd hmem h
  | _ => trivial

variable {subject : UserId} {object : PolicyObject} {action : Action}

/-- A step of an uncommitted transaction makes no check pass. -/
theorem Only.passes_step (h : session.Only Humble Uncommitted)
    (hstep : session.step event = some next) (hfits : Fits Humble Uncommitted event)
    (hown : event.Own)
    (hpasses : next.backend.engine.passes subject object action = true) :
    session.backend.engine.passes subject object action = true := by
  rcases (h.step (fun _ error _ => ⟨error, rfl⟩) hstep hfits).2 hown with
    hengine | ⟨flight, asked, -, hhumble, hengine⟩
  · rwa [hengine] at hpasses
  · rw [hengine] at hpasses
    exact Engine.passes_of_answer hhumble.1 hpasses

/-- Under way to no successful commit, what passes a check at the end passed it at the beginning, or
others have made it pass. -/
theorem Only.passes_run (h : session.Only Humble Uncommitted)
    (hrun : session.run events = some next)
    (hfits : ∀ event ∈ events, Fits Humble Uncommitted event)
    (hpasses : next.backend.engine.passes subject object action = true) :
    session.backend.engine.passes subject object action = true ∨
      ∃ before shared after, session.Takes events before (.disturb shared) after ∧
        before.backend.engine.passes subject object action = false ∧
        after.backend.engine.passes subject object action = true := by
  induction events generalizing session with
  | nil =>
    obtain rfl := Option.some.inj hrun
    exact .inl hpasses
  | cons event rest ih =>
    obtain ⟨middle, hstep, hrest⟩ := Option.bind_eq_some_iff.1 hrun
    have hevent := hfits event List.mem_cons_self
    have hmiddle := (h.step (fun _ error _ => ⟨error, rfl⟩) hstep hevent).1
    rcases ih hmiddle hrest fun other hmem => hfits other (List.mem_cons_of_mem event hmem) with
      hpassed | ⟨before, shared, after, htakes, hothers⟩
    · cases event with
      | disturb shared =>
        cases hbefore : session.backend.engine.passes subject object action with
        | true => exact .inl rfl
        | false => exact .inr ⟨session, shared, middle, .head hstep, hbefore, hpassed⟩
      | _ => exact .inl (h.passes_step hstep hevent trivial hpassed)
    · exact .inr ⟨before, shared, after, htakes.cons hstep, hothers⟩

/-- Whatever its store answers and whatever others do, a transaction whose commit has not been
answered with success makes no check of the engine pass: each of its steps can only take checks away,
and the steps of its reads leave the engine as it is.  So a check that passes in the end passed in
the beginning, or a step of others has made it pass. -/
theorem uncommitted_scope_grants_nothing {coordinator : Nat} {backend : Backend}
    (hrun : (opened coordinator backend).run events = some session)
    (huncommitted : .hear .commit (.ok ()) ∉ events) :
    (∀ before event after, (opened coordinator backend).Takes events before event after →
      event.Own →
        (∀ subject object action, after.backend.engine.passes subject object action = true →
          before.backend.engine.passes subject object action = true) ∧
        ∀ flight, before.scope.current = some flight → flight.request.row? = none →
          flight.request ≠ .commit → after.backend.engine = before.backend.engine) ∧
    ∀ subject object action, session.backend.engine.passes subject object action = true →
      backend.engine.passes subject object action = true ∨
        ∃ before shared after, (opened coordinator backend).Takes events before (.disturb shared)
            after ∧
          before.backend.engine.passes subject object action = false ∧
          after.backend.engine.passes subject object action = true := by
  have hfailure : ∀ (request : StoreRequest) (error : StorageError),
      Uncommitted request (.error error) := fun _ error _ => ⟨error, rfl⟩
  have hfits : ∀ event ∈ events, Fits Humble Uncommitted event := fun event hmem =>
    fits_of_uncommitted huncommitted hmem
  refine ⟨fun before event after htakes hown => ?_, fun subject object action =>
    only_opened.passes_run hrun hfits⟩
  have honly : before.Only Humble Uncommitted := only_opened.takes hfailure hfits htakes
  have hevent : Fits Humble Uncommitted event := hfits event htakes.mem
  obtain ⟨past, rest, -, -, hstep⟩ := htakes
  refine ⟨fun subject object action => honly.passes_step hstep hevent hown,
    fun flight hcurrent hrow hcommit => ?_⟩
  rcases (honly.step hfailure hstep hevent).2 hown with
    hengine | ⟨flight', asked, hcurrent', hhumble, hengine⟩
  · exact hengine
  · obtain rfl := Option.some.inj (hcurrent.symm.trans hcurrent')
    rw [hengine, Engine.answer_of_observes (hhumble.2 hrow hcommit)]

open AccessControl.System (someUser someResource someStore)

/-- A transaction grants a rule and promotes a user, and the store fails at its commit. -/
def failingCommit : List ScopeEvent :=
  let grant : Grant := ⟨someResource, .page, .ofList [.get]⟩
  [.invoke (.create someUser grant), .hear (.create someUser grant) (.ok ()), .proceed .advance,
    .finish, .invoke (.syncUserRole someUser .admin),
    .hear (.syncUserRole someUser .admin) (.ok ())] ++ List.replicate 5 (.proceed .advance) ++
  [.finish, .invoke .commit, .hear .commit (.error (.internal "no answer"))] ++
    List.replicate 4 (.proceed .advance)

/-- The engine knew nothing, so afterwards it still passes nothing. -/
theorem nothing_passes_after_failing_commit : ∃ session,
    (opened 0 { store := someStore, engine := {} }).run failingCommit = some session ∧
      (∀ flight, session.scope.current = some flight → flight.stage.finished = true) ∧
      ∀ subject object action,
        session.backend.engine.passes subject object action = false := by
  have hrun : ((opened 0 { store := someStore, engine := {} }).run failingCommit).any
      (fun session => session.scope.current.all fun flight => flight.stage.finished) = true := by
    decide
  obtain ⟨session, hrun, hfinished⟩ := (Option.any_eq_true ..).1 hrun
  refine ⟨session, hrun, fun flight hcurrent => ?_, fun subject object action => ?_⟩
  · rw [hcurrent] at hfinished
    exact hfinished
  · have huncommitted : .hear .commit (.ok ()) ∉ failingCommit := by
      simp [failingCommit]
    refine Bool.eq_false_iff.2 fun hpasses => ?_
    rcases (uncommitted_scope_grants_nothing hrun huncommitted).2 subject object action hpasses with
      hbefore | ⟨before, shared, after, htakes, -⟩
    · have hholds := (Engine.passes_iff.1 hbefore).2
      exact hholds.elim FactBase.not_holds_empty FactBase.not_holds_empty
    · have hmem := htakes.mem
      simp [failingCommit] at hmem

end ScopeSession

end AccessControl
