import AccessControl.Proofs.DeferredUpdate
import AccessControl.Proofs.RolledBackScope

/-!
# A commit that persists nothing

A statement that fails aborts its transaction.  Nothing is accepted afterwards, and the commit
persists nothing, although it is answered with success.  A scope takes this success for the proof
that all its earlier writes have taken effect.  So the engine comes to hold what a write accepted
before the failure has granted and no later one has revoked.  Beyond that it holds only what it held
before the transaction was opened.
-/

namespace AccessControl

/-- A step that nobody interrupts does not change what the call leaves in the engine. -/
theorem Call.run_step {α : Type} {coordinator : Nat} {before after : Backend}
    {call rest : Call α}
    (hstep : call.step coordinator before = some (rest, after)) :
    LocalCache.run rest (after.cacheOf coordinator) =
      LocalCache.run call (before.cacheOf coordinator) := by
  cases call with
  | engine request next =>
    simp only [Call.step, Option.some.injEq, Prod.mk.injEq] at hstep
    obtain ⟨rfl, rfl⟩ := hstep
    rfl
  | count counter next =>
    simp only [Call.step, Option.some.injEq, Prod.mk.injEq] at hstep
    obtain ⟨rfl, rfl⟩ := hstep
    rw [Backend.cacheOf_count]
    rfl
  | done | store => cases hstep


namespace ScopeEvent

/-- Whether the event tells of a statement that fails, and so aborts the transaction: a rule that
cannot be added, or a failure of the store itself. -/
def Fails : ScopeEvent → Prop
  | hear (.create _ _) (.error error) => error ≠ .accessDenied
  | hear request (.error error) =>
    error.isInternal = true ∧ request.endsTransaction = false
  | _ => False

/-- Whether the event accepts nothing but the end of the transaction. -/
def Refuses : ScopeEvent → Prop
  | hear request (.ok _) => request.endsTransaction = true
  | _ => True

variable {event : ScopeEvent} {events : List ScopeEvent}

theorem Fails.accepts (h : event.Fails) : event.accepts = [] := by
  cases event with
  | hear request answer =>
    cases answer with
    | error error => rfl
    | ok reply => cases request <;> exact False.elim h
  | _ => rfl

theorem ended_of_refuses (h : ∀ event ∈ events, event.Refuses) :
    ∀ statement ∈ accepted events, statement.request.endsTransaction = true := by
  intro statement hmem
  obtain ⟨event, hevent, haccepts⟩ := List.mem_flatMap.1 hmem
  have hrefuses := h event hevent
  cases event with
  | hear request answer =>
    cases answer with
    | error error => cases haccepts
    | ok reply =>
      obtain rfl := List.mem_singleton.1 haccepts
      exact hrefuses
  | _ => cases haccepts

end ScopeEvent

namespace ScopeSession

open ScopeEvent (accepted)

variable {session next : ScopeSession} {event : ScopeEvent} {events : List ScopeEvent}
  {statements : List ScopeStatement} {privilege : Privilege} {outcome : Engine}

/-! ## Before and after the commit is answered -/

/-- A step of a transaction that is not committed gives nothing. -/
theorem Only.holds_step (h : session.Only Humble Uncommitted)
    (hstep : session.step event = some next) (hfits : Fits Humble Uncommitted event)
    (hown : event.Own) (hholds : next.backend.Holds privilege) :
    session.backend.Holds privilege := by
  rcases (h.step (fun _ error _ => ⟨error, rfl⟩) hstep hfits).2 hown with
    hengine | ⟨flight, asked, -, hhumble, hengine⟩
  · rw [Backend.Holds, hengine] at hholds
    exact hholds
  · rw [Backend.Holds, hengine] at hholds
    exact Engine.holds_of_answer (hhumble.1 privilege) hholds

theorem Only.holds_run (h : session.Only Humble Uncommitted) (hrun : session.run events = some next)
    (hfits : ∀ event ∈ events, Fits Humble Uncommitted event)
    (hown : ∀ event ∈ events, event.Own) (hholds : next.backend.Holds privilege) :
    session.backend.Holds privilege := by
  induction events generalizing session with
  | nil =>
    obtain rfl := Option.some.inj hrun
    exact hholds
  | cons event rest ih =>
    obtain ⟨middle, hstep, hrest⟩ := Option.bind_eq_some_iff.1 hrun
    have hevent := hfits event List.mem_cons_self
    have hmiddle := (h.step (fun _ error _ => ⟨error, rfl⟩) hstep hevent).1
    refine h.holds_step hstep hevent (hown event List.mem_cons_self) (ih hmiddle hrest ?_ ?_)
    · exact fun other hmem => hfits other (List.mem_cons_of_mem event hmem)
    · exact fun other hmem => hown other (List.mem_cons_of_mem event hmem)

/-- The commit has been answered with success, and what is left of it makes the engine `outcome` if
nobody interrupts it. -/
def Committing (outcome : Engine) (session : ScopeSession) : Prop :=
  ∃ call applied, session.scope.current = some ⟨.commit, .running call, applied⟩ ∧
    call.Leaves (fun _ => True) ∧
    (LocalCache.run call (session.backend.cacheOf session.scope.coordinator)).2.engine = outcome

/-- After the commit nothing more is accepted, and the transaction goes on to the outcome. -/
theorem Committing.step (h : session.Committing outcome) (hstep : session.step event = some next)
    (hown : event.Own) : next.Committing outcome ∧ event.accepts = [] := by
  obtain ⟨call, applied, hcurrent, hleaves, houtcome⟩ := h
  cases event with
  | invoke request =>
    obtain ⟨scope, hinvoke, -⟩ := Option.map_eq_some_iff.1 hstep
    rw [(OpenScope.invoke_cases hinvoke).1] at hcurrent
    cases hcurrent
  | proceed progress =>
    simp only [ScopeSession.step, hcurrent] at hstep
    obtain ⟨⟨stage, backend⟩, hstage, rfl⟩ := Option.map_eq_some_iff.1 hstep
    rcases Stage.running_proceed hstage with ⟨rest, hcallStep, rfl⟩ |
      ⟨request, onUnknown, rest, rfl, -⟩
    · refine ⟨⟨rest, applied, rfl, hleaves.step hcallStep, ?_⟩, rfl⟩
      rw [← houtcome, ← Call.run_step hcallStep]
    · exact False.elim hleaves
  | hear request answer =>
    simp only [ScopeSession.step] at hstep
    split at hstep
    case h_2 => cases hstep
    case h_1 hflight =>
      cases hflight.symm.trans hcurrent
      exact False.elim hleaves
  | finish =>
    obtain ⟨scope, hfinish, -⟩ := Option.map_eq_some_iff.1 hstep
    unfold OpenScope.finish at hfinish
    rw [hcurrent] at hfinish
    cases call <;> cases hfinish
  | disturb shared => exact False.elim hown

theorem Committing.run (h : session.Committing outcome) (hrun : session.run events = some next)
    (hown : ∀ event ∈ events, event.Own) : next.Committing outcome ∧ accepted events = [] := by
  induction events generalizing session with
  | nil =>
    obtain rfl := Option.some.inj hrun
    exact ⟨h, rfl⟩
  | cons event rest ih =>
    obtain ⟨middle, hstep, hrest⟩ := Option.bind_eq_some_iff.1 hrun
    obtain ⟨hmiddle, hevent⟩ := h.step hstep (hown event List.mem_cons_self)
    obtain ⟨hnext, hnone⟩ :=
      ih hmiddle hrest fun other hmem => hown other (List.mem_cons_of_mem event hmem)
    refine ⟨hnext, ?_⟩
    rw [accepted, List.flatMap_cons, hevent]
    exact hnone

/-- The commit is answered with success. -/
theorem committing_of_hear (h : session.scope.Prepared statements)
    (hstep : session.step (.hear .commit (.ok ())) = some next) :
    BorneOut statements session.scope.deferred ∧
      next.Committing (LocalCache.run (EngineUpdate.applyAll session.scope.deferred)
        (session.backend.cacheOf session.scope.coordinator)).2.engine := by
  simp only [step] at hstep
  split at hstep
  case h_2 => cases hstep
  case h_1 owned asked onUnknown rest applied hflight =>
    split at hstep
    case isFalse => cases hstep
    case isTrue hasked =>
      subst hasked
      obtain rfl := Option.some.inj hstep
      cases h with
      | idle hcurrent =>
        rw [hflight] at hcurrent
        cases hcurrent
      | ending hcurrent hcall =>
        cases hflight.symm.trans hcurrent
        exact False.elim hcall
      | abandoned hcurrent => cases hflight.symm.trans hcurrent
      | asking hcurrent hborne hcall =>
        cases hflight.symm.trans hcurrent
        have hsettles : ScopeSettles session.scope.deferred owned .commit rest := hcall
        obtain rfl := hsettles.request_eq
        refine ⟨hborne, rest (.ok ()), applied, rfl, ?_, hsettles.committed rfl () _⟩
        exact (hsettles.accepted ()).imp fun _ _ => trivial

/-! ## At the end -/

theorem run_append_cons {past rest : List ScopeEvent} (hrun : session.run (past ++ event :: rest) =
    some next) : ∃ before after, session.run past = some before ∧ before.step event = some after ∧
      after.run rest = some next := by
  induction past generalizing session with
  | nil =>
    obtain ⟨after, hstep, hrest⟩ := Option.bind_eq_some_iff.1 hrun
    exact ⟨session, after, rfl, hstep, hrest⟩
  | cons first past ih =>
    obtain ⟨middle, hfirst, hlater⟩ := Option.bind_eq_some_iff.1 hrun
    obtain ⟨before, after, hpast, hstep⟩ := ih hlater
    refine ⟨before, after, ?_, hstep⟩
    rw [ScopeSession.run, hfirst, Option.bind_some, hpast]

/-- What the engine holds once the updates of the commit have been made. -/
theorem holds_committed {cache : LocalCache} {deferred : List EngineUpdate}
    (hborne : BorneOut statements deferred)
    (hholds : (LocalCache.run (EngineUpdate.applyAll deferred) cache).2.engine.base.Holds
      privilege) :
    cache.engine.base.Holds privilege ∨
      Lasts (ScopeStatement.Grants privilege) (ScopeStatement.Revokes privilege) statements := by
  cases hpoisoned : cache.engine.poisoned with
  | true =>
    rw [LocalCache.run_poisoned hpoisoned] at hholds
    exact .inl hholds
  | false =>
    rw [LocalCache.run_applyAll hpoisoned] at hholds
    rcases FactBase.holds_foldl_updated hholds with ⟨hheld, -⟩ | hlasts
    · exact .inl hheld
    · exact .inr (hborne privilege hlasts)

/-- What the engine holds after a transaction that nobody else interferes with was held before, or
some accepted request has granted it and no later one has revoked it. -/
theorem held_or_granted {coordinator : Nat} {backend : Backend}
    (hrun : (opened coordinator backend).run events = some session)
    (halone : ∀ event ∈ events, event.Own)
    (hfinished : ∀ flight, session.scope.current = some flight → flight.stage.finished = true)
    (hholds : session.backend.Holds privilege) :
    backend.Holds privilege ∨
      Lasts (ScopeStatement.Grants privilege) (ScopeStatement.Revokes privilege)
        (accepted events) := by
  by_cases hcommit : .hear .commit (.ok ()) ∈ events
  · obtain ⟨past, rest, rfl, hfirst⟩ := List.eq_append_cons_of_mem hcommit
    obtain ⟨before, after, hpast, hcommits, hrest⟩ := run_append_cons hrun
    have halonePast : ∀ event ∈ past, event.Own := fun event hmem =>
      halone event (List.mem_append_left _ hmem)
    have haloneRest : ∀ event ∈ rest, event.Own := fun event hmem =>
      halone event (List.mem_append_right past (List.mem_cons_of_mem _ hmem))
    have hprepared : before.scope.Prepared ([] ++ accepted past) :=
      prepared_run (.idle rfl fun _ => id) hpast hfirst
    obtain ⟨hborne, hcommitting⟩ := committing_of_hear hprepared hcommits
    obtain ⟨⟨call, applied, hcurrent, -, houtcome⟩, hnone⟩ := hcommitting.run hrest haloneRest
    have hdone : (Stage.running call).finished = true := hfinished _ hcurrent
    -- the commit has come to its end, so the outcome is there
    obtain ⟨result, rfl⟩ : ∃ result, call = .done result := by
      cases call with
      | done result => exact ⟨result, rfl⟩
      | _ => cases hdone
    have hengine : session.backend.engine = _ := houtcome
    rw [Backend.Holds, hengine] at hholds
    have haccepted : accepted (past ++ .hear .commit (.ok ()) :: rest) =
        accepted past ++ [⟨.commit, ()⟩] := by
      rw [accepted, List.flatMap_append, List.flatMap_cons, ← accepted, ← accepted, hnone]
      rfl
    rw [haccepted, lasts_append]
    rcases holds_committed hborne hholds with hheld | hlasts
    · have hfits : ∀ event ∈ past, Fits Humble Uncommitted event := fun event =>
        fits_of_uncommitted hfirst
      exact .inl (only_opened.holds_run hpast hfits halonePast hheld)
    · refine .inr (.inl ⟨hlasts, fun statement hmem => ?_⟩)
      obtain rfl := List.mem_singleton.1 hmem
      exact id
  · have hfits : ∀ event ∈ events, Fits Humble Uncommitted event := fun event =>
      fits_of_uncommitted hcommit
    exact .inl (only_opened.holds_run hrun hfits halone hholds)

/-- If the engine agrees with the store before a transaction is opened, nobody else interferes, and
a statement of the transaction fails, then the engine holds in the end, also after a commit that was
answered with success, only what the store backs, which the transaction has not changed, and what a
statement accepted before the failure grants and no later one has revoked. -/
theorem privileges_after_aborted_commit {coordinator : Nat} {backend : Backend}
    {before after : List ScopeEvent} {failure : ScopeEvent}
    (hagrees : ∀ privilege, backend.Holds privilege → backend.Backs privilege)
    (hrun : (opened coordinator backend).run (before ++ failure :: after) = some session)
    (halone : ∀ event ∈ before ++ failure :: after, event.Own)
    (hfails : failure.Fails) (haborted : ∀ event ∈ after, event.Refuses)
    (hfinished : ∀ flight, session.scope.current = some flight → flight.stage.finished = true)
    (hholds : session.backend.Holds privilege) :
    session.backend.Backs privilege ∨
      ∃ earlier granting later, accepted before = earlier ++ granting :: later ∧
        granting.Grants privilege ∧ ∀ statement ∈ later, ¬statement.Revokes privilege := by
  rcases held_or_granted hrun halone hfinished hholds with hheld | hlasts
  · have hstore : session.backend.store = backend.store := store_run hrun halone
    rw [Backend.Backs, hstore]
    exact .inl (hagrees privilege hheld)
  · have haccepted : accepted (before ++ failure :: after) = accepted before ++ accepted after := by
      rw [accepted, List.flatMap_append, List.flatMap_cons, hfails.accepts]
      rfl
    rw [haccepted] at hlasts
    exact .inr (lasts_iff.1 (lasts_ended (ScopeEvent.ended_of_refuses haborted) hlasts))

open AccessControl.System (someUser someResource someStore someBase someStore_backs_someBase)

/-- A resource for which the store has no rule. -/
def unruledResource : ResourceId := ⟨.ofNat 3⟩

/-- A rule is added. -/
def additionOf (resource : ResourceId) : StoreRequest :=
  .create someUser ⟨resource, .page, .ofList [.get]⟩

/-- Another rule cannot be added, which aborts the transaction. -/
def failedAddition : ScopeEvent := .hear (additionOf someResource) (.error .duplicateEntry)

/-- The commit is answered with success and makes the updates that were left for it. -/
def commitAfterFailure (updates : Nat) : List ScopeEvent :=
  [.finish, .invoke .commit, .hear .commit (.ok ())] ++ List.replicate updates (.proceed .advance)

theorem failedAddition_fails : failedAddition.Fails := by
  simp [failedAddition, additionOf, ScopeEvent.Fails]

theorem commitAfterFailure_refuses {updates : Nat} :
    ∀ event ∈ commitAfterFailure updates, event.Refuses := by
  simp only [commitAfterFailure, List.forall_mem_append, List.forall_mem_cons]
  refine ⟨⟨trivial, trivial, rfl, nofun⟩, fun event hmem => ?_⟩
  obtain rfl := List.eq_of_mem_replicate hmem
  trivial

/-- A rule is added and taken away again. -/
def additionTakenBack : List ScopeEvent :=
  [.invoke (additionOf unruledResource), .hear (additionOf unruledResource) (.ok ()),
    .proceed .advance, .finish, .invoke (.delete someUser unruledResource),
    .hear (.delete someUser unruledResource) (.ok ()), .proceed .advance, .finish,
    .invoke (additionOf someResource)]

theorem deleted_rule_unknown_after_aborted_commit : ∃ session,
    (opened 0 someBackend).run (additionTakenBack ++ failedAddition :: commitAfterFailure 2) =
        some session ∧
      ¬session.backend.Holds (.fact someUser (.resource unruledResource) .get) := by
  have hrun : ((opened 0 someBackend).run
      (additionTakenBack ++ failedAddition :: commitAfterFailure 2)).any (fun session =>
        session.backend.store.rules.get? (someUser, unruledResource) = none ∧
          (session.scope.current.all fun flight => flight.stage.finished) = true) = true := by
    decide
  obtain ⟨session, hrun, hsession⟩ := (Option.any_eq_true ..).1 hrun
  obtain ⟨hunruled, hended⟩ := of_decide_eq_true hsession
  have hagrees : ∀ privilege, someBackend.Holds privilege → someBackend.Backs privilege :=
    someStore_backs_someBase
  have halone : ∀ event ∈ additionTakenBack ++ failedAddition :: commitAfterFailure 2,
      event.Own := by
    simp [additionTakenBack, failedAddition, commitAfterFailure, ScopeEvent.Own]
  have hfinished : ∀ flight, session.scope.current = some flight →
      flight.stage.finished = true := by
    intro flight hcurrent
    rw [hcurrent] at hended
    exact hended
  refine ⟨session, hrun, fun hholds => ?_⟩
  rcases privileges_after_aborted_commit hagrees hrun halone failedAddition_fails
    commitAfterFailure_refuses hfinished hholds with ⟨rule, hrule, -⟩ | hgranted
  · rw [hunruled] at hrule
    cases hrule
  · -- the deletion has revoked what the addition granted
    have hlasts := lasts_iff.2 hgranted
    simp [accepted, additionTakenBack, additionOf, ScopeEvent.accepts, Lasts, ScopeStatement.Grants,
      ScopeStatement.Revokes, StoreRequest.Revokes] at hlasts

/-- A rule is added. -/
def additionAlone : List ScopeEvent :=
  [.invoke (additionOf unruledResource), .hear (additionOf unruledResource) (.ok ()),
    .proceed .advance, .finish, .invoke (additionOf someResource)]

/-- The transaction has failed and persisted nothing, and the engine knows the rule that was added
before the failure. -/
theorem unpersisted_rule_known_after_aborted_commit : ∃ session,
    (opened 0 someBackend).run (additionAlone ++ failedAddition :: commitAfterFailure 1) =
        some session ∧
      failedAddition.Fails ∧ (∀ event ∈ commitAfterFailure 1, event.Refuses) ∧
      (session.scope.current.any fun flight =>
        flight.request = .commit && flight.stage.finished) = true ∧
      session.backend.store = someStore ∧
      session.backend.Holds (.fact someUser (.resource unruledResource) .get) ∧
      ¬session.backend.Backs (.fact someUser (.resource unruledResource) .get) := by
  have hrun : ((opened 0 someBackend).run
      (additionAlone ++ failedAddition :: commitAfterFailure 1)).any (fun session =>
        (session.scope.current.any fun flight =>
          flight.request = .commit && flight.stage.finished) = true ∧
        Action.get ∈
          session.backend.engine.base.actionsFor someUser (.resource unruledResource)) = true := by
    decide
  obtain ⟨session, hrun, hsession⟩ := (Option.any_eq_true ..).1 hrun
  obtain ⟨hcommitted, hholds⟩ := of_decide_eq_true hsession
  have halone : ∀ event ∈ additionAlone ++ failedAddition :: commitAfterFailure 1,
      event.Own := by
    simp [additionAlone, failedAddition, commitAfterFailure, ScopeEvent.Own]
  have hstore : session.backend.store = someStore := store_run hrun halone
  refine ⟨session, hrun, failedAddition_fails, commitAfterFailure_refuses, hcommitted, hstore,
    hholds, ?_⟩
  rintro ⟨rule, hrule, -⟩
  rw [hstore] at hrule
  cases hrule

end ScopeSession

end AccessControl
