import AccessControl.Proofs.ScopeSession
import AccessControl.Proofs.Uninterrupted

/-!
# A transaction that leaves nothing behind

A transaction that is rolled back, or dropped, has changed nothing in the store; what it has evicted
from the engine stays evicted.  A check of a type passes as before, since the store answers for the
whole type.  A check of a resource passes as before if the store allows it for the resource, or if a
privilege by which the engine passed it was not revoked by an accepted write of the transaction.
Otherwise the check is lost: no answer of the store brings back a role, or a fact about a type, to an
engine that is asked about a resource.
-/

namespace AccessControl

/-- No step of a call changes the store. -/
theorem Stage.store_of_proceed {α : Type} {stage stage' : Stage α} {coordinator : Nat}
    {before after : Backend} {progress : Progress}
    (h : stage.proceed coordinator before progress = some (stage', after)) :
    after.store = before.store := by
  have hcall : ∀ {β : Type} {call rest : Call β} {backend : Backend},
      call.step coordinator before = some (rest, backend) → backend.store = before.store := by
    intro β call rest backend hstep
    cases call with
    | engine request next =>
      simp only [Call.step, Option.some.injEq, Prod.mk.injEq] at hstep
      obtain ⟨-, rfl⟩ := hstep
      rfl
    | count counter next =>
      simp only [Call.step, Option.some.injEq, Prod.mk.injEq] at hstep
      obtain ⟨-, rfl⟩ := hstep
      rfl
    | done | store => cases hstep
  cases Stage.proceeds_of_proceed h with
  | advance hstep => exact hcall hstep
  | windUp hstep => exact hcall hstep
  | _ => rfl

namespace ScopeSession

variable {session next : ScopeSession} {event : ScopeEvent} {events : List ScopeEvent}
  {privilege : Privilege}

/-- The requests to the engine that do not withdraw the privilege. -/
def Spares (privilege : Privilege) (asked : EngineRequest) : Prop :=
  ∀ reply, ¬asked.Withdraws privilege reply

/-- The answers that accept nothing that may revoke the privilege. -/
def Unrevoked (privilege : Privilege) (request : StoreRequest) (answer : request.Answer) : Prop :=
  ∀ reply, answer = .ok reply → ¬request.Revokes privilege

/-- Some write that may revoke the privilege was accepted. -/
def Revoked (privilege : Privilege) (events : List ScopeEvent) : Prop :=
  ∃ request reply, .hear request (.ok reply) ∈ events ∧ request.Revokes privilege

/-- A call that is no commit withdraws what its request may revoke, once that has been accepted. -/
theorem handle_spares {request : StoreRequest} {deferred : List EngineUpdate}
    (hcommit : request ≠ .commit) :
    (Scope.handle deferred request).Only (Spares privilege) (Unrevoked privilege) := by
  refine Scope.handle_only (fun asked hobserves reply => hobserves.not_withdraws)
    (fun reply hheard update hmem asked hasks answer hwithdraws => ?_)
    fun heq => absurd heq hcommit
  have hevicts : update.Evicts := StoreRequest.evicts_of_mem_evictions hmem
  have hupdate : update.Withdraws privilege := hevicts.withdraws hasks hwithdraws
  exact hheard reply rfl (StoreRequest.revokes_of_mem_evictions hmem hupdate)

theorem fits_of_unrevoked (hcommit : .invoke .commit ∉ events)
    (hunrevoked : ¬Revoked privilege events) (hmem : event ∈ events) :
    Fits (fun _ => Spares privilege) (Unrevoked privilege) event := by
  cases event with
  | invoke request =>
    intro deferred
    refine handle_spares ?_
    rintro rfl
    exact hcommit hmem
  | hear request answer =>
    rintro reply rfl hrevokes
    exact hunrevoked ⟨request, reply, hmem, hrevokes⟩
  | _ => trivial

/-- What a step of the transaction on its own leaves as it is. -/
theorem Only.kept_step (h : session.Only (fun _ => Spares privilege) (Unrevoked privilege))
    (hstep : session.step event = some next)
    (hfits : Fits (fun _ => Spares privilege) (Unrevoked privilege) event) (hown : event.Own) :
    next.backend.engine.poisoned = session.backend.engine.poisoned ∧
      (session.backend.Holds privilege → next.backend.Holds privilege) := by
  rcases (h.step (fun _ _ _ => nofun) hstep hfits).2 hown with
    hengine | ⟨flight, asked, -, hspares, hengine⟩
  · rw [hengine, Backend.Holds, Backend.Holds, hengine]
    exact ⟨rfl, id⟩
  · rw [hengine, Backend.Holds, Backend.Holds, hengine]
    exact ⟨Engine.answer_poisoned, Engine.holds_answer_of_held hspares⟩

/-- A run of the transaction on its own keeps every privilege that no accepted write may revoke. -/
theorem Only.kept_run (h : session.Only (fun _ => Spares privilege) (Unrevoked privilege))
    (hrun : session.run events = some next)
    (hfits : ∀ event ∈ events, Fits (fun _ => Spares privilege) (Unrevoked privilege) event)
    (hown : ∀ event ∈ events, event.Own) :
    next.backend.engine.poisoned = session.backend.engine.poisoned ∧
      (session.backend.Holds privilege → next.backend.Holds privilege) := by
  induction events generalizing session with
  | nil =>
    obtain rfl := Option.some.inj hrun
    exact ⟨rfl, id⟩
  | cons event rest ih =>
    obtain ⟨middle, hstep, hrest⟩ := Option.bind_eq_some_iff.1 hrun
    have hevent := hfits event List.mem_cons_self
    obtain ⟨hpoisoned, hkept⟩ := h.kept_step hstep hevent (hown event List.mem_cons_self)
    have hmiddle := (h.step (fun _ _ _ => nofun) hstep hevent).1
    obtain ⟨hpoisonedRest, hkeptRest⟩ := ih hmiddle hrest
      (fun other hmem => hfits other (List.mem_cons_of_mem event hmem))
      fun other hmem => hown other (List.mem_cons_of_mem event hmem)
    exact ⟨hpoisonedRest.trans hpoisoned, fun hholds => hkeptRest (hkept hholds)⟩

theorem store_step (hstep : session.step event = some next) (hown : event.Own) :
    next.backend.store = session.backend.store := by
  cases event with
  | invoke request =>
    obtain ⟨scope, -, rfl⟩ := Option.map_eq_some_iff.1 hstep
    rfl
  | proceed progress =>
    simp only [ScopeSession.step] at hstep
    split at hstep
    case h_2 => cases hstep
    case h_1 =>
      obtain ⟨⟨stage, backend⟩, hstage, rfl⟩ := Option.map_eq_some_iff.1 hstep
      exact Stage.store_of_proceed hstage
  | hear request answer =>
    simp only [ScopeSession.step] at hstep
    split at hstep
    case h_2 => cases hstep
    case h_1 =>
      split at hstep
      case isFalse => cases hstep
      case isTrue =>
        obtain rfl := Option.some.inj hstep
        rfl
  | finish =>
    obtain ⟨scope, -, rfl⟩ := Option.map_eq_some_iff.1 hstep
    rfl
  | disturb shared => exact False.elim hown

/-- A transaction on its own leaves the store of record alone. -/
theorem store_run (hrun : session.run events = some next) (hown : ∀ event ∈ events, event.Own) :
    next.backend.store = session.backend.store := by
  induction events generalizing session with
  | nil =>
    obtain rfl := Option.some.inj hrun
    rfl
  | cons event rest ih =>
    obtain ⟨middle, hstep, hrest⟩ := Option.bind_eq_some_iff.1 hrun
    have hmiddle := store_step hstep (hown event List.mem_cons_self)
    exact (ih hrest fun other hmem => hown other (List.mem_cons_of_mem event hmem)).trans hmiddle

/-- If the engine agrees with the store before a transaction is opened, and nobody else does
anything until it is rolled back or dropped, then every check of a type that passed before passes
again.  A check of a resource that passed before passes again, unless the store does not allow it for
the resource and every privilege by which the engine passed it may have been revoked by an accepted
write of the transaction. -/
theorem decisions_after_rollback {coordinator : Nat} {backend : Backend}
    (hagrees : ∀ privilege, backend.Holds privilege → backend.Backs privilege)
    (hrun : (opened coordinator backend).run events = some session)
    (halone : ∀ event ∈ events, event.Own) (hcommit : .invoke .commit ∉ events) (reader : Nat) :
    (∀ check, (backend.cacheOf reader).answerTo (.validateAccessToType check) = .ok () →
      (session.backend.cacheOf reader).answerTo (.validateAccessToType check) = .ok ()) ∧
    ∀ check, (backend.cacheOf reader).answerTo (.validateAccess check) = .ok () →
      (session.backend.cacheOf reader).answerTo (.validateAccess check) = .ok () ∨
        backend.store.allowsInstance check = false ∧
          ∀ privilege ∈ StoreRequest.privileges (.validateAccess check),
            backend.Holds privilege → Revoked privilege events := by
  have hstore : session.backend.store = backend.store := store_run hrun halone
  refine ⟨fun check hbefore => ?_, fun check hbefore => ?_⟩
  · have hallowed : backend.store.allowsType check = true := by
      rcases LocalCache.answerTo_validateAccessToType.1 hbefore with
        ⟨-, privilege, hmem, hholds⟩ | hallowed
      · exact MemoryStore.allowsType_of_backs hmem (hagrees privilege hholds)
      · exact hallowed
    rw [← hstore] at hallowed
    exact LocalCache.answerTo_validateAccessToType.2 (.inr hallowed)
  · rw [LocalCache.answerTo_validateAccess] at hbefore ⊢
    cases hallowed : backend.store.allowsInstance check with
    | true =>
      rw [← hstore] at hallowed
      exact .inl (.inr hallowed)
    | false =>
      have hengine : backend.engine.Allows (.validateAccess check) :=
        hbefore.resolve_right (Bool.eq_false_iff.1 hallowed)
      refine Classical.or_iff_not_imp_right.2 fun hlost => .inl ?_
      -- some privilege was not revoked, and the transaction has kept it
      obtain ⟨privilege, hmem, hholds, hunrevoked⟩ : ∃ privilege,
          privilege ∈ StoreRequest.privileges (.validateAccess check) ∧ backend.Holds privilege ∧
            ¬Revoked privilege events := by
        simpa using hlost
      obtain ⟨hpoisoned, hkept⟩ := only_opened.kept_run hrun
        (fun event hevent => fits_of_unrevoked hcommit hunrevoked hevent) halone
      exact ⟨hpoisoned.trans hengine.1, privilege, hmem, hkept hholds⟩

open AccessControl.System (someUser someResource someStore someBase pageCheck administeredStore
  someStore_backs_someBase)

/-- A store with one rule, and an engine that knows it. -/
def someBackend : Backend := { store := someStore, engine := { base := someBase } }

/-- A transaction takes all actions from a rule, and is rolled back. -/
def emptiedRuleRolledBack : List ScopeEvent :=
  let grant : Grant := ⟨someResource, .page, .ofList []⟩
  [.invoke (.update someUser grant), .hear (.update someUser grant) (.ok 1), .proceed .advance,
    .proceed .advance, .finish, .invoke .rollback, .hear .rollback (.ok ())]

theorem rule_passes_after_rollback : ∃ session,
    (opened 0 someBackend).run emptiedRuleRolledBack = some session ∧
      (session.backend.cacheOf 0).answerTo (.validateAccess pageCheck) = .ok () := by
  have hrun : ((opened 0 someBackend).run emptiedRuleRolledBack).isSome = true := by
    decide
  obtain ⟨session, hrun⟩ := Option.isSome_iff_exists.1 hrun
  have hagrees : ∀ privilege, someBackend.Holds privilege → someBackend.Backs privilege :=
    someStore_backs_someBase
  have halone : ∀ event ∈ emptiedRuleRolledBack, event.Own := by
    simp [emptiedRuleRolledBack, ScopeEvent.Own]
  have hcommit : .invoke .commit ∉ emptiedRuleRolledBack := by
    simp [emptiedRuleRolledBack]
  have hallowed : someBackend.store.allowsInstance pageCheck = true := by
    decide
  have hbefore : (someBackend.cacheOf 0).answerTo (.validateAccess pageCheck) = .ok () :=
    LocalCache.answerTo_validateAccess.2 (.inr hallowed)
  rcases (decisions_after_rollback hagrees hrun halone hcommit 0).2 pageCheck hbefore with
    hafter | hlost
  · exact ⟨session, hrun, hafter⟩
  · rw [hallowed] at hlost
    cases hlost.1

/-- A transaction makes an administrator an ordinary user, and is rolled back. -/
def demotionRolledBack : List ScopeEvent :=
  [.invoke (.syncUserRole someUser .user), .hear (.syncUserRole someUser .user) (.ok ())] ++
    List.replicate 6 (.proceed .advance) ++
    [.finish, .invoke .rollback, .hear .rollback (.ok ())]

/-- The administrator is denied after the rollback, although the engine was loaded from the store, in
which the user is an administrator still. -/
theorem administrator_denied_after_rollback : ∃ cache session,
    LocalCache.ofStore administeredStore = .ok cache ∧
      cache.answerTo (.validateAccess pageCheck) = .ok () ∧
      (opened 0 { store := cache.store, engine := cache.engine }).run demotionRolledBack =
        some session ∧
      (session.scope.current.any fun flight =>
        flight.request = .rollback && flight.stage.finished) = true ∧
      (session.backend.cacheOf 0).answerTo (.validateAccess pageCheck) = .error .accessDenied ∧
      session.backend.store.users.get? someUser = some .admin :=
  ⟨_, _, rfl, by decide, rfl, by decide, by decide, by decide⟩

end ScopeSession

end AccessControl
