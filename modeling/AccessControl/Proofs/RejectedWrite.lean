import AccessControl.Proofs.EngineFailure
import AccessControl.Proofs.SequentialUse
import AccessControl.Proofs.UpdateRun

/-!
# Writes that the store does not make

The store may answer a write with an error that says that nothing was done, or with one that leaves
this open.  In the first case the engine stays as it is, its revocation counters included.  In the
second it loses what it knows about the row of the write, and nothing else.  This is shown for a
write that nobody interrupts, and for what a write does to the engine beside others.  A scope tells
the engine nothing about a write that ends with an error, neither at once nor at its commit.
-/

namespace AccessControl

/-! ## What the evictions of a write take -/

/-- What the evictions of a request leave of a fact base.  The facts are gone that the request may
revoke, and a user whom it moves to an ordinary role has that role.  All else is as before, but for
the counters of the user or the type of the request. -/
structure FactBase.EvictedBy (request : StoreRequest) (before after : FactBase) : Prop where
  facts : ∀ subject object action, action ∈ after.actionsFor subject object ↔
    action ∈ before.actionsFor subject object ∧ ¬request.Revokes (.fact subject object action)
  demoted : ∀ subject role, request = .syncUserRole subject role →
    role.isAdministrative = false → after.roleOf subject = some role
  roles : ∀ subject,
    (∀ role, role.isAdministrative = false → request ≠ .syncUserRole subject role) →
      after.roleOf subject = before.roleOf subject
  subjects : ∀ subject, request.row? ≠ some (.role subject) →
    (∀ resource, request.row? ≠ some (.rule subject resource)) →
      after.subjectVersion subject = before.subjectVersion subject
  objects : ∀ object, (∀ role resourceType, object = .type resourceType →
    request.row? ≠ some (.policy role resourceType)) →
      after.objectVersion object = before.objectVersion object
  created : ∀ user grant, request = .create user grant → after = before

namespace FactBase

variable {base : FactBase} {request : StoreRequest} {subject : UserId} {object : PolicyObject}

/-- The evictions of a request take the privileges that the request may revoke, and no other. -/
theorem holds_evictions {privilege : Privilege} :
    (request.evictions.foldl updated base).Holds privilege ↔
      base.Holds privilege ∧ ¬request.Revokes privilege := by
  cases request with
  | update | delete => exact holds_removeFacts
  | syncUserRole => exact holds_demoted
  | putRolePolicy => exact holds_clearObject
  | _ => simp [StoreRequest.evictions, StoreRequest.Revokes]

theorem roleOf_evictions
    (hkept : ∀ role, role.isAdministrative = false → request ≠ .syncUserRole subject role) :
    (request.evictions.foldl updated base).roleOf subject = base.roleOf subject := by
  cases request with
  | update | delete => exact roleOf_removeFacts
  | syncUserRole user role =>
    refine roleOf_demoted.trans (if_neg ?_)
    rintro ⟨rfl, hordinary⟩
    exact hkept role hordinary rfl
  | putRolePolicy => exact roleOf_clearObject
  | _ => rfl

theorem subjectVersion_evictions (hrole : request.row? ≠ some (.role subject))
    (hrule : ∀ resource, request.row? ≠ some (.rule subject resource)) :
    (request.evictions.foldl updated base).subjectVersion subject =
      base.subjectVersion subject := by
  cases request with
  | update user grant =>
    have hother : subject ≠ user := by
      rintro rfl
      exact hrule grant.resource rfl
    exact subjectVersion_removeFacts.trans (if_neg hother)
  | delete user resource =>
    have hother : subject ≠ user := by
      rintro rfl
      exact hrule resource rfl
    exact subjectVersion_removeFacts.trans (if_neg hother)
  | syncUserRole user role =>
    have hother : subject ≠ user := by
      rintro rfl
      exact hrole rfl
    exact subjectVersion_demoted hother
  | putRolePolicy => exact subjectVersion_clearObject
  | _ => rfl

theorem objectVersion_evictions
    (hpolicy : ∀ role resourceType, object = .type resourceType →
      request.row? ≠ some (.policy role resourceType)) :
    (request.evictions.foldl updated base).objectVersion object = base.objectVersion object := by
  cases request with
  | update | delete => exact objectVersion_removeFacts
  | syncUserRole => exact objectVersion_demoted
  | putRolePolicy role resourceType actions =>
    have hother : object ≠ .type resourceType := fun h => hpolicy role resourceType h rfl
    exact objectVersion_clearObject.trans (if_neg hother)
  | _ => rfl

theorem evictedBy_evictions (base : FactBase) (request : StoreRequest) :
    base.EvictedBy request (request.evictions.foldl updated base) where
  facts := fun subject object action =>
    @holds_evictions base request (.fact subject object action)
  demoted := by
    rintro subject role rfl hordinary
    exact roleOf_demoted.trans (if_pos ⟨rfl, hordinary⟩)
  roles := fun _ => roleOf_evictions
  subjects := fun _ => subjectVersion_evictions
  objects := fun _ => objectVersion_evictions
  created := by
    rintro user grant rfl
    rfl

end FactBase

/-! ## Calls that do not ask the store -/

namespace Call

variable {α σ : Type} {property : α → Prop} {call : Call α} {deeds : List Deed}
  {ending : Option α}

/-- A call that does not ask the store is told nothing, and ends as it must. -/
theorem Leaves.acts (h : call.Leaves property) (hacts : call.Acts deeds ending) :
    (∀ request answer, .told request answer ∉ deeds) ∧
      ∀ result, ending = some result → property result := by
  induction hacts with
  | stop => exact ⟨fun _ _ => List.not_mem_nil, nofun⟩
  | done result =>
    refine ⟨fun _ _ => List.not_mem_nil, ?_⟩
    rintro _ ⟨⟩
    exact h
  | ask engine hrest ih => simpa using ih (h _)
  | count hrest ih => exact ih h
  | hear | giveUp => exact False.elim h

/-- A call that is followed by its end has done all that it does, if the end is reached. -/
theorem Leaves.acts_bind {β : Type} {result : β} {ending : Option β} (h : call.Leaves property)
    (hacts : (call.bind fun _ => done result).Acts deeds ending) :
    ∃ ended, call.Acts deeds ended ∧
      (ending = none ∨ ended.isSome = true ∧ ending = some result) := by
  induction call generalizing deeds with
  | done value =>
    cases hacts with
    | stop => exact ⟨_, .stop _, .inl rfl⟩
    | done => exact ⟨_, .done value, .inr ⟨rfl, rfl⟩⟩
  | engine request next ih =>
    cases hacts with
    | stop => exact ⟨_, .stop _, .inl rfl⟩
    | ask engine hrest =>
      obtain ⟨ended, hended, hending⟩ := ih _ (h _) hrest
      exact ⟨ended, .ask engine hended, hending⟩
  | store => exact False.elim h
  | count counter next ih =>
    cases hacts with
    | stop => exact ⟨_, .stop _, .inl rfl⟩
    | count hrest =>
      obtain ⟨ended, hended, hending⟩ := ih h hrest
      exact ⟨ended, .count hended, hending⟩

/-- Where the store is not asked, it does not matter which store it is. -/
theorem Leaves.perform_engine {stores : RuleStore σ} {held : σ} (h : call.Leaves property)
    (cache : LocalCache) :
    (call.perform Engine.answer stores cache.engine held).engine =
      (LocalCache.run call cache).2.engine := by
  induction call generalizing cache with
  | done result => rfl
  | engine request next ih =>
    exact ih _ (h _) { cache with engine := (cache.engine.answer request).2 }
  | store => exact False.elim h
  | count counter next ih =>
    exact ih h { cache with counters := cache.counters.count counter }

end Call

/-! ## A coordinator -/

namespace Coordinator

variable {σ : Type} {stores : RuleStore σ} {held : σ} {engine : Engine} {request : StoreRequest}
  {error : StorageError} {deeds : List Deed} {ending : Option request.Answer}

/-- The engine after a write that was answered with an error. -/
theorem refused_engine {α : Type} (updates : List EngineUpdate) :
    ((refused (α := α) error updates).perform Engine.answer stores engine held).engine =
      if error.isInternal then engine.updatedAll updates else engine := by
  rw [(refused_leaves updates).perform_engine { engine }, refused]
  split
  · rw [LocalCache.run_bind]
    exact Engine.after_applyAll engine updates
  · rfl

theorem Settles.engine_of_error {evictions onUnknown : List EngineUpdate}
    {answered : request.Answer → Call request.Answer} (h : Settles evictions answered)
    (herror : (stores held request).1 = .error error) :
    ((Call.store request onUnknown answered).perform Engine.answer stores engine held).engine =
      if error.isInternal then engine.updatedAll evictions else engine := by
  have hstep : ((Call.store request onUnknown answered).perform Engine.answer stores engine
      held).engine = ((answered (stores held request).1).perform Engine.answer stores engine
        (stores held request).2).engine := rfl
  rw [hstep, herror, h.refused, refused_engine]

/-- A call that is answered with an error leaves the engine as the evictions do, or as it was. -/
theorem Decides.engine_of_error {call : Call request.Answer} (h : Decides request call)
    (herror : (stores held request).1 = .error error) :
    let performed := call.perform Engine.answer stores engine held
    ¬performed.IsPassed → performed.engine =
      if error.isInternal then engine.updatedAll request.evictions else engine := by
  induction h with
  | @look subject object action next hread reply hpassed hrest ih =>
    intro performed hunpassed
    have hsame : (engine.answer (.check subject object action)).2 = engine :=
      Engine.answer_of_observes trivial
    simp only [performed, Call.perform, hsame, Performance.isPassed_after,
      CallEvent.passes_check_iff, not_or, Bool.not_eq_true] at hunpassed ⊢
    exact ih _ hunpassed.1 hunpassed.2
  | count h ih =>
    intro performed hunpassed
    refine ih fun hpassed => hunpassed ?_
    exact Performance.isPassed_after.2 (.inr hpassed)
  | @snapshot asked answered hasked hsettles hfailed =>
    intro performed _
    have hsame : (engine.answer asked).2 = engine := by
      rcases hasked with ⟨subject, object, rfl⟩ | ⟨subject, rfl⟩ <;>
        exact Engine.answer_of_observes trivial
    have hperformed : performed.engine =
        ((Call.store request request.evictions (answered (engine.answer asked).1)).perform
          Engine.answer stores engine held).engine := by
      simp only [performed, Call.perform, hsame, Performance.engine_after]
    rw [hperformed]
    exact (hsettles (engine.answer asked).1).engine_of_error herror
  | ask hsettles =>
    intro performed _
    exact hsettles.engine_of_error herror

theorem Settles.acts_of_error {evictions onUnknown : List EngineUpdate}
    {answered : request.Answer → Call request.Answer} (h : Settles evictions answered)
    (hacts : (Call.store request onUnknown answered).Acts deeds ending)
    (htold : .told request (.error error) ∈ deeds) :
    ∃ after, deeds = .told request (.error error) :: after ∧
      (Coordinator.refused error evictions).Acts after ending := by
  cases hacts with
  | stop => cases htold
  | giveUp hrest =>
    have hnone := ((EngineUpdate.applyAll_leaves onUnknown).acts hrest).1 request (.error error)
    exact absurd ((List.mem_cons.1 htold).resolve_left nofun) hnone
  | hear answer hrest =>
    have hnone := ((h.leaves answer).acts hrest).1 request (.error error)
    have hanswer := (List.mem_cons.1 htold).resolve_right hnone
    cases hanswer
    rw [h.refused] at hrest
    exact ⟨_, rfl, hrest⟩

/-- What a call that hears an error has done and may still do: it has looked at the engine, and goes
on with the evictions if the outcome is open. -/
theorem Decides.acts_of_error {call : Call request.Answer} (h : Decides request call)
    (hacts : call.Acts deeds ending) (htold : .told request (.error error) ∈ deeds) :
    ∃ before after, deeds = before ++ .told request (.error error) :: after ∧
      (∀ deed ∈ before, deed.Looks) ∧
        (Coordinator.refused error request.evictions).Acts after ending := by
  induction h generalizing deeds with
  | @look subject object action next hread reply hpassed hrest ih =>
    cases hacts with
    | stop => cases htold
    | ask engine hnext =>
      have htold := (List.mem_cons.1 htold).resolve_left nofun
      cases hallows : allows (engine.answer (.check subject object action)).1 with
      | true =>
        rw [hpassed _ hallows] at hnext
        rw [(AccessCheck.acts_count hnext).1] at htold
        cases htold
      | false =>
        obtain ⟨before, after, rfl, hlooks, hrefused⟩ := ih _ hallows hnext htold
        exact ⟨_ :: before, after, rfl, List.forall_mem_cons.2 ⟨trivial, hlooks⟩, hrefused⟩
  | count h ih =>
    cases hacts with
    | stop => cases htold
    | count hrest => exact ih hrest htold
  | @snapshot asked answered hasked hsettles hfailed =>
    cases hacts with
    | stop => cases htold
    | ask engine hnext =>
      have htold := (List.mem_cons.1 htold).resolve_left nofun
      obtain ⟨after, rfl, hrefused⟩ := (hsettles _).acts_of_error hnext htold
      have hlooks : asked.Observes := by
        rcases hasked with ⟨subject, object, rfl⟩ | ⟨subject, rfl⟩ <;> trivial
      exact ⟨[.asked engine asked], after, rfl, List.forall_mem_singleton.2 hlooks, hrefused⟩
  | ask hsettles =>
    obtain ⟨after, rfl, hrefused⟩ := hsettles.acts_of_error hacts htold
    exact ⟨[], after, rfl, fun _ hmem => absurd hmem List.not_mem_nil, hrefused⟩

end Coordinator

/-! ## A scope -/

namespace Scope

variable {request : StoreRequest} {deferred : List EngineUpdate} {error : StorageError}
  {deeds : List Deed} {ending : Option (ScopedResult request.Reply)}

/-- A write inside a transaction goes to the store at once.  If it is refused, nothing is left to be
done or to be told. -/
theorem handle_write (h : request.row?.isSome = true) :
    ∃ answered : request.Answer → Call (ScopedResult request.Reply),
      handle deferred request = .store request [] answered ∧
        (∀ error, answered (.error error) = refused error) ∧
        ∀ reply, (answered (.ok reply)).Leaves fun ending =>
          ∃ value, ending.result = .ok value := by
  cases request with
  | create user grant =>
    refine ⟨_, rfl, fun _ => rfl, fun _ seen => ?_⟩
    cases seen <;> exact ⟨_, rfl⟩
  | update user grant =>
    refine ⟨_, rfl, fun _ => rfl, fun touched => ?_⟩
    refine (EngineUpdate.apply_leaves _).bind fun _ _ seen => ?_
    cases seen with
    | ok version =>
      dsimp only
      split <;> exact ⟨touched, rfl⟩
    | error error => exact ⟨touched, rfl⟩
  | delete user resource =>
    exact ⟨_, rfl, fun _ => rfl, fun _ => (EngineUpdate.apply_leaves _).bind fun _ _ => ⟨_, rfl⟩⟩
  | syncUserRole user role =>
    refine ⟨_, rfl, fun _ => rfl, fun _ => ?_⟩
    refine (EngineUpdate.apply_leaves _).bind fun _ _ seen => ?_
    cases seen <;> exact ⟨_, rfl⟩
  | putRolePolicy role resourceType actions =>
    exact ⟨_, rfl, fun _ => rfl, fun _ => (EngineUpdate.apply_leaves _).bind fun _ _ => ⟨_, rfl⟩⟩
  | _ => cases h

/-- A write inside a transaction that hears an error or ends with one has asked nothing of the
engine, and leaves nothing to be told at the commit. -/
theorem acts_of_error (hwrite : request.row?.isSome = true)
    (hacts : (handle deferred request).Acts deeds ending)
    (herror : .told request (.error error) ∈ deeds ∨ ∃ left, ending = some ⟨.error error, left⟩) :
    deeds = [.told request (.error error)] ∧
      (ending = none ∨ ending = some ⟨.error error, []⟩) := by
  obtain ⟨answered, hhandle, hrefused, haccepted⟩ := @handle_write request deferred hwrite
  rw [hhandle] at hacts
  cases hacts with
  | stop => simp at herror
  | giveUp hrest =>
    -- nothing is left to be done for the case that the answer is not heard
    cases hrest <;> simp at herror
  | hear answer hrest =>
    cases answer with
    | ok reply =>
      obtain ⟨hnone, hended⟩ := (haccepted reply).acts hrest
      rcases herror with htold | ⟨left, rfl⟩
      · exact absurd ((List.mem_cons.1 htold).resolve_left nofun) (hnone _ _)
      · obtain ⟨value, hvalue⟩ := hended _ rfl
        cases hvalue
    | error failure =>
      rw [hrefused] at hrest
      obtain rfl : error = failure := by
        cases hrest <;> simpa [eq_comm] using herror
      cases hrest with
      | stop => exact ⟨rfl, .inl rfl⟩
      | done => exact ⟨rfl, .inr rfl⟩

end Scope

/-! ## Every rejected write -/

/-- A store in memory that answers an error is as it was before. -/
theorem MemoryStore.answer_of_error {store : MemoryStore} {request : StoreRequest}
    {error : StorageError} (h : (store.answer request).1 = .error error) :
    (store.answer request).2 = store := by
  cases request with
  | create user grant => exact create_of_error h
  | syncUserRole user role => exact syncUserRole_of_error h
  | update | delete | putRolePolicy => cases h
  | _ => rfl

/-- A coordinator returns the error of its store as it is.  If nobody interrupts it, the engine is
afterwards as it was, or as the evictions of the write leave it if the outcome of the write is open:
it has then lost the facts that the write may revoke and the role that it may lower, and no more.
Beside others the coordinator has only looked at the engine before it hears the error, and makes the
same evictions or nothing afterwards.  A scope asks nothing of the engine, and leaves nothing to be
told at its commit.  A store in memory that answers an error has changed nothing. -/
theorem rejected_write_spares_cache {request : StoreRequest}
    (hwrite : request.row?.isSome = true) :
    (∀ {σ : Type} (stores : RuleStore σ) held engine error,
      (stores held request).1 = .error error →
        let performed :=
          (Coordinator.handle request).perform Engine.answer stores engine held
        performed.result = .error error ∧ performed.engine =
          (if error.isInternal then engine.updatedAll request.evictions else engine) ∧
          (engine.poisoned = false → error.isInternal = true →
            engine.base.EvictedBy request performed.engine.base)) ∧
    (∀ deeds ending error, (Coordinator.handle request).Acts deeds ending →
      .told request (.error error) ∈ deeds →
        ∃ before after, deeds = before ++ .told request (.error error) :: after ∧
          (∀ deed ∈ before, deed.Looks) ∧ (ending = none ∨ ending = some (.error error)) ∧
          if error.isInternal then
            ∃ ended, (EngineUpdate.applyAll request.evictions).Acts after ended ∧
              (ending ≠ none → ended = some ())
          else after = []) ∧
    (∀ deferred deeds ending error, (Scope.handle deferred request).Acts deeds ending →
      (.told request (.error error) ∈ deeds ∨ ∃ left, ending = some ⟨.error error, left⟩) →
        deeds = [.told request (.error error)] ∧
          (ending = none ∨ ending = some ⟨.error error, []⟩)) ∧
    ∀ (store : MemoryStore) error, (store.answer request).1 = .error error →
      (store.answer request).2 = store := by
  have hdecides := Coordinator.decides request
  refine ⟨fun stores held engine error herror => ?_, fun deeds ending error hacts htold => ?_,
    fun deferred deeds ending error => Scope.acts_of_error hwrite,
    fun store error => MemoryStore.answer_of_error⟩
  · have hunpassed : ¬((Coordinator.handle request).perform Engine.answer stores engine
        held).IsPassed := by
      intro hpassed
      rw [(hdecides.decided.passed hpassed).read] at hwrite
      cases hwrite
    have hengine := hdecides.engine_of_error herror hunpassed
    refine ⟨?_, hengine, fun hworks hinternal => ?_⟩
    · rw [(hdecides.decided.asked hunpassed).result, herror]
    · rw [hengine, if_pos hinternal, Engine.updatedAll_of_works hworks]
      exact FactBase.evictedBy_evictions engine.base request
  · obtain ⟨before, after, rfl, hlooks, hrefused⟩ := hdecides.acts_of_error hacts htold
    refine ⟨before, after, rfl, hlooks, ?_⟩
    unfold Coordinator.refused at hrefused
    split at hrefused
    case isTrue hinternal =>
      have hleaves := EngineUpdate.applyAll_leaves request.evictions
      obtain ⟨ended, hevicts, hending⟩ := hleaves.acts_bind hrefused
      rw [if_pos hinternal]
      rcases hending with rfl | ⟨hended, rfl⟩
      · exact ⟨.inl rfl, ended, hevicts, absurd rfl⟩
      · exact ⟨.inr rfl, ended, hevicts, fun _ => Option.eq_some_of_isSome hended⟩
    case isFalse hknown =>
      rw [if_neg hknown]
      cases hrefused with
      | stop => exact ⟨.inl rfl, rfl⟩
      | done => exact ⟨.inr rfl, rfl⟩

/-- The connection is lost while an administrator is made an ordinary user.  A transaction would
keep the role for the time being. -/
theorem administrator_demoted_after_lost_write :
    let request := StoreRequest.syncUserRole System.someUser .user
    let error := StorageError.internal "connection lost"
    let lost : RuleStore Unit := fun held _ => (.error error, held)
    let engine : Engine := { base := System.someBase.setRole System.someUser .admin }
    let performed := (Coordinator.handle request).perform Engine.answer lost engine ()
    performed.result = .error error ∧
      performed.engine = engine.updatedAll [.demote System.someUser .user] ∧
      performed.engine.base.roleOf System.someUser = some .user ∧
      ∀ deeds ending, (Scope.handle [] request).Acts deeds ending →
        .told request (.error error) ∈ deeds → deeds = [.told request (.error error)] := by
  intro request error lost engine performed
  have hrejected := @rejected_write_spares_cache request rfl
  obtain ⟨hresult, hengine, hevicted⟩ := hrejected.1 lost () engine error rfl
  have hdemoted := (hevicted rfl rfl).demoted System.someUser .user rfl rfl
  refine ⟨hresult, hengine.trans (if_pos rfl), hdemoted, fun deeds ending hacts htold => ?_⟩
  exact (hrejected.2.2.1 [] deeds ending error hacts (.inl htold)).1

end AccessControl
