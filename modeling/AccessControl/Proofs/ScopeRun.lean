import AccessControl.Proofs.AnswerOrigin
import AccessControl.Proofs.CoordinatorRun
import AccessControl.Proofs.Granting

/-!
# One transaction among calls

One transaction is open beside calls to coordinators.  While nobody grants a privilege, neither the
calls nor the transaction, what the transaction has once lost from its view stays out of it, however
the calls go on.
-/

namespace AccessControl

/-- Whether a request that was accepted with this reply has taken the privilege away. -/
def StoreRequest.Removes (privilege : Privilege) : (request : StoreRequest) → request.Reply → Prop
  | .delete user resource, _ => ∃ action, privilege = .fact user (.resource resource) action
  | .update user grant, touched =>
    0 < touched ∧ ∃ action, action ∉ grant.actions ∧
      privilege = .fact user (.resource grant.resource) action
  | _, _ => False

namespace StoreRequest

variable {privilege : Privilege} {request : StoreRequest} {reply : request.Reply}

/-- What can be taken away for certain is a fact about a resource whose row the request writes. -/
theorem Removes.row (h : request.Removes privilege reply) :
    ∃ user resource action, privilege = .fact user (.resource resource) action ∧
      request.row? = some (.rule user resource) := by
  cases request with
  | delete user resource =>
    obtain ⟨action, rfl⟩ := h
    exact ⟨user, resource, action, rfl, rfl⟩
  | update user grant =>
    obtain ⟨-, action, -, rfl⟩ := h
    exact ⟨user, grant.resource, action, rfl, rfl⟩
  | _ => exact False.elim h

theorem Removes.not_grants (h : request.Removes privilege reply) : ¬request.Grants privilege := by
  cases request with
  | delete => exact id
  | update user grant =>
    obtain ⟨-, action, habsent, rfl⟩ := h
    rintro ⟨other, hmem, heq⟩
    cases heq
    exact habsent hmem
  | _ => exact False.elim h

theorem Removes.endsTransaction (h : request.Removes privilege reply) :
    request.endsTransaction = false := by
  cases request with
  | delete | update => rfl
  | _ => exact False.elim h

theorem Removes.not_backs {store : MemoryStore} (h : request.Removes privilege reply)
    (hanswer : (store.answer request).1 = .ok reply) :
    ¬(store.answer request).2.Backs privilege := by
  cases request with
  | delete user resource =>
    obtain ⟨action, rfl⟩ := h
    rintro ⟨rule, hrule, -⟩
    simp [MemoryStore.answer, MemoryStore.delete] at hrule
  | update user grant =>
    obtain ⟨htouched, action, habsent, rfl⟩ := h
    rintro ⟨rule, hrule, haction⟩
    simp only [MemoryStore.answer, MemoryStore.update] at hanswer hrule
    split at hrule
    · split at hrule
      · simp only [Table.get?_insert, if_true, Option.some.injEq] at hrule
        subst hrule
        exact habsent haction
      · simp_all
    · simp_all
  | _ => exact False.elim h

end StoreRequest

namespace OpenScope

variable {privilege : Privilege} {scope : OpenScope} {store : MemoryStore} {request : StoreRequest}

/-- What a transaction does not see it does not see after a request of somebody else, unless that
request grants it. -/
theorem not_view_backs_answer (hone : ¬privilege.OnType) (hgrants : ¬request.Grants privilege)
    (h : ¬(scope.view store).Backs privilege) :
    ¬(scope.view (store.answer request).2).Backs privilege := by
  by_cases hwritten : ∃ row ∈ scope.draft.map RowWrite.row, privilege.DependsOn row
  · exact fun hbacks => h ((MemoryStore.backs_applyAll_congr hone hwritten).1 hbacks)
  · have hsame : ∀ store' : MemoryStore, (scope.view store').Backs privilege ↔
        store'.Backs privilege := fun store' => MemoryStore.backs_congr fun row hrow =>
      MemoryStore.sameAt_applyAll_of_notMem fun hmem => hwritten ⟨row, hmem, hrow⟩
    rw [hsame] at h ⊢
    exact fun hbacks => h (MemoryStore.backs_of_answer hgrants hbacks)

/-- What a transaction does not see it does not see after a write of its own, unless that write
grants it. -/
theorem not_view_backs_write {reading : MemoryStore} (hgrants : ¬request.Grants privilege)
    (h : ¬(scope.view store).Backs privilege) :
    ¬(RowWrite.applyAll store (scope.draft ++ (reading.writeOf request).toList)).Backs
      privilege := by
  cases hw : reading.writeOf request with
  | none =>
    rw [Option.toList_none, List.append_nil]
    exact h
  | some write =>
    rw [Option.toList_some, RowWrite.applyAll_write]
    exact fun hbacks => h (MemoryStore.backs_of_write hw hgrants hbacks)

/-- A transaction does not see what a request of its own has taken away. -/
theorem not_view_backs_of_removes {reading : MemoryStore} {reply : request.Reply}
    (hremoves : request.Removes privilege reply)
    (hanswer : (reading.answer request).1 = .ok reply)
    (hreading : ∀ row, request.row? = some row → reading.SameAt (scope.view store) row) :
    ¬(RowWrite.applyAll store (scope.draft ++ (reading.writeOf request).toList)).Backs
      privilege := by
  obtain ⟨user, resource, action, rfl, hrow⟩ := hremoves.row
  have hview : (reading.answer request).2.SameAt
      (RowWrite.applyAll store (scope.draft ++ (reading.writeOf request).toList))
      (.rule user resource) := by
    rw [MemoryStore.applyAll_append]
    exact (MemoryStore.sameAt_answer reading request _).trans
      (MemoryStore.sameAt_applyAll (hreading _ hrow))
  intro hbacks
  refine hremoves.not_backs hanswer (MemoryStore.backs_of_sameAt (fun row hdep => ?_) hbacks)
  obtain rfl : row = .rule user resource := hdep
  exact hview.symm

theorem invoke_cases {scope' : OpenScope} (h : scope.invoke request = some scope') :
    scope.current = none ∧ scope' = { scope with
      current := some ⟨request, .running (Scope.handle scope.deferred request), false⟩ } := by
  unfold invoke at h
  split at h
  case h_1 hidle => exact ⟨hidle, (Option.some.inj h).symm⟩
  case h_2 => cases h

theorem finish_cases {scope' : OpenScope} (h : scope.finish = some scope') :
    ∃ more, scope' = ⟨scope.coordinator, scope.draft, scope.deferred ++ more, none⟩ := by
  unfold finish at h
  split at h
  case h_1 ending _ _ =>
    split at h
    · cases h
    · exact ⟨ending.deferred, (Option.some.inj h).symm⟩
  case h_2 =>
    split at h
    · cases h
    · exact ⟨[], by rw [List.append_nil]; exact (Option.some.inj h).symm⟩
  case h_3 => cases h

/-- A transaction in order asks its store for what its call was made for. -/
theorem InOrder.request_eq {backend : Backend} {others : Prop} {owned : StoreRequest}
    {onUnknown : List EngineUpdate} {next : request.Answer → Call (ScopedResult owned.Reply)}
    {applied : Bool} (h : scope.InOrder privilege backend others)
    (hcurrent : scope.current = some ⟨owned, .running (.store request onUnknown next), applied⟩) :
    request = owned := by
  rw [InOrder, hcurrent] at h
  rcases h with ⟨-, seen, -, hwaits⟩ | hsettling | hclosing
  · have hpromise : ScopeWaits privilege scope.deferred owned seen request onUnknown next := hwaits
    exact hpromise.request_eq
  · obtain ⟨-, evicting, leaving, seen, -, -, hsettles⟩ := hsettling
    exact False.elim hsettles.1
  · exact False.elim hclosing.2.2

end OpenScope

/-- The event keeps a transaction the only one, and no request that it makes grants the privilege or
ends the transaction. -/
def Event.Keeps (privilege : Privilege) : Event → Prop
  | start _ _ request => ¬request.Grants privilege
  | openScope .. => False
  | move _ (.invoke request) => ¬request.Grants privilege ∧ request.endsTransaction = false
  | move .. => True
  | discard _ => False

namespace System

variable {privilege : Privilege} {system next : System} {event : Event} {events : List Event}
  {id : Nat}

/-- The party is a transaction that is not ending, all others are calls to coordinators, and none of
the requests under way grants the privilege. -/
structure Alone (id : Nat) (privilege : Privilege) (system : System) : Prop where
  transaction : ∃ opened, system.parties.get? id = some (.scope opened) ∧
    ∀ flight, opened.current = some flight →
      ¬flight.request.Grants privilege ∧ flight.request.endsTransaction = false
  calls : ∀ other party, other ≠ id → system.parties.get? other = some party →
    ∃ coordinator flight, party = .call coordinator flight ∧
      (flight.stage.finished = false → ¬flight.request.Grants privilege)

/-- The transaction does not see the privilege. -/
def Withholds (id : Nat) (privilege : Privilege) (system : System) : Prop :=
  ∀ opened, system.parties.get? id = some (.scope opened) →
    ¬(opened.view system.backend.store).Backs privilege

/-- The first transaction is alone when it is opened. -/
theorem alone_of_opened {store : MemoryStore} {base : FactBase} {coordinator : Nat}
    (h : (opened store base).run [.openScope id coordinator] = some system) :
    system.Alone id privilege := by
  obtain ⟨entered, hstep, hends⟩ := Option.bind_eq_some_iff.1 h
  have henter : (opened store base).enter id (.scope { coordinator }) = some entered := hstep
  obtain ⟨-, rfl⟩ := enter_cases henter
  obtain rfl := Option.some.inj hends
  refine ⟨⟨{ coordinator }, get?_moved_self, fun flight heq => ?_⟩,
    fun other party hother hget => ?_⟩
  · cases heq
  · rw [get?_moved, if_neg hother] at hget
    cases hget

theorem Alone.moved_call {other coordinator : Nat} {flight : CoordinatorFlight}
    {backend : Backend} (h : system.Alone id privilege) (hother : other ≠ id)
    (hflight : flight.stage.finished = false → ¬flight.request.Grants privilege) :
    (system.moved other (.call coordinator flight) backend).Alone id privilege := by
  refine ⟨?_, fun third party hthird hget => ?_⟩
  · rw [get?_moved, if_neg hother.symm]
    exact h.transaction
  · rw [get?_moved] at hget
    split at hget
    · exact ⟨coordinator, flight, (Option.some.inj hget).symm, hflight⟩
    · exact h.calls third party hthird hget

theorem Alone.moved_scope {opened : OpenScope} {backend : Backend} (h : system.Alone id privilege)
    (hcurrent : ∀ flight, opened.current = some flight →
      ¬flight.request.Grants privilege ∧ flight.request.endsTransaction = false) :
    (system.moved id (.scope opened) backend).Alone id privilege := by
  refine ⟨⟨opened, get?_moved_self, hcurrent⟩, fun other party hother hget => ?_⟩
  rw [get?_moved, if_neg hother] at hget
  exact h.calls other party hother hget

theorem withholds_moved_call {other : Nat} {party : Party} {backend : Backend}
    (hother : other ≠ id)
    (hview : ∀ opened : OpenScope, ¬(opened.view system.backend.store).Backs privilege →
      ¬(opened.view backend.store).Backs privilege)
    (h : system.Withholds id privilege) :
    (system.moved other party backend).Withholds id privilege := by
  intro opened hget
  rw [get?_moved, if_neg hother.symm] at hget
  exact hview opened (h opened hget)

theorem withholds_moved_scope {opened : OpenScope} {backend : Backend}
    (h : ¬(opened.view backend.store).Backs privilege) :
    (system.moved id (.scope opened) backend).Withholds id privilege := by
  intro opened' hget
  rw [get?_moved_self] at hget
  cases hget
  exact h

/-- A step of a call leaves the transaction alone and shows it nothing new. -/
theorem Alone.step_call {other coordinator : Nat} {flight : CoordinatorFlight} {move : Move}
    {party' : Party} {after : Backend} (h : system.Alone id privilege)
    (hsound : system.Sound privilege) (hone : ¬privilege.OnType) (hother : other ≠ id)
    (hget : system.parties.get? other = some (.call coordinator flight))
    (hmove : (Party.call coordinator flight).move (system.lockedFor other) system.backend move =
      some (party', after)) :
    (system.moved other party' after).Alone id privilege ∧
      (system.Withholds id privilege →
        (system.moved other party' after).Withholds id privilege) := by
  obtain ⟨coordinator', flight', heq, hgrants⟩ := h.calls other _ hother hget
  cases heq
  rcases Party.call_moves hmove with ⟨progress, stage', -, hproceeds, rfl⟩ | ⟨flight', -, hask, rfl⟩
  · have hstore := hproceeds.store hsound.trusted
    refine ⟨h.moved_call hother fun _ => hgrants hproceeds.unfinished, ?_⟩
    exact withholds_moved_call hother fun opened hview => by rwa [hstore]
  · obtain ⟨request, onUnknown, answered, hstage, -, rfl, rfl⟩ := CoordinatorFlight.ask_cases hask
    have horder : flight.InOrder privilege system.backend _ := hsound.inOrder _ _ hget
    obtain rfl := horder.request_eq hstage
    have hrequest : ¬flight.request.Grants privilege := hgrants (by rw [hstage]; rfl)
    refine ⟨h.moved_call hother fun _ => hrequest, ?_⟩
    exact withholds_moved_call hother fun opened =>
      OpenScope.not_view_backs_answer hone hrequest

/-- A step of the transaction keeps it the only one and shows it nothing new. -/
theorem Alone.step_scope {opened : OpenScope} {move : Move} {party' : Party} {after : Backend}
    (h : system.Alone id privilege) (hsound : system.Sound privilege)
    (hevent : (Event.move id move).Keeps privilege)
    (hget : system.parties.get? id = some (.scope opened))
    (hmove : (Party.scope opened).move (system.lockedFor id) system.backend move =
      some (party', after)) :
    (system.moved id party' after).Alone id privilege ∧
      (system.Withholds id privilege → (system.moved id party' after).Withholds id privilege) := by
  obtain ⟨found, hfound, hcurrent⟩ := h.transaction
  cases hget.symm.trans hfound
  obtain ⟨opened', rfl, hcases⟩ := Party.scope_moves hmove
  rcases hcases with ⟨progress, -, hproceed⟩ | ⟨reading, -, hask⟩ | ⟨request, rfl, hinvoke, rfl⟩ |
    ⟨-, hfinish, rfl⟩
  · obtain ⟨flight, stage', hflight, -, hproceeds, rfl⟩ := OpenScope.proceed_cases hproceed
    have hstore := hproceeds.store hsound.trusted
    obtain ⟨hgrants, hends⟩ := hcurrent flight hflight
    refine ⟨h.moved_scope ?_, fun hwithholds => withholds_moved_scope ?_⟩
    · rintro flight' heq
      cases heq
      exact ⟨hgrants, hends⟩
    · have hview := hwithholds opened hget
      simpa [OpenScope.view, OpenScope.draftAfter, hends, hstore] using hview
  · obtain ⟨owned, request, onUnknown, answered, applied, hflight, -, -, rfl, rfl⟩ :=
      OpenScope.ask_cases hask
    have horder : opened.InOrder privilege system.backend _ := hsound.inOrder _ _ hget
    obtain rfl := horder.request_eq hflight
    obtain ⟨hgrants, hends⟩ := hcurrent _ hflight
    have hcommit : request ≠ .commit := by
      rintro rfl
      cases hends
    refine ⟨h.moved_scope ?_, fun hwithholds => withholds_moved_scope ?_⟩
    · rintro flight' heq
      cases heq
      exact ⟨hgrants, hends⟩
    · have hview : ¬(RowWrite.applyAll system.backend.store
          (opened.draft ++ (reading.writeOf request).toList)).Backs privilege :=
        OpenScope.not_view_backs_write hgrants (hwithholds opened hget)
      rw [if_neg hcommit]
      simpa [OpenScope.view, hends] using hview
  · obtain ⟨-, rfl⟩ := OpenScope.invoke_cases hinvoke
    refine ⟨h.moved_scope ?_, fun hwithholds => withholds_moved_scope (hwithholds opened hget)⟩
    rintro flight heq
    cases heq
    exact hevent
  · obtain ⟨more, rfl⟩ := OpenScope.finish_cases hfinish
    refine ⟨h.moved_scope ?_, fun hwithholds => withholds_moved_scope (hwithholds opened hget)⟩
    intro flight heq
    cases heq

/-- A step keeps a transaction alone, and shows it nothing that it has lost from its view. -/
theorem Alone.step (h : system.Alone id privilege) (hsound : system.Sound privilege)
    (hone : ¬privilege.OnType) (hstep : system.step event = some next)
    (hevent : event.Keeps privilege) :
    next.Alone id privilege ∧ (system.Withholds id privilege → next.Withholds id privilege) := by
  cases event with
  | start other coordinator request =>
    obtain ⟨hfree, rfl⟩ := enter_cases hstep
    have hother : other ≠ id := by
      rintro rfl
      obtain ⟨opened, hget, -⟩ := h.transaction
      rw [hfree] at hget
      cases hget
    exact ⟨h.moved_call hother fun _ => hevent, withholds_moved_call hother fun _ hview => hview⟩
  | openScope => exact False.elim hevent
  | discard => exact False.elim hevent
  | move other move =>
    obtain ⟨party, party', after, hget, hmove, rfl⟩ := step_move hstep
    by_cases hother : other = id
    · subst hother
      obtain ⟨opened, hopened, -⟩ := h.transaction
      cases hget.symm.trans hopened
      exact h.step_scope hsound hevent hget hmove
    · obtain ⟨coordinator, flight, rfl, -⟩ := h.calls other party hother hget
      exact h.step_call hsound hone hother hget hmove

theorem Alone.run (h : system.Alone id privilege) (hsound : system.Sound privilege)
    (hone : ¬privilege.OnType) (hrun : system.run events = some next)
    (hfew : next.backend.revocations < UInt64.size)
    (hevents : ∀ event ∈ events, event.Keeps privilege) :
    next.Alone id privilege ∧ (system.Withholds id privilege → next.Withholds id privilege) := by
  induction events generalizing system with
  | nil =>
    obtain rfl := Option.some.inj hrun
    exact ⟨h, fun hwithholds => hwithholds⟩
  | cons event rest ih =>
    obtain ⟨middle, hstep, hrest⟩ := Option.bind_eq_some_iff.1 hrun
    have hmiddle : middle.backend.revocations < UInt64.size :=
      Nat.lt_of_le_of_lt (run_revocations hrest) hfew
    obtain ⟨halone, hkeeps⟩ := h.step hsound hone hstep (hevents event List.mem_cons_self)
    obtain ⟨hends, hkeepsRest⟩ := ih halone (hsound.step (steps_of_step hstep) hmiddle) hrest
      fun other hmem => hevents other (List.mem_cons_of_mem event hmem)
    exact ⟨hends, fun hwithholds => hkeepsRest (hkeeps hwithholds)⟩

end System

end AccessControl
