import AccessControl.Proofs.Ledger

/-!
# The invariant of a party

Everything here is about one privilege.  A party covers it while it is bound to withdraw it: a call
to a coordinator whose write may have revoked it, or a transaction that has been committed.  A party
is in order if whatever it may still offer is justified, by the store or by a party that covers the
privilege, and if a call that has not come to its store yet will keep its promise there.
-/

namespace AccessControl

/-- The call is bound to withdraw the privilege, because the store has made its write. -/
def CoordinatorFlight.Covers (privilege : Privilege) (flight : CoordinatorFlight) : Prop :=
  (flight.applied = true ∧ flight.request.Revokes privilege) ∧ flight.stage.Withdraws privilege

/-- The transaction has been committed and is bound to withdraw the privilege. -/
def ScopeFlight.Covers (privilege : Privilege) (flight : ScopeFlight) : Prop :=
  (flight.applied = true ∧ flight.request = .commit) ∧ flight.stage.Withdraws privilege

/-- The party is bound to withdraw the privilege. -/
def Party.Covers (privilege : Privilege) : Party → Prop
  | call _ flight => flight.Covers privilege
  | scope opened => ∃ flight, opened.current = some flight ∧ flight.Covers privilege

/-- A call that has not come to its store yet: what it has seen is old, and it will keep the promise
`atStore` there. -/
def Stage.Poised {α : Type} (privilege : Privilege) (backend : Backend)
    (atStore : (FactVersion → Prop) → (request : StoreRequest) → List EngineUpdate →
      (request.Answer → Call α) → Prop)
    (atEnd : (FactVersion → Prop) → α → Prop) : Stage α → Prop
  | running call =>
    ∃ seen, (∀ version, seen version → backend.Past privilege version) ∧
      call.Until privilege atStore atEnd seen
  | _ => False

/-- A call to a coordinator is in order; `others` says that another party covers the privilege. -/
def CoordinatorFlight.InOrder (privilege : Privilege) (backend : Backend) (others : Prop)
    (flight : CoordinatorFlight) : Prop :=
  flight.stage.Poised privilege backend (CoordinatorWaits privilege flight.request)
      (fun _ _ => True) ∨
    flight.stage.OffersOnly privilege (backend.Justified privilege others)

/-- What is left of a call inside a transaction whose request to the store was answered.  `owned` is
that request, and `evicting` and `leaving` say what the call is bound to.  A request that does not
revoke the privilege binds the call to nothing, so its answer may be lost. -/
def Stage.Settles {α : Type} (privilege : Privilege) (draft : List RowWrite) (owned : StoreRequest)
    (evicting leaving : Prop) (seen : FactVersion → Prop) : Stage (ScopedResult α) → Prop
  | running call =>
    call.Settles privilege draft seen ∧
      (evicting → call.Always (EngineRequest.Withdraws privilege)) ∧
      (leaving → call.Ends fun result => ∃ update ∈ result.deferred, update.Withdraws privilege)
  | answered _ onUnknown next answer =>
    ((next answer).Settles privilege draft seen ∧
      (evicting → (next answer).Always (EngineRequest.Withdraws privilege)) ∧
      (leaving →
        (next answer).Ends fun result => ∃ update ∈ result.deferred, update.Withdraws privilege)) ∧
    (¬owned.Revokes privilege → ¬evicting ∧ ¬leaving ∧
      (∀ reason, (next (.error (.internal reason))).Quiet privilege) ∧
      (EngineUpdate.applyAll onUnknown).All (EngineRequest.Modest privilege))
  | abandoned rest => ¬evicting ∧ ¬leaving ∧ rest.All (EngineRequest.Modest privilege)

namespace OpenScope

/-- A call inside a transaction that has not come to its store yet. -/
def Poised (privilege : Privilege) (backend : Backend) (scope : OpenScope) (flight : ScopeFlight) :
    Prop :=
  Ledger privilege backend scope.draft scope.deferred False False ∧
    flight.stage.Poised privilege backend
      (ScopeWaits privilege scope.deferred flight.request) fun _ result => result.deferred = []

/-- A call inside a transaction that goes on after its store has answered. -/
def Settling (privilege : Privilege) (backend : Backend) (scope : OpenScope)
    (flight : ScopeFlight) : Prop :=
  flight.request.endsTransaction = false ∧ ∃ (evicting leaving : Prop) (seen : FactVersion → Prop),
    Ledger privilege backend scope.draft scope.deferred evicting leaving ∧
      (∀ version, seen version → backend.Past privilege version) ∧
      flight.stage.Settles privilege scope.draft flight.request evicting leaving seen

/-- The end of a transaction, after its store has committed or dropped it. -/
def Closing (privilege : Privilege) (backend : Backend) (others : Prop) (scope : OpenScope)
    (flight : ScopeFlight) : Prop :=
  flight.request.endsTransaction = true ∧ scope.draft = [] ∧
    flight.stage.OffersOnly privilege (backend.Justified privilege others)

/-- A transaction is in order; `others` says that another party covers the privilege. -/
def InOrder (privilege : Privilege) (backend : Backend) (others : Prop) (scope : OpenScope) :
    Prop :=
  match scope.current with
  | none => Ledger privilege backend scope.draft scope.deferred False False
  | some flight =>
    scope.Poised privilege backend flight ∨ scope.Settling privilege backend flight ∨
      scope.Closing privilege backend others flight

end OpenScope

/-- A party is in order; `others` says that another party covers the privilege. -/
def Party.InOrder (privilege : Privilege) (backend : Backend) (others : Prop) : Party → Prop
  | call _ flight => flight.InOrder privilege backend others
  | scope opened => opened.InOrder privilege backend others

/-! ## Parties while others move -/

theorem Stage.Poised.moves {α : Type} {privilege : Privilege} {before after : Backend} {i j : Nat}
    {atStore} {atEnd : (FactVersion → Prop) → α → Prop} {stage : Stage α}
    (h : stage.Poised privilege before atStore atEnd)
    (hmoves : before.Moves privilege after i j) :
    stage.Poised privilege after atStore atEnd := by
  cases stage with
  | running call =>
    obtain ⟨seen, hpast, huntil⟩ := h
    exact ⟨seen, fun version hseen => (hpast version hseen).moves hmoves, huntil⟩
  | answered => exact h
  | abandoned => exact h

section

variable {privilege : Privilege} {before after : Backend} {others others' : Prop}
  (hshift : before.Shift privilege after others others') (hfew : after.revocations < UInt64.size)

include hshift hfew

theorem Stage.OffersOnly.shift {α : Type} {stage : Stage α}
    (h : stage.OffersOnly privilege (before.Justified privilege others)) :
    stage.OffersOnly privilege (after.Justified privilege others') :=
  h.imp fun _ hversion => hversion.shift hshift hfew

theorem CoordinatorFlight.InOrder.shift {flight : CoordinatorFlight}
    (h : flight.InOrder privilege before others) : flight.InOrder privilege after others' := by
  obtain ⟨i, j, hmoves, -⟩ := id hshift
  exact h.imp (fun hpoised => hpoised.moves hmoves) fun hoffers => hoffers.shift hshift hfew

theorem OpenScope.InOrder.shift {scope : OpenScope}
    (hsame : ∀ row ∈ scope.rows, after.store.SameAt before.store row)
    (h : scope.InOrder privilege before others) : scope.InOrder privilege after others' := by
  obtain ⟨i, j, hmoves, -⟩ := id hshift
  unfold InOrder at h ⊢
  cases hcurrent : scope.current with
  | none =>
    rw [hcurrent] at h
    exact h.mono hmoves hfew hsame (fun _ => id) id
  | some flight =>
    rw [hcurrent] at h
    rcases h with hpoised | hsettling | hclosing
    · exact .inl ⟨hpoised.1.mono hmoves hfew hsame (fun _ => id) id, hpoised.2.moves hmoves⟩
    · obtain ⟨hends, evicting, leaving, seen, hledger, hpast, hsettles⟩ := hsettling
      exact .inr (.inl ⟨hends, evicting, leaving, seen,
        hledger.mono hmoves hfew hsame (fun _ => id) id,
        fun version hseen => (hpast version hseen).moves hmoves, hsettles⟩)
    · exact .inr (.inr ⟨hclosing.1, hclosing.2.1, hclosing.2.2.shift hshift hfew⟩)

/-- A party stays in order when another party has moved and left its rows alone. -/
theorem Party.InOrder.shift {party : Party}
    (hsame : ∀ row ∈ party.rows, after.store.SameAt before.store row)
    (h : party.InOrder privilege before others) : party.InOrder privilege after others' := by
  cases party with
  | call coordinator flight => exact CoordinatorFlight.InOrder.shift hshift hfew h
  | scope opened => exact OpenScope.InOrder.shift hshift hfew hsame h

end

/-! ## Progress of a call -/

namespace Stage

variable {α : Type} {privilege : Privilege} {backend before after : Backend} {coordinator : Nat}
  {atStore : (FactVersion → Prop) → (request : StoreRequest) → List EngineUpdate →
    (request.Answer → Call α) → Prop}
  {atEnd : (FactVersion → Prop) → α → Prop} {stage : Stage α} {call rest : Call α}

theorem Poised.head {allowed : FactVersion → Prop}
    (h : stage.Poised privilege backend atStore atEnd) :
    stage.Head (EngineRequest.OffersOnly privilege allowed) := by
  cases stage with
  | running call =>
    obtain ⟨seen, -, huntil⟩ := h
    rintro request next rfl
    exact huntil.1.imp fun _ => False.elim
  | answered => exact False.elim h
  | abandoned => exact False.elim h

theorem Poised.advance (hstep : call.step coordinator before = some (rest, after))
    (htrusted : before.Trusted) (h : (running call).Poised privilege before atStore atEnd) :
    (running rest).Poised privilege after atStore atEnd := by
  obtain ⟨seen, hpast, huntil⟩ := h
  obtain ⟨i, j, hmoves, -⟩ := Call.step_moves hstep htrusted privilege
  obtain ⟨shown, hrest, hshown⟩ := Call.Until.step hstep htrusted huntil
  refine ⟨shown, fun version hversion => ?_, hrest⟩
  rcases hshown version hversion with hseen | rfl
  · exact (hpast version hseen).moves hmoves
  · exact after.past_versionOf privilege

end Stage

namespace Stage.Proceeds

variable {α : Type} {stage stage' : Stage α} {coordinator : Nat} {before after : Backend}
  {progress : Progress} {privilege : Privilege} {others : Prop}
  (h : Proceeds coordinator before progress stage stage' after) (htrusted : before.Trusted)

include h htrusted

theorem backs : after.Backs privilege ↔ before.Backs privilege := by
  rw [Backend.Backs, Backend.Backs, h.store htrusted]

/-- What is backed stays so, and what is to be withdrawn stays so unless the counters move. -/
theorem shift (privilege : Privilege) (bound : Prop) :
    before.Shift privilege after (bound ∧ stage.Withdraws privilege)
      (bound ∧ stage'.Withdraws privilege) := by
  obtain ⟨i, j, hmoves, hwithdraws⟩ := h.moves htrusted privilege
  refine ⟨i, j, hmoves, fun hstill hbefore => ?_⟩
  exact hbefore.imp (h.backs htrusted).2 fun hcovers => ⟨hcovers.1, hwithdraws hstill hcovers.2⟩

/-- For the party itself it makes no difference whether others cover the privilege. -/
theorem shift_self (privilege : Privilege) (others : Prop) :
    before.Shift privilege after others others := by
  obtain ⟨i, j, hmoves, -⟩ := h.moves htrusted privilege
  exact ⟨i, j, hmoves, fun _ hbefore => hbefore.imp_left (h.backs htrusted).2⟩

/-- Progress of a call whose offers are justified gives only what is backed or covered by others. -/
theorem granted
    (hoffers : stage.Head (EngineRequest.OffersOnly privilege (before.Justified privilege others)))
    (hbefore : ¬before.Holds privilege) (hafter : after.Holds privilege) :
    after.Backs privilege ∨ others := by
  rw [h.backs htrusted]
  rcases h.holds htrusted hoffers hafter with ⟨hheld, -⟩ | hjustified
  · exact absurd hheld hbefore
  · exact hjustified.2 rfl

/-- Progress of a call whose offers are justified gives nothing that is not backed or covered. -/
theorem held {bound : Prop}
    (hoffers : stage.Head (EngineRequest.OffersOnly privilege (before.Justified privilege others)))
    (hheld : before.Holds privilege →
      before.Backs privilege ∨ (bound ∧ stage.Withdraws privilege) ∨ others)
    (hafter : after.Holds privilege) :
    after.Backs privilege ∨ (bound ∧ stage'.Withdraws privilege) ∨ others := by
  rw [h.backs htrusted]
  rcases h.holds htrusted hoffers hafter with ⟨hbefore, hkeeps⟩ | hjustified
  · exact (hheld hbefore).imp_right (.imp_left fun hcovers => ⟨hcovers.1, hkeeps hcovers.2⟩)
  · exact (hjustified.2 rfl).imp_right .inr

end Stage.Proceeds

end AccessControl
