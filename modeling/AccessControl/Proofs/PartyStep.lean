import AccessControl.Proofs.PartyInvariant

/-!
# One move of a party

A move of a party that is in order leaves it in order.  It gives nothing that is not backed or
covered, it takes no backing away without covering the privilege, and it leaves the rows alone that
others have written.
-/

namespace AccessControl

/-- What the moves of a party are. -/
inductive Party.Moves (locked : List Row) (before : Backend) : Party → Party → Backend → Prop where
  | callProceeds {coordinator : Nat} {request : StoreRequest} {applied : Bool}
      {stage stage' : Stage request.Answer} {progress : Progress} {after : Backend}
      (h : stage.Proceeds coordinator before progress stage' after) :
      Moves locked before (.call coordinator ⟨request, stage, applied⟩)
        (.call coordinator ⟨request, stage', applied⟩) after
  | callAsks {coordinator : Nat} {flight flight' : CoordinatorFlight} {after : Backend}
      (h : flight.ask locked before = some (flight', after)) :
      Moves locked before (.call coordinator flight) (.call coordinator flight') after
  | scopeProceeds {opened opened' : OpenScope} {progress : Progress} {after : Backend}
      (h : opened.proceed before progress = some (opened', after)) :
      Moves locked before (.scope opened) (.scope opened') after
  | scopeAsks {opened opened' : OpenScope} {reading : MemoryStore} {after : Backend}
      (h : opened.ask locked before reading = some (opened', after)) :
      Moves locked before (.scope opened) (.scope opened') after
  | invokes {opened opened' : OpenScope} {request : StoreRequest}
      (h : opened.invoke request = some opened') :
      Moves locked before (.scope opened) (.scope opened') before
  | finishes {opened opened' : OpenScope} (h : opened.finish = some opened') :
      Moves locked before (.scope opened) (.scope opened') before

theorem Party.moves_of_move {locked : List Row} {move : Move} {before after : Backend}
    {party party' : Party} (h : party.move locked before move = some (party', after)) :
    party.Moves locked before party' after := by
  unfold Party.move at h
  split at h
  case h_1 progress coordinator flight =>
    obtain ⟨⟨stage', backend⟩, hstage, heq⟩ := Option.map_eq_some_iff.1 h
    cases heq
    exact .callProceeds (Stage.proceeds_of_proceed hstage)
  case h_2 coordinator flight =>
    obtain ⟨⟨flight', backend⟩, hask, heq⟩ := Option.map_eq_some_iff.1 h
    cases heq
    exact .callAsks hask
  case h_3 progress opened =>
    obtain ⟨⟨opened', backend⟩, hproceed, heq⟩ := Option.map_eq_some_iff.1 h
    cases heq
    exact .scopeProceeds hproceed
  case h_4 reading opened =>
    obtain ⟨⟨opened', backend⟩, hask, heq⟩ := Option.map_eq_some_iff.1 h
    cases heq
    exact .scopeAsks hask
  case h_5 request opened =>
    obtain ⟨opened', hinvoke, heq⟩ := Option.map_eq_some_iff.1 h
    cases heq
    exact .invokes hinvoke
  case h_6 opened =>
    obtain ⟨opened', hfinish, heq⟩ := Option.map_eq_some_iff.1 h
    cases heq
    exact .finishes hfinish
  case h_7 => simp at h

/-- What a move of a party may do.  `locked` are the rows that others have written, and `others`
says that another party covers the privilege. -/
structure Party.Keeps (privilege : Privilege) (locked : List Row) (others : Prop)
    (before after : Backend) (party party' : Party) : Prop where
  trusted : after.Trusted
  inOrder : party'.InOrder privilege after others
  shift : before.Shift privilege after (party.Covers privilege) (party'.Covers privilege)
  held : (before.Holds privilege →
      before.Backs privilege ∨ party.Covers privilege ∨ others) →
    after.Holds privilege → after.Backs privilege ∨ party'.Covers privilege ∨ others
  granted : ¬before.Holds privilege → after.Holds privilege → after.Backs privilege ∨ others
  undisturbed : ∀ row ∈ locked, after.store.SameAt before.store row
  rows : ∀ row ∈ party'.rows, row ∈ party.rows ∨ row ∉ locked

section

variable {privilege : Privilege} {before after : Backend} {others : Prop} {locked : List Row}

/-! ## Calls to a coordinator -/

section

variable {request : StoreRequest} {stage stage' : Stage request.Answer} {applied : Bool}
  {coordinator : Nat} {progress : Progress}

theorem CoordinatorFlight.InOrder.head
    (h : CoordinatorFlight.InOrder privilege before others ⟨request, stage, applied⟩) :
    stage.Head (EngineRequest.OffersOnly privilege (before.Justified privilege others)) :=
  h.elim Stage.Poised.head Stage.OffersOnly.head

theorem CoordinatorFlight.InOrder.proceed
    (h : stage.Proceeds coordinator before progress stage' after)
    (htrusted : before.Trusted) (hfew : after.revocations < UInt64.size)
    (horder : CoordinatorFlight.InOrder privilege before others ⟨request, stage, applied⟩) :
    CoordinatorFlight.InOrder privilege after others ⟨request, stage', applied⟩ := by
  rcases horder with hpoised | hoffers
  · cases h with
    | advance hstep => exact .inl (hpoised.advance hstep htrusted)
    | refuse error request onUnknown next =>
      obtain ⟨seen, -, huntil⟩ := hpoised
      exact .inr (huntil.refused error).of_modest
    | giveUp request onUnknown next =>
      obtain ⟨seen, -, huntil⟩ := hpoised
      exact .inr huntil.unknown.of_modest
    | _ => exact False.elim hpoised
  · have hrest : stage'.OffersOnly privilege (before.Justified privilege others) :=
      h.offersOnly htrusted hoffers
    exact .inr (hrest.shift (h.shift_self htrusted privilege others) hfew)

theorem CoordinatorFlight.proceed_keeps
    (h : stage.Proceeds coordinator before progress stage' after)
    (htrusted : before.Trusted) (hfew : after.revocations < UInt64.size)
    (horder : CoordinatorFlight.InOrder privilege before others ⟨request, stage, applied⟩) :
    Party.Keeps privilege locked others before after (.call coordinator ⟨request, stage, applied⟩)
      (.call coordinator ⟨request, stage', applied⟩) where
  trusted := h.trusted htrusted
  inOrder := horder.proceed h htrusted hfew
  shift := h.shift htrusted privilege _
  held := h.held htrusted horder.head
  granted := h.granted htrusted horder.head
  undisturbed := fun row _ => by rw [h.store htrusted]; exact .refl _ row
  rows := fun _ => .inl

end

namespace CoordinatorWaits

variable {α : Type} {owned request : StoreRequest} {onUnknown : List EngineUpdate}
  {seen : FactVersion → Prop}

/-- A call whose request takes a backing away is bound to withdraw the privilege. -/
theorem covers_of_lost {next : request.Answer → Call owned.Answer} {store : MemoryStore}
    (h : CoordinatorWaits privilege owned seen request onUnknown next)
    (hbacks : store.Backs privilege) (hlost : ¬(store.answer request).2.Backs privilege) :
    CoordinatorFlight.Covers privilege
      ⟨owned, .answered request onUnknown next (store.answer request).1,
        (store.writeOf request).isSome⟩ := by
  obtain ⟨⟨write, hwrite⟩, hrevokes⟩ := MemoryStore.revokes_of_lost hbacks hlost
  obtain ⟨reply, hreply⟩ := MemoryStore.answer_ok_of_writeOf hwrite
  obtain ⟨hok, hinternal, hunknown⟩ := h.withdraws hrevokes
  refine ⟨⟨by simp [hwrite], h.request_eq ▸ hrevokes⟩, ?_, hinternal, hunknown⟩
  rw [hreply]
  exact hok reply

/-- After the answer of the store a call offers only what the store then backs. -/
theorem offersOnly {next : request.Answer → Call α} {backend : Backend}
    (h : CoordinatorWaits privilege owned seen request onUnknown next)
    (hpast : ∀ version, seen version → backend.Past privilege version) :
    (Stage.answered request onUnknown next (backend.store.answer request).1).OffersOnly privilege
      (Backend.Justified { backend with store := (backend.store.answer request).2 } privilege
        others) := by
  refine ⟨?_, fun reason => ?_, ?_⟩
  · cases hanswer : (backend.store.answer request).1 with
    | error error => exact (h.refused error).of_modest
    | ok reply =>
      refine (h.offers backend.store reply hanswer).imp fun _ hrequest => hrequest.imp ?_
      rintro version ⟨hseen, hbacks⟩
      exact ⟨hpast version hseen, fun _ => .inl hbacks⟩
  · exact (h.refused _).of_modest
  · exact h.unknown.of_modest

end CoordinatorWaits

/-- A request that may be made writes no row that others have written. -/
theorem StoreRequest.sameAt_answer_of_isFree {request : StoreRequest} {row : Row}
    {store : MemoryStore} (hfree : request.isFree locked = true) (hrow : row ∈ locked) :
    (store.answer request).2.SameAt store row := by
  refine (MemoryStore.sameAt_answer store request row).trans ?_
  cases hw : store.writeOf request with
  | none => exact .refl store row
  | some write =>
    have hown := MemoryStore.row_of_writeOf hw
    refine MemoryStore.sameAt_apply_of_ne ?_
    rintro rfl
    simp [StoreRequest.isFree, hown, hrow] at hfree

theorem CoordinatorFlight.ask_cases {flight flight' : CoordinatorFlight}
    (h : flight.ask locked before = some (flight', after)) :
    ∃ request onUnknown next, flight.stage = .running (.store request onUnknown next) ∧
      request.isFree locked = true ∧
      flight' = ⟨flight.request, .answered request onUnknown next (before.store.answer request).1,
        (before.store.writeOf request).isSome⟩ ∧
      after = { before with store := (before.store.answer request).2 } := by
  simp only [ask] at h
  split at h
  case h_1 request onUnknown next hstage =>
    split at h
    case isTrue hfree =>
      simp only [Option.some.injEq, Prod.mk.injEq] at h
      exact ⟨request, onUnknown, next, hstage, hfree, h.1.symm, h.2.symm⟩
    case isFalse => simp at h
  case h_2 => simp at h

theorem CoordinatorFlight.ask_keeps {flight flight' : CoordinatorFlight} {coordinator : Nat}
    (h : flight.ask locked before = some (flight', after)) (htrusted : before.Trusted)
    (horder : flight.InOrder privilege before others) :
    Party.Keeps privilege locked others before after (.call coordinator flight)
      (.call coordinator flight') := by
  obtain ⟨request, onUnknown, next, hstage, hfree, rfl, rfl⟩ := ask_cases h
  simp only [InOrder, hstage] at horder
  obtain ⟨seen, hpast, hwaits⟩ := horder.resolve_right id
  replace hwaits : CoordinatorWaits privilege flight.request seen request onUnknown next := hwaits
  have hidle : ¬flight.stage.Withdraws privilege := by
    rw [hstage]
    exact id
  have hlost : ∀ hbacks : before.store.Backs privilege,
      (before.store.answer request).2.Backs privilege ∨ CoordinatorFlight.Covers privilege _ :=
    fun hbacks => Classical.or_iff_not_imp_left.2 (hwaits.covers_of_lost hbacks)
  -- the engine is as before, so only a lost backing has to be covered
  refine ⟨htrusted, .inr (hwaits.offersOnly hpast),
    ⟨0, 0, ⟨Nat.le_refl _, FactVersion.advanced_zero.symm⟩, fun _ hbefore => ?_⟩,
    fun hheld hafter => ?_, fun hbefore hafter => absurd hafter hbefore,
    fun row hrow => StoreRequest.sameAt_answer_of_isFree hfree hrow, fun _ => .inl⟩
  · rcases hbefore with hbacks | hcovers
    · exact hlost hbacks
    · exact absurd hcovers.2 hidle
  · rcases hheld hafter with hbacks | hcovers | hothers
    · exact (hlost hbacks).imp_right .inl
    · exact absurd hcovers.2 hidle
    · exact .inr (.inr hothers)

end

end AccessControl
