import AccessControl.Proofs.SubjectCall

/-!
# One move, as a user can notice it

A move of a call that does not concern a user leaves alone what he can notice.  A call that concerns
him makes the same move over any two backends that are alike to him, and comes to stand in the same
place; the backends are alike to him again.
-/

namespace AccessControl

/-- Whether the user can tell neither the engines nor the stores of two backends apart. -/
structure Backend.AlikeFor (user : UserId) (left right : Backend) : Prop where
  trusted_left : left.Trusted
  trusted_right : right.Trusted
  base : left.engine.base.AlikeFor user right.engine.base
  store : left.store.AlikeFor user right.store

theorem Backend.AlikeFor.askEngine {user : UserId} {left right : Backend} {request : EngineRequest}
    (h : left.AlikeFor user right) (hconcerns : request.concerns user = true) :
    (left.askEngine request).2.AlikeFor user (right.askEngine request).2 where
  trusted_left := askEngine_trusted h.trusted_left request
  trusted_right := askEngine_trusted h.trusted_right request
  base := by
    rw [askEngine_base h.trusted_left, askEngine_base h.trusted_right]
    exact h.base.answer hconcerns
  store := h.store

variable {user : UserId} {owned : StoreRequest} {coordinator : Nat}
  {before after other : Backend}

/-! ## Steps of a call -/

namespace Call

variable {α : Type} {call rest : Call α}

theorem Within.step (h : call.Within owned) (htrusted : before.Trusted)
    (hstep : call.step coordinator before = some (rest, after)) : rest.Within owned := by
  rcases step_cases hstep htrusted with ⟨counter, rfl, -⟩ | ⟨request, next, rfl, rfl, -⟩
  · exact h
  · exact h.2.2 _

/-- A step of a call leaves alone what a user can notice whom the call does not concern. -/
theorem Within.base_alike (h : call.Within owned) (htrusted : before.Trusted)
    (hforeign : ¬owned.concerns user = true)
    (hstep : call.step coordinator before = some (rest, after)) :
    after.engine.base.AlikeFor user before.engine.base := by
  rcases step_cases hstep htrusted with ⟨counter, rfl, rfl⟩ | ⟨request, next, rfl, rfl, rfl⟩
  · exact .refl user _
  · rw [Backend.askEngine_base htrusted]
    refine FactBase.AlikeFor.of_not_concerns ?_
    rw [h.1 user]
    exact hforeign

/-- A call that concerns the user makes the same step over a backend that is alike to him. -/
theorem Within.step_alike (h : call.Within owned) (hconcerns : owned.concerns user = true)
    (halike : other.AlikeFor user before)
    (hstep : call.step coordinator before = some (rest, after)) :
    ∃ other', call.step coordinator other = some (rest, other') ∧ other'.AlikeFor user after := by
  rcases step_cases hstep halike.trusted_right with
    ⟨counter, rfl, rfl⟩ | ⟨request, next, rfl, rfl, rfl⟩
  · exact ⟨other.count coordinator counter, rfl, halike.trusted_left, halike.trusted_right,
      halike.base, halike.store⟩
  · obtain ⟨hbelongs, hunheeded, -⟩ := h
    have hrequest : request.concerns user = true := (hbelongs user).trans hconcerns
    have hnext : next (.ok (other.engine.base.answer request).1) =
        next (.ok (before.engine.base.answer request).1) := by
      rcases EngineRequest.concerns_iff.1 hrequest with hnone | hnamed
      -- the replies may differ here: how many facts an object has depends on all users
      · exact hunheeded hnone _ _
      · rw [halike.base.reply_eq hnamed]
    have hother : (Call.engine request next).step coordinator other =
        some (next (other.askEngine request).1, (other.askEngine request).2) := rfl
    refine ⟨(other.askEngine request).2, ?_, halike.askEngine hrequest⟩
    rw [hother, Backend.askEngine_reply halike.trusted_left, hnext]

end Call

/-! ## A call goes on -/

/-- However the call goes on, it stays within its request. -/
def Stage.Within {α : Type} (owned : StoreRequest) (stage : Stage α) : Prop :=
  stage.Every fun call => call.Within owned

namespace Stage

variable {α : Type} {stage stage' : Stage α} {progress : Progress}

theorem Within.proceed (h : stage.Within owned) (htrusted : before.Trusted)
    (hproceed : stage.Proceeds coordinator before progress stage' after) :
    stage'.Within owned := by
  cases hproceed with
  | advance hstep => exact Call.Within.step h htrusted hstep
  | windUp hstep => exact Call.Within.step h htrusted hstep
  | receive => exact h.1
  | refuse error => exact h.2.2 (.error error)
  | lose reason => exact h.2.1 reason
  | giveUp => exact EngineUpdate.applyAll_within h.2.1
  | giveUpAnswered => exact h.2.2

theorem Within.base_alike (h : stage.Within owned) (htrusted : before.Trusted)
    (hforeign : ¬owned.concerns user = true)
    (hproceed : stage.Proceeds coordinator before progress stage' after) :
    after.engine.base.AlikeFor user before.engine.base := by
  cases hproceed with
  | advance hstep => exact Call.Within.base_alike h htrusted hforeign hstep
  | windUp hstep => exact Call.Within.base_alike h htrusted hforeign hstep
  | _ => exact .refl user _

theorem Within.proceed_alike (h : stage.Within owned) (hconcerns : owned.concerns user = true)
    (halike : other.AlikeFor user before)
    (hproceed : stage.Proceeds coordinator before progress stage' after) :
    ∃ other', stage.proceed coordinator other progress = some (stage', other') ∧
      other'.AlikeFor user after := by
  cases hproceed with
  | advance hstep | windUp hstep =>
    obtain ⟨other', hother, halike'⟩ := Call.Within.step_alike h hconcerns halike hstep
    refine ⟨other', ?_, halike'⟩
    rw [Stage.proceed, hother]
    rfl
  | _ => exact ⟨other, rfl, halike⟩

end Stage

/-! ## The store answers a call -/

namespace CoordinatorFlight

variable {flight flight' : CoordinatorFlight} {locked : List Row}

/-- The request that the store answers is the one that the call was made for. -/
theorem ask_within (h : flight.stage.Within flight.request)
    (hask : flight.ask locked before = some (flight', after)) :
    flight'.request = flight.request ∧ flight'.stage.Within flight'.request ∧
      after = { before with store := (before.store.answer flight.request).2 } := by
  obtain ⟨request, onUnknown, next, hstage, -, rfl, rfl⟩ := ask_cases hask
  rw [hstage] at h
  obtain ⟨rfl, hunknown, hnext⟩ := h
  exact ⟨rfl, ⟨hnext _, fun reason => hnext _, EngineUpdate.applyAll_within hunknown⟩, rfl⟩

/-- The store behind a backend that is alike to the user answers a call that concerns him alike. -/
theorem ask_alike (h : flight.stage.Within flight.request)
    (hconcerns : flight.request.concerns user = true) (halike : other.AlikeFor user before)
    (hask : flight.ask [] before = some (flight', after)) :
    ∃ other', flight.ask [] other = some (flight', other') ∧ other'.AlikeFor user after := by
  obtain ⟨request, onUnknown, next, hstage, hfree, rfl, rfl⟩ := ask_cases hask
  rw [hstage] at h
  obtain ⟨rfl, -, -⟩ := h
  have hanswer := halike.store.answer_eq hconcerns
  have hwrite := halike.store.writeOf_eq hconcerns
  refine ⟨{ other with store := (other.store.answer flight.request).2 }, ?_, halike.trusted_left,
    halike.trusted_right, halike.base, halike.store.answer hconcerns⟩
  rw [ask, hstage, ← hanswer, ← hwrite]
  exact if_pos hfree

end CoordinatorFlight

/-! ## A party moves -/

namespace Party

variable {party party' : Party} {locked : List Row} {move : Move}

/-- Whether the party is a call that concerns the user. -/
def concerns (user : UserId) : Party → Bool
  | call _ flight => flight.request.concerns user
  | scope _ => false

/-- The party is a call that stays within its request. -/
inductive StaysWithin : Party → Prop where
  | call {coordinator : Nat} {flight : CoordinatorFlight}
      (h : flight.stage.Within flight.request) : StaysWithin (.call coordinator flight)

/-- A move leaves the call within its request, and of concern to the same users. -/
theorem StaysWithin.after_move (h : party.StaysWithin) (htrusted : before.Trusted)
    (hmove : party.move locked before move = some (party', after)) :
    party'.StaysWithin ∧ ∀ user, party'.concerns user = party.concerns user := by
  obtain ⟨hwithin⟩ := h
  rcases call_moves hmove with ⟨progress, stage', -, hproceeds, rfl⟩ | ⟨flight', -, hask, rfl⟩
  · exact ⟨.call (hwithin.proceed htrusted hproceeds), fun _ => rfl⟩
  · obtain ⟨hrequest, hwithin', -⟩ := CoordinatorFlight.ask_within hwithin hask
    refine ⟨.call hwithin', fun user => ?_⟩
    rw [concerns, concerns, hrequest]

/-- A move of a call that does not concern the user leaves alone what he can notice. -/
theorem StaysWithin.alike_of_not_concerns (h : party.StaysWithin)
    (hforeign : ¬party.concerns user = true) (halike : other.AlikeFor user before)
    (hmove : party.move locked before move = some (party', after)) :
    other.AlikeFor user after := by
  obtain ⟨hwithin⟩ := h
  have htrusted := halike.trusted_right
  rcases call_moves hmove with ⟨progress, stage', -, hproceeds, rfl⟩ | ⟨flight', -, hask, rfl⟩
  · have hbase := hwithin.base_alike htrusted hforeign hproceeds
    refine ⟨halike.trusted_left, hproceeds.trusted htrusted, halike.base.trans hbase.symm, ?_⟩
    rw [hproceeds.store htrusted]
    exact halike.store
  · obtain ⟨-, -, rfl⟩ := CoordinatorFlight.ask_within hwithin hask
    refine ⟨halike.trusted_left, htrusted, halike.base, fun row hrow => ?_⟩
    have hsame : (before.store.answer _).2.SameAt before.store row :=
      MemoryStore.AlikeFor.of_not_concerns hforeign row hrow
    exact (halike.store row hrow).trans hsame.symm

/-- A call that concerns the user makes the same move over a backend that is alike to him. -/
theorem StaysWithin.move_alike (h : party.StaysWithin) (hconcerns : party.concerns user = true)
    (halike : other.AlikeFor user before)
    (hmove : party.move [] before move = some (party', after)) :
    ∃ other', party.move [] other move = some (party', other') ∧ other'.AlikeFor user after := by
  obtain ⟨hwithin⟩ := h
  rcases call_moves hmove with ⟨progress, stage', rfl, hproceeds, rfl⟩ | ⟨flight', rfl, hask, rfl⟩
  · obtain ⟨other', hother, halike'⟩ := hwithin.proceed_alike hconcerns halike hproceeds
    refine ⟨other', ?_, halike'⟩
    rw [Party.move, hother]
    rfl
  · obtain ⟨other', hother, halike'⟩ := CoordinatorFlight.ask_alike hwithin hconcerns halike hask
    refine ⟨other', ?_, halike'⟩
    rw [Party.move, hother]
    rfl

end Party

end AccessControl
