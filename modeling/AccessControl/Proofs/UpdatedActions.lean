import AccessControl.Proofs.BackedMoment
import AccessControl.Proofs.SeededRule
import AccessControl.Proofs.SingleRevocation

/-!
# The actions of a rule while it is updated

One call gives a rule other actions, and any number of calls read beside it.  The engine swaps the
actions of the pair in one step, but a check may learn an action of the new set while the old ones
are still there: the store has made the update by then, and no revocation is seen until the swap.
So the engine may hold actions of both sets as long as the update is under way after the store has
made it.  At every other moment it holds a part of one of the two sets.
-/

namespace AccessControl

/-- Every action of the one set is in the other. -/
instance : HasSubset ActionSet := ⟨fun left right => ∀ action, action ∈ left → action ∈ right⟩

theorem ActionSet.subset_iff {left right : ActionSet} :
    left ⊆ right ↔ ∀ action ∈ Action.all, action ∈ left → action ∈ right :=
  ⟨fun h action _ => h action, fun h action => h action (Action.mem_all action)⟩

instance (left right : ActionSet) : Decidable (left ⊆ right) :=
  decidable_of_iff _ ActionSet.subset_iff.symm

/-! ## The requests -/

/-- Whether a request reads, or is the update of the rule. -/
def StoreRequest.ReadsOrUpdates (user : UserId) (grant : Grant) (request : StoreRequest) : Prop :=
  request.row? = none ∨ request = .update user grant

/-- The event opens no transaction, and a call that it makes reads, unless it is `writer`, which
updates the rule. -/
def Event.UpdatedBy (writer : Nat) (user : UserId) (grant : Grant) : Event → Prop
  | start id _ request => request.row? = none ∨ id = writer ∧ request = .update user grant
  | openScope .. => False
  | _ => True

/-- A check of the resource that the grant is about. -/
abbrev Grant.check (grant : Grant) (user : UserId) : InstanceCheck :=
  ⟨user, grant.resource, grant.resourceType, .get⟩

section

variable {writer : Nat} {user : UserId} {grant : Grant} {event : Event} {request : StoreRequest}
  {asked : EngineRequest} {action : Action}

theorem Event.UpdatedBy.starts (h : event.UpdatedBy writer user grant) :
    event.Starts (StoreRequest.ReadsOrUpdates user grant) := by
  cases event with
  | start id coordinator request => exact h.imp_right And.right
  | openScope => exact False.elim h
  | move => trivial
  | discard => trivial

theorem Event.UpdatedBy.revokedBy {check : InstanceCheck} (h : event.UpdatedBy writer user grant) :
    event.RevokedBy check writer := by
  cases event with
  | start id coordinator request =>
    intro htakes
    rcases h with hrow | ⟨hwriter, -⟩
    · exact absurd htakes (StoreRequest.not_takes_of_row hrow)
    · exact hwriter
  | openScope => exact False.elim h
  | move => trivial
  | discard => trivial

/-- What moves a counter on account of the update takes the facts of the pair away, and nothing does
on account of a read. -/
theorem StoreRequest.Asks.withdraws_of_moves {reply : asked.Reply} (h : request.Asks asked)
    (hrequest : request.ReadsOrUpdates user grant) (hmoves : asked.moves reply = true) :
    request = .update user grant ∧
      asked.Withdraws (.fact user (.resource grant.resource) action) reply := by
  rcases h with hobserves | ⟨update, htells, hasks⟩
  · cases asked with
    | version | roleVersion | check | roleOf | actionsFor | factCount => cases hmoves
    | _ => exact False.elim hobserves
  · rcases hrequest with hrow | rfl
    · obtain ⟨subject, object, actions, seen, rfl⟩ := htells.grant_of_row hrow
      obtain ⟨_, -, rfl⟩ := hasks
      cases hmoves
    · refine ⟨rfl, ?_⟩
      rcases htells with ⟨seen, rfl⟩ | rfl
      · rcases hasks with rfl | rfl
        · exact ⟨hmoves, action, rfl⟩
        · exact ⟨action, rfl⟩
      · obtain rfl := hasks
        exact ⟨action, rfl⟩

end

/-! ## One revocation -/

/-- A counter moves once at most in the progress of a call of which the last withdrawal is the last
request, if nothing but a withdrawal moves a counter. -/
theorem Stage.Proceeds.revocations_or_finished {α : Type} {stage stage' : Stage α}
    {coordinator : Nat} {before after : Backend} {progress : Progress} {privilege : Privilege}
    {may : Prop} (h : stage.Proceeds coordinator before progress stage' after)
    (htrusted : before.Trusted) (hlast : stage.WithdrawsLast privilege may)
    (hmoves : ∀ asked, stage.next? = some asked → ∀ reply, asked.moves reply = true →
      asked.Withdraws privilege reply) :
    after.revocations = before.revocations ∨
      after.revocations = before.revocations + 1 ∧ may ∧ stage'.finished = true := by
  have hcall : ∀ {β : Type} {call rest : Call β} {unknown : List EngineUpdate → Prop},
      call.step coordinator before = some (rest, after) →
      call.WithdrawsLast privilege may unknown →
      (∀ asked, call.next? = some asked → ∀ reply, asked.moves reply = true →
        asked.Withdraws privilege reply) →
      after.revocations = before.revocations ∨
        after.revocations = before.revocations + 1 ∧ may ∧ (Stage.running rest).finished = true := by
    intro β call rest unknown hstep hwithdraws hmoving
    rcases Call.step_cases hstep htrusted with ⟨counter, -, rfl⟩ | ⟨asked, next, rfl, rfl, rfl⟩
    · exact .inl rfl
    · rw [Backend.askEngine_revocations htrusted]
      cases hmoved : asked.moves (before.engine.base.answer asked).1 with
      | false => exact .inl rfl
      | true => exact .inr ⟨rfl, (hwithdraws _).1 (hmoving asked rfl _ hmoved)⟩
  cases h with
  | advance hstep => exact hcall hstep hlast hmoves
  | windUp hstep =>
    rw [finished_abandoned]
    exact hcall hstep hlast hmoves
  | _ => exact .inl rfl

namespace System

variable {system next moment : System} {event : Event} {events : List Event} {id writer : Nat}
  {user : UserId} {grant : Grant}

/-- No counter has moved, or one has and the writer has come to its end. -/
def MovedOnce (writer : Nat) (system : System) : Prop :=
  system.backend.revocations = 0 ∨ system.backend.revocations = 1 ∧ system.Ended writer

theorem MovedOnce.step (h : system.MovedOnce writer)
    (hcalls : system.ProperCalls (StoreRequest.ReadsOrUpdates user grant))
    (hrevoked : system.RevokedBy (grant.check user) writer) (hstep : system.step event = some next) :
    next.MovedOnce writer := by
  -- what leaves the counters alone leaves the writer at its end, if it is there
  have hstill : next.backend.revocations = system.backend.revocations → next.MovedOnce writer := by
    intro hsame
    unfold MovedOnce
    rw [hsame]
    exact h.imp_right fun hmoved => ⟨hmoved.1, hmoved.2.step hstep⟩
  cases event with
  | move id move =>
    obtain ⟨party, party', after, hget, hmove, rfl⟩ := step_move hstep
    obtain ⟨coordinator, flight, rfl, hrequest, hproper⟩ := hcalls.calls id party hget
    obtain ⟨coordinator', flight', heq, -, hlast⟩ := hrevoked id _ hget
    cases heq
    rcases Party.call_moves hmove with ⟨progress, stage', rfl, hproceeds, rfl⟩ |
      ⟨flight', rfl, hask, rfl⟩
    · have hmoves := hproceeds.revocations_or_finished hcalls.trusted hlast
        fun asked hnext reply hmoved =>
          ((hproper.of_next hnext).withdraws_of_moves hrequest hmoved).2
      rcases hmoves with hsame | ⟨hmoved, rfl, hfinished⟩
      · exact hstill hsame
      · rcases h with hnone | ⟨-, coordinator', flight', hended, hdone⟩
        · refine .inr ⟨?_, coordinator, _, get?_moved_self, hfinished⟩
          rw [hmoved, hnone]
        · rw [hget] at hended
          cases hended
          rw [hproceeds.unfinished] at hdone
          cases hdone
    · obtain ⟨_, _, _, -, -, -, rfl⟩ := CoordinatorFlight.ask_cases hask
      exact hstill rfl
  | start | openScope | discard =>
    cases steps_of_step hstep
    exact hstill rfl

/-- Where one call updates a rule and the others read, one counter moves at most. -/
theorem MovedOnce.run (h : system.MovedOnce writer)
    (hcalls : system.ProperCalls (StoreRequest.ReadsOrUpdates user grant))
    (hrevoked : system.RevokedBy (grant.check user) writer) (hrun : system.run events = some next)
    (hevents : ∀ event ∈ events, event.UpdatedBy writer user grant) : next.MovedOnce writer := by
  induction events generalizing system with
  | nil =>
    obtain rfl := Option.some.inj hrun
    exact h
  | cons event rest ih =>
    obtain ⟨middle, hstep, hrest⟩ := Option.bind_eq_some_iff.1 hrun
    rw [List.forall_mem_cons] at hevents
    exact ih (h.step hcalls hrevoked hstep)
      (hcalls.step (steps_of_step hstep) hevents.1.starts)
      (hrevoked.step hcalls.trusted hstep hevents.1.revokedBy) hrest hevents.2

end System

/-! ## The stored rule -/

/-- The store has the rule with its old actions or with those of the update. -/
def MemoryStore.HasEither (user : UserId) (resource : ResourceId) (old new : ActionSet)
    (store : MemoryStore) : Prop :=
  ∃ rule, store.rules.get? (user, resource) = some rule ∧ (rule.actions = old ∨ rule.actions = new)

theorem MemoryStore.HasEither.answer {user : UserId} {grant : Grant} {old : ActionSet}
    {store : MemoryStore} {request : StoreRequest}
    (h : store.HasEither user grant.resource old grant.actions)
    (hrequest : request.ReadsOrUpdates user grant) :
    (store.answer request).2.HasEither user grant.resource old grant.actions := by
  rcases hrequest with hrow | rfl
  · rw [answer_of_row hrow]
    exact h
  · obtain ⟨rule, hrule, hactions⟩ := h
    simp only [MemoryStore.answer, MemoryStore.update, hrule]
    split
    · exact ⟨{ rule with actions := grant.actions }, by simp, .inr rfl⟩
    · exact ⟨rule, hrule, hactions⟩

namespace System

variable {store : MemoryStore} {base : FactBase} {system moment : System} {events : List Event}
  {writer : Nat} {user : UserId} {grant : Grant} {rule : Rule} {action : Action}

section

variable (hrun : (opened store base).run events = some system)
  (hevents : ∀ event ∈ events, event.UpdatedBy writer user grant)
  (hrule : store.rules.get? (user, grant.resource) = some rule)

include hevents hrule in
theorem hasEither_of_visits (hvisits : (opened store base).Visits events moment) :
    moment.backend.store.HasEither user grant.resource rule.actions grant.actions := by
  obtain ⟨past, rest, rfl, hpast⟩ := hvisits
  have hasks : (opened store base).AsksOnce (StoreRequest.ReadsOrUpdates user grant) :=
    asksOnce_opened
  refine (hasks.run rfl hpast
    (fun event hmem => (hevents event (List.mem_append_left rest hmem)).starts)
    (fun _ _ hrequest h => h.answer hrequest) ?_).2.2
  exact ⟨rule, hrule, .inl rfl⟩

include hrun hevents hrule

/-- Nothing but actions of the two sets is ever held. -/
theorem mem_either_of_held
    (hstart : base.actionsFor user (.resource grant.resource) ⊆ rule.actions)
    (hheld : action ∈ system.backend.engine.base.actionsFor user (.resource grant.resource)) :
    action ∈ rule.actions ∨ action ∈ grant.actions := by
  have hholds : system.backend.Holds (.fact user (.resource grant.resource) action) := hheld
  rcases held_or_backed hrun (fun event hmem => (hevents event hmem).starts) hholds with
    hbase | ⟨moment, hvisits, backing, hbacking, hmem⟩
  · exact .inl (hstart action hbase)
  · obtain ⟨stored, hstored, heither⟩ := hasEither_of_visits hevents hrule hvisits
    rw [hstored] at hbacking
    cases hbacking
    rcases heither with hold | hnew
    · exact .inl (hold ▸ hmem)
    · exact .inr (hnew ▸ hmem)

omit hrule in
theorem few_revocations : system.backend.revocations < UInt64.size := by
  have honce : (opened store base).MovedOnce writer := .inl rfl
  rcases honce.run properCalls_opened revokedBy_opened hrun hevents with hnone | ⟨hone, -⟩
  · rw [hnone]
    decide
  · rw [hone]
    decide

omit hrule in
/-- No call but the update takes a fact of the pair away. -/
theorem updates_of_revokes {id coordinator : Nat} {flight : CoordinatorFlight}
    (hget : system.parties.get? id = some (.call coordinator flight))
    (hrevokes : flight.request.Revokes (.fact user (.resource grant.resource) action)) :
    id = writer ∧ flight.request = .update user grant := by
  have hcalls : system.ProperCalls (StoreRequest.ReadsOrUpdates user grant) :=
    properCalls_opened.run hrun fun event hmem => (hevents event hmem).starts
  obtain ⟨_, _, heq, hrequest, -⟩ := hcalls.calls id _ hget
  cases heq
  have hupdates : flight.request = .update user grant :=
    hrequest.resolve_left fun hrow => StoreRequest.not_revokes_of_row hrow hrevokes
  have hrevoked : system.RevokedBy (grant.check user) writer :=
    (revokedBy_opened.run rfl hrun fun event hmem => (hevents event hmem).revokedBy).1
  obtain ⟨_, _, heq, hwriter, -⟩ := hrevoked id _ hget
  cases heq
  have htakes : flight.request.Takes (grant.check user) := by
    rw [hupdates]
    exact StoreRequest.takes_of_revokes ⟨.get, rfl⟩
  exact ⟨hwriter htakes, hupdates⟩

/-- What is held is stored, unless the update has been made by the store and is not at its end. -/
theorem stored_or_pending
    (hstart : base.actionsFor user (.resource grant.resource) ⊆ rule.actions)
    (hheld : action ∈ system.backend.engine.base.actionsFor user (.resource grant.resource)) :
    (∃ stored, system.backend.store.rules.get? (user, grant.resource) = some stored ∧
        action ∈ stored.actions) ∨
      ∃ coordinator flight, system.parties.get? writer = some (.call coordinator flight) ∧
        flight.request = .update user grant ∧ flight.Pending := by
  have hholds : system.backend.Holds (.fact user (.resource grant.resource) action) := hheld
  have hcalls : ∀ id coordinator, .openScope id coordinator ∉ events :=
    fun id coordinator hmem => hevents _ hmem
  have hloaded : base.Holds (.fact user (.resource grant.resource) action) →
      store.Backs (.fact user (.resource grant.resource) action) :=
    fun hbase => ⟨rule, hrule, hstart action hbase⟩
  have hfew := few_revocations hrun hevents
  refine (run_backed_or_pending hrun hcalls hloaded hfew hholds).imp_right ?_
  rintro ⟨id, coordinator, flight, hget, hpending, hrevokes⟩
  obtain ⟨rfl, hupdates⟩ := updates_of_revokes hrun hevents hget hrevokes
  exact ⟨coordinator, flight, hget, hupdates, hpending⟩

end

/-- While one call updates a rule and the others read, the engine holds a part of the old actions or
a part of the new ones, unless the store has made the update, the call is not at its end, and neither
set has the other within it.  Then it holds nothing but actions of the two sets. -/
theorem updated_actions_whole
    (hrun : (opened store base).run events = some system)
    (hevents : ∀ event ∈ events, event.UpdatedBy writer user grant)
    (hrule : store.rules.get? (user, grant.resource) = some rule)
    (hstart : base.actionsFor user (.resource grant.resource) ⊆ rule.actions) :
    let held := system.backend.engine.base.actionsFor user (.resource grant.resource)
    held ⊆ rule.actions ∨ held ⊆ grant.actions ∨
      (¬rule.actions ⊆ grant.actions ∧ ¬grant.actions ⊆ rule.actions ∧
        (∀ action ∈ held, action ∈ rule.actions ∨ action ∈ grant.actions) ∧
        ∃ coordinator flight, system.parties.get? writer = some (.call coordinator flight) ∧
          flight.request = .update user grant ∧ flight.Pending) := by
  intro held
  have heither : ∀ action ∈ held, action ∈ rule.actions ∨ action ∈ grant.actions :=
    fun action hmem => mem_either_of_held hrun hevents hrule hstart hmem
  by_cases hnarrowed : grant.actions ⊆ rule.actions
  · exact .inl fun action hmem => (heither action hmem).elim id (hnarrowed action)
  by_cases hwidened : rule.actions ⊆ grant.actions
  · exact .inr (.inl fun action hmem => (heither action hmem).elim (hwidened action) id)
  by_cases hpending : ∃ coordinator flight,
      system.parties.get? writer = some (.call coordinator flight) ∧
        flight.request = .update user grant ∧ flight.Pending
  · exact .inr (.inr ⟨hwidened, hnarrowed, heither, hpending⟩)
  -- what is held is stored then, and the store has one of the two sets
  obtain ⟨stored, hstored, hactions⟩ := hasEither_of_visits hevents hrule
    ⟨events, [], (List.append_nil events).symm, hrun⟩
  have hkept : held ⊆ stored.actions := by
    intro action hmem
    obtain ⟨found, hfound, hbacked⟩ :=
      (stored_or_pending hrun hevents hrule hstart hmem).resolve_right hpending
    rw [hstored] at hfound
    cases hfound
    exact hbacked
  rcases hactions with hold | hnew
  · exact .inl (hold ▸ hkept)
  · exact .inr (.inl (hnew ▸ hkept))

/-- The rule of the user is given another action in place of the one it has. -/
def otherGrant : Grant := ⟨someResource, .page, .ofList [.update]⟩

/-- A check learns the new action after the store has made the update and before the engine swaps. -/
def checkBesideUpdate : List Event :=
  [.start 0 0 (.update someUser otherGrant), .move 0 (.proceed .advance), .move 0 .ask,
    .start 1 1 (.validateAccess ⟨someUser, someResource, .page, .update⟩),
    .move 1 (.proceed .advance), .move 1 (.proceed .advance), .move 1 (.proceed .advance),
    .move 1 (.proceed .advance), .move 1 .ask, .move 1 (.proceed .receive),
    .move 1 (.proceed .advance)]

theorem mixed_actions_beside_update :
    ∃ rule system, ruleStore.rules.get? (someUser, otherGrant.resource) = some rule ∧
      someBase.actionsFor someUser (.resource otherGrant.resource) ⊆ rule.actions ∧
      (∀ event ∈ checkBesideUpdate, event.UpdatedBy 0 someUser otherGrant) ∧
      (opened ruleStore someBase).run checkBesideUpdate = some system ∧
      ¬system.backend.engine.base.actionsFor someUser (.resource otherGrant.resource) ⊆
        rule.actions ∧
      ¬system.backend.engine.base.actionsFor someUser (.resource otherGrant.resource) ⊆
        otherGrant.actions := by
  refine ⟨_, _, rfl, by decide, ?_, rfl, by decide, by decide⟩
  simp [checkBesideUpdate, Event.UpdatedBy, StoreRequest.row?]

theorem mixed_actions_of_pending_update : ∃ system coordinator flight,
    (opened ruleStore someBase).run checkBesideUpdate = some system ∧
      system.parties.get? 0 = some (.call coordinator flight) ∧
      flight.request = .update someUser otherGrant ∧ flight.Pending := by
  have hevents : ∀ event ∈ checkBesideUpdate, event.UpdatedBy 0 someUser otherGrant := by
    simp [checkBesideUpdate, Event.UpdatedBy, StoreRequest.row?]
  obtain ⟨system, hrun, htest⟩ : ∃ system,
      (opened ruleStore someBase).run checkBesideUpdate = some system ∧
        (!decide (system.backend.engine.base.actionsFor someUser (.resource otherGrant.resource) ⊆
          .ofList [.get]) &&
          !decide (system.backend.engine.base.actionsFor someUser
            (.resource otherGrant.resource) ⊆ otherGrant.actions)) = true :=
    exists_run (by decide)
  simp only [Bool.and_eq_true, Bool.not_eq_true', decide_eq_false_iff_not] at htest
  have hwhole := updated_actions_whole hrun hevents rfl (by decide)
  obtain ⟨-, -, -, coordinator, flight, hpending⟩ :=
    (hwhole.resolve_left htest.1).resolve_left htest.2
  exact ⟨system, coordinator, flight, hrun, hpending⟩

end System

end AccessControl
