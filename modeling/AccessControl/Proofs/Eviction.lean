import AccessControl.Proofs.AnswerOrigin

/-!
# The eviction by a call

A call to a coordinator withdraws a fact about a resource only if its request revokes the fact, and
by that it comes to its end.  As long as the engine holds the fact, every check of it is passed
without a question to the store.
-/

namespace AccessControl

/-- The fact about a resource by which the engine passes a check. -/
abbrev InstanceCheck.fact (check : InstanceCheck) : Privilege :=
  .fact check.user (.resource check.resource) check.action

/-! ## Updates -/

namespace EngineUpdate

variable {user : UserId} {target : PolicyObject} {action : Action}

/-- A request of an update withdraws no fact but those that the update is made to withdraw. -/
theorem spares_of_asks {update : EngineUpdate} {request : EngineRequest}
    (h : ¬update.Withdraws (.fact user target action)) (hasks : update.Asks request)
    (reply : request.Reply) : ¬request.Withdraws (.fact user target action) reply := by
  have hdemotion : ∀ subject role, ¬LostByRole (.fact user target action) subject role →
      DemotionAsks subject role request → ¬request.Withdraws (.fact user target action) reply := by
    rintro subject role hkept (⟨-, rfl⟩ | ⟨resourceType, rfl⟩)
    · exact nofun
    · exact fun hwithdraws => hkept (.inl ⟨resourceType, hwithdraws⟩)
  cases update with
  | grant subject object actions seen =>
    obtain ⟨_, -, rfl⟩ := hasks
    exact id
  | replace subject object actions seen =>
    rcases hasks with rfl | rfl
    · exact fun hwithdraws => h hwithdraws.2
    · exact h
  | assignRole subject role seen =>
    rcases hasks with rfl | hdemotes
    · exact nofun
    · exact hdemotion subject role h hdemotes
  | demote subject role => exact hdemotion subject role h hasks
  | remove | clearObject =>
    obtain rfl := hasks
    exact h

/-- An update withdraws no fact but those that it is made to withdraw. -/
theorem apply_spares {update : EngineUpdate} (h : ¬update.Withdraws (.fact user target action)) :
    update.apply.All fun request =>
      ∀ reply, ¬request.Withdraws (.fact user target action) reply :=
  apply_induction (fun _ => trivial) (fun _ _ => And.intro) fun _ => spares_of_asks h

end EngineUpdate

/-! ## The last request of a call -/

namespace Call

variable {α β : Type} {privilege : Privilege} {may : Prop} {unknown : List EngineUpdate → Prop}
  {call : Call α}

/-- Whenever the call withdraws the privilege, it may do so and comes to its end by that.  What it
leaves to be done if it is given up is as `unknown` says. -/
def WithdrawsLast (privilege : Privilege) (may : Prop) (unknown : List EngineUpdate → Prop) :
    Call α → Prop
  | done _ => True
  | engine request next => ∀ reply,
      (request.Withdraws privilege reply →
        may ∧ (Stage.running (next (.ok reply))).finished = true) ∧
      (next (.ok reply)).WithdrawsLast privilege may unknown
  | store _ onUnknown next =>
    unknown onUnknown ∧ ∀ answer, (next answer).WithdrawsLast privilege may unknown
  | count _ next => next.WithdrawsLast privilege may unknown

theorem All.withdrawsLast
    (h : call.All fun request => ∀ reply, ¬request.Withdraws privilege reply) :
    call.WithdrawsLast privilege may unknown := by
  induction call with
  | done => trivial
  | engine request next ih =>
    exact fun reply => ⟨fun hwithdraws => absurd hwithdraws (h.1 reply), ih _ (h.2 reply)⟩
  | store => exact False.elim h
  | count counter next ih => exact ih h

/-- What only changes the result of a call changes nothing of this. -/
theorem WithdrawsLast.bind_done {f : α → β} (h : call.WithdrawsLast privilege may unknown) :
    (call.bind fun result => done (f result)).WithdrawsLast privilege may unknown := by
  induction call with
  | done => trivial
  | engine request next ih =>
    refine fun reply => ⟨fun hwithdraws => ?_, ih _ (h reply).2⟩
    obtain ⟨hmay, hends⟩ := (h reply).1 hwithdraws
    refine ⟨hmay, ?_⟩
    -- the call has come to its end, so all that is left to do is to change its result
    dsimp only
    cases hnext : next (.ok reply) with
    | done => rfl
    | _ =>
      rw [hnext] at hends
      cases hends
  | store request onUnknown next ih => exact ⟨h.1, fun answer => ih _ (h.2 answer)⟩
  | count counter next ih => exact ih h

end Call

namespace EngineUpdate

variable {may : Prop} {unknown : List EngineUpdate → Prop} {user : UserId} {resource : ResourceId}
  {action : Action} {update : EngineUpdate}

theorem apply_withdrawsLast (h : update.Withdraws (.fact user (.resource resource) action) → may) :
    update.apply.WithdrawsLast (.fact user (.resource resource) action) may unknown := by
  by_cases hwithdraws : update.Withdraws (.fact user (.resource resource) action)
  · have hmay := h hwithdraws
    cases update with
    | grant => exact False.elim hwithdraws
    | replace subject object actions seen =>
      -- a stale replacement withdraws nothing, and the eviction after it is the last request
      rintro ⟨⟩
      · exact ⟨nofun, fun _ => ⟨fun _ => ⟨hmay, rfl⟩, trivial⟩⟩
      · exact ⟨fun _ => ⟨hmay, rfl⟩, trivial⟩
    | remove subject object => exact fun _ => ⟨fun _ => ⟨hmay, rfl⟩, trivial⟩
    | assignRole subject role seen =>
      obtain ⟨_, _, heq⟩ | ⟨heq, -⟩ := hwithdraws <;> cases heq
    | demote subject role =>
      obtain ⟨_, _, heq⟩ | ⟨heq, -⟩ := hwithdraws <;> cases heq
    | clearObject object => exact fun _ => ⟨fun _ => ⟨hmay, rfl⟩, trivial⟩
  · exact (apply_spares hwithdraws).withdrawsLast

/-- What a call does that has been given up withdraws the privilege last. -/
def EvictLast (privilege : Privilege) (may : Prop) (updates : List EngineUpdate) : Prop :=
  ∀ unknown, (applyAll updates).WithdrawsLast privilege may unknown

theorem evictLast_nil {privilege : Privilege} : EvictLast privilege may [] :=
  fun _ => trivial

theorem evictLast_single
    (h : update.Withdraws (.fact user (.resource resource) action) → may) :
    EvictLast (.fact user (.resource resource) action) may [update] :=
  fun _ => (apply_withdrawsLast h).bind_done

end EngineUpdate

/-! ## Calls to a coordinator -/

namespace Coordinator

variable {α : Type} {may : Prop} {unknown : List EngineUpdate → Prop} {user : UserId}
  {resource : ResourceId} {action : Action} {update : EngineUpdate}

theorem settle_withdrawsLast {result : α}
    (h : update.Withdraws (.fact user (.resource resource) action) → may) :
    (settle update result).WithdrawsLast (.fact user (.resource resource) action) may unknown :=
  (EngineUpdate.apply_withdrawsLast h).bind_done

theorem repair_withdrawsLast {privilege : Privilege} {owner : UserId} {object : PolicyObject}
    {wanted : Action} {seen : FactVersion} :
    (repair owner object wanted (.ok seen)).WithdrawsLast privilege may unknown := by
  rintro ⟨⟩
  · exact ⟨nofun, trivial⟩
  · exact ⟨nofun, trivial⟩

theorem refused_withdrawsLast {privilege : Privilege} {updates : List EngineUpdate}
    {error : StorageError} (h : EngineUpdate.EvictLast privilege may updates) :
    (refused (α := α) error updates).WithdrawsLast privilege may unknown := by
  unfold refused
  split
  · exact (h unknown).bind_done
  · trivial

/-- A call withdraws a fact about a resource only if its request revokes it, and by that it comes to
its end. -/
theorem handle_withdrawsLast (request : StoreRequest)
    (h : request.Revokes (.fact user (.resource resource) action) → may) :
    (handle request).WithdrawsLast (.fact user (.resource resource) action) may
      (EngineUpdate.EvictLast (.fact user (.resource resource) action) may) := by
  cases request with
  | create owner grant =>
    refine fun version => ⟨nofun, EngineUpdate.evictLast_nil, fun answer => ?_⟩
    cases answer with
    | error error => trivial
    | ok reply => exact settle_withdrawsLast False.elim
  | update owner grant =>
    refine fun version => ⟨nofun, EngineUpdate.evictLast_single h, fun answer => ?_⟩
    cases answer with
    | error error => exact refused_withdrawsLast (EngineUpdate.evictLast_single h)
    | ok touched =>
      dsimp only
      split
      · exact settle_withdrawsLast h
      · exact settle_withdrawsLast h
  | delete owner other =>
    refine ⟨EngineUpdate.evictLast_single h, fun answer => ?_⟩
    cases answer with
    | error error => exact refused_withdrawsLast (EngineUpdate.evictLast_single h)
    | ok reply => exact settle_withdrawsLast h
  | validateAccess check =>
    refine fun ofResource => ⟨nofun, ?_⟩
    cases ofResource with
    | true => trivial
    | false =>
      refine fun ofType => ⟨nofun, ?_⟩
      cases ofType with
      | true => trivial
      | false =>
        refine fun version => ⟨nofun, EngineUpdate.evictLast_nil, fun answer => ?_⟩
        cases answer with
        | error error => trivial
        | ok reply => exact repair_withdrawsLast
  | validateAccessToType check =>
    refine fun ofType => ⟨nofun, ?_⟩
    cases ofType with
    | true => trivial
    | false =>
      refine fun version => ⟨nofun, EngineUpdate.evictLast_nil, fun answer => ?_⟩
      cases answer with
      | error error => trivial
      | ok reply => exact repair_withdrawsLast
  | syncUserRole owner role =>
    refine fun version => ⟨nofun, EngineUpdate.evictLast_single h, fun answer => ?_⟩
    cases answer with
    | error error => exact refused_withdrawsLast (EngineUpdate.evictLast_single h)
    | ok reply => exact settle_withdrawsLast h
  | putRolePolicy role resourceType actions =>
    refine ⟨EngineUpdate.evictLast_single h, fun answer => ?_⟩
    cases answer with
    | error error => exact refused_withdrawsLast (EngineUpdate.evictLast_single h)
    | ok reply => exact settle_withdrawsLast h
  | _ => exact ⟨EngineUpdate.evictLast_nil, fun _ => trivial⟩

end Coordinator

/-! ## Checks of what the engine holds -/

/-- As long as the engine holds the privilege, the call does not ask its store and ends with a
result that has the property. -/
def Call.EndsWhile {α : Type} (privilege : Privilege) (property : α → Prop) : Call α → Prop
  | done result => property result
  | engine request next => ∀ base : FactBase, base.Holds privilege →
      (next (.ok (base.answer request).1)).EndsWhile privilege property
  | store .. => False
  | count _ next => next.EndsWhile privilege property

/-- A check of a fact that the engine holds is passed. -/
theorem Coordinator.validateAccess_endsWhile (check : InstanceCheck) :
    (validateAccess check).EndsWhile check.fact fun answer => ∃ reply, answer = .ok reply := by
  intro base hholds
  have hcheck : base.check check.user (.resource check.resource) check.action = true := by
    have hfact : (base.actionsFor check.user (.resource check.resource)).contains
        check.action = true := hholds
    simp [FactBase.check, hfact]
  simp only [FactBase.answer, hcheck]
  exact ⟨(), rfl⟩

/-! ## Steps of a call -/

/-- What the engine holds it still holds after a step, or the call may withdraw it and has come to
its end. -/
theorem Call.WithdrawsLast.held_or_finished {α : Type} {privilege : Privilege} {may : Prop}
    {unknown : List EngineUpdate → Prop} {call rest : Call α} {coordinator : Nat}
    {before after : Backend} (h : call.WithdrawsLast privilege may unknown)
    (hstep : call.step coordinator before = some (rest, after)) (htrusted : before.Trusted)
    (hheld : before.Holds privilege) :
    after.Holds privilege ∨ may ∧ (Stage.running rest).finished = true := by
  rcases step_cases hstep htrusted with ⟨counter, rfl, rfl⟩ | ⟨request, next, rfl, rfl, rfl⟩
  · exact .inl hheld
  · by_cases hwithdraws : request.Withdraws privilege (before.engine.base.answer request).1
    · exact .inr ((h _).1 hwithdraws)
    · left
      rw [Backend.Holds, Backend.askEngine_base htrusted]
      exact FactBase.holds_answer_of_held hheld hwithdraws

namespace Stage

variable {α : Type} {privilege : Privilege} {may : Prop} {stage stage' : Stage α}
  {coordinator : Nat} {before after : Backend} {progress : Progress}

theorem finished_abandoned (rest : Call Unit) :
    (abandoned (α := α) rest).finished = (running rest).finished := by
  cases rest <;> rfl

/-- As long as the engine holds the privilege, the call ends with a result that has the property. -/
def EndsWhile (privilege : Privilege) (property : α → Prop) : Stage α → Prop
  | running call => call.EndsWhile privilege property
  | _ => False

/-- From where it stands, the call withdraws the privilege last, however it goes on. -/
def WithdrawsLast (privilege : Privilege) (may : Prop) (stage : Stage α) : Prop :=
  stage.Every fun call =>
    call.WithdrawsLast privilege may (EngineUpdate.EvictLast privilege may)

theorem WithdrawsLast.answered {request : StoreRequest} {onUnknown : List EngineUpdate}
    {next : request.Answer → Call α} (answer : request.Answer)
    (h : (running (.store request onUnknown next)).WithdrawsLast privilege may) :
    (Stage.answered request onUnknown next answer).WithdrawsLast privilege may :=
  ⟨h.2 answer, fun reason => h.2 (.error (.internal reason)), h.1 _⟩

namespace Proceeds

variable (h : Proceeds coordinator before progress stage stage' after)
  (htrusted : before.Trusted)

include h htrusted

theorem withdrawsLast (hstage : stage.WithdrawsLast privilege may) :
    stage'.WithdrawsLast privilege may := by
  cases h with
  | advance hstep | windUp hstep =>
    rcases Call.step_cases hstep htrusted with ⟨counter, rfl, -⟩ | ⟨request, next, rfl, rfl, -⟩
    · exact hstage
    · exact (hstage _).2
  | receive => exact hstage.1
  | refuse error => exact hstage.2 (.error error)
  | lose reason => exact hstage.2.1 reason
  | giveUp => exact hstage.1 _
  | giveUpAnswered => exact hstage.2.2

/-- What the engine holds it still holds, or the call may withdraw it and has come to its end. -/
theorem held_or_finished (hstage : stage.WithdrawsLast privilege may)
    (hheld : before.Holds privilege) :
    after.Holds privilege ∨ may ∧ stage'.finished = true := by
  cases h with
  | advance hstep => exact Call.WithdrawsLast.held_or_finished hstage hstep htrusted hheld
  | windUp hstep =>
    rw [finished_abandoned]
    exact Call.WithdrawsLast.held_or_finished hstage hstep htrusted hheld
  | _ => exact .inl hheld

/-- A call that ends so while the engine holds the privilege is not at its store. -/
theorem endsWhile {property : α → Prop} (hstage : stage.EndsWhile privilege property)
    (hheld : before.Holds privilege) : stage'.EndsWhile privilege property := by
  cases h with
  | advance hstep =>
    rcases Call.step_cases hstep htrusted with ⟨counter, rfl, -⟩ | ⟨request, next, rfl, rfl, -⟩
    · exact hstage
    · exact hstage _ hheld
  | _ => exact False.elim hstage

end Proceeds

end Stage

end AccessControl
