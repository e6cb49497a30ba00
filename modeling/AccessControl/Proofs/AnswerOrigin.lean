import AccessControl.Proofs.Moments

/-!
# Where answers come from

A call answers with what its store has said, unless it is a check that the engine has passed.  So
every answer of a call is the answer of one moment between its beginning and its end: at that moment
the store answers so, or the engine holds a privilege that passes the check.  The only other answers
are the reports of failures of the store.
-/

namespace AccessControl

namespace StoreRequest

/-- The privileges by which the engine passes a check. -/
def privileges : StoreRequest → List Privilege
  | validateAccess check =>
    [.administration check.user, .fact check.user (.resource check.resource) check.action,
      .fact check.user (.type check.resourceType) check.action]
  | validateAccessToType check =>
    [.administration check.user, .fact check.user (.type check.resourceType) check.action]
  | _ => []

/-- Whether a reply of the engine shows that it passes the check. -/
def PassedBy (asked : StoreRequest) : (request : EngineRequest) → request.Reply → Prop
  | .check user object action, allowed => allowed = true ∧
      .administration user ∈ asked.privileges ∧ .fact user object action ∈ asked.privileges
  | _, _ => False

end StoreRequest

theorem FactBase.holds_of_check {base : FactBase} {user : UserId} {object : PolicyObject}
    {action : Action} (h : base.check user object action = true) :
    base.Holds (.administration user) ∨ base.Holds (.fact user object action) := by
  rw [check, Bool.or_eq_true] at h
  exact h

/-- An engine that passes a check holds a privilege that does. -/
theorem StoreRequest.PassedBy.holds {asked : StoreRequest} {request : EngineRequest}
    {base : FactBase} (h : asked.PassedBy request (base.answer request).1) :
    ∃ privilege ∈ asked.privileges, base.Holds privilege := by
  cases request with
  | check user object action =>
    obtain ⟨hallowed, hadmin, hfact⟩ := h
    rcases FactBase.holds_of_check hallowed with hholds | hholds
    · exact ⟨_, hadmin, hholds⟩
    · exact ⟨_, hfact, hholds⟩
  | _ => exact False.elim h

namespace Call

variable {α β : Type} {asked : StoreRequest} {known : asked.Answer → Prop}

/-- The call ends with an answer that is known, if whatever its store answers to `asked` is known,
and success is known once the engine has passed the check. -/
def Answers (asked : StoreRequest) (known : asked.Answer → Prop) (answerOf : α → asked.Answer) :
    Call α → Prop
  | done result => known (answerOf result)
  | engine request next => ∀ reply, (asked.PassedBy request reply → ∀ value, known (.ok value)) →
      (next (.ok reply)).Answers asked known answerOf
  | store request _ next => ∀ answer, (∀ h : request = asked, known (h ▸ answer)) →
      (next answer).Answers asked known answerOf
  | count _ next => next.Answers asked known answerOf

variable {answerOf : α → asked.Answer} {call : Call α}

/-- What does not ask the store leaves the answer to what comes after it. -/
theorem All.answers_bind {property : EngineRequest → Prop} {next : α → Call β}
    {answerOf : β → asked.Answer} (h : call.All property)
    (hnext : ∀ value, (next value).Answers asked known answerOf) :
    (call.bind next).Answers asked known answerOf := by
  induction call with
  | done value => exact hnext value
  | engine request rest ih => exact fun reply _ => ih _ (h.2 reply)
  | store => exact False.elim h
  | count counter rest ih => exact ih h

theorem Answers.map {f : α → β} {answerOf' : β → asked.Answer}
    (h : call.Answers asked known answerOf)
    (hf : ∀ result, answerOf' (f result) = answerOf result) :
    (call.map f).Answers asked known answerOf' := by
  induction call with
  | done result =>
    have hknown : known (answerOf result) := h
    rw [← hf result] at hknown
    exact hknown
  | engine request next ih => exact fun reply hpassed => ih _ (h reply hpassed)
  | store request onUnknown next ih => exact fun answer hanswer => ih _ (h answer hanswer)
  | count counter next ih => exact ih h

end Call

/-- No update of the engine asks the store. -/
theorem EngineUpdate.applyAll_silent (updates : List EngineUpdate) :
    (applyAll updates).All fun _ => True := by
  have hall : (applyAll updates).All (EngineRequest.OffersOnly (.administration ⟨.ofNat 0⟩) _) :=
    applyAll_all updates
  exact hall.imp fun _ _ => trivial

theorem EngineUpdate.apply_silent (update : EngineUpdate) : update.apply.All fun _ => True := by
  have hall : update.apply.All (EngineRequest.OffersOnly (.administration ⟨.ofNat 0⟩) _) :=
    apply_all update
  exact hall.imp fun _ _ => trivial

/-! ## Calls to a coordinator -/

namespace Coordinator

variable {asked : StoreRequest} {known : asked.Answer → Prop}

theorem refused_answers {error : StorageError} {onUnknown : List EngineUpdate}
    (h : known (.error error)) : (refused error onUnknown).Answers asked known id := by
  unfold refused
  split
  · exact (EngineUpdate.applyAll_silent onUnknown).answers_bind fun _ => h
  · exact h

theorem settle_answers {update : EngineUpdate} {reply : asked.Reply} (h : known (.ok reply)) :
    (settle update reply).Answers asked known id :=
  update.apply_silent.answers_bind fun _ => h

theorem repair_answers {known : Except StorageError Unit → Prop} {subject : UserId}
    {object : PolicyObject} {action : Action} {seen : FactVersion} {check : InstanceCheck}
    (h : known (.ok ())) :
    (repair subject object action (.ok seen)).Answers (.validateAccess check) known id := by
  rintro ⟨⟩ -
  · exact h
  · exact h

theorem repair_answers_type {known : Except StorageError Unit → Prop} {subject : UserId}
    {object : PolicyObject} {action : Action} {seen : FactVersion} {check : TypeCheck}
    (h : known (.ok ())) :
    (repair subject object action (.ok seen)).Answers (.validateAccessToType check) known id := by
  rintro ⟨⟩ -
  · exact h
  · exact h

/-- Every call to a coordinator answers what is known. -/
theorem handle_answers (asked : StoreRequest) (known : asked.Answer → Prop) :
    (handle asked).Answers asked known id := by
  cases asked with
  | create user grant =>
    intro version _ answer hanswer
    cases answer with
    | error error => exact hanswer rfl
    | ok reply => exact settle_answers (hanswer rfl)
  | update user grant =>
    intro version _ answer hanswer
    cases answer with
    | error error => exact refused_answers (hanswer rfl)
    | ok touched =>
      dsimp only
      split
      · exact settle_answers (hanswer rfl)
      · exact settle_answers (hanswer rfl)
  | delete user resource =>
    intro answer hanswer
    cases answer with
    | error error => exact refused_answers (hanswer rfl)
    | ok reply => exact settle_answers (hanswer rfl)
  | validateAccess check =>
    intro ofResource hresource
    cases ofResource with
    | true => exact hresource ⟨rfl, by simp [StoreRequest.privileges]⟩ ()
    | false =>
      intro ofType htype
      cases ofType with
      | true => exact htype ⟨rfl, by simp [StoreRequest.privileges]⟩ ()
      | false =>
        intro version _ answer hanswer
        cases answer with
        | error error => exact hanswer rfl
        | ok reply => exact repair_answers (hanswer rfl)
  | validateAccessToType check =>
    intro ofType htype
    cases ofType with
    | true => exact htype ⟨rfl, by simp [StoreRequest.privileges]⟩ ()
    | false =>
      intro version _ answer hanswer
      cases answer with
      | error error => exact hanswer rfl
      | ok reply => exact repair_answers_type (hanswer rfl)
  | syncUserRole user role =>
    intro version _ answer hanswer
    cases answer with
    | error error => exact refused_answers (hanswer rfl)
    | ok reply => exact settle_answers (hanswer rfl)
  | putRolePolicy role resourceType actions =>
    intro answer hanswer
    cases answer with
    | error error => exact refused_answers (hanswer rfl)
    | ok reply => exact settle_answers (hanswer rfl)
  | _ => exact fun answer hanswer => hanswer rfl

end Coordinator

/-! ## Calls inside a transaction -/

/-- Every call inside a transaction answers what is known. -/
theorem Scope.handle_answers (deferred : List EngineUpdate) (asked : StoreRequest)
    (known : asked.Answer → Prop) :
    (handle deferred asked).Answers asked known ScopedResult.result := by
  cases asked with
  | create user grant =>
    intro answer hanswer
    cases answer with
    | error error => exact hanswer rfl
    | ok reply => exact fun version _ => hanswer rfl
  | update user grant =>
    intro answer hanswer
    cases answer with
    | error error => exact hanswer rfl
    | ok touched =>
      refine (EngineUpdate.apply_silent _).answers_bind fun _ version _ => ?_
      dsimp only
      split
      · exact hanswer rfl
      · exact hanswer rfl
  | delete user resource =>
    intro answer hanswer
    cases answer with
    | error error => exact hanswer rfl
    | ok reply => exact (EngineUpdate.apply_silent _).answers_bind fun _ => hanswer rfl
  | validateAccess check =>
    intro ofResource hresource
    cases ofResource with
    | true => exact hresource ⟨rfl, by simp [StoreRequest.privileges]⟩ ()
    | false =>
      intro ofType htype
      cases ofType with
      | true => exact htype ⟨rfl, by simp [StoreRequest.privileges]⟩ ()
      | false => exact fun answer hanswer => hanswer rfl
  | validateAccessToType check =>
    intro ofType htype
    cases ofType with
    | true => exact htype ⟨rfl, by simp [StoreRequest.privileges]⟩ ()
    | false => exact fun answer hanswer => hanswer rfl
  | syncUserRole user role =>
    intro answer hanswer
    cases answer with
    | error error => exact hanswer rfl
    | ok reply =>
      exact (EngineUpdate.apply_silent _).answers_bind fun _ version _ => hanswer rfl
  | putRolePolicy role resourceType actions =>
    intro answer hanswer
    cases answer with
    | error error => exact hanswer rfl
    | ok reply => exact (EngineUpdate.apply_silent _).answers_bind fun _ => hanswer rfl
  | commit =>
    intro answer hanswer
    cases answer with
    | error error =>
      exact (Coordinator.refused_answers (hanswer rfl)).map fun _ => rfl
    | ok reply =>
      have hcommitted : ((EngineUpdate.applyAll deferred).bind fun _ => .done (.ok ())).Answers
          .commit known id :=
        (EngineUpdate.applyAll_silent deferred).answers_bind fun _ => hanswer rfl
      exact hcommitted.map fun _ => rfl
  | _ => exact fun answer hanswer => hanswer rfl

/-! ## Steps of a call -/

/-- The failure that is reported to a call when it goes on. -/
def Progress.error? : Progress → Option StorageError
  | refuse error => some error
  | lose reason => some (.internal reason)
  | _ => none

/-- Whether the event reports no failure of the store. -/
def Event.isHonest : Event → Bool
  | move _ (.proceed progress) => progress.error?.isNone
  | _ => true

namespace Stage

variable {α : Type} {asked : StoreRequest} {known : asked.Answer → Prop}
  {answerOf : α → asked.Answer} {stage stage' : Stage α} {coordinator : Nat}
  {before after : Backend} {progress : Progress}

/-- From where it stands, the call ends with an answer that is known. -/
def Answers (asked : StoreRequest) (known : asked.Answer → Prop) (answerOf : α → asked.Answer) :
    Stage α → Prop
  | running rest => rest.Answers asked known answerOf
  | answered _ _ next answer =>
    (next answer).Answers asked known answerOf ∧ ∀ reason, known (.error (.internal reason)) →
      (next (.error (.internal reason))).Answers asked known answerOf
  | abandoned _ => True

end Stage

namespace Call

variable {α : Type} {asked : StoreRequest} {known : asked.Answer → Prop}
  {answerOf : α → asked.Answer} {coordinator : Nat} {before after : Backend} {call rest : Call α}

theorem Answers.step (h : call.Answers asked known answerOf)
    (hstep : call.step coordinator before = some (rest, after)) (htrusted : before.Trusted)
    (hpassed : ∀ privilege ∈ asked.privileges, before.Holds privilege →
      ∀ value, known (.ok value)) : rest.Answers asked known answerOf := by
  rcases step_cases hstep htrusted with ⟨counter, rfl, -⟩ | ⟨request, next, rfl, rfl, -⟩
  · exact h
  · refine h _ fun hreply => ?_
    obtain ⟨privilege, hmem, hholds⟩ := hreply.holds
    exact hpassed privilege hmem hholds

/-- A call whose store answers what is known goes on to what is known. -/
theorem Answers.answered {request : StoreRequest} {onUnknown : List EngineUpdate}
    {next : request.Answer → Call α} {answer : request.Answer}
    (h : (store request onUnknown next).Answers asked known answerOf)
    (hanswer : ∀ heq : request = asked, known (heq ▸ answer)) :
    (Stage.answered request onUnknown next answer).Answers asked known answerOf := by
  refine ⟨h answer hanswer, fun reason hreason => h _ ?_⟩
  rintro rfl
  exact hreason

end Call

/-- Progress of a call, unless the failure that it reports is unknown, leads to what is known. -/
theorem Stage.Proceeds.answers {α : Type} {asked : StoreRequest} {known : asked.Answer → Prop}
    {answerOf : α → asked.Answer} {stage stage' : Stage α} {coordinator : Nat}
    {before after : Backend} {progress : Progress}
    (h : stage.Proceeds coordinator before progress stage' after) (htrusted : before.Trusted)
    (hstage : stage.Answers asked known answerOf)
    (hpassed : ∀ privilege ∈ asked.privileges, before.Holds privilege →
      ∀ value, known (.ok value))
    (hfailed : ∀ error, progress.error? = some error → known (.error error)) :
    stage'.Answers asked known answerOf := by
  cases h with
  | advance hstep => exact Call.Answers.step hstage hstep htrusted hpassed
  | receive => exact hstage.1
  | refuse error request onUnknown next =>
    refine hstage _ ?_
    rintro rfl
    exact hfailed error rfl
  | lose reason => exact hstage.2 reason (hfailed _ rfl)
  | _ => trivial

namespace System

variable {system next : System} {events : List Event} {id coordinator : Nat}
  {asked : StoreRequest} {known : asked.Answer → Prop}

/-- One of the events reports a failure of the store to the party. -/
def Reports (events : List Event) (id : Nat) (error : StorageError) : Prop :=
  ∃ progress, .move id (.proceed progress) ∈ events ∧ progress.error? = some error

theorem Reports.cons {event : Event} {error : StorageError} (h : Reports events id error) :
    Reports (event :: events) id error := by
  obtain ⟨progress, hmem, herror⟩ := h
  exact ⟨progress, List.mem_cons_of_mem event hmem, herror⟩

theorem not_reports {error : StorageError} (h : events.all Event.isHonest = true) :
    ¬Reports events id error := by
  rintro ⟨progress, hmem, herror⟩
  have hhonest : progress.error?.isNone = true := List.all_eq_true.1 h _ hmem
  rw [herror] at hhonest
  cases hhonest

/-! ## Runs -/

/-- A call to a coordinator goes on to what is known, if that includes whatever the moments of the
run show. -/
theorem run_answers {stage : Stage asked.Answer} {applied : Bool}
    (htrusted : system.backend.Trusted) (hrun : system.run events = some next)
    (hget : system.parties.get? id = some (.call coordinator ⟨asked, stage, applied⟩))
    (hstage : stage.Answers asked known fun answer => answer)
    (hstored : ∀ moment, system.Visits events moment →
      known (moment.backend.store.answer asked).1)
    (hpassed : ∀ moment, system.Visits events moment → ∀ privilege ∈ asked.privileges,
      moment.backend.Holds privilege → ∀ value, known (.ok value))
    (hfailed : ∀ error, Reports events id error → known (.error error)) :
    ∃ stage' applied', next.parties.get? id =
        some (.call coordinator ⟨asked, stage', applied'⟩) ∧
      stage'.Answers asked known fun answer => answer := by
  induction events generalizing system stage applied with
  | nil =>
    obtain rfl := Option.some.inj hrun
    exact ⟨stage, applied, hget, hstage⟩
  | cons event rest ih =>
    obtain ⟨middle, hstep, hrest⟩ := Option.bind_eq_some_iff.1 hrun
    suffices hmiddle : ∃ stage' applied', middle.parties.get? id =
        some (.call coordinator ⟨asked, stage', applied'⟩) ∧
          stage'.Answers asked known fun answer => answer by
      obtain ⟨stage', applied', hget', hstage'⟩ := hmiddle
      exact ih ((steps_of_step hstep).trusted htrusted) hrest hget' hstage'
        (fun moment hvisits => hstored moment (hvisits.cons hstep))
        (fun moment hvisits => hpassed moment (hvisits.cons hstep))
        fun error hreports => hfailed error hreports.cons
    rcases step_party hstep hget with hsame | ⟨move, party', rfl, hmove, hget'⟩ | ⟨-, _, _, _, heq⟩
    · exact ⟨stage, applied, hsame, hstage⟩
    · rcases Party.call_moves hmove with ⟨progress, stage', rfl, hproceeds, rfl⟩ |
        ⟨flight', rfl, hask, rfl⟩
      · refine ⟨stage', applied, hget', hproceeds.answers htrusted hstage ?_ fun error herror => ?_⟩
        · exact hpassed system visits_self
        · exact hfailed error ⟨progress, List.mem_cons_self, herror⟩
      · obtain ⟨request, onUnknown, answered, hwaits, -, rfl, -⟩ := CoordinatorFlight.ask_cases hask
        replace hwaits : stage = .running (.store request onUnknown answered) := hwaits
        rw [hwaits] at hstage
        have hanswer : ∀ heq : request = asked,
            known (heq ▸ (system.backend.store.answer request).1) := by
          rintro rfl
          exact hstored system visits_self
        exact ⟨_, _, hget', Call.Answers.answered hstage hanswer⟩
    · cases heq

/-- Where the answer of the call that the first event makes comes from: its store gave it, or at
some moment the engine held a privilege that passes the check, or a failure was reported. -/
inductive Origin (system : System) (first : Event) (events : List Event) (id : Nat)
    (asked : StoreRequest) (gave : asked.Answer → Prop) (answer : asked.Answer) : Prop where
  | stored (hgave : gave answer)
  | passed (value : asked.Reply) (moment : System) (privilege : Privilege)
      (hanswer : answer = .ok value) (hvisits : system.Visits (first :: events) moment)
      (hmem : privilege ∈ asked.privileges) (hholds : moment.backend.Holds privilege)
  | reported (error : StorageError) (hanswer : answer = .error error)
      (hreports : Reports events id error)

/-- The store answers so at some moment of the run. -/
def Answered (system : System) (events : List Event) (asked : StoreRequest)
    (answer : asked.Answer) : Prop :=
  ∃ moment, system.Visits events moment ∧ answer = (moment.backend.store.answer asked).1

/-- A call to a coordinator answers what the store answers at some moment, unless the engine passes
its check or a failure is reported. -/
theorem answer_origin {answer : asked.Answer} (htrusted : system.backend.Trusted)
    (hrun : system.run (.start id coordinator asked :: events) = some next)
    (hanswer : next.answer? id asked = some answer) :
    system.Origin (.start id coordinator asked) events id asked
      (system.Answered (.start id coordinator asked :: events) asked) answer := by
  obtain ⟨started, hstep, hrest⟩ := Option.bind_eq_some_iff.1 hrun
  obtain ⟨-, hstarted⟩ := enter_cases hstep
  have hbegins : started.parties.get? id = some (.call coordinator ⟨asked, .running
      (Coordinator.handle asked), false⟩) := by
    rw [hstarted, get?_moved_self]
  have hhandles : (Coordinator.handle asked).Answers asked (system.Origin
      (.start id coordinator asked) events id asked
      (system.Answered (.start id coordinator asked :: events) asked)) fun answer => answer :=
    Coordinator.handle_answers asked _
  obtain ⟨stage, applied', hends, hknown⟩ := run_answers ((steps_of_step hstep).trusted htrusted)
    hrest hbegins hhandles (fun moment hvisits => .stored ⟨moment, hvisits.cons hstep, rfl⟩)
    (fun moment hvisits privilege hmem hholds value =>
      .passed value moment privilege rfl (hvisits.cons hstep) hmem hholds)
    (fun error hreports => .reported error rfl hreports)
  rw [answer?, hends, Option.bind_some] at hanswer
  obtain ⟨applied, heq⟩ := Party.answer?_call hanswer
  cases heq
  exact hknown

end System

end AccessControl
