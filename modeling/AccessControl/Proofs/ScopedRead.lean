import AccessControl.Proofs.ScopeRun

/-!
# Checks inside a transaction

A transaction that has taken a rule away does not see it any more, and its store denies what the
rule allowed.  But a check inside the transaction asks the shared engine first, and the engine
speaks of the committed state, which others may learn at any moment.  So the check is denied, unless
at some moment of it the engine holds what the committed store backs, or what a call under way is
about to withdraw.
-/

namespace AccessControl

namespace System

variable {privilege : Privilege} {system middle next : System} {event : Event}
  {events rest : List Event} {id : Nat} {asked : StoreRequest} {known : asked.Answer → Prop}

/-- The call of a transaction has come to its request to the store. -/
def WaitsWithin (system : System) (id : Nat) (asked : StoreRequest) : Prop :=
  ∃ opened onUnknown continuation applied, system.parties.get? id = some (.scope opened) ∧
    opened.current = some ⟨asked, .running (.store asked onUnknown continuation), applied⟩

/-- The store of the transaction gives the answer to its call at one of the events. -/
def AnsweredWithin (system : System) (events : List Event) (id : Nat) (asked : StoreRequest)
    (answer : asked.Answer) : Prop :=
  ∃ past reading rest moment, events = past ++ .move id (.askWithin reading) :: rest ∧
    system.run past = some moment ∧ moment.WaitsWithin id asked ∧
    answer = (reading.answer asked).1

theorem AnsweredWithin.cons {answer : asked.Answer} (hstep : system.step event = some middle)
    (h : middle.AnsweredWithin rest id asked answer) :
    system.AnsweredWithin (event :: rest) id asked answer := by
  obtain ⟨past, reading, later, moment, rfl, hpast, hwaits⟩ := h
  exact ⟨event :: past, reading, later, moment, rfl, (run_step hstep).trans hpast, hwaits⟩

/-- A call inside a transaction goes on to what is known, if that includes whatever the store of the
transaction answers and the engine shows while the events happen. -/
theorem run_answers_within {opened : OpenScope} {stage : Stage (ScopedResult asked.Reply)}
    {applied : Bool} (htrusted : system.backend.Trusted) (hrun : system.run events = some next)
    (hget : system.parties.get? id = some (.scope opened))
    (hcurrent : opened.current = some ⟨asked, stage, applied⟩)
    (hstage : stage.Answers asked known ScopedResult.result)
    (hasked : ∀ answer, system.AnsweredWithin events id asked answer → known answer)
    (hpassed : ∀ moment, system.Visits events moment → ∀ privilege ∈ asked.privileges,
      moment.backend.Holds privilege → ∀ value, known (.ok value))
    (hfailed : ∀ error, Reports events id error → known (.error error))
    (hfinish : .move id .finish ∉ events) :
    ∃ opened' stage' applied', next.parties.get? id = some (.scope opened') ∧
      opened'.current = some ⟨asked, stage', applied'⟩ ∧
      stage'.Answers asked known ScopedResult.result := by
  induction events generalizing system opened stage applied with
  | nil =>
    obtain rfl := Option.some.inj hrun
    exact ⟨opened, stage, applied, hget, hcurrent, hstage⟩
  | cons event rest ih =>
    obtain ⟨middle, hstep, hrest⟩ := Option.bind_eq_some_iff.1 hrun
    suffices hmiddle : ∃ opened' stage' applied', middle.parties.get? id = some (.scope opened') ∧
        opened'.current = some ⟨asked, stage', applied'⟩ ∧
          stage'.Answers asked known ScopedResult.result by
      obtain ⟨opened', stage', applied', hget', hcurrent', hstage'⟩ := hmiddle
      exact ih ((steps_of_step hstep).trusted htrusted) hrest hget' hcurrent' hstage'
        (fun answer hasked' => hasked answer (hasked'.cons hstep))
        (fun moment hvisits => hpassed moment (hvisits.cons hstep))
        (fun error hreports => hfailed error hreports.cons)
        fun hmem => hfinish (List.mem_cons_of_mem event hmem)
    rcases step_party hstep hget with hsame | ⟨move, party', rfl, hmove, hget'⟩ |
      ⟨-, coordinator, draft, deferred, heq⟩
    · exact ⟨opened, stage, applied, hsame, hcurrent, hstage⟩
    · obtain ⟨opened', rfl, hcases⟩ := Party.scope_moves hmove
      rcases hcases with ⟨progress, rfl, hproceed⟩ | ⟨reading, rfl, hask⟩ |
        ⟨request, -, hinvoke, -⟩ | ⟨rfl, -, -⟩
      · obtain ⟨flight, stage', hflight, -, hproceeds, rfl⟩ := OpenScope.proceed_cases hproceed
        obtain rfl := Option.some.inj (hcurrent.symm.trans hflight)
        refine ⟨_, stage', applied, hget', rfl, hproceeds.answers htrusted hstage ?_
          fun error herror => ?_⟩
        · exact hpassed system visits_self
        · exact hfailed error ⟨progress, List.mem_cons_self, herror⟩
      · obtain ⟨owned, request, onUnknown, continuation, applied', hflight, -, -, rfl, -⟩ :=
          OpenScope.ask_cases hask
        have hwaits := Option.some.inj (hcurrent.symm.trans hflight)
        cases hwaits
        have hanswer : ∀ heq : request = asked, known (heq ▸ (reading.answer request).1) := by
          rintro rfl
          exact hasked _ ⟨[], reading, rest, system, rfl, rfl,
            ⟨opened, onUnknown, continuation, applied, hget, hcurrent⟩, rfl⟩
        exact ⟨_, _, _, hget', rfl, Call.Answers.answered hstage hanswer⟩
      · obtain ⟨hidle, -⟩ := OpenScope.invoke_cases hinvoke
        rw [hidle] at hcurrent
        cases hcurrent
      · exact absurd List.mem_cons_self hfinish
    · cases heq
      cases hcurrent

/-- Making a call inside a transaction. -/
theorem step_invoke {opened : OpenScope} {request : StoreRequest}
    (hget : system.parties.get? id = some (.scope opened))
    (hstep : system.step (.move id (.invoke request)) = some next) :
    ∃ invoked, next.parties.get? id = some (.scope invoked) ∧
      invoked.current = some ⟨request, .running (Scope.handle opened.deferred request), false⟩ := by
  obtain ⟨party, party', after, hfound, hmove, rfl⟩ := step_move hstep
  cases hget.symm.trans hfound
  obtain ⟨invoked, rfl, hcases⟩ := Party.scope_moves hmove
  rcases hcases with ⟨_, hmove', -⟩ | ⟨_, hmove', -⟩ | ⟨other, heq, hinvoke, rfl⟩ | ⟨hmove', -⟩
  · cases hmove'
  · cases hmove'
  · cases heq
    obtain ⟨-, rfl⟩ := OpenScope.invoke_cases hinvoke
    exact ⟨_, get?_moved_self, rfl⟩
  · cases hmove'

/-- A call inside a transaction answers what the store of the transaction answers, unless the engine
passes its check or a failure is reported. -/
theorem answer_origin_within {opened : OpenScope} {answer : asked.Answer}
    (htrusted : system.backend.Trusted) (hget : system.parties.get? id = some (.scope opened))
    (hrun : system.run (.move id (.invoke asked) :: events) = some next)
    (hfinish : .move id .finish ∉ events) (hanswer : next.answer? id asked = some answer) :
    system.Origin (.move id (.invoke asked)) events id asked
      (system.AnsweredWithin (.move id (.invoke asked) :: events) id asked) answer := by
  obtain ⟨invoked, hstep, hrest⟩ := Option.bind_eq_some_iff.1 hrun
  obtain ⟨inside, hinside, hcurrent⟩ := step_invoke hget hstep
  have hhandles : (Scope.handle opened.deferred asked).Answers asked (system.Origin
      (.move id (.invoke asked)) events id asked
      (system.AnsweredWithin (.move id (.invoke asked) :: events) id asked))
      ScopedResult.result := Scope.handle_answers opened.deferred asked _
  obtain ⟨opened', stage', applied', hget', hcurrent', hknown⟩ := run_answers_within
    ((steps_of_step hstep).trusted htrusted) hrest hinside hcurrent hhandles
    (fun answer hasked => .stored (hasked.cons hstep))
    (fun moment hvisits privilege hmem hholds value =>
      .passed value moment privilege rfl (hvisits.cons hstep) hmem hholds)
    (fun error hreports => .reported error rfl hreports) hfinish
  rw [answer?, hget', Option.bind_some] at hanswer
  obtain ⟨ending, rfl, rfl⟩ := Party.answer?_scope hcurrent' hanswer
  exact hknown

/-- When the store of a transaction answers that a privilege was taken away, the transaction does
not see it any more. -/
theorem withholds_of_asked {reading : MemoryStore} {reply : asked.Reply}
    (hwaits : system.WaitsWithin id asked)
    (hstep : system.step (.move id (.askWithin reading)) = some next)
    (hanswer : (reading.answer asked).1 = .ok reply) (hremoves : asked.Removes privilege reply) :
    next.Withholds id privilege := by
  obtain ⟨opened, onUnknown, continuation, applied, hget, hcurrent⟩ := hwaits
  obtain ⟨party, party', after, hfound, hmove, rfl⟩ := step_move hstep
  cases hget.symm.trans hfound
  obtain ⟨opened', rfl, hcases⟩ := Party.scope_moves hmove
  rcases hcases with ⟨_, hmove', -⟩ | ⟨reading', heq, hask⟩ | ⟨_, hmove', -⟩ | ⟨hmove', -⟩
  · cases hmove'
  · cases heq
    obtain ⟨owned, request, onUnknown', continuation', applied', hflight, -, hreading, rfl, rfl⟩ :=
      OpenScope.ask_cases hask
    cases Option.some.inj (hcurrent.symm.trans hflight)
    have hends : asked.endsTransaction = false := hremoves.endsTransaction
    have hcommit : asked ≠ .commit := by
      rintro rfl
      cases hends
    have hview := OpenScope.not_view_backs_of_removes hremoves hanswer hreading
    refine withholds_moved_scope ?_
    rw [if_neg hcommit]
    simpa [OpenScope.view, hends] using hview
  · cases hmove'
  · cases hmove'

/-- After a call of the transaction that has taken a privilege away, the transaction does not see
it. -/
theorem Alone.withholds_of_removed {reply : asked.Reply} (h : system.Alone id privilege)
    (hsound : system.Sound privilege)
    (hrun : system.run (.move id (.invoke asked) :: events) = some next)
    (hfew : next.backend.revocations < UInt64.size)
    (hevents : ∀ event ∈ events, event.Keeps privilege) (hfinish : .move id .finish ∉ events)
    (hanswer : next.answer? id asked = some (.ok reply))
    (hremoves : asked.Removes privilege reply) :
    next.Alone id privilege ∧ next.Withholds id privilege := by
  obtain ⟨user, resource, action, hprivilege, hrow⟩ := hremoves.row
  have hone : ¬privilege.OnType := by
    rw [hprivilege]
    exact fun htype => htype
  obtain ⟨opened, hget, -⟩ := h.transaction
  have hkeeps : ∀ event ∈ .move id (.invoke asked) :: events, event.Keeps privilege :=
    List.forall_mem_cons.2 ⟨⟨hremoves.not_grants, hremoves.endsTransaction⟩, hevents⟩
  refine ⟨(h.run hsound hone hrun hfew hkeeps).1, ?_⟩
  cases answer_origin_within hsound.trusted hget hrun hfinish hanswer with
  | stored hgave =>
    obtain ⟨past, reading, rest, moment, hsplit, hpast, hwaits, haccepted⟩ := hgave
    rw [hsplit] at hrun hkeeps
    obtain ⟨answered, hask, hlater⟩ := Option.bind_eq_some_iff.1 (run_rest hrun hpast)
    have hfewThen : answered.backend.revocations < UInt64.size :=
      Nat.lt_of_le_of_lt (run_revocations hlater) hfew
    have hfewMoment : moment.backend.revocations < UInt64.size :=
      Nat.lt_of_le_of_lt (steps_of_step hask).revocations hfewThen
    have hsoundMoment := hsound.run hpast hfewMoment
    have haloneMoment := (h.run hsound hone hpast hfewMoment fun event hmem =>
      hkeeps event (List.mem_append_left _ hmem)).1
    have haloneAfter := (haloneMoment.step hsoundMoment hone hask trivial).1
    refine (haloneAfter.run (hsoundMoment.step (steps_of_step hask) hfewThen) hone hlater hfew
      fun event hmem => ?_).2 (withholds_of_asked hwaits hask haccepted.symm hremoves)
    exact hkeeps event (List.mem_append_right _ (List.mem_cons_of_mem _ hmem))
  | passed value moment privilege _ _ hmem =>
    cases asked with
    | delete | update => cases hmem
    | _ => exact False.elim hremoves
  | reported error herror => cases herror

/-- Whenever the store of the transaction answers, it shows the row as the transaction has left
it. -/
def ReadsItself (system : System) (events : List Event) (id : Nat) (row : Row) : Prop :=
  ∀ past reading rest moment opened, events = past ++ .move id (.askWithin reading) :: rest →
    system.run past = some moment → moment.parties.get? id = some (.scope opened) →
    reading.SameAt (opened.view moment.backend.store) row

/-- A check inside a transaction that does not see the fact is denied or fails, unless the engine
passes it at some moment. -/
theorem Alone.answer_of_withheld {check : InstanceCheck} {answer : Except StorageError Unit}
    (h : system.Alone id (.fact check.user (.resource check.resource) check.action))
    (hwithholds : system.Withholds id (.fact check.user (.resource check.resource) check.action))
    (hsound : system.Sound (.fact check.user (.resource check.resource) check.action))
    (hrun : system.run (.move id (.invoke (.validateAccess check)) :: events) = some next)
    (hfew : next.backend.revocations < UInt64.size)
    (hevents : ∀ event ∈ events,
      event.Keeps (.fact check.user (.resource check.resource) check.action))
    (hfinish : .move id .finish ∉ events)
    (hreads : system.ReadsItself (.move id (.invoke (.validateAccess check)) :: events) id
      (.rule check.user check.resource))
    (hanswer : next.answer? id (.validateAccess check) = some answer) :
    answer = .error .accessDenied ∨ (∃ error, answer = .error error ∧ Reports events id error) ∨
      answer = .ok () ∧ ∃ moment privilege,
        system.Visits (.move id (.invoke (.validateAccess check)) :: events) moment ∧
        privilege ∈ StoreRequest.privileges (.validateAccess check) ∧
        moment.backend.Holds privilege := by
  obtain ⟨opened, hget, -⟩ := h.transaction
  have hkeeps : ∀ event ∈ .move id (.invoke (.validateAccess check)) :: events,
      event.Keeps (.fact check.user (.resource check.resource) check.action) :=
    List.forall_mem_cons.2 ⟨⟨fun hgrants => hgrants, rfl⟩, hevents⟩
  cases answer_origin_within hsound.trusted hget hrun hfinish hanswer with
  | stored hgave =>
    obtain ⟨past, reading, rest, moment, hsplit, hpast, hwaits, hreading⟩ := hgave
    obtain ⟨current, -, -, -, hscope, -⟩ := hwaits
    -- the reading shows the rule as the transaction has left it, and there it is not
    have hrow : reading.SameAt (current.view moment.backend.store)
        (.rule check.user check.resource) :=
      hreads past reading rest moment current hsplit hpast hscope
    rw [hsplit] at hrun hkeeps
    have hmoment : moment.backend.revocations < UInt64.size :=
      Nat.lt_of_le_of_lt (run_revocations (run_rest hrun hpast)) hfew
    have hwithheld := (h.run hsound (fun htype => htype) hpast hmoment fun event hmem =>
      hkeeps event (List.mem_append_left _ hmem)).2 hwithholds current hscope
    have hdenied : reading.allowsInstance check = false := by
      refine Bool.eq_false_iff.2 fun hallowed => hwithheld ?_
      refine MemoryStore.backs_of_sameAt (fun row hdep => ?_)
        (MemoryStore.backs_of_allowsInstance hallowed)
      obtain rfl : row = .rule check.user check.resource := hdep
      exact hrow
    left
    rw [hreading]
    simp [MemoryStore.answer, MemoryStore.decision, hdenied]
  | passed _ moment privilege hpassed hvisits hmem hholds =>
    exact .inr (.inr ⟨hpassed, moment, privilege, hvisits, hmem, hholds⟩)
  | reported error herror hreports => exact .inr (.inl ⟨error, herror, hreports⟩)

/-- After a transaction has taken a rule away, or the action of a rule, and while nobody grants it
again, every check of it inside the transaction is denied or fails, unless at some moment of the
check the shared engine holds what the committed store backs or what a call under way withdraws. -/
theorem scoped_denial_stands {store : MemoryStore} {base : FactBase} {check : InstanceCheck}
    {before during between after : List Event} {start revoked idle : System}
    {revoking : StoreRequest} {reply : revoking.Reply} {answer : Except StorageError Unit}
    (hbefore : (opened store base).run before = some start)
    (hloaded : ∀ privilege, base.Holds privilege → store.Backs privilege)
    (halone : start.Alone id (.fact check.user (.resource check.resource) check.action))
    (hduring : start.run (.move id (.invoke revoking) :: during) = some revoked)
    (hrevoked : revoked.answer? id revoking = some (.ok reply))
    (hremoves : revoking.Removes (.fact check.user (.resource check.resource) check.action) reply)
    (hbetween : revoked.run between = some idle)
    (hafter : idle.run (.move id (.invoke (.validateAccess check)) :: after) = some next)
    (hevents : ∀ event ∈ during ++ between ++ after,
      event.Keeps (.fact check.user (.resource check.resource) check.action))
    (hfinish : .move id .finish ∉ during ++ after)
    (hreads : idle.ReadsItself (.move id (.invoke (.validateAccess check)) :: after) id
      (.rule check.user check.resource))
    (hfew : next.backend.revocations < UInt64.size)
    (hanswer : next.answer? id (.validateAccess check) = some answer) :
    answer = .error .accessDenied ∨ (∃ error, answer = .error error ∧ Reports after id error) ∨
      answer = .ok () ∧ ∃ moment privilege,
        idle.Visits (.move id (.invoke (.validateAccess check)) :: after) moment ∧
        privilege ∈ StoreRequest.privileges (.validateAccess check) ∧
        moment.backend.Holds privilege ∧ (moment.backend.Backs privilege ∨
          ∃ other party, moment.parties.get? other = some party ∧ party.Owes privilege) := by
  have hfewIdle : idle.backend.revocations < UInt64.size :=
    Nat.lt_of_le_of_lt (run_revocations hafter) hfew
  have hfewRevoked : revoked.backend.revocations < UInt64.size :=
    Nat.lt_of_le_of_lt (run_revocations hbetween) hfewIdle
  have hfewStart : start.backend.revocations < UInt64.size :=
    Nat.lt_of_le_of_lt (run_revocations hduring) hfewRevoked
  have hsound : ∀ privilege, start.Sound privilege := fun privilege =>
    (sound_opened (hloaded privilege)).run hbefore hfewStart
  have hsoundRevoked : ∀ privilege, revoked.Sound privilege := fun privilege =>
    (hsound privilege).run hduring hfewRevoked
  have hsoundIdle : ∀ privilege, idle.Sound privilege := fun privilege =>
    (hsoundRevoked privilege).run hbetween hfewIdle
  simp only [List.mem_append, not_or] at hevents hfinish
  obtain ⟨haloneRevoked, hwithholds⟩ := halone.withholds_of_removed (hsound _) hduring hfewRevoked
    (fun event hmem => hevents event (.inl (.inl hmem))) hfinish.1 hrevoked hremoves
  obtain ⟨haloneIdle, hkeeps⟩ := haloneRevoked.run (hsoundRevoked _) (fun htype => htype) hbetween
    hfewIdle fun event hmem => hevents event (.inl (.inr hmem))
  rcases haloneIdle.answer_of_withheld (hkeeps hwithholds) (hsoundIdle _) hafter hfew
      (fun event hmem => hevents event (.inr hmem)) hfinish.2 hreads hanswer with
    hdenied | hfailed | ⟨hpassed, moment, privilege, hvisits, hmem, hholds⟩
  · exact .inl hdenied
  · exact .inr (.inl hfailed)
  · refine .inr (.inr ⟨hpassed, moment, privilege, hvisits, hmem, hholds, ?_⟩)
    have hsoundMoment := (hsoundIdle privilege).visits hafter hfew hvisits
    refine (hsoundMoment.held hholds).imp_right ?_
    rintro ⟨other, party, hother, hcovers⟩
    exact ⟨other, party, hother, hcovers.owes⟩

/-- The transaction deletes the rule and evicts what the engine knows of it. -/
def scopedDelete : List Event :=
  [.move 0 (.askWithin ruleStore), .move 0 (.proceed .receive), .move 0 (.proceed .advance)]

/-- Beside the transaction, a check learns the rule again from the committed store. -/
def relearning : List Event :=
  [.move 0 .finish, .start 1 0 (.validateAccess pageCheck), .move 1 (.proceed .advance),
    .move 1 (.proceed .advance), .move 1 (.proceed .advance), .move 1 (.proceed .advance),
    .move 1 .ask, .move 1 (.proceed .receive), .move 1 (.proceed .advance),
    .move 1 (.proceed .advance)]

/-- A check inside the transaction finds the fact in the engine. -/
def scopedCheck : List Event := [.move 0 (.proceed .advance), .move 0 (.proceed .advance)]

/-- A transaction passes the check that it has just made impossible. -/
theorem deleted_rule_passes_scoped_check : ∃ start revoked idle next,
    ruleStore.allowsType pageCheck.ofType = false ∧
      (opened ruleStore someBase).run [.openScope 0 0] = some start ∧
      start.run (.move 0 (.invoke (.delete someUser someResource)) :: scopedDelete) =
        some revoked ∧
      revoked.answer? 0 (.delete someUser someResource) = some (.ok ()) ∧
      revoked.run relearning = some idle ∧
      idle.run (.move 0 (.invoke (.validateAccess pageCheck)) :: scopedCheck) = some next ∧
      next.answer? 0 (.validateAccess pageCheck) = some (.ok ()) :=
  ⟨_, _, _, _, by decide, rfl, rfl, by decide, rfl, rfl, by decide⟩

theorem scoped_check_passed_by_committed_rule : ∃ start revoked idle moment privilege,
    (opened ruleStore someBase).run [.openScope 0 0] = some start ∧
      start.run (.move 0 (.invoke (.delete someUser someResource)) :: scopedDelete) =
        some revoked ∧
      revoked.run relearning = some idle ∧
      idle.Visits (.move 0 (.invoke (.validateAccess pageCheck)) :: scopedCheck) moment ∧
      privilege ∈ StoreRequest.privileges (.validateAccess pageCheck) ∧
      moment.backend.Holds privilege ∧ (moment.backend.Backs privilege ∨
        ∃ other party, moment.parties.get? other = some party ∧ party.Owes privilege) := by
  have hruns : ((opened ruleStore someBase).run [.openScope 0 0]).any (fun start =>
      (start.run (.move 0 (.invoke (.delete someUser someResource)) :: scopedDelete)).any
        fun revoked => revoked.answer? 0 (.delete someUser someResource) = some (.ok ()) &&
          (revoked.run relearning).any fun idle =>
            (idle.run (.move 0 (.invoke (.validateAccess pageCheck)) :: scopedCheck)).any
              fun next => next.backend.revocations < UInt64.size &&
                next.answer? 0 (.validateAccess pageCheck) = some (.ok ())) = true := by decide
  obtain ⟨start, hbefore, hruns⟩ := exists_run hruns
  obtain ⟨revoked, hduring, hruns⟩ := exists_run hruns
  rw [Bool.and_eq_true, decide_eq_true_eq] at hruns
  obtain ⟨hrevoked, hruns⟩ := hruns
  obtain ⟨idle, hbetween, hruns⟩ := exists_run hruns
  obtain ⟨next, hafter, hends⟩ := exists_run hruns
  rw [Bool.and_eq_true, decide_eq_true_eq, decide_eq_true_eq] at hends
  have halone : start.Alone 0 (.fact someUser (.resource someResource) .get) :=
    alone_of_opened hbefore
  have hevents : ∀ event ∈ scopedDelete ++ relearning ++ scopedCheck,
      event.Keeps (.fact someUser (.resource someResource) .get) := by
    simp [scopedDelete, relearning, scopedCheck, Event.Keeps, StoreRequest.Grants]
  have hreads : idle.ReadsItself (.move 0 (.invoke (.validateAccess pageCheck)) :: scopedCheck) 0
      (.rule someUser someResource) := by
    intro past reading rest moment current hsplit
    have hmem : Event.move 0 (.askWithin reading) ∈
        .move 0 (.invoke (.validateAccess pageCheck)) :: scopedCheck := by
      rw [hsplit]
      exact List.mem_append_right past List.mem_cons_self
    simp [scopedCheck] at hmem
  rcases scoped_denial_stands hbefore ruleStore_backs_someBase halone hduring hrevoked ⟨.get, rfl⟩
      hbetween hafter hevents (by simp [scopedDelete, scopedCheck]) hreads hends.1 hends.2 with
    hdenied | ⟨error, herror, -⟩ | ⟨-, moment, privilege, hpassed⟩
  · cases hdenied
  · cases herror
  · exact ⟨start, revoked, idle, moment, privilege, hbefore, hduring, hbetween, hpassed⟩

end System

end AccessControl
