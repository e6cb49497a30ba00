import AccessControl.Proofs.DecisionAtRest
import AccessControl.Proofs.Granting
import AccessControl.Proofs.SingleRevocation

/-!
# A revocation that has been observed

A check that is denied shows that the store does not allow it.  From then on, while nobody grants it
again, no answer of the store passes the check.  The engine can still pass it, but only while a call
that revokes what it holds is under way: a check that asked the store before the revocation may
write its answer into the engine after the denial and before the eviction.  If the engine held the
fact from the beginning, and only one call revokes it, then no check is denied before that call has
come to its end.
-/

namespace AccessControl

/-- The request grants nothing that passes the check. -/
def StoreRequest.Spares (check : InstanceCheck) (request : StoreRequest) : Prop :=
  ∀ privilege ∈ StoreRequest.privileges (.validateAccess check), ¬request.Grants privilege

/-- A request that writes nothing grants nothing that passes a check. -/
theorem StoreRequest.spares_of_row {check : InstanceCheck} {request : StoreRequest}
    (h : request.row? = none) : request.Spares check := fun _ _ => not_grants_of_row h

namespace MemoryStore

variable {store : MemoryStore} {check : InstanceCheck} {request : StoreRequest}

/-- Only a rule of its type passes the check: the action is not allowed for the whole type, and a
rule for the resource that allows the action names the type of the check. -/
structure OnlyByRule (store : MemoryStore) (check : InstanceCheck) : Prop where
  type_denied : store.allowsType check.ofType = false
  type_named : ∀ rule, store.rules.get? (check.user, check.resource) = some rule →
    check.action ∈ rule.actions → rule.resourceType = check.resourceType

/-- The store backs nothing that passes the check. -/
def Denies (store : MemoryStore) (check : InstanceCheck) : Prop :=
  ∀ privilege ∈ StoreRequest.privileges (.validateAccess check), ¬store.Backs privilege

theorem onlyByRule_answer (store : MemoryStore) (request : StoreRequest)
    (hspares : request.Spares check) (h : store.OnlyByRule check) :
    (store.answer request).2.OnlyByRule check := by
  refine ⟨Bool.eq_false_iff.2 fun hallowed => ?_, fun rule hrule haction => ?_⟩
  · have hbacks : (store.answer request).2.Backs
        (.fact check.user (.type check.resourceType) check.action) := hallowed
    have hbefore := backs_of_answer (hspares _ (by simp [StoreRequest.privileges])) hbacks
    have hdenied := h.type_denied
    rw [InstanceCheck.ofType, hbefore] at hdenied
    cases hdenied
  · have hgrants : ¬request.Grants
        (.fact check.user (.resource check.resource) check.action) :=
      hspares _ (by simp [StoreRequest.privileges])
    exact h.type_named rule (rule_of_answer hgrants hrule haction) haction

theorem denies_answer (store : MemoryStore) (request : StoreRequest)
    (hspares : request.Spares check) (h : store.Denies check) :
    (store.answer request).2.Denies check := fun privilege hmem hbacks =>
  h privilege hmem (backs_of_answer (hspares privilege hmem) hbacks)

/-- A store that answers a check with a denial backs nothing that passes it. -/
theorem OnlyByRule.denies (h : store.OnlyByRule check)
    (hdenied : store.allowsInstance check = false) : store.Denies check := by
  intro privilege hmem hbacks
  rcases allowed_of_backs hmem hbacks with hallowed | ⟨resourceType, hallowed⟩
  · rw [h.type_denied] at hallowed
    cases hallowed
  · obtain ⟨rule, hrule, hrest⟩ := Option.any_eq_true .. |>.1 hallowed
    simp only [Bool.and_eq_true, decide_eq_true_eq] at hrest
    obtain ⟨htype, haction⟩ := hrest
    obtain rfl : resourceType = check.resourceType :=
      htype.symm.trans (h.type_named rule hrule haction)
    have hcheck : store.allowsInstance check = true := hallowed
    rw [hdenied] at hcheck
    cases hcheck

theorem Denies.answer_check (h : store.Denies check) :
    (store.answer (.validateAccess check)).1 = .error .accessDenied := by
  have hdenied : store.allowsInstance check = false := Bool.eq_false_iff.2 fun hallowed =>
    h _ (by simp [StoreRequest.privileges]) (backs_of_allowsInstance hallowed)
  simp [MemoryStore.answer, decision, hdenied]

end MemoryStore

namespace System

variable {store : MemoryStore} {base : FactBase} {before during after : List Event}
  {start observed next moment : System} {check : InstanceCheck} {events : List Event}
  {id coordinator other first second revoker : Nat} {privilege : Privilege}

/-- After a check has been denied, the store denies it. -/
theorem denies_of_denied (hsound : start.Sound privilege)
    (hcalls : start.CallsOnly (StoreRequest.Spares check))
    (hrule : start.backend.store.OnlyByRule check)
    (hrun : start.run (.start id coordinator (.validateAccess check) :: events) = some observed)
    (hfew : observed.backend.revocations < UInt64.size)
    (hevents : ∀ event ∈ events, event.Starts (StoreRequest.Spares check))
    (hhonest : ¬Reports events id .accessDenied)
    (hdenied : observed.answer? id (.validateAccess check) = some (.error .accessDenied)) :
    observed.CallsOnly (StoreRequest.Spares check) ∧ observed.backend.store.Denies check := by
  have hstarts : ∀ event ∈ Event.start id coordinator (.validateAccess check) :: events,
      event.Starts (StoreRequest.Spares check) :=
    List.forall_mem_cons.2 ⟨StoreRequest.spares_of_row rfl, hevents⟩
  cases answer_origin hsound.trusted hrun hdenied with
  | stored hgave =>
    -- at that moment the store denied the check, and no later request has granted it
    obtain ⟨moment, hvisits, hstored⟩ := hgave
    obtain ⟨hmoment, honly⟩ := hcalls.visits hsound hrun hfew hstarts
      MemoryStore.onlyByRule_answer hrule hvisits
    have hallowed : moment.backend.store.allowsInstance check = false := by
      cases hcheck : moment.backend.store.allowsInstance check with
      | false => rfl
      | true => simp [MemoryStore.answer, MemoryStore.decision, hcheck] at hstored
    have hsoundMoment := hsound.visits hrun hfew hvisits
    obtain ⟨past, rest, hsplit, hpast⟩ := hvisits
    rw [hsplit] at hrun hstarts
    exact hmoment.run hsoundMoment (run_rest hrun hpast) hfew
      (fun event hmem => hstarts event (List.mem_append_right past hmem))
      MemoryStore.denies_answer (honly.denies hallowed)
  | passed value moment privilege hvalue => cases hvalue
  | reported error herror hreports =>
    cases herror
    exact absurd hreports hhonest

/-- Once a check has been denied, and while nobody grants it, every later check of the same is
denied or fails, unless at some moment of it the engine holds what a call under way revokes. -/
theorem denial_stands (hbefore : (opened store base).run before = some start)
    (hloaded : ∀ privilege, base.Holds privilege → store.Backs privilege)
    (hcalls : start.CallsOnly (StoreRequest.Spares check))
    (hrule : start.backend.store.OnlyByRule check)
    (hduring : start.run (.start first coordinator (.validateAccess check) :: during) =
      some observed)
    (hdenied : observed.answer? first (.validateAccess check) = some (.error .accessDenied))
    (hhonest : ¬Reports during first .accessDenied)
    (hafter : observed.run (.start second other (.validateAccess check) :: after) =
      some next)
    (hspares : ∀ event ∈ during ++ after, event.Starts (StoreRequest.Spares check))
    (hfew : next.backend.revocations < UInt64.size) {answer : Except StorageError Unit}
    (hanswer : next.answer? second (.validateAccess check) = some answer) :
    answer = .error .accessDenied ∨
      (∃ error, answer = .error error ∧ Reports after second error) ∨
      answer = .ok () ∧ ∃ moment privilege,
        observed.Visits (.start second other (.validateAccess check) :: after) moment ∧
        privilege ∈ StoreRequest.privileges (.validateAccess check) ∧
        moment.backend.Holds privilege ∧ ¬moment.backend.Backs privilege ∧
        ∃ id coordinator flight, moment.parties.get? id = some (.call coordinator flight) ∧
          flight.Pending ∧ flight.request.Revokes privilege := by
  have hobserved : observed.backend.revocations < UInt64.size :=
    Nat.lt_of_le_of_lt (run_revocations hafter) hfew
  have hstart : start.backend.revocations < UInt64.size :=
    Nat.lt_of_le_of_lt (run_revocations hduring) hobserved
  have hsound : ∀ privilege, start.Sound privilege := fun privilege =>
    (sound_opened (hloaded privilege)).run hbefore hstart
  have hsoundThen : ∀ privilege, observed.Sound privilege := fun privilege =>
    (hsound privilege).run hduring hobserved
  obtain ⟨hsparesDuring, hsparesAfter⟩ := List.forall_mem_append.1 hspares
  obtain ⟨hcallsThen, hdenies⟩ := denies_of_denied (hsound (.administration check.user)) hcalls
    hrule hduring hobserved hsparesDuring hhonest hdenied
  have hstarts : ∀ event ∈ Event.start second other (.validateAccess check) :: after,
      event.Starts (StoreRequest.Spares check) :=
    List.forall_mem_cons.2 ⟨StoreRequest.spares_of_row rfl, hsparesAfter⟩
  have hmoment : ∀ moment, observed.Visits
      (.start second other (.validateAccess check) :: after) moment →
      moment.CallsOnly (StoreRequest.Spares check) ∧ moment.backend.store.Denies check :=
    fun moment => hcallsThen.visits (hsoundThen (.administration check.user)) hafter hfew hstarts
      MemoryStore.denies_answer hdenies
  cases answer_origin (hsoundThen (.administration check.user)).trusted hafter hanswer with
  | stored hgave =>
    obtain ⟨moment, hvisits, hstored⟩ := hgave
    rw [hstored]
    exact .inl (hmoment moment hvisits).2.answer_check
  | passed value moment privilege hvalue hvisits hmem hholds =>
    obtain ⟨hcallsAt, hdeniesAt⟩ := hmoment moment hvisits
    have hnot : ¬moment.backend.Backs privilege := hdeniesAt privilege hmem
    have hpending := ((hsoundThen privilege).visits hafter hfew hvisits).backed_or_pending
      hcallsAt.onlyCalls hholds
    exact .inr (.inr
      ⟨hvalue, moment, privilege, hvisits, hmem, hholds, hnot, hpending.resolve_left hnot⟩)
  | reported error herror hreports => exact .inr (.inl ⟨error, herror, hreports⟩)

/-- Where at most one call revokes what passes a check, and nobody grants it, a check that has been
denied is denied again or fails.  It can be passed only if the engine did not hold the fact at the
beginning, and only while the revoking call is under way. -/
theorem single_revocation_stands
    (hloaded : ∀ privilege, base.Holds privilege → store.Backs privilege)
    (hrule : store.OnlyByRule check) (hbefore : (opened store base).run before = some start)
    (hduring : start.run (.start first coordinator (.validateAccess check) :: during) =
      some observed)
    (hdenied : observed.answer? first (.validateAccess check) = some (.error .accessDenied))
    (hhonest : ¬Reports during first .accessDenied)
    (hafter : observed.run (.start second other (.validateAccess check) :: after) = some next)
    (hspares : ∀ event ∈ before ++ (during ++ after), event.Starts (StoreRequest.Spares check))
    (hsingle : ∀ event ∈ before ++ (during ++ after), event.RevokedBy check revoker)
    (hfew : next.backend.revocations < UInt64.size) {answer : Except StorageError Unit}
    (hanswer : next.answer? second (.validateAccess check) = some answer) :
    answer = .error .accessDenied ∨
      (∃ error, answer = .error error ∧ Reports after second error) ∨
      answer = .ok () ∧ ¬base.Holds check.fact ∧ ∃ moment privilege coordinator flight,
        observed.Visits (.start second other (.validateAccess check) :: after) moment ∧
        privilege ∈ StoreRequest.privileges (.validateAccess check) ∧
        moment.backend.Holds privilege ∧ ¬moment.backend.Backs privilege ∧
        moment.parties.get? revoker = some (.call coordinator flight) ∧
        flight.Pending ∧ flight.request.Revokes privilege := by
  obtain ⟨hsparesBefore, hsparesLater⟩ := List.forall_mem_append.1 hspares
  obtain ⟨hsingleBefore, hsingleLater⟩ := List.forall_mem_append.1 hsingle
  obtain ⟨hsingleDuring, hsingleAfter⟩ := List.forall_mem_append.1 hsingleLater
  have hobserved : observed.backend.revocations < UInt64.size :=
    Nat.lt_of_le_of_lt (run_revocations hafter) hfew
  have hstart : start.backend.revocations < UInt64.size :=
    Nat.lt_of_le_of_lt (run_revocations hduring) hobserved
  have hopened : (opened store base).Sound (.administration check.user) :=
    sound_opened (hloaded _)
  have hsoundStart := hopened.run hbefore hstart
  have hsoundThen := hsoundStart.run hduring hobserved
  obtain ⟨hcalls, hruleStart⟩ := callsOnly_opened.run hopened hbefore hstart hsparesBefore
    MemoryStore.onlyByRule_answer hrule
  have hreads : ∀ id coordinator, (Event.start id coordinator (.validateAccess check)).RevokedBy
      check revoker :=
    fun id coordinator htakes => absurd htakes (StoreRequest.not_takes_of_row rfl)
  have hreached : (opened store base).run
      (before ++ .start first coordinator (.validateAccess check) :: during) = some observed := by
    rw [run_append, hbefore, Option.bind_some, hduring]
  have hsingleThen : ∀ event ∈ before ++ .start first coordinator (.validateAccess check) :: during,
      event.RevokedBy check revoker := List.forall_mem_append.2
    ⟨hsingleBefore, List.forall_mem_cons.2 ⟨hreads first coordinator, hsingleDuring⟩⟩
  obtain ⟨hbyThen, -⟩ := revokedBy_opened.run hopened.trusted hreached hsingleThen
  rcases denial_stands hbefore hloaded hcalls hruleStart hduring hdenied hhonest hafter
    hsparesLater hfew hanswer with hstands | hfailed | ⟨hpassed, moment, privilege, hvisits, hmem,
      hholds, hnot, id, coordinator', flight, hget, hpending, hrevokes⟩
  · exact .inl hstands
  · exact .inr (.inl hfailed)
  · have hbyMoment := hbyThen.visits hsoundThen.trusted
      (List.forall_mem_cons.2 ⟨hreads second other, hsingleAfter⟩) hvisits
    obtain ⟨_, _, heq, honly, -⟩ := hbyMoment id _ hget
    cases heq
    obtain rfl := honly ⟨privilege, hmem, hrevokes⟩
    refine .inr (.inr ⟨hpassed, fun hwarm => ?_, moment, privilege, coordinator', flight, hvisits,
      hmem, hholds, hnot, hget, hpending, hrevokes⟩)
    -- the denial shows that the revoking call had come to its end by then
    have hended : observed.Ended id := ended_of_denied hwarm hreached hsingleThen hdenied
    obtain ⟨_, _, hget', hfinished⟩ := hended.visits hvisits
    cases hget.symm.trans hget'
    rw [hpending.2] at hfinished
    cases hfinished

/-- The store has allowed the check and then deleted the rule; both calls wait. -/
def checkThenDelete : List Event :=
  [.start 0 0 (.validateAccess pageCheck), .move 0 (.proceed .advance),
    .move 0 (.proceed .advance), .move 0 (.proceed .advance), .move 0 (.proceed .advance),
    .move 0 .ask, .start 1 1 (.delete someUser someResource), .move 1 .ask]

/-- A second check is denied, and then the first one goes on to its end. -/
def denialThenRepair : List Event :=
  [.move 2 (.proceed .advance), .move 2 (.proceed .advance), .move 2 (.proceed .advance),
    .move 2 (.proceed .advance), .move 2 .ask, .move 2 (.proceed .receive),
    .move 0 (.proceed .receive), .move 0 (.proceed .advance), .move 0 (.proceed .advance)]

/-- A third check finds the fact in the engine. -/
def checkAfterDenial : List Event := [.move 3 (.proceed .advance), .move 3 (.proceed .advance)]

/-- A denied check is passed when it is made again, although nobody has granted it: the deleting
call has not evicted yet what another check has learned from the store before the deletion. -/
theorem denied_check_passes_again : ∃ start observed next,
    ruleStore.allowsType pageCheck.ofType = false ∧
      (opened ruleStore ∅).run checkThenDelete = some start ∧
      start.run (.start 2 2 (.validateAccess pageCheck) :: denialThenRepair) = some observed ∧
      observed.answer? 2 (.validateAccess pageCheck) = some (.error .accessDenied) ∧
      observed.run (.start 3 3 (.validateAccess pageCheck) :: checkAfterDenial) = some next ∧
      next.answer? 3 (.validateAccess pageCheck) = some (.ok ()) :=
  ⟨_, _, _, by decide, rfl, rfl, by decide, rfl, by decide⟩

/-- The rule is deleted while the engine holds its fact, and the fact is evicted. -/
def deleteFromWarm : List Event :=
  [.start 0 0 (.delete someUser someResource), .move 0 .ask, .move 0 (.proceed .receive),
    .move 0 (.proceed .advance)]

/-- A check that asks the store. -/
def checkAtStore (id : Nat) : List Event :=
  [.move id (.proceed .advance), .move id (.proceed .advance), .move id (.proceed .advance),
    .move id (.proceed .advance), .move id .ask, .move id (.proceed .receive)]

theorem ruleStore_onlyByRule : ruleStore.OnlyByRule pageCheck := by
  refine ⟨by decide, fun rule hrule _ => ?_⟩
  obtain rfl : (⟨someUser, someResource, .page, .ofList [.get]⟩ : Rule) = rule :=
    Option.some.inj hrule
  rfl

theorem check_denied_after_deletion_is_denied_again : ∃ start observed next,
    someBase.Holds pageCheck.fact ∧
      (opened ruleStore someBase).run deleteFromWarm = some start ∧
      start.run (.start 1 1 (.validateAccess pageCheck) :: checkAtStore 1) = some observed ∧
      observed.answer? 1 (.validateAccess pageCheck) = some (.error .accessDenied) ∧
      observed.run (.start 2 2 (.validateAccess pageCheck) :: checkAtStore 2) = some next ∧
      next.answer? 2 (.validateAccess pageCheck) = some (.error .accessDenied) := by
  have hruns : ((opened ruleStore someBase).run deleteFromWarm).any (fun start =>
      (start.run (.start 1 1 (.validateAccess pageCheck) :: checkAtStore 1)).any fun observed =>
        observed.answer? 1 (.validateAccess pageCheck) = some (.error .accessDenied) &&
        (observed.run (.start 2 2 (.validateAccess pageCheck) :: checkAtStore 2)).any fun next =>
          next.backend.revocations < UInt64.size &&
          (next.answer? 2 (.validateAccess pageCheck)).isSome) = true := by decide
  obtain ⟨start, hbefore, hruns⟩ := exists_run hruns
  obtain ⟨observed, hduring, hruns⟩ := exists_run hruns
  rw [Bool.and_eq_true, decide_eq_true_eq] at hruns
  obtain ⟨hdenied, hruns⟩ := hruns
  obtain ⟨next, hafter, hends⟩ := exists_run hruns
  rw [Bool.and_eq_true, decide_eq_true_eq, Option.isSome_iff_exists] at hends
  obtain ⟨hfew, answer, hanswer⟩ := hends
  have hdelete : (StoreRequest.delete someUser someResource).Spares pageCheck := fun _ _ => id
  have hwarm : someBase.Holds pageCheck.fact := FactBase.holds_addFact.2 (.inl rfl)
  have hspares : ∀ event ∈ deleteFromWarm ++ (checkAtStore 1 ++ checkAtStore 2),
      event.Starts (StoreRequest.Spares pageCheck) := by
    simp [deleteFromWarm, checkAtStore, Event.Starts, hdelete]
  have hsingle : ∀ event ∈ deleteFromWarm ++ (checkAtStore 1 ++ checkAtStore 2),
      event.RevokedBy pageCheck 0 := by
    simp [deleteFromWarm, checkAtStore, Event.RevokedBy]
  refine ⟨start, observed, next, hwarm, hbefore, hduring, hdenied, hafter, ?_⟩
  rcases single_revocation_stands ruleStore_backs_someBase ruleStore_onlyByRule hbefore hduring
    hdenied (not_reports (by decide)) hafter hspares hsingle hfew hanswer with
    rfl | ⟨error, -, hreports⟩ | ⟨-, hcold, -⟩
  · exact hanswer
  · exact absurd hreports (not_reports (by decide))
  · exact absurd hwarm hcold

end System

end AccessControl
