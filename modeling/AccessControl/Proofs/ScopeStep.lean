import AccessControl.Proofs.PartyStep

/-!
# One move of a transaction

A write inside a transaction that may revoke a privilege owes an eviction and an update for the
commit.  Both debts are paid before the call ends: the eviction moves the counters, so that no older
offer of the transaction stands any longer, and the update is kept.  The commit makes the draft, and
what the draft takes away the transaction then covers.
-/

namespace AccessControl

theorem StoreRequest.endsTransaction_iff {request : StoreRequest} :
    request.endsTransaction = true ↔ request = .commit ∨ request = .rollback := by
  cases request <;> simp [endsTransaction]

/-- Whether the store has answered a call that does not know it yet. -/
def Stage.hasAnswer {α : Type} : Stage α → Bool
  | answered .. => true
  | _ => false

/-- An answer is lost if the failure of the store is reported instead, or if the call is given
up. -/
theorem Stage.Proceeds.lost {α : Type} {stage stage' : Stage α} {coordinator : Nat}
    {before after : Backend} {progress : Progress}
    (h : stage.Proceeds coordinator before progress stage' after) (hanswer : stage.hasAnswer = true)
    (hfails : progress.fails = true) :
    (∃ reason, progress = .lose reason) ∨ progress = .giveUp := by
  cases h with
  | lose reason => exact .inl ⟨reason, rfl⟩
  | giveUpAnswered => exact .inr rfl
  | receive => cases hfails
  | _ => cases hanswer

namespace OpenScope

variable {privilege : Privilege} {before after : Backend} {others : Prop} {locked : List Row}
  {scope scope' : OpenScope}

/-! ## Progress of a call inside a transaction -/

section

variable {owned : StoreRequest} {stage stage' : Stage (ScopedResult owned.Reply)} {applied : Bool}
  {coordinator : Nat} {progress : Progress} {draft : List RowWrite} {deferred : List EngineUpdate}
  {current : Option ScopeFlight}
  (h : stage.Proceeds coordinator before progress stage' after) (htrusted : before.Trusted)
  (hfew : after.revocations < UInt64.size)

/-- The draft after a call has gone on. -/
abbrev draftAfter (progress : Progress) (owned : StoreRequest) (draft : List RowWrite) :
    List RowWrite :=
  if progress.fails && owned.endsTransaction then [] else draft

include h htrusted hfew

theorem Poised.proceed
    (hpoised : Poised privilege before ⟨coordinator, draft, deferred, current⟩
      ⟨owned, stage, applied⟩) :
    InOrder privilege after others
      ⟨coordinator, draftAfter progress owned draft, deferred, some ⟨owned, stage', applied⟩⟩ := by
  obtain ⟨hledger, hpoised⟩ := hpoised
  cases h with
  | advance hstep =>
    obtain ⟨i, j, hmoves, -⟩ := Call.step_moves hstep htrusted privilege
    exact .inl ⟨hledger.step hmoves hfew (Call.step_store hstep htrusted) (fun _ => id),
      hpoised.advance hstep htrusted⟩
  | refuse error request onUnknown next =>
    obtain ⟨seen, -, huntil⟩ := hpoised
    cases hends : owned.endsTransaction with
    | true =>
      exact .inr (.inr ⟨hends, by simp [hends, Progress.fails], (huntil.refused error).1.of_modest⟩)
    | false =>
      refine .inr (.inl ⟨hends, False, False, fun _ => False, ?_, fun _ => False.elim,
        (huntil.refused error).settles, False.elim, False.elim⟩)
      simpa [draftAfter, hends] using hledger
  | giveUp request onUnknown next =>
    obtain ⟨seen, -, huntil⟩ := hpoised
    cases hends : owned.endsTransaction with
    | true =>
      exact .inr (.inr ⟨hends, by simp [hends, Progress.fails], huntil.unknown.of_modest⟩)
    | false =>
      refine .inr (.inl ⟨hends, False, False, fun _ => False, ?_, fun _ => False.elim, id, id,
        huntil.unknown⟩)
      simpa [draftAfter, hends] using hledger
  | _ => exact False.elim hpoised

theorem Settling.proceed
    (hspared : stage.hasAnswer = true → progress.fails = true → ¬owned.Revokes privilege)
    (hsettling : Settling privilege before ⟨coordinator, draft, deferred, current⟩
      ⟨owned, stage, applied⟩) :
    InOrder privilege after others
      ⟨coordinator, draftAfter progress owned draft, deferred, some ⟨owned, stage', applied⟩⟩ := by
  obtain ⟨hends, evicting, leaving, seen, hledger, hpast, hsettles⟩ := hsettling
  replace hends : owned.endsTransaction = false := hends
  have hdraft : draftAfter progress owned draft = draft := by simp [draftAfter, hends]
  rw [hdraft]
  cases h with
  | advance hstep =>
    obtain ⟨huntil, hevicts, hleaves⟩ := hsettles
    obtain ⟨i, j, hmoves, hkeeps⟩ := Call.step_moves hstep htrusted privilege
    obtain ⟨shown, hrest, hshown⟩ := Call.Until.step hstep htrusted huntil
    -- an eviction that has moved the counters is no longer owed
    refine .inr (.inl ⟨hends, evicting ∧ i + j = 0, leaving, shown,
      hledger.step hmoves hfew (Call.step_store hstep htrusted)
        (fun hstill hevicting => ⟨hevicting, hstill⟩),
      fun version hversion => ?_, hrest, fun howed => hkeeps howed.2 (hevicts howed.1),
      fun hleaving => (hleaves hleaving).step hstep htrusted⟩)
    rcases hshown version hversion with hseen | rfl
    · exact (hpast version hseen).moves hmoves
    · exact after.past_versionOf privilege
  | windUp hstep =>
    obtain ⟨hevicting, hleaving, hrest⟩ := hsettles
    obtain ⟨i, j, hmoves, -⟩ := Call.step_moves hstep htrusted privilege
    exact .inr (.inl ⟨hends, evicting, leaving, seen,
      hledger.step hmoves hfew (Call.step_store hstep htrusted) (fun _ => id),
      fun version hseen => (hpast version hseen).moves hmoves, hevicting, hleaving,
      hrest.step hstep htrusted⟩)
  | receive request onUnknown next answer =>
    exact .inr (.inl ⟨hends, evicting, leaving, seen, hledger, hpast, hsettles.1⟩)
  | refuse => exact False.elim hsettles.1
  | lose reason request onUnknown next answer =>
    obtain ⟨hevicting, hleaving, hrefused, -⟩ := hsettles.2 (hspared rfl rfl)
    exact .inr (.inl ⟨hends, evicting, leaving, seen, hledger, hpast, (hrefused reason).settles,
      fun howed => absurd howed hevicting, fun howed => absurd howed hleaving⟩)
  | giveUp => exact False.elim hsettles.1
  | giveUpAnswered request onUnknown next answer =>
    obtain ⟨hevicting, hleaving, -, hunknown⟩ := hsettles.2 (hspared rfl rfl)
    exact .inr (.inl
      ⟨hends, evicting, leaving, seen, hledger, hpast, hevicting, hleaving, hunknown⟩)

theorem Closing.proceed
    (hclosing : Closing privilege before others ⟨coordinator, draft, deferred, current⟩
      ⟨owned, stage, applied⟩) :
    InOrder privilege after others
      ⟨coordinator, draftAfter progress owned draft, deferred, some ⟨owned, stage', applied⟩⟩ := by
  obtain ⟨hends, hdraft, hoffers⟩ := hclosing
  replace hdraft : draft = [] := hdraft
  have hrest : stage'.OffersOnly privilege (before.Justified privilege others) :=
    h.offersOnly htrusted hoffers
  refine .inr (.inr ⟨hends, ?_, hrest.shift (h.shift_self htrusted privilege others) hfew⟩)
  simp [draftAfter, hdraft]

end

theorem proceed_cases {progress : Progress}
    (h : scope.proceed before progress = some (scope', after)) :
    ∃ flight stage', scope.current = some flight ∧
      ((∃ reason, progress = .lose reason) ∨ progress = .giveUp → flight.request.row? = none) ∧
      flight.stage.Proceeds scope.coordinator before progress stage' after ∧
      scope' = ⟨scope.coordinator, draftAfter progress flight.request scope.draft, scope.deferred,
        some ⟨flight.request, stage', flight.applied⟩⟩ := by
  unfold proceed at h
  split at h
  case h_2 => simp at h
  case h_1 flight hcurrent =>
    split at h
    case h_1 => simp at h
    case h_2 => simp at h
    case h_3 hlose hgiveUp =>
      obtain ⟨⟨stage', backend⟩, hstage, heq⟩ := Option.map_eq_some_iff.1 h
      simp only [Prod.mk.injEq] at heq
      obtain ⟨rfl, rfl⟩ := heq
      refine ⟨flight, stage', hcurrent, ?_, Stage.proceeds_of_proceed hstage, rfl⟩
      rw [← Option.not_isSome_iff_eq_none, Option.isSome_iff_exists]
      rintro (⟨reason, rfl⟩ | rfl) ⟨row, hrow⟩
      · exact hlose reason row rfl hrow
      · exact hgiveUp row rfl hrow

theorem InOrder.head {flight : ScopeFlight} (hcurrent : scope.current = some flight)
    (h : scope.InOrder privilege before others) :
    flight.stage.Head
      (EngineRequest.OffersOnly privilege (before.Justified privilege others)) := by
  simp only [InOrder, hcurrent] at h
  rcases h with hpoised | hsettling | hclosing
  · exact hpoised.2.head
  · obtain ⟨-, evicting, leaving, seen, -, -, hsettles⟩ := hsettling
    cases hstage : flight.stage with
    | running call =>
      rw [hstage] at hsettles
      rintro request next rfl
      exact hsettles.1.1.imp fun _ => False.elim
    | answered => trivial
    | abandoned rest =>
      rw [hstage] at hsettles
      rintro request next rfl
      exact hsettles.2.2.1.imp fun _ => False.elim
  · exact hclosing.2.2.head

theorem covers_iff {flight : ScopeFlight} (hcurrent : scope.current = some flight) :
    (Party.scope scope).Covers privilege ↔ flight.Covers privilege := by
  simp [Party.Covers, hcurrent]

/-- A transaction that is not at its end covers nothing. -/
theorem not_covers {flight : ScopeFlight} (hcurrent : scope.current = some flight)
    (h : ¬(flight.request = .commit ∧ flight.stage.Withdraws privilege)) :
    ¬(Party.scope scope).Covers privilege := by
  rw [covers_iff hcurrent]
  exact fun hcovers => h ⟨hcovers.1.2, hcovers.2⟩

/-- A call goes on; if an answer of its store is lost, the request does not revoke the privilege. -/
theorem proceeds_keeps {flight : ScopeFlight} {stage' : Stage (ScopedResult flight.request.Reply)}
    {progress : Progress} (hcurrent : scope.current = some flight)
    (hstage : flight.stage.Proceeds scope.coordinator before progress stage' after)
    (hspared : flight.stage.hasAnswer = true → progress.fails = true →
      ¬flight.request.Revokes privilege) (htrusted : before.Trusted)
    (hfew : after.revocations < UInt64.size) (horder : scope.InOrder privilege before others) :
    Party.Keeps privilege locked others before after (.scope scope) (.scope ⟨scope.coordinator,
      draftAfter progress flight.request scope.draft, scope.deferred,
      some ⟨flight.request, stage', flight.applied⟩⟩) := by
  have hhead := horder.head hcurrent
  obtain ⟨owned, stage, applied⟩ := flight
  have hbefore : (Party.scope scope).Covers privilege ↔ _ := covers_iff hcurrent
  refine ⟨hstage.trusted htrusted, ?_, ?_, ?_, hstage.granted htrusted hhead, fun row _ => ?_,
    fun row hrow => .inl ?_⟩
  · obtain ⟨coordinator, draft, deferred, current⟩ := scope
    obtain rfl : current = some ⟨owned, stage, applied⟩ := hcurrent
    rcases horder with hpoised | hsettling | hclosing
    · exact hpoised.proceed hstage htrusted hfew
    · exact hsettling.proceed hstage htrusted hfew hspared
    · exact hclosing.proceed hstage htrusted hfew
  · exact (hstage.shift htrusted privilege _).congr hbefore.1
      fun hcovers => ⟨⟨owned, stage', applied⟩, rfl, hcovers⟩
  · rw [hbefore, covers_iff rfl]
    exact hstage.held htrusted hhead
  · rw [hstage.store htrusted]
    exact .refl _ row
  · simp only [Party.rows, rows, draftAfter] at hrow ⊢
    split at hrow
    · simp at hrow
    · exact hrow

theorem proceed_keeps {progress : Progress}
    (h : scope.proceed before progress = some (scope', after)) (htrusted : before.Trusted)
    (hfew : after.revocations < UInt64.size) (horder : scope.InOrder privilege before others) :
    Party.Keeps privilege locked others before after (.scope scope) (.scope scope') := by
  obtain ⟨flight, stage', hcurrent, hreads, hstage, rfl⟩ := proceed_cases h
  have hspared : flight.stage.hasAnswer = true → progress.fails = true →
      ¬flight.request.Revokes privilege := fun hanswer hfails =>
    StoreRequest.not_revokes_of_row (hreads (hstage.lost hanswer hfails))
  exact proceeds_keeps hcurrent hstage hspared htrusted hfew horder

/-! ## Calls begin and end -/

/-- A move that touches nothing but the transaction, which covers nothing. -/
theorem keeps_of_local (htrusted : before.Trusted)
    (hcovers : ¬(Party.scope scope).Covers privilege)
    (hrows : ∀ row ∈ scope'.rows, row ∈ scope.rows ∨ row ∉ locked)
    (horder : scope'.InOrder privilege before others) :
    Party.Keeps privilege locked others before before (.scope scope) (.scope scope') where
  trusted := htrusted
  inOrder := horder
  shift := ⟨0, 0, .refl privilege before, fun _ hbefore =>
    hbefore.imp_right fun hcovered => absurd hcovered hcovers⟩
  held := fun hheld hp => (hheld hp).imp_right (.imp_left fun hcovered => absurd hcovered hcovers)
  granted := fun hbefore hafter => absurd hafter hbefore
  undisturbed := fun row _ => .refl _ row
  rows := hrows

theorem invoke_keeps {request : StoreRequest} (h : scope.invoke request = some scope')
    (htrusted : before.Trusted) (horder : scope.InOrder privilege before others) :
    Party.Keeps privilege locked others before before (.scope scope) (.scope scope') := by
  obtain ⟨coordinator, draft, deferred, current⟩ := scope
  cases current with
  | some flight => simp [invoke] at h
  | none =>
    obtain rfl := Option.some.inj h
    refine keeps_of_local htrusted (by simp [Party.Covers]) (fun _ => .inl) (.inl ⟨horder, ?_⟩)
    exact ⟨fun _ => False, fun _ => False.elim, Scope.handle_until request⟩

theorem finish_keeps (h : scope.finish = some scope') (htrusted : before.Trusted)
    (horder : scope.InOrder privilege before others) :
    Party.Keeps privilege locked others before before (.scope scope) (.scope scope') := by
  unfold finish at h
  split at h
  case h_3 => simp at h
  case h_1 request ending applied hcurrent =>
    split at h
    case isTrue => simp at h
    case isFalse hends =>
      obtain rfl := Option.some.inj h
      refine keeps_of_local htrusted (not_covers hcurrent fun hcovers => hcovers.2)
        (fun _ => .inl) ?_
      simp only [InOrder, hcurrent] at horder ⊢
      rcases horder with hpoised | hsettling | hclosing
      · obtain ⟨hledger, seen, -, hnone⟩ := hpoised
        rw [show ending.deferred = [] from hnone, List.append_nil]
        exact hledger
      · obtain ⟨-, evicting, leaving, seen, hledger, hpast, huntil, hevicts, hleaves⟩ := hsettling
        refine (hledger.imp hevicts id).append (fun update hmem version hoffer => ?_) hleaves
        obtain ⟨hseen, hone, hgrants⟩ := huntil update hmem version hoffer
        exact ⟨hpast version hseen, hone, hgrants⟩
      · exact absurd hclosing.1 hends
  case h_2 request value applied hcurrent =>
    split at h
    case isTrue => simp at h
    case isFalse hends =>
      obtain rfl := Option.some.inj h
      refine keeps_of_local htrusted (not_covers hcurrent fun hcovers => hcovers.2)
        (fun _ => .inl) ?_
      simp only [InOrder, hcurrent] at horder ⊢
      rcases horder with hpoised | hsettling | hclosing
      · exact False.elim hpoised.2
      · obtain ⟨-, evicting, leaving, seen, hledger, -, hevicting, hleaving, -⟩ := hsettling
        exact hledger.imp hevicting hleaving
      · exact absurd hclosing.1 hends

/-! ## The store of a transaction answers -/

theorem ask_cases {reading : MemoryStore}
    (h : scope.ask locked before reading = some (scope', after)) :
    ∃ owned request onUnknown next applied,
      scope.current = some ⟨owned, .running (.store request onUnknown next), applied⟩ ∧
      request.isFree locked = true ∧
      (∀ row, request.row? = some row → reading.SameAt (scope.view before.store) row) ∧
      scope' = ⟨scope.coordinator,
        if request.endsTransaction then [] else scope.draft ++ (reading.writeOf request).toList,
        scope.deferred,
        some ⟨owned, .answered request onUnknown next (reading.answer request).1,
          request == .commit || (reading.writeOf request).isSome⟩⟩ ∧
      after = { before with
        store := if request = .commit then scope.view before.store else before.store } := by
  unfold ask at h
  split at h
  case h_2 => simp at h
  case h_1 owned request onUnknown next applied hcurrent =>
    dsimp only at h
    split at h
    case isFalse => simp at h
    case isTrue hguard =>
      rw [Bool.and_eq_true] at hguard
      obtain ⟨hfree, hrow⟩ := hguard
      simp only [Option.some.injEq, Prod.mk.injEq] at h
      refine ⟨owned, request, onUnknown, next, applied, hcurrent, hfree, fun row hrequest => ?_,
        h.1.symm, h.2.symm⟩
      simpa [hrequest] using hrow

/-- A transaction keeps the rows for itself that it has written and may write. -/
theorem mem_rows_of_ask {request : StoreRequest} {reading : MemoryStore} {row : Row}
    {draft : List RowWrite} (hfree : request.isFree locked = true)
    (h : row ∈ (draft ++ (reading.writeOf request).toList).map RowWrite.row) :
    row ∈ draft.map RowWrite.row ∨ row ∉ locked := by
  rw [List.map_append, List.mem_append] at h
  refine h.imp_right fun hnew => ?_
  cases hw : reading.writeOf request with
  | none => simp [hw] at hnew
  | some write =>
    obtain rfl : row = write.row := by simpa [hw] using hnew
    have hown := MemoryStore.row_of_writeOf hw
    simpa [StoreRequest.isFree, hown] using hfree

/-- A transaction that asks its store covers nothing yet. -/
theorem not_covers_of_waiting {owned request : StoreRequest} {onUnknown : List EngineUpdate}
    {next : request.Answer → Call (ScopedResult owned.Reply)} {applied : Bool}
    (hcurrent : scope.current = some ⟨owned, .running (.store request onUnknown next), applied⟩) :
    ¬(Party.scope scope).Covers privilege :=
  not_covers hcurrent fun hcovers => hcovers.2

section

variable {owned request : StoreRequest} {onUnknown : List EngineUpdate} {reading : MemoryStore}
  {next : request.Answer → Call (ScopedResult owned.Reply)} {coordinator : Nat}
  {draft : List RowWrite} {deferred : List EngineUpdate} {seen : FactVersion → Prop}
  (hledger : Ledger privilege before draft deferred False False)
  (hwaits : ScopeWaits privilege deferred owned seen request onUnknown next)

include hledger hwaits

/-- The commit leaves nothing unbacked that the transaction does not cover. -/
theorem commit_covers (hcommit : request = .commit) (hbacks : before.Backs privilege) :
    (RowWrite.applyAll before.store draft).Backs privilege ∨
      ScopeFlight.Covers privilege ⟨owned, .answered request onUnknown next
        (reading.answer request).1, true⟩ := by
  subst hcommit
  by_cases hview : (RowWrite.applyAll before.store draft).Backs privilege
  · exact .inl hview
  · have hkept := (hledger.losses (RowWrite.loses_of_lost hbacks hview)).resolve_right id
    obtain ⟨hok, hinternal, hunknown⟩ := hwaits.committed rfl hkept
    exact .inr ⟨⟨rfl, hwaits.request_eq.symm⟩, hok (), hinternal, hunknown⟩

/-- After the commit the offers of the transaction are backed by what it has written. -/
theorem commit_inOrder (hcommit : request = .commit) :
    InOrder privilege { before with store := RowWrite.applyAll before.store draft } others
      ⟨coordinator, [], deferred, some ⟨owned, .answered request onUnknown next
        (reading.answer request).1, true⟩⟩ := by
  subst hcommit
  have hends : owned.endsTransaction = true := by rw [← hwaits.request_eq]; rfl
  refine .inr (.inr ⟨hends, rfl, ?_, fun reason => (hwaits.refused _).1.of_modest,
    hwaits.unknown.of_modest⟩)
  refine (hwaits.offers rfl ()).imp fun _ hrequest => hrequest.imp ?_
  rintro version ⟨update, hmem, hoffer⟩
  obtain ⟨hpast, hone, hgrants⟩ := hledger.offers update hmem version hoffer
  refine ⟨hpast, fun hstands => .inl ?_⟩
  exact ((hgrants hstands).resolve_right id).backs hone before.store

omit hledger in
/-- After a rollback the transaction offers nothing. -/
theorem rollback_inOrder (hrollback : request = .rollback) (applied : Bool) :
    InOrder privilege before others ⟨coordinator, [], deferred,
      some ⟨owned, .answered request onUnknown next (reading.answer request).1, applied⟩⟩ := by
  subst hrollback
  have hends : owned.endsTransaction = true := by rw [← hwaits.request_eq]; rfl
  exact .inr (.inr ⟨hends, rfl, (hwaits.rolledBack rfl ()).of_modest,
    fun reason => (hwaits.refused _).1.of_modest, hwaits.unknown.of_modest⟩)

/-- A write that was answered settles its debts. -/
theorem write_inOrder (hends : request.endsTransaction = false)
    (hreading : ∀ row, request.row? = some row →
      reading.SameAt (RowWrite.applyAll before.store draft) row) (applied : Bool) :
    InOrder privilege before others
      ⟨coordinator, draft ++ (reading.writeOf request).toList, deferred,
        some ⟨owned, .answered request onUnknown next (reading.answer request).1, applied⟩⟩ := by
  have howned : owned.endsTransaction = false := hwaits.request_eq ▸ hends
  have hspares : ¬owned.Revokes privilege → ¬request.Revokes privilege := fun hspared =>
    hwaits.request_eq ▸ hspared
  have hwritten := hledger.write hreading
  cases hanswer : (reading.answer request).1 with
  | error error =>
    -- a refused request has written nothing, so nothing is owed
    have hnone : reading.writeOf request = none := by
      false_or_by_contra
      rename_i hsome
      obtain ⟨write, hw⟩ := Option.ne_none_iff_exists'.1 hsome
      obtain ⟨reply, hreply⟩ := MemoryStore.answer_ok_of_writeOf hw
      rw [hanswer] at hreply
      cases hreply
    rw [hnone, Option.toList_none, List.append_nil]
    exact .inr (.inl ⟨howned, False, False, fun _ => False, hledger, fun _ => False.elim,
      ⟨(hwaits.refused error).settles, False.elim, False.elim⟩,
      fun _ => ⟨id, id, fun reason => hwaits.refused _, hwaits.unknown⟩⟩)
  | ok reply =>
    refine .inr (.inl ⟨howned, request.Revokes privilege, request.Revokes privilege,
      fun _ => False, hwritten, fun _ => False.elim,
      ⟨hwaits.accepted hends reading reply draft hanswer, fun hrevokes => ?_, fun hrevokes => ?_⟩,
      fun hspared => ⟨hspares hspared, hspares hspared, fun reason => hwaits.refused _,
        hwaits.unknown⟩⟩)
    · exact (hwaits.evicts hrevokes reply).1
    · exact (hwaits.evicts hrevokes reply).2

end

theorem commit_keeps {owned : StoreRequest} {onUnknown : List EngineUpdate}
    {next : StoreRequest.Answer .commit → Call (ScopedResult owned.Reply)} {applied : Bool}
    {seen : FactVersion → Prop} {reading : MemoryStore} (htrusted : before.Trusted)
    (hapart : ∀ row ∈ scope.rows, row ∉ locked)
    (hcurrent : scope.current = some ⟨owned, .running (.store .commit onUnknown next), applied⟩)
    (hledger : Ledger privilege before scope.draft scope.deferred False False)
    (hwaits : ScopeWaits privilege scope.deferred owned seen .commit onUnknown next) :
    Party.Keeps privilege locked others before { before with store := scope.view before.store }
      (.scope scope) (.scope ⟨scope.coordinator, [], scope.deferred,
        some ⟨owned, .answered .commit onUnknown next (reading.answer .commit).1, true⟩⟩) := by
  have hidle : ¬(Party.scope scope).Covers privilege := not_covers_of_waiting hcurrent
  have hcovers : ∀ hbacks : before.Backs privilege,
      (scope.view before.store).Backs privilege ∨ (Party.scope ⟨scope.coordinator, [],
        scope.deferred, some ⟨owned, .answered .commit onUnknown next (reading.answer .commit).1,
          true⟩⟩).Covers privilege := fun hbacks =>
    (commit_covers hledger hwaits rfl hbacks).imp_right fun hcovers => ⟨_, rfl, hcovers⟩
  refine ⟨htrusted, commit_inOrder hledger hwaits rfl, ⟨0, 0, .refl privilege before,
    fun _ hbefore => ?_⟩, fun hheld hp => ?_, fun hbefore hp => absurd hp hbefore,
    fun row hrow => ?_, fun row hrow => ?_⟩
  · exact hbefore.elim hcovers fun hcovered => absurd hcovered hidle
  · rcases hheld hp with hbacks | hcovered | hothers
    · exact (hcovers hbacks).imp_right .inl
    · exact absurd hcovered hidle
    · exact .inr (.inr hothers)
  · exact MemoryStore.sameAt_applyAll_of_notMem fun hmem => hapart row hmem hrow
  · simp [Party.rows, rows] at hrow

theorem ask_keeps {reading : MemoryStore}
    (h : scope.ask locked before reading = some (scope', after)) (htrusted : before.Trusted)
    (hapart : ∀ row ∈ scope.rows, row ∉ locked) (horder : scope.InOrder privilege before others) :
    Party.Keeps privilege locked others before after (.scope scope) (.scope scope') := by
  obtain ⟨owned, request, onUnknown, next, applied, hcurrent, hfree, hreading, rfl, rfl⟩ :=
    ask_cases h
  have hidle : ¬(Party.scope scope).Covers privilege := not_covers_of_waiting hcurrent
  simp only [InOrder, hcurrent] at horder
  rcases horder with ⟨hledger, seen, -, hwaits⟩ | hsettling | hclosing
  case inr.inl =>
    obtain ⟨-, evicting, leaving, seen, -, -, hsettles⟩ := hsettling
    exact False.elim hsettles.1
  case inr.inr => exact False.elim hclosing.2.2
  replace hwaits : ScopeWaits privilege scope.deferred owned seen request onUnknown next := hwaits
  -- only a commit changes the shared store
  by_cases hcommit : request = .commit
  · subst hcommit
    exact commit_keeps htrusted hapart hcurrent hledger hwaits
  · rw [if_neg hcommit]
    cases hends : request.endsTransaction with
    | true =>
      have hrollback := (StoreRequest.endsTransaction_iff.1 hends).resolve_left hcommit
      exact keeps_of_local htrusted hidle (by simp [rows]) (rollback_inOrder hwaits hrollback _)
    | false =>
      exact keeps_of_local htrusted hidle (fun row => mem_rows_of_ask hfree)
        (write_inOrder hledger hwaits hends hreading _)

end OpenScope

/-- A move of a party that is in order keeps what it has to keep. -/
theorem Party.Moves.keeps {privilege : Privilege} {locked : List Row} {others : Prop}
    {before after : Backend} {party party' : Party} (h : party.Moves locked before party' after)
    (htrusted : before.Trusted) (hfew : after.revocations < UInt64.size)
    (hapart : ∀ row ∈ party.rows, row ∉ locked)
    (horder : party.InOrder privilege before others) :
    Keeps privilege locked others before after party party' := by
  cases h with
  | callProceeds hstage => exact CoordinatorFlight.proceed_keeps hstage htrusted hfew horder
  | callAsks hask => exact CoordinatorFlight.ask_keeps hask htrusted horder
  | scopeProceeds hproceed => exact OpenScope.proceed_keeps hproceed htrusted hfew horder
  | scopeAsks hask => exact OpenScope.ask_keeps hask htrusted hapart horder
  | invokes hinvoke => exact OpenScope.invoke_keeps hinvoke htrusted horder
  | finishes hfinish => exact OpenScope.finish_keeps hfinish htrusted horder

/-- No move takes back that a counter has moved. -/
theorem Party.Moves.revocations {locked : List Row} {before after : Backend} {party party' : Party}
    (h : party.Moves locked before party' after) : before.revocations ≤ after.revocations := by
  cases h with
  | callProceeds hstage => exact hstage.revocations
  | callAsks hask =>
    obtain ⟨_, _, _, -, -, -, rfl⟩ := CoordinatorFlight.ask_cases hask
    exact Nat.le_refl _
  | scopeProceeds hproceed =>
    obtain ⟨_, _, -, -, hstage, -⟩ := OpenScope.proceed_cases hproceed
    exact hstage.revocations
  | scopeAsks hask =>
    obtain ⟨_, _, _, _, _, -, -, -, -, rfl⟩ := OpenScope.ask_cases hask
    exact Nat.le_refl _
  | invokes => exact Nat.le_refl _
  | finishes => exact Nat.le_refl _

end AccessControl
