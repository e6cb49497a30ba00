import AccessControl.Proofs.DatabaseFailure
import AccessControl.Simulation.Peer

/-!
# What a transaction reports

A request of several statements opens a transaction of its own.  It reports a success only after the
database has done all that it was sent, the end of the transaction included, and after every row could
be read.  As soon as something fails it reports an error, and all that it sends then is the rollback
of the transaction that it leaves.
-/

namespace AccessControl

namespace Statement

variable {sent : Statement}

/-- If rows are at fault, one of them cannot be taken apart, or names what there is not. -/
theorem exists_of_illegible {α β : Type} {decode : List Cell → Except DatabaseError α}
    {lookUp : α → Except StorageError β} {rows : List (List Cell)} {kind : ErrorKind}
    (h : illegible (rows.all (isReadable decode lookUp)) = some kind) :
    ∃ row ∈ rows, ∀ found value, decode row = .ok found → lookUp found ≠ .ok value := by
  have hnot : ¬∀ row ∈ rows, isReadable decode lookUp row = true := by
    intro hall
    rw [List.all_eq_true.2 hall] at h
    cases h
  simp only [Classical.not_forall, exists_prop] at hnot
  obtain ⟨row, hmem, hrow⟩ := hnot
  refine ⟨row, hmem, fun found value hfound hvalue => hrow ?_⟩
  simp [isReadable, hfound, hvalue, Except.toOption, Except.isOk, Except.toBool]

/-- Whether a result of the statement that can be read may still be at fault. -/
def isJudged : Statement → Bool
  | ruleAllows _ => true
  | roleAllows _ => true
  | updateUserRole .. => true
  | _ => false

/-- Nothing is wrong with a result that is not judged but rows that cannot be read. -/
theorem undecodable_of_complaint {result : sent.Result} {kind : ErrorKind}
    (hplain : sent.isJudged = false) (h : sent.complaint result = some kind) :
    sent.Undecodable result := by
  cases sent with
  | ruleAllows | roleAllows | updateUserRole => cases hplain
  | lockRule user resource =>
    unfold complaint at h
    cases result with
    | none => simp [illegible] at h
    | some cells =>
      refine ⟨cells, rfl, fun id hread => ?_⟩
      simp [hread, illegible, Except.isOk, Except.toBool] at h
  | allRules | allUserRoles => exact exists_of_illegible h
  | _ => cases h

end Statement

/-! ## Exchanges that succeed -/

namespace Exchange

/-- What was sent, without the reply. -/
def sent : Exchange → Sent
  | statement sent _ => .statement sent
  | command sent _ => .command sent

/-- Whether the database has done what it was sent, and every row of its reply can be read. -/
def Succeeds : Exchange → Prop
  | statement sent reply => ∃ result, reply = .ok result ∧ ¬sent.Undecodable result
  | command _ reply => reply = .ok ()

/-- Whether nothing else follows a failure than the rollback of the transaction that is left.  If it
is the start that fails, there is none. -/
def IsLeftBy (failed : Exchange) (after : List Exchange) : Prop :=
  if failed.sent = .command .start then after = []
  else ∃ reply, after = [.command .rollback reply]

theorem IsLeftBy.not_commit {failed : Exchange} {after : List Exchange}
    (h : failed.IsLeftBy after) : ∀ later ∈ after, later.sent ≠ .command .commit := by
  unfold IsLeftBy at h
  split at h
  · simp [h]
  · obtain ⟨reply, rfl⟩ := h
    simp [sent]

/-- What is made of a reply is a value if the exchange succeeds, and an error otherwise. -/
theorem succeeds_iff {α : Type} {sent : Statement}
    {read : Except DatabaseError sent.Result → Except StorageError α}
    {reply : Except DatabaseError sent.Result} (h : RelationalStore.Reads sent read)
    (hplain : sent.isJudged = false) :
    (statement sent reply).Succeeds ↔ ∃ value, read reply = .ok value := by
  have hread : (∃ value, read reply = .ok value) ↔ sent.fault reply = none := by
    rw [← h reply, failureKind?]
    cases read reply <;> simp [failure?]
  rw [hread, Succeeds]
  cases reply with
  | error error => simp [Statement.fault]
  | ok result =>
    simp only [Except.ok.injEq, exists_eq_left']
    constructor
    · intro hreadable
      cases hfault : sent.fault (.ok result) with
      | none => rfl
      | some kind => exact absurd (Statement.undecodable_of_complaint hplain hfault) hreadable
    · intro hnone hundecodable
      have hfault : sent.fault (.ok result) = some .internal :=
        (sent.kindsTell (.ok result)).undecodable result rfl hundecodable
      rw [hnone] at hfault
      cases hfault

end Exchange

/-! ## Scripts of one transaction -/

namespace Script

variable {α : Type} {course : List Exchange → α → Prop} {past exchanges : List Exchange}
  {script : Script (Except StorageError α)} {result : Except StorageError α}

/-- Whether what was sent up to an exchange that has failed is how a course begins that would have
ended well. -/
def Begins (course : List Exchange → α → Prop) (before : List Exchange) (failed : Exchange) : Prop :=
  ∃ good rest value, good.sent = failed.sent ∧ course (before ++ good :: rest) value

/-- Whether a script does nothing more than leave the transaction in which an exchange has failed. -/
def GivesUp (failed : Exchange) (script : Script (Except StorageError α)) : Prop :=
  ∃ error, script = if failed.sent = .command .start then done (.error error) else abandon error

/-- Whether what is left of a script goes on in one of the courses as long as nothing fails, and
gives up when something does. -/
def Follows (course : List Exchange → α → Prop) :
    List Exchange → Script (Except StorageError α) → Prop
  | past, done result => ∃ value, result = .ok value ∧ course past value
  | past, statement sent next =>
    ∀ reply, let exchange := Exchange.statement sent reply
      (exchange.Succeeds → (next reply).Follows course (past ++ [exchange])) ∧
        (¬exchange.Succeeds → (next reply).GivesUp exchange) ∧ Begins course past exchange
  | past, command sent next =>
    ∀ reply, let exchange := Exchange.command sent reply
      (exchange.Succeeds → (next reply).Follows course (past ++ [exchange])) ∧
        (¬exchange.Succeeds → (next reply).GivesUp exchange) ∧ Begins course past exchange

/-- How a run of a transaction has ended: well, as one of the courses has it, or with an error after
something has failed. -/
inductive Concludes (course : List Exchange → α → Prop) (past : List Exchange) :
    List Exchange → Except StorageError α → Prop
  | well {exchanges : List Exchange} {value : α} (hcourse : course (past ++ exchanges) value)
      (hsucceeds : ∀ exchange ∈ exchanges, exchange.Succeeds) :
      Concludes course past exchanges (.ok value)
  | badly {before after : List Exchange} {failed : Exchange} (error : StorageError)
      (hbefore : ∀ exchange ∈ before, exchange.Succeeds) (hfailed : ¬failed.Succeeds)
      (hbegins : Begins course (past ++ before) failed) (hleft : failed.IsLeftBy after) :
      Concludes course past (before ++ failed :: after) (.error error)

theorem GivesUp.of_runs {failed : Exchange} (h : script.GivesUp failed)
    (hruns : script.Runs exchanges result) :
    failed.IsLeftBy exchanges ∧ ∃ error, result = .error error := by
  obtain ⟨error, rfl⟩ := h
  unfold Exchange.IsLeftBy
  split at hruns
  case isTrue hstart =>
    cases hruns
    simp [hstart]
  case isFalse hopen =>
    cases hruns with
    | command reply rest =>
      cases rest
      simp [hopen]

/-- One more exchange of a run. -/
theorem Concludes.cons {exchange : Exchange} {next : Script (Except StorageError α)}
    {rest : List Exchange} (hbegins : Begins course past exchange)
    (hsucceeds : exchange.Succeeds → Concludes course (past ++ [exchange]) rest result)
    (hgives : ¬exchange.Succeeds → next.GivesUp exchange) (hruns : next.Runs rest result) :
    Concludes course past (exchange :: rest) result := by
  by_cases hgood : exchange.Succeeds
  · cases hsucceeds hgood with
    | well hcourse hrest =>
      rw [List.append_assoc, List.singleton_append] at hcourse
      exact .well hcourse (List.forall_mem_cons.2 ⟨hgood, hrest⟩)
    | badly error hbefore hfailed hbegun hleft =>
      rw [List.append_assoc, List.singleton_append] at hbegun
      exact .badly error (List.forall_mem_cons.2 ⟨hgood, hbefore⟩) hfailed hbegun hleft
  · obtain ⟨hleft, error, rfl⟩ := (hgives hgood).of_runs hruns
    rw [← List.append_nil past] at hbegins
    show Concludes course past ([] ++ exchange :: rest) (.error error)
    exact .badly error (by simp) hgood hbegins hleft

/-- A script that follows its courses ends as one of them, or with the error of a failure. -/
theorem Follows.concludes (h : script.Follows course past) (hruns : script.Runs exchanges result) :
    Concludes course past exchanges result := by
  induction hruns generalizing past with
  | done result =>
    obtain ⟨value, rfl, hcourse⟩ := h
    exact .well (by rwa [List.append_nil]) (by simp)
  | statement reply rest ih =>
    obtain ⟨hgood, hgives, hbegins⟩ := h reply
    exact .cons hbegins (fun hsucceeds => ih (hgood hsucceeds)) hgives rest
  | command reply rest ih =>
    obtain ⟨hgood, hgives, hbegins⟩ := h reply
    exact .cons hbegins (fun hsucceeds => ih (hgood hsucceeds)) hgives rest

/-- What a request keeps to that has a transaction of its own, given the courses that it takes if
nothing fails. -/
structure Transacts (course : List Exchange → α → Prop) (script : Script (Except StorageError α)) :
    Prop where
  /-- A success is reported at the end of a course in which nothing has failed, and only there. -/
  reports : ∀ exchanges value, script.Runs exchanges (.ok value) ↔
    course exchanges value ∧ ∀ exchange ∈ exchanges, exchange.Succeeds
  /-- An error is reported of the first failure, before which a course was begun, and the
  transaction is left. -/
  fails : ∀ exchanges error, script.Runs exchanges (.error error) → ∃ before failed after,
    exchanges = before ++ failed :: after ∧ (∀ exchange ∈ before, exchange.Succeeds) ∧
      ¬failed.Succeeds ∧ Begins course before failed ∧ failed.IsLeftBy after
  /-- Once anything has failed, an error is reported, and nothing is committed any more. -/
  once : ∀ before failed after result, script.Runs (before ++ failed :: after) result →
    ¬failed.Succeeds →
      (∃ error, result = .error error) ∧ ∀ later ∈ after, later.sent ≠ .command .commit

/-- What comes after one failure is part of what comes after the first. -/
theorem mem_of_append_eq {before before' after after' : List Exchange} {failed failed' : Exchange}
    (heq : before ++ failed :: after = before' ++ failed' :: after') (hnot : failed ∉ before') :
    ∀ later ∈ after, later ∈ after' := by
  intro later hlater
  rcases List.append_eq_append_iff.1 heq with ⟨middle, rfl, hrest⟩ | ⟨middle, rfl, hrest⟩
  · cases middle with
    | nil => simp_all
    | cons head tail => simp_all
  · cases middle with
    | nil => simp_all
    | cons head tail => simp_all

theorem Follows.transacts (h : script.Follows course [])
    (hends : ∀ exchanges value, course exchanges value →
      (∀ exchange ∈ exchanges, exchange.Succeeds) → script.Runs exchanges (.ok value)) :
    script.Transacts course := by
  refine ⟨fun exchanges value => ⟨fun hruns => ?_, fun hcourse => ?_⟩, ?_, ?_⟩
  · cases h.concludes hruns with
    | well hcourse hsucceeds => exact ⟨hcourse, hsucceeds⟩
  · exact hends exchanges value hcourse.1 hcourse.2
  · intro exchanges error hruns
    cases h.concludes hruns with
    | badly _ hbefore hfailed hbegins hleft =>
      exact ⟨_, _, _, rfl, hbefore, hfailed, hbegins, hleft⟩
  · intro before failed after result hruns hbad
    generalize hall : before ++ failed :: after = exchanges at hruns
    cases h.concludes hruns with
    | well hcourse hsucceeds =>
      exact absurd (hsucceeds failed (by simp [← hall])) hbad
    | badly error hbefore hfailed hbegins hleft =>
      refine ⟨⟨error, rfl⟩, fun later hlater => hleft.not_commit later ?_⟩
      exact mem_of_append_eq hall (fun hmem => hbad (hbefore failed hmem)) later hlater

end Script

/-! ## Runs against a peer -/

namespace Peer

variable {peer : Peer}

/-- Whether nothing keeps a peer from being sent what a script has for it: it is reached by a
connection that is whole, and has no result that it cannot send. -/
structure IsReachable (peer : Peer) : Prop where
  isOpen : peer.closed = false
  isWhole : peer.lost = false
  sendable : ∀ result, .ok result ∈ peer.replies → result.isSendable = true

/-- Whether a peer was sent this one thing more, or could not be reached. -/
structure Hears (peer : Peer) (sent : Sent) (after : Peer) : Prop where
  heard : after.sent = sent :: peer.sent ∨ after.sent = peer.sent
  reached : peer.IsReachable → after.IsReachable ∧ after.sent = sent :: peer.sent

theorem answer_sent (peer : Peer) (sent : Statement) : (peer.answer sent).2.sent = peer.sent := by
  unfold answer
  split
  · rfl
  split
  · rfl
  · split <;> rfl
  · rfl

theorem IsReachable.answer (h : peer.IsReachable) (sent : Statement) :
    (peer.answer sent).2.IsReachable := by
  have hrest : ∀ {first rest}, peer.replies = first :: rest →
      ∀ result, .ok result ∈ rest → result.isSendable = true :=
    fun hreplies result hmem => h.sendable result (hreplies ▸ List.mem_cons_of_mem _ hmem)
  unfold Peer.answer
  split
  · exact h
  split
  · exact h
  case h_2 result rest hreplies =>
    have hresult : result.isSendable = true :=
      h.sendable result (hreplies ▸ List.mem_cons_self)
    rw [if_pos hresult]
    exact ⟨h.isOpen, h.isWhole, hrest hreplies⟩
  case h_3 error rest hreplies => exact ⟨h.isOpen, h.isWhole, hrest hreplies⟩

theorem perform_sent (peer : Peer) (sent : TransactionCommand) :
    (peer.perform sent).2.sent = peer.sent := by
  cases hrefusal : (takeRefusal sent peer.refusals).1 <;> simp [perform, hrefusal]

theorem IsReachable.perform (h : peer.IsReachable) (sent : TransactionCommand) :
    (peer.perform sent).2.IsReachable := by
  cases hrefusal : (takeRefusal sent peer.refusals).1 <;> simp only [Peer.perform, hrefusal] <;>
    exact ⟨h.isOpen, rfl, h.sendable⟩

theorem hears_reply (sent : Statement) : peer.Hears (.statement sent) (peer.reply sent).2 := by
  constructor
  case heard =>
    unfold reply
    split
    · exact .inr rfl
    split
    · exact .inr rfl
    · exact .inl (answer_sent _ sent)
  case reached =>
    intro h
    have hopen : ¬peer.closed = true := by simp [h.isOpen]
    have hwhole : ¬(peer.lost && peer.inTransaction) = true := by simp [h.isWhole]
    have hsent : { peer with sent := .statement sent :: peer.sent }.IsReachable :=
      ⟨h.isOpen, h.isWhole, h.sendable⟩
    rw [reply, if_neg hopen, if_neg hwhole]
    exact ⟨hsent.answer sent, answer_sent _ sent⟩

theorem hears_obey (sent : TransactionCommand) : peer.Hears (.command sent) (peer.obey sent).2 := by
  constructor
  case heard =>
    unfold obey
    split
    · exact .inr rfl
    split
    · exact .inr rfl
    · exact .inl (perform_sent _ sent)
  case reached =>
    intro h
    have hopen : ¬peer.closed = true := by simp [h.isOpen]
    have hwhole : ¬(peer.lost && sent != .start) = true := by simp [h.isWhole]
    have hsent : { peer with sent := .command sent :: peer.sent }.IsReachable :=
      ⟨h.isOpen, h.isWhole, h.sendable⟩
    rw [obey, if_neg hopen, if_neg hwhole]
    exact ⟨hsent.perform sent, perform_sent _ sent⟩

/-- Whether a run of a script is what a peer has heard of it, with what the script exchanged without
reaching the peer. -/
def HearsAll (peer : Peer) (exchanges : List Exchange) (after : Peer) : Prop :=
  ∃ reached, reached.Sublist exchanges ∧
    after.sent = (reached.map Exchange.sent).reverse ++ peer.sent ∧
      (peer.IsReachable → reached = exchanges)

theorem HearsAll.cons {exchange : Exchange} {rest : List Exchange} {between after : Peer}
    (hfirst : peer.Hears exchange.sent between) (hrest : between.HearsAll rest after) :
    peer.HearsAll (exchange :: rest) after := by
  obtain ⟨reached, hsublist, hsent, hall⟩ := hrest
  by_cases hheard : between.sent = exchange.sent :: peer.sent
  · refine ⟨exchange :: reached, hsublist.cons_cons exchange, ?_, fun hreachable => ?_⟩
    · simp [hsent, hheard]
    · rw [hall (hfirst.reached hreachable).1]
  · refine ⟨reached, hsublist.cons exchange, ?_, fun hreachable => ?_⟩
    · rw [hsent, hfirst.heard.resolve_left hheard]
    · exact absurd (hfirst.reached hreachable).2 hheard

/-- A peer is one of the databases that a script may meet. -/
theorem exists_runs {α : Type} (script : Script α) (peer : Peer) : ∃ exchanges,
    script.Runs exchanges (peer.run script).1 ∧ peer.HearsAll exchanges (peer.run script).2 := by
  induction script generalizing peer with
  | done result => exact ⟨[], .done result, [], .slnil, rfl, fun _ => rfl⟩
  | statement sent next ih =>
    obtain ⟨exchanges, hruns, hheard⟩ := ih (peer.reply sent).1 (peer.reply sent).2
    exact ⟨_, .statement _ hruns, .cons (hears_reply sent) hheard⟩
  | command sent next ih =>
    obtain ⟨exchanges, hruns, hheard⟩ := ih (peer.obey sent).1 (peer.obey sent).2
    exact ⟨_, .command _ hruns, .cons (hears_obey sent) hheard⟩

end Peer

namespace RelationalStore

open ResultSet Script

variable {α β : Type} {course : List Exchange → α → Prop} {past : List Exchange}

/-! ## The three transactions -/

/-- How the change of a rule goes if nothing fails, and how many rules it reports. -/
inductive Updates (user : UserId) (grant : Grant) : List Exchange → Nat → Prop
  /-- The lock finds no rule, so there is nothing to change. -/
  | absent :
    Updates user grant [.command .start (.ok ()),
      .statement (.lockRule user grant.resource) (.ok none), .command .rollback (.ok ())] 0
  /-- The lock finds the rule, and as many are reported as the database says to have changed. -/
  | present (locked : List Cell) (changed : Nat) :
    Updates user grant [.command .start (.ok ()),
      .statement (.lockRule user grant.resource) (.ok (some locked)),
      .statement (.updateRule user grant) (.ok changed), .command .commit (.ok ())] changed

/-- How a reading goes that `query` asks for and `read` makes sense of, if nothing fails. -/
inductive ReadsAll (query : Statement)
    (read : Except DatabaseError query.Result → Except StorageError α) : List Exchange → α → Prop
  | intro {isolated : Nat} {found : query.Result} {value : α} (h : read (.ok found) = .ok value) :
    ReadsAll query read [.command .start (.ok ()), .statement .readOneState (.ok isolated),
      .statement query (.ok found), .command .commit (.ok ())] value

/-! ## The parts of a transaction -/

theorem opening_follows {next : Script (Except StorageError α)}
    (hbegins : ∃ rest value, course (.command .start (.ok ()) :: rest) value)
    (hnext : next.Follows course [.command .start (.ok ())]) : (opening next).Follows course [] := by
  obtain ⟨rest, value, hcourse⟩ := hbegins
  intro reply
  refine ⟨?_, ?_, .command .start (.ok ()), rest, value, rfl, hcourse⟩
  · intro hreply
    obtain rfl : reply = .ok () := hreply
    exact hnext
  · intro hreply
    cases reply with
    | ok done => exact absurd rfl hreply
    | error error => exact ⟨_, rfl⟩

theorem close_follows {command : TransactionCommand} {value : α} (hends : command ≠ .start)
    (hcourse : course (past ++ [.command command (.ok ())]) value) :
    (close command value).Follows course past := by
  intro reply
  refine ⟨?_, ?_, .command command (.ok ()), [], value, rfl, hcourse⟩
  · intro hreply
    obtain rfl : reply = .ok () := hreply
    exact ⟨value, rfl, hcourse⟩
  · intro hreply
    cases reply with
    | ok done => exact absurd rfl hreply
    | error error => exact ⟨storageError error, by simp [Exchange.sent, hends]⟩

/-- A statement after which a script goes on with what it has read, or gives up. -/
theorem statement_follows {sent : Statement}
    {read : Except DatabaseError sent.Result → Except StorageError β}
    {next : Except DatabaseError sent.Result → Script (Except StorageError α)}
    (hreads : Reads sent read) (hplain : sent.isJudged = false)
    (hbegins : ∃ result rest value, course (past ++ .statement sent (.ok result) :: rest) value)
    (hfailed : ∀ reply error, read reply = .error error → next reply = abandon error)
    (hread : ∀ result found, read (.ok result) = .ok found →
      (next (.ok result)).Follows course (past ++ [.statement sent (.ok result)])) :
    (statement sent next).Follows course past := by
  obtain ⟨good, rest, value, hcourse⟩ := hbegins
  intro reply
  have hsucceeds : (Exchange.statement sent reply).Succeeds ↔ ∃ found, read reply = .ok found :=
    Exchange.succeeds_iff hreads hplain
  refine ⟨?_, ?_, .statement sent (.ok good), rest, value, rfl, hcourse⟩
  · intro hgood
    obtain ⟨found, hfound⟩ := hsucceeds.1 hgood
    obtain ⟨result, rfl, -⟩ := hgood
    exact hread result found hfound
  · intro hbad
    cases hresult : read reply with
    | ok found => exact absurd (hsucceeds.2 ⟨found, hresult⟩) hbad
    | error error => exact ⟨error, by simpa [Exchange.sent] using hfailed reply error hresult⟩

/-- The lock finds the rule exactly if it is replied a row. -/
theorem found_eq_ok {locked : Option (List Cell)} {present : Bool}
    (h : found (.ok locked) = .ok present) : present = locked.isSome := by
  cases locked with
  | none => exact (Except.ok.inj h).symm
  | some cells =>
    rw [found_some] at h
    cases hread : ColumnType.identifier.read cells 0 with
    | ok id =>
      rw [hread] at h
      exact (Except.ok.inj h).symm
    | error error =>
      rw [hread] at h
      cases h

theorem update_follows (user : UserId) (grant : Grant) :
    (update user grant).Follows (Updates user grant) [] := by
  refine opening_follows ⟨_, _, .absent⟩ ?_
  refine statement_follows (found_reads user grant.resource) rfl ⟨_, _, _, .absent⟩ ?_ ?_
  · intro reply error hfound
    simp only [hfound]
  · intro locked present hfound
    simp only [hfound]
    obtain rfl := found_eq_ok hfound
    cases locked with
    | none => exact close_follows nofun .absent
    | some cells =>
      refine statement_follows (updateRule_reads user grant) rfl
        ⟨0, _, _, .present cells 0⟩ ?_ ?_
      · intro reply error hwritten
        simp only [hwritten]
      · intro changed touched hwritten
        obtain rfl : changed = touched := Except.ok.inj hwritten
        exact close_follows nofun (.present cells changed)

theorem readAll_follows {query : Statement}
    {read : Except DatabaseError query.Result → Except StorageError α} (hreads : Reads query read)
    (hplain : query.isJudged = false) (hsome : ∃ found value, read (.ok found) = .ok value) :
    (readAll query read).Follows (ReadsAll query read) [] := by
  obtain ⟨found, value, hvalue⟩ := hsome
  refine opening_follows ⟨[.statement .readOneState (.ok 0), .statement query (.ok found),
    .command .commit (.ok ())], value, .intro hvalue⟩ ?_
  refine statement_follows readOneState_reads rfl ⟨0, _, _, .intro hvalue⟩ ?_ ?_
  · intro reply error hperformed
    cases reply with
    | ok count => cases hperformed
    | error other =>
      obtain rfl : storageError other = error := Except.error.inj hperformed
      rfl
  · intro isolated count _
    refine statement_follows hreads hplain ⟨found, _, _, .intro hvalue⟩ ?_ ?_
    · intro reply error hread
      simp only [hread]
    · intro result value hread
      simp only [hread]
      exact close_follows nofun (.intro hread)

/-! ## The transactions as a whole -/

theorem update_transacts (user : UserId) (grant : Grant) :
    (update user grant).Transacts (Updates user grant) := by
  refine (update_follows user grant).transacts fun exchanges value hcourse hsucceeds => ?_
  cases hcourse with
  | absent => exact .command _ (.statement _ (.command _ (.done _)))
  | present locked changed =>
    have hlock : (Exchange.statement (.lockRule user grant.resource) (.ok (some locked))).Succeeds :=
      hsucceeds _ (by simp)
    obtain ⟨present, hfound⟩ := (Exchange.succeeds_iff (found_reads user grant.resource) rfl).1 hlock
    obtain rfl : present = true := found_eq_ok hfound
    refine .command _ (.statement _ ?_)
    simp only [hfound]
    exact .statement _ (.command _ (.done _))

theorem readAll_transacts {query : Statement}
    {read : Except DatabaseError query.Result → Except StorageError α} (hreads : Reads query read)
    (hplain : query.isJudged = false) (hsome : ∃ found value, read (.ok found) = .ok value) :
    (readAll query read).Transacts (ReadsAll query read) := by
  refine (readAll_follows hreads hplain hsome).transacts fun exchanges value hcourse _ => ?_
  cases hcourse with
  | intro hread =>
    refine .command _ (.statement _ (.statement _ ?_))
    simp only [hread]
    exact .command _ (.done _)

/-- A request that has a transaction of its own commits what it reports and nothing else.  It reports
a success at the end of a course in which the database has done all that it was sent, the closing
command included, and every row could be read: the change of a rule when it has found no rule to lock,
or the count of the change that it has committed; a reading what the rows of its one query say.  Once
a reply is an error or a row cannot be read, it reports an error, commits nothing any more and only
rolls back the transaction that it leaves.  Whatever a peer has been told to reply, it comes to its
end so, and the peer has heard of it all, if nothing keeps it from that, and else of a part. -/
theorem transactions_commit_what_they_report :
    (∀ user grant, (pooled (.update user grant)).Transacts (Updates user grant)) ∧
      (pooled .allPermissions).Transacts (ReadsAll .allRules rules) ∧
      (pooled .allUserRoles).Transacts (ReadsAll .allUserRoles userRoles) ∧
      ∀ (request : StoreRequest) (peer : Peer), ∃ exchanges,
        (pooled request).Runs exchanges (peer.run (pooled request)).1 ∧
          peer.HearsAll exchanges (peer.run (pooled request)).2 := by
  refine ⟨update_transacts, ?_, ?_, fun request => Peer.exists_runs (pooled request)⟩
  · exact readAll_transacts rules_reads rfl ⟨[], [], rfl⟩
  · exact readAll_transacts userRoles_reads rfl ⟨[], ∅, rfl⟩

end RelationalStore

end AccessControl
