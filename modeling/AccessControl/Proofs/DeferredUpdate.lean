import AccessControl.Proofs.ScopeSession
import AccessControl.Proofs.UpdateRun

/-!
# What a transaction leaves for its commit

Each request that the store of a transaction accepts leaves updates of the engine for the commit.
They give no more than the request grants, and they take what the request may revoke.  So what the
updates give all together is what some accepted request has granted and no later one has revoked.
-/

namespace AccessControl

/-! ## What the store has accepted, and what is left for the commit -/

/-- A request that the store of a transaction has accepted, with its reply. -/
structure ScopeStatement where
  request : StoreRequest
  reply : request.Reply

namespace ScopeStatement

/-- Whether the statement grants the privilege.  An update grants nothing if there was no rule to
change. -/
def Grants (privilege : Privilege) : ScopeStatement → Prop
  | ⟨.create user grant, _⟩ =>
    ∃ action ∈ grant.actions, privilege = .fact user (.resource grant.resource) action
  | ⟨.update user grant, touched⟩ =>
    0 < touched ∧ ∃ action ∈ grant.actions, privilege = .fact user (.resource grant.resource) action
  | ⟨.syncUserRole user role, _⟩ =>
    privilege = .administration user ∧ role.isAdministrative = true
  | _ => False

/-- Whether the statement may revoke the privilege. -/
def Revokes (privilege : Privilege) (statement : ScopeStatement) : Prop :=
  statement.request.Revokes privilege

/-- Whether updates give no more than the statement grants, and take what it may revoke. -/
def Defers (statement : ScopeStatement) (updates : List EngineUpdate) : Prop :=
  ∀ privilege,
    (∀ update ∈ updates, ∀ version, update.Offers privilege version → statement.Grants privilege) ∧
      (statement.Revokes privilege → ∃ update ∈ updates, update.Withdraws privilege)

variable {statement : ScopeStatement} {update : EngineUpdate}

theorem defers_singleton
    (hoffers : ∀ privilege version, update.Offers privilege version → statement.Grants privilege)
    (hrevokes : ∀ privilege, statement.Revokes privilege → update.Withdraws privilege) :
    statement.Defers [update] := by
  intro privilege
  constructor
  · intro other hmem version hoffer
    obtain rfl := List.mem_singleton.1 hmem
    exact hoffers privilege version hoffer
  · intro hlost
    exact ⟨update, List.mem_singleton_self update, hrevokes privilege hlost⟩

theorem defers_nothing (h : statement.request.row? = none) : statement.Defers [] := by
  intro privilege
  refine ⟨nofun, fun hrevokes => ?_⟩
  exact absurd hrevokes (StoreRequest.not_revokes_of_row h)

theorem not_grants_of_endsTransaction {privilege : Privilege}
    (h : statement.request.endsTransaction = true) : ¬statement.Grants privilege := by
  obtain ⟨request, reply⟩ := statement
  cases request with
  | commit | rollback => exact id
  | _ => cases h

end ScopeStatement

/-- The updates that are left for the commit give at most what statements have granted last. -/
def BorneOut (statements : List ScopeStatement) (deferred : List EngineUpdate) : Prop :=
  ∀ privilege, Lasts (fun update => ∃ version, EngineUpdate.Offers privilege version update)
      (EngineUpdate.Withdraws privilege) deferred →
    Lasts (ScopeStatement.Grants privilege) (ScopeStatement.Revokes privilege) statements

/-- One more statement, and what it leaves for the commit. -/
theorem BorneOut.append {statements : List ScopeStatement} {deferred updates : List EngineUpdate}
    {statement : ScopeStatement} (h : BorneOut statements deferred)
    (hdefers : statement.Defers updates) :
    BorneOut (statements ++ [statement]) (deferred ++ updates) := by
  intro privilege hlasts
  obtain ⟨hoffers, hrevokes⟩ := hdefers privilege
  rw [lasts_append] at hlasts ⊢
  rcases hlasts with ⟨hbefore, hkept⟩ | hgiven
  · refine .inl ⟨h privilege hbefore, fun later hmem hlost => ?_⟩
    obtain rfl := List.mem_singleton.1 hmem
    obtain ⟨update, hupdate, hwithdraws⟩ := hrevokes hlost
    exact hkept update hupdate hwithdraws
  · obtain ⟨before, update, after, rfl, ⟨version, hoffer⟩, -⟩ := lasts_iff.1 hgiven
    have hgrants := hoffers update (List.mem_append_right before List.mem_cons_self) version hoffer
    exact .inr (.inl ⟨hgrants, nofun⟩)

/-- The end of the transaction grants and revokes nothing. -/
theorem lasts_ended {privilege : Privilege} {statements ended : List ScopeStatement}
    (hended : ∀ statement ∈ ended, statement.request.endsTransaction = true)
    (h : Lasts (ScopeStatement.Grants privilege) (ScopeStatement.Revokes privilege)
      (statements ++ ended)) :
    Lasts (ScopeStatement.Grants privilege) (ScopeStatement.Revokes privilege) statements := by
  rcases lasts_append.1 h with ⟨hlasts, -⟩ | hgiven
  · exact hlasts
  · obtain ⟨before, statement, after, rfl, hgrants, -⟩ := lasts_iff.1 hgiven
    have hends := hended statement (List.mem_append_right before List.mem_cons_self)
    exact absurd hgrants (ScopeStatement.not_grants_of_endsTransaction hends)

/-! ## How a call goes on -/

namespace Call

variable {α β : Type}

/-- Whatever the engine replies, the call comes to wait for the store, or to its end, as the two
properties say. -/
def Comes (atStore : (request : StoreRequest) → (request.Answer → Call α) → Prop)
    (atEnd : α → Prop) : Call α → Prop
  | done result => atEnd result
  | engine _ next => ∀ reply, (next reply).Comes atStore atEnd
  | store request _ next => atStore request next
  | count _ next => next.Comes atStore atEnd

/-- Whatever the engine replies, the call ends with a result that has the property, and the store is
not asked. -/
def Leaves (property : α → Prop) (call : Call α) : Prop := call.Comes (fun _ _ => False) property

variable {call : Call α} {property property' : α → Prop}
  {atStore : (request : StoreRequest) → (request.Answer → Call α) → Prop} {atEnd : α → Prop}

theorem Leaves.bind {next : α → Call β} {result : β → Prop} (h : call.Leaves property)
    (hnext : ∀ value, property value → (next value).Leaves result) :
    (call.bind next).Leaves result := by
  induction call with
  | done value => exact hnext value h
  | engine request rest ih => exact fun reply => ih reply (h reply)
  | store => exact False.elim h
  | count counter rest ih => exact ih h

theorem Leaves.imp (h : call.Leaves property) (himp : ∀ value, property value → property' value) :
    call.Leaves property' := by
  induction call with
  | done value => exact himp value h
  | engine request rest ih => exact fun reply => ih reply (h reply)
  | store => exact False.elim h
  | count counter rest ih => exact ih h

theorem Leaves.ask {request : EngineRequest} {next : request.Reply → Call (Except EngineError α)}
    (h : ∀ reply, (next reply).Leaves fun _ => True) :
    (Call.ask request next).Leaves fun _ => True := by
  intro reply
  cases reply with
  | ok reply => exact h reply
  | error error => trivial

theorem Comes.step {coordinator : Nat} {before after : Backend} {rest : Call α}
    (h : call.Comes atStore atEnd) (hstep : call.step coordinator before = some (rest, after)) :
    rest.Comes atStore atEnd := by
  cases call with
  | engine request next =>
    simp only [Call.step, Option.some.injEq, Prod.mk.injEq] at hstep
    obtain ⟨rfl, -⟩ := hstep
    exact h _
  | count counter next =>
    simp only [Call.step, Option.some.injEq, Prod.mk.injEq] at hstep
    obtain ⟨rfl, -⟩ := hstep
    exact h
  | done | store => cases hstep

end Call

/-- A call that is not waiting for an answer makes a step, or gives up waiting for the store. -/
theorem Stage.running_proceed {α : Type} {call : Call α} {stage' : Stage α} {coordinator : Nat}
    {before after : Backend} {progress : Progress}
    (h : (Stage.running call).proceed coordinator before progress = some (stage', after)) :
    (∃ rest, call.step coordinator before = some (rest, after) ∧ stage' = .running rest) ∨
      ∃ request onUnknown next, call = .store request onUnknown next ∧
        ((∃ error, stage' = .running (next (.error error))) ∨
          stage' = .abandoned (EngineUpdate.applyAll onUnknown)) := by
  generalize hstage : Stage.running call = stage at h
  cases Stage.proceeds_of_proceed h with
  | advance hstep =>
    cases hstage
    exact .inl ⟨_, hstep, rfl⟩
  | refuse error request onUnknown next =>
    cases hstage
    exact .inr ⟨request, onUnknown, next, rfl, .inl ⟨error, rfl⟩⟩
  | giveUp request onUnknown next =>
    cases hstage
    exact .inr ⟨request, onUnknown, next, rfl, .inr rfl⟩
  | windUp | receive | lose | giveUpAnswered => cases hstage

namespace EngineUpdate

/-- No update waits for the store. -/
theorem apply_leaves (update : EngineUpdate) : update.apply.Leaves fun _ => True :=
  apply_induction (fun _ => trivial) (fun _ _ _ => Call.Leaves.ask) fun _ => id

theorem applyAll_leaves (updates : List EngineUpdate) :
    (applyAll updates).Leaves fun _ => True := by
  induction updates with
  | nil => trivial
  | cons update rest ih => exact update.apply_leaves.bind fun _ _ => ih

end EngineUpdate

/-! ## Calls inside a transaction -/

/-- What a call inside a transaction does once the store has answered.  `deferred` is what was left
for the commit so far. -/
structure ScopeSettles {α : Type} (deferred : List EngineUpdate) (owned request : StoreRequest)
    (next : request.Answer → Call (ScopedResult α)) : Prop where
  request_eq : request = owned
  refused : ∀ error, (next (.error error)).Leaves fun ending => ending.deferred = []
  accepted : ∀ reply, (next (.ok reply)).Leaves fun ending =>
    request.endsTransaction = false → ScopeStatement.Defers ⟨request, reply⟩ ending.deferred
  committed : request = .commit → ∀ reply cache,
    (LocalCache.run (next (.ok reply)) cache).2.engine =
      (LocalCache.run (EngineUpdate.applyAll deferred) cache).2.engine

namespace Scope

variable {deferred : List EngineUpdate} {request : StoreRequest}

theorem create_comes (user : UserId) (grant : Grant) :
    (create user grant).Comes (ScopeSettles deferred (.create user grant))
      fun ending => ending.deferred = [] := by
  refine ⟨rfl, fun _ => rfl, fun reply seen => ?_, nofun⟩
  cases seen with
  | ok version =>
    exact fun _ =>
      ScopeStatement.defers_singleton (fun _ _ hoffers => hoffers.1) fun _ => False.elim
  | error error => exact fun _ privilege => ⟨nofun, False.elim⟩

theorem update_comes (user : UserId) (grant : Grant) :
    (update user grant).Comes (ScopeSettles deferred (.update user grant))
      fun ending => ending.deferred = [] := by
  refine ⟨rfl, fun _ => rfl, fun touched => ?_, nofun⟩
  have hremove : ScopeStatement.Defers ⟨.update user grant, touched⟩
      [.remove user (.resource grant.resource)] :=
    ScopeStatement.defers_singleton (fun _ _ => False.elim) fun _ => id
  refine (EngineUpdate.apply_leaves _).bind fun _ _ seen => ?_
  cases seen with
  | error error => exact fun _ => hremove
  | ok version =>
    dsimp only
    split
    case isTrue htouched =>
      refine fun _ => ScopeStatement.defers_singleton (fun privilege _ hoffers => ?_) fun _ => id
      exact ⟨htouched, hoffers.1⟩
    case isFalse => exact fun _ => hremove

theorem delete_comes (user : UserId) (resource : ResourceId) :
    (delete user resource).Comes (ScopeSettles deferred (.delete user resource))
      fun ending => ending.deferred = [] := by
  refine ⟨rfl, fun _ => rfl, fun reply => ?_, nofun⟩
  refine (EngineUpdate.apply_leaves _).bind fun _ _ _ => ?_
  exact ScopeStatement.defers_singleton (fun _ _ => False.elim) fun _ => id

theorem syncUserRole_comes (user : UserId) (role : Role) :
    (syncUserRole user role).Comes (ScopeSettles deferred (.syncUserRole user role))
      fun ending => ending.deferred = [] := by
  refine ⟨rfl, fun _ => rfl, fun reply => ?_, nofun⟩
  refine (EngineUpdate.apply_leaves _).bind fun _ _ seen => ?_
  cases seen with
  | ok version =>
    exact fun _ => ScopeStatement.defers_singleton (fun _ _ hoffers => hoffers.1) fun _ => id
  | error error =>
    exact fun _ => ScopeStatement.defers_singleton (fun _ _ => False.elim) fun _ => id

theorem putRolePolicy_comes (role : Role) (resourceType : ResourceType) (actions : ActionSet) :
    (putRolePolicy role resourceType actions).Comes
      (ScopeSettles deferred (.putRolePolicy role resourceType actions))
      fun ending => ending.deferred = [] := by
  refine ⟨rfl, fun _ => rfl, fun reply => ?_, nofun⟩
  refine (EngineUpdate.apply_leaves _).bind fun _ _ _ => ?_
  exact ScopeStatement.defers_singleton (fun _ _ => False.elim) fun _ => id

/-- A read leaves nothing for the commit. -/
theorem settles_read (h : request.row? = none) (hcommit : request ≠ .commit) :
    ScopeSettles deferred request request fun answer : request.Answer => plain (.done answer) :=
  ⟨rfl, fun _ => rfl, fun _ _ => ScopeStatement.defers_nothing h, fun heq => absurd heq hcommit⟩

theorem validateAccess_comes (check : InstanceCheck) :
    (plain (validateAccess check)).Comes (ScopeSettles deferred (.validateAccess check))
      fun ending => ending.deferred = [] := by
  intro ofResource
  dsimp only
  split
  case isTrue => rfl
  case isFalse =>
    intro ofType
    dsimp only
    split
    case isTrue => rfl
    case isFalse => exact settles_read rfl nofun

theorem validateAccessToType_comes (check : TypeCheck) :
    (plain (validateAccessToType check)).Comes
      (ScopeSettles deferred (.validateAccessToType check))
      fun ending => ending.deferred = [] := by
  intro ofType
  dsimp only
  split
  case isTrue => rfl
  case isFalse => exact settles_read rfl nofun

/-- The updates of the commit are made whatever becomes of them. -/
theorem applyAll_leaves_result (updates : List EngineUpdate) (result : Except StorageError Unit) :
    (plain ((EngineUpdate.applyAll updates).bind fun _ => .done result)).Leaves
      fun ending => ending.deferred = [] := by
  have hresult : ((EngineUpdate.applyAll updates).bind fun _ => .done result).Leaves
      fun _ => True := (EngineUpdate.applyAll_leaves updates).bind fun _ _ => trivial
  exact hresult.bind fun _ _ => rfl

theorem commit_comes :
    (plain (commit deferred)).Comes (ScopeSettles deferred .commit)
      fun ending => ending.deferred = [] := by
  refine ⟨rfl, fun error => ?_, fun reply => ?_, fun _ reply cache => ?_⟩
  · dsimp only [Coordinator.refused]
    split
    · exact applyAll_leaves_result _ _
    · rfl
  · exact (applyAll_leaves_result deferred (.ok ())).imp fun _ _ => nofun
  · obtain rfl : reply = () := rfl
    simp only [LocalCache.run_bind, LocalCache.run]

/-- Every call inside a transaction does so. -/
theorem handle_comes (request : StoreRequest) :
    (handle deferred request).Comes (ScopeSettles deferred request)
      fun ending => ending.deferred = [] := by
  cases request with
  | create user grant => exact create_comes user grant
  | update user grant => exact update_comes user grant
  | delete user resource => exact delete_comes user resource
  | validateAccess check => exact validateAccess_comes check
  | validateAccessToType check => exact validateAccessToType_comes check
  | allPermissions => exact settles_read rfl nofun
  | allUserRoles => exact settles_read rfl nofun
  | syncUserRole user role => exact syncUserRole_comes user role
  | putRolePolicy role resourceType actions => exact putRolePolicy_comes role resourceType actions
  | commit => exact commit_comes
  | rollback => exact settles_read rfl nofun

end Scope

/-! ## Until the commit is answered -/

namespace ScopeEvent

/-- The request that the store has accepted, if the event tells of one. -/
def accepts : ScopeEvent → List ScopeStatement
  | hear request (.ok reply) => [⟨request, reply⟩]
  | _ => []

/-- What the store has accepted. -/
def accepted (events : List ScopeEvent) : List ScopeStatement := events.flatMap accepts

end ScopeEvent

/-- No commit has been answered with success, and what is left for the commit is borne out by what
has been accepted, or will be when the call under way has come to its end. -/
inductive OpenScope.Prepared (statements : List ScopeStatement) (scope : OpenScope) : Prop where
  | idle (hcurrent : scope.current = none) (h : BorneOut statements scope.deferred)
  | asking {request : StoreRequest} {call : Call (ScopedResult request.Reply)} {applied : Bool}
      (hcurrent : scope.current = some ⟨request, .running call, applied⟩)
      (h : BorneOut statements scope.deferred)
      (hcall : call.Comes (ScopeSettles scope.deferred request) fun ending => ending.deferred = [])
  | ending {request : StoreRequest} {call : Call (ScopedResult request.Reply)} {applied : Bool}
      (hcurrent : scope.current = some ⟨request, .running call, applied⟩)
      (hcall : call.Leaves fun ending => request.endsTransaction = false →
        BorneOut statements (scope.deferred ++ ending.deferred))
  | abandoned {request : StoreRequest} {rest : Call Unit} {applied : Bool}
      (hcurrent : scope.current = some ⟨request, .abandoned rest, applied⟩)
      (h : BorneOut statements scope.deferred)

theorem OpenScope.Prepared.append_nil {statements : List ScopeStatement} {scope : OpenScope}
    (h : scope.Prepared statements) : scope.Prepared (statements ++ []) := by
  rw [List.append_nil]
  exact h

/-- A call that leaves nothing for the commit. -/
theorem OpenScope.Prepared.of_nothing {statements : List ScopeStatement} {scope : OpenScope}
    {request : StoreRequest} {call : Call (ScopedResult request.Reply)} {applied : Bool}
    (hcurrent : scope.current = some ⟨request, .running call, applied⟩)
    (h : BorneOut statements scope.deferred)
    (hcall : call.Leaves fun ending => ending.deferred = []) : scope.Prepared statements := by
  refine .ending hcurrent (hcall.imp fun ending hnothing _ => ?_)
  rw [hnothing, List.append_nil]
  exact h

namespace ScopeSession

open ScopeEvent (accepted)

variable {session next : ScopeSession} {event : ScopeEvent} {events : List ScopeEvent}
  {statements : List ScopeStatement} {privilege : Privilege} {progress : Progress}

theorem prepared_proceed (h : session.scope.Prepared statements)
    (hstep : session.step (.proceed progress) = some next) : next.scope.Prepared statements := by
  simp only [step] at hstep
  split at hstep
  case h_2 => cases hstep
  case h_1 flight hflight =>
    obtain ⟨owned, stage, applied⟩ := flight
    dsimp only at hstep
    obtain ⟨⟨stage', backend⟩, hstage, rfl⟩ := Option.map_eq_some_iff.1 hstep
    cases h with
    | idle hcurrent =>
      rw [hflight] at hcurrent
      cases hcurrent
    | asking hcurrent hborne hcall =>
      cases hflight.symm.trans hcurrent
      rcases Stage.running_proceed hstage with ⟨rest, hcallStep, rfl⟩ |
        ⟨request, onUnknown, rest, rfl, ⟨error, rfl⟩ | rfl⟩
      · exact .asking rfl hborne (hcall.step hcallStep)
      · exact .of_nothing rfl hborne (hcall.refused error)
      · exact .abandoned rfl hborne
    | ending hcurrent hcall =>
      cases hflight.symm.trans hcurrent
      rcases Stage.running_proceed hstage with ⟨rest, hcallStep, rfl⟩ |
        ⟨request, onUnknown, rest, rfl, -⟩
      · exact .ending rfl (hcall.step hcallStep)
      · exact False.elim hcall
    | abandoned hcurrent hborne =>
      cases hflight.symm.trans hcurrent
      cases Stage.proceeds_of_proceed hstage with
      | windUp hcallStep => exact .abandoned rfl hborne

theorem prepared_hear {request : StoreRequest} {answer : request.Answer}
    (h : session.scope.Prepared statements)
    (hstep : session.step (.hear request answer) = some next)
    (hcommit : request = .commit → ∃ error, answer = .error error) :
    next.scope.Prepared (statements ++ (ScopeEvent.hear request answer).accepts) := by
  simp only [step] at hstep
  split at hstep
  case h_2 => cases hstep
  case h_1 owned asked onUnknown rest applied hflight =>
    split at hstep
    case isFalse => cases hstep
    case isTrue hasked =>
      subst hasked
      obtain rfl := Option.some.inj hstep
      cases h with
      | idle hcurrent =>
        rw [hflight] at hcurrent
        cases hcurrent
      | ending hcurrent hcall =>
        cases hflight.symm.trans hcurrent
        exact False.elim hcall
      | abandoned hcurrent =>
        cases hflight.symm.trans hcurrent
      | asking hcurrent hborne hcall =>
        cases hflight.symm.trans hcurrent
        have hsettles : ScopeSettles session.scope.deferred owned request rest := hcall
        cases answer with
        | error error =>
          exact .append_nil (.of_nothing rfl hborne (hsettles.refused error))
        | ok reply =>
          refine .ending rfl ((hsettles.accepted reply).imp fun ending hdefers hends => ?_)
          rw [← hsettles.request_eq] at hends
          exact hborne.append (hdefers hends)

theorem prepared_finish (h : session.scope.Prepared statements)
    (hstep : session.step .finish = some next) : next.scope.Prepared statements := by
  obtain ⟨scope, hfinish, rfl⟩ := Option.map_eq_some_iff.1 hstep
  unfold OpenScope.finish at hfinish
  split at hfinish
  case h_3 => cases hfinish
  case h_1 request ending applied hflight =>
    split at hfinish
    case isTrue => cases hfinish
    case isFalse hends =>
      obtain rfl := Option.some.inj hfinish
      refine .idle rfl ?_
      cases h with
      | idle hcurrent =>
        rw [hflight] at hcurrent
        cases hcurrent
      | asking hcurrent hborne hcall =>
        cases hflight.symm.trans hcurrent
        have hnothing : ending.deferred = [] := hcall
        rw [hnothing, List.append_nil]
        exact hborne
      | ending hcurrent hcall =>
        cases hflight.symm.trans hcurrent
        exact hcall (Bool.eq_false_iff.2 hends)
      | abandoned hcurrent => cases hflight.symm.trans hcurrent
  case h_2 request result applied hflight =>
    split at hfinish
    case isTrue => cases hfinish
    case isFalse =>
      obtain rfl := Option.some.inj hfinish
      cases h with
      | idle hcurrent =>
        rw [hflight] at hcurrent
        cases hcurrent
      | asking hcurrent => cases hflight.symm.trans hcurrent
      | ending hcurrent => cases hflight.symm.trans hcurrent
      | abandoned hcurrent hborne => exact .idle rfl hborne

/-- What is left for the commit stays borne out as long as no commit is answered with success. -/
theorem prepared_step (h : session.scope.Prepared statements)
    (hstep : session.step event = some next) (hcommit : event ≠ .hear .commit (.ok ())) :
    next.scope.Prepared (statements ++ event.accepts) := by
  cases event with
  | hear request answer =>
    refine prepared_hear h hstep ?_
    rintro rfl
    cases answer with
    | error error => exact ⟨error, rfl⟩
    | ok reply => exact absurd rfl hcommit
  | invoke request =>
    obtain ⟨scope, hinvoke, rfl⟩ := Option.map_eq_some_iff.1 hstep
    obtain ⟨hidle, rfl⟩ := OpenScope.invoke_cases hinvoke
    cases h with
    | idle hcurrent hborne =>
      exact .append_nil (.asking rfl hborne (Scope.handle_comes request))
    | asking hcurrent | ending hcurrent | abandoned hcurrent =>
      rw [hidle] at hcurrent
      cases hcurrent
  | proceed progress => exact .append_nil (prepared_proceed h hstep)
  | finish => exact .append_nil (prepared_finish h hstep)
  | disturb shared =>
    obtain rfl := Option.some.inj hstep
    exact .append_nil h

theorem prepared_run (h : session.scope.Prepared statements) (hrun : session.run events = some next)
    (hcommit : .hear .commit (.ok ()) ∉ events) :
    next.scope.Prepared (statements ++ accepted events) := by
  induction events generalizing session statements with
  | nil =>
    obtain rfl := Option.some.inj hrun
    exact .append_nil h
  | cons event rest ih =>
    obtain ⟨middle, hstep, hrest⟩ := Option.bind_eq_some_iff.1 hrun
    obtain ⟨hevent, hlater⟩ := not_or.1 (mt List.mem_cons.2 hcommit)
    have hmiddle := prepared_step h hstep fun heq => hevent heq.symm
    have hnext := ih hmiddle hrest hlater
    rw [List.append_assoc] at hnext
    exact hnext

end ScopeSession

end AccessControl
