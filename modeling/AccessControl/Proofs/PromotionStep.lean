import AccessControl.Proofs.CutOff
import AccessControl.Proofs.PromotionCall
import AccessControl.Proofs.ScopeRun

/-!
# What a move of a party does to a new role

A party is bound to promote a user from the moment at which the store has taken the administrative
role from it, until it has asked the engine for the promotion.  A transaction whose draft grants the
role has a promotion among the updates that it holds back, or its call is about to leave one.  So
whenever the store gains an administrator, some party is bound; and an administrator of the engine is
lost only at a request that unmakes him.
-/

namespace AccessControl

/-! ## Stages of a call -/

/-- The request to the engine that the call makes next, if it does not wait for its store. -/
def Call.next? {α : Type} : Call α → Option EngineRequest
  | engine request _ => some request
  | _ => none

namespace Stage

variable {α : Type} {user : UserId}

/-- The request to the engine that the call makes next. -/
def next? : Stage α → Option EngineRequest
  | running rest => rest.next?
  | answered .. => none
  | abandoned rest => rest.next?

/-- Wherever it stands, the call keeps to what it was made for. -/
def Upon (owned : StoreRequest) (accepted : Call α → Prop) : Stage α → Prop
  | running rest => rest.Upon owned accepted
  | answered _ _ next _ => ∀ answer, (next answer).Upon owned accepted
  | abandoned _ => True

/-- If the call hears what its store has answered, it promotes the user. -/
def Promotes (user : UserId) : Stage α → Prop
  | running rest => rest.Always (EngineRequest.Promotes user)
  | answered _ _ next answer => (next answer).Always (EngineRequest.Promotes user)
  | abandoned _ => False

/-- If the call hears what its store has answered, it leaves a promotion for the commit. -/
def Leaves (user : UserId) : Stage (ScopedResult α) → Prop
  | running rest => rest.Ends fun result => Scope.Promised user result.deferred
  | answered _ _ next answer => (next answer).Ends fun result => Scope.Promised user result.deferred
  | abandoned _ => False

end Stage

section

variable {α : Type} {user : UserId} {coordinator : Nat} {before after : Backend}
  {progress : Progress}

theorem Call.Upon.step {owned : StoreRequest} {accepted : Call α → Prop} {call rest : Call α}
    (h : call.Upon owned accepted) (hstep : call.step coordinator before = some (rest, after))
    (htrusted : before.Trusted) : rest.Upon owned accepted := by
  rcases Call.step_cases hstep htrusted with ⟨counter, rfl, -⟩ | ⟨request, next, rfl, rfl, -⟩
  · exact h
  · exact h _

/-- A step of a call loses an administrator, or keeps a promotion from being made, only at a request
that unmakes him. -/
theorem Call.step_administration {call rest : Call α}
    (hstep : call.step coordinator before = some (rest, after)) (htrusted : before.Trusted) :
    (∃ asked, call.next? = some asked ∧ asked.Unmakes user before.engine.base) ∨
      (before.Holds (.administration user) → after.Holds (.administration user)) ∧
      (call.Always (EngineRequest.Promotes user) →
        after.Holds (.administration user) ∨ rest.Always (EngineRequest.Promotes user)) := by
  rcases Call.step_cases hstep htrusted with ⟨counter, rfl, rfl⟩ | ⟨request, next, rfl, rfl, rfl⟩
  · exact .inr ⟨id, .inr⟩
  · by_cases hunmakes : request.Unmakes user before.engine.base
    · exact .inl ⟨request, rfl, hunmakes⟩
    · rw [Backend.Holds, Backend.Holds, Backend.askEngine_base htrusted]
      refine .inr ⟨fun hheld => FactBase.holds_administration_of_held hheld hunmakes,
        fun halways => (halways _).imp_left fun hpromotes => ?_⟩
      exact FactBase.holds_of_promotes hpromotes hunmakes

namespace Stage.Proceeds

variable {stage stage' : Stage α}
  (h : stage.Proceeds coordinator before progress stage' after) (htrusted : before.Trusted)

include h htrusted

theorem upon {owned : StoreRequest} {accepted : Call α → Prop}
    (hupon : stage.Upon owned accepted) : stage'.Upon owned accepted := by
  cases h with
  | advance hstep => exact Call.Upon.step hupon hstep htrusted
  | receive request onUnknown next answer => exact hupon answer
  | refuse error request onUnknown next => exact hupon.2.2 _
  | lose reason request onUnknown next answer => exact hupon _
  | windUp | giveUp | giveUpAnswered => trivial

/-- A call that goes on loses an administrator only at a request that unmakes him. -/
theorem holds_administration (hheld : before.Holds (.administration user)) :
    after.Holds (.administration user) ∨ progress = .advance ∧
      ∃ asked, stage.next? = some asked ∧ asked.Unmakes user before.engine.base := by
  cases h with
  | advance hstep | windUp hstep =>
    rcases Call.step_administration hstep htrusted with hunmakes | ⟨hkeeps, -⟩
    · exact .inr ⟨rfl, hunmakes⟩
    · exact .inl (hkeeps hheld)
  | _ => exact .inl hheld

/-- A call that hears its store and is bound to promote the user stays bound, or makes him an
administrator, or its promotion is refused. -/
theorem promotes (hheard : stage.hasAnswer = true → progress.fails = false)
    (hbound : stage.Promotes user) :
    after.Holds (.administration user) ∨ stage'.Promotes user ∨ progress = .advance ∧
      ∃ asked, stage.next? = some asked ∧ asked.Unmakes user before.engine.base := by
  cases h with
  | advance hstep =>
    rcases Call.step_administration hstep htrusted with hunmakes | ⟨-, hpromotes⟩
    · exact .inr (.inr ⟨rfl, hunmakes⟩)
    · exact (hpromotes hbound).imp_right .inl
  | receive => exact .inr (.inl hbound)
  | lose | giveUpAnswered => cases hheard rfl
  | windUp | refuse | giveUp => exact False.elim hbound

end Stage.Proceeds

/-- A call that hears its store and is to leave a promotion for the commit leaves one. -/
theorem Stage.Proceeds.leaves {stage stage' : Stage (ScopedResult α)}
    (h : stage.Proceeds coordinator before progress stage' after) (htrusted : before.Trusted)
    (hheard : stage.hasAnswer = true → progress.fails = false) (hleaves : stage.Leaves user) :
    stage'.Leaves user := by
  cases h with
  | advance hstep => exact Call.Ends.step hstep htrusted hleaves
  | receive => exact hleaves
  | lose | giveUpAnswered => cases hheard rfl
  | windUp | refuse | giveUp => exact False.elim hleaves

end

/-! ## Drafts -/

namespace MemoryStore

variable {store : MemoryStore} {user : UserId} {draft writes : List RowWrite} {write : RowWrite}

/-- Writes to other rows leave the role of a user alone. -/
theorem backs_administration_of_notMem (h : .role user ∉ writes.map RowWrite.row) :
    (RowWrite.applyAll store writes).Backs (.administration user) ↔
      store.Backs (.administration user) := by
  refine backs_congr fun row hrow => ?_
  obtain rfl : row = .role user := hrow
  exact sameAt_applyAll_of_notMem h

/-- A draft that writes the role of a user decides alone whether he is an administrator. -/
theorem backs_administration_of_mem (h : .role user ∈ draft.map RowWrite.row) :
    (RowWrite.applyAll store draft).Backs (.administration user) ↔
      RowWrite.Grants draft (.administration user) :=
  backs_applyAll_congr id ⟨.role user, h, rfl⟩

/-- A role that makes an administrator is administrative. -/
theorem administrative_of_backs {role : Role}
    (h : (RowWrite.apply store (.role user role)).Backs (.administration user)) :
    role.isAdministrative = true := by
  obtain ⟨other, hother, hadmin⟩ := h
  have heq : role = other := by simpa [RowWrite.apply] using hother
  rw [heq, hadmin]

/-- A store that writes the role of a user was asked to. -/
theorem syncUserRole_of_writeOf {request : StoreRequest} (h : store.writeOf request = some write)
    (hrow : write.row = .role user) :
    ∃ role, request = .syncUserRole user role ∧ write = .role user role := by
  have hown := row_of_writeOf h
  rw [hrow] at hown
  cases request with
  | syncUserRole subject role =>
    cases hown
    simp only [writeOf, Option.ite_none_right_eq_some, Option.some.injEq] at h
    exact ⟨role, rfl, h.2.symm⟩
  | _ => cases hown

end MemoryStore

theorem RowWrite.grants_role {user : UserId} {role : Role} {draft : List RowWrite}
    (h : Grants (draft ++ [.role user role]) (.administration user)) :
    role.isAdministrative = true := by
  rw [Grants, applyAll_write] at h
  exact MemoryStore.administrative_of_backs h

/-- A write to another row leaves what a draft says of the user as it was. -/
theorem RowWrite.grants_of_append {user : UserId} {draft : List RowWrite} {write : RowWrite}
    (hrow : write.row ≠ .role user) (h : Grants (draft ++ [write]) (.administration user)) :
    Grants draft (.administration user) := by
  rw [Grants, MemoryStore.applyAll_append] at h
  have hother : .role user ∉ [write].map RowWrite.row := by
    simpa using hrow.symm
  exact (MemoryStore.backs_administration_of_notMem hother).1 h

/-! ## Parties -/

/-- A transaction keeps to what its calls were made for, and if its draft grants the user an
administrative role, then a promotion is held back or about to be. -/
structure OpenScope.Faithful (user : UserId) (scope : OpenScope) : Prop where
  upon : ∀ flight, scope.current = some flight →
    flight.stage.Upon flight.request (Scope.Promising user scope.deferred flight.request)
  promised : RowWrite.Grants scope.draft (.administration user) →
    Scope.Promised user scope.deferred ∨ ∃ flight, scope.current = some flight ∧
      flight.request.row?.isSome = true ∧ flight.stage.Leaves user

namespace Party

/-- The party keeps to what its calls were made for. -/
def Faithful (user : UserId) : Party → Prop
  | call _ flight => flight.stage.Upon flight.request (Coordinator.Promoting user flight.request)
  | scope opened => opened.Faithful user

/-- The party has still to ask the engine to promote the user. -/
def Bound (user : UserId) : Party → Prop
  | call _ flight => flight.stage.Promotes user
  | scope opened => ∃ flight, opened.current = some flight ∧ flight.request = .commit ∧
      flight.stage.Promotes user

/-- The request to the engine that the party makes next. -/
def next? : Party → Option EngineRequest
  | call _ flight => flight.stage.next?
  | scope opened => opened.current.bind fun flight => flight.stage.next?

/-- Whether the next request of the party leaves the user without an administrative role. -/
def Unmakes (user : UserId) (base : FactBase) (party : Party) : Prop :=
  ∃ asked, party.next? = some asked ∧ asked.Unmakes user base

/-- What a move of the party writes into the store of record. -/
def writes (store : MemoryStore) : Move → Party → List RowWrite
  | .ask, call _ flight =>
    match flight.stage with
    | .running (.store request _ _) => (store.writeOf request).toList
    | _ => []
  | .askWithin _, scope opened =>
    match opened.current with
    | some ⟨_, .running (.store request _ _), _⟩ => if request = .commit then opened.draft else []
    | _ => []
  | _, _ => []

/-- Whether the party goes on without the answer that the store has given to a call to a coordinator
or to a commit. -/
def DropsAnswer : Move → Party → Prop
  | .proceed progress, call _ flight =>
    flight.stage.hasAnswer = true ∧ progress.fails = true
  | .proceed progress, scope opened => ∃ flight, opened.current = some flight ∧
      flight.request = .commit ∧ flight.stage.hasAnswer = true ∧ progress.fails = true
  | _, _ => False

end Party

theorem Stage.Promotes.unfinished {α : Type} {stage : Stage α} {user : UserId}
    (h : stage.Promotes user) : stage.finished = false := by
  cases stage with
  | running rest =>
    cases rest with
    | done => exact False.elim h
    | _ => rfl
  | answered => rfl
  | abandoned => exact False.elim h

/-- A party at rest is not bound. -/
theorem Party.Bound.unquiet {user : UserId} {party : Party} (h : party.Bound user) :
    party.quiet = false := by
  cases party with
  | call coordinator flight => exact h.unfinished
  | scope opened =>
    obtain ⟨flight, hcurrent, -, hpromotes⟩ := h
    rw [quiet, hcurrent]
    exact hpromotes.unfinished

/-- What a call inside a transaction leaves when it has come to its end. -/
theorem OpenScope.finish_leaves {scope scope' : OpenScope} (h : scope.finish = some scope') :
    scope'.draft = scope.draft ∧ scope'.current = none ∧ ∃ flight, scope.current = some flight ∧
      ((∃ ending, flight.stage = .running (.done ending) ∧
          scope'.deferred = scope.deferred ++ ending.deferred) ∨
        flight.stage = .abandoned (.done ()) ∧ scope'.deferred = scope.deferred) := by
  unfold finish at h
  split at h
  case h_1 request ending applied hcurrent =>
    split at h
    · cases h
    · obtain rfl := Option.some.inj h
      exact ⟨rfl, rfl, _, hcurrent, .inl ⟨ending, rfl, rfl⟩⟩
  case h_2 request applied hcurrent =>
    split at h
    · cases h
    · obtain rfl := Option.some.inj h
      exact ⟨rfl, rfl, _, hcurrent, .inr ⟨rfl, rfl⟩⟩
  case h_3 => cases h

section

variable {user : UserId} {locked : List Row} {before after : Backend} {move : Move}

/-- The promise of a transaction, with a call that waits for its store. -/
theorem OpenScope.Faithful.promised_waiting {scope : OpenScope} {owned request : StoreRequest}
    {onUnknown : List EngineUpdate} {next : request.Answer → Call (ScopedResult owned.Reply)}
    {applied : Bool} (h : scope.Faithful user)
    (hcurrent : scope.current = some ⟨owned, .running (.store request onUnknown next), applied⟩)
    (hgrants : RowWrite.Grants scope.draft (.administration user)) :
    Scope.Promised user scope.deferred := by
  rcases h.promised hgrants with hpromised | ⟨flight, hflight, -, hleaves⟩
  · exact hpromised
  · rw [hcurrent] at hflight
    cases hflight
    exact False.elim hleaves

theorem OpenScope.Faithful.proceed {scope scope' : OpenScope} {progress : Progress}
    (h : scope.Faithful user) (hproceed : scope.proceed before progress = some (scope', after))
    (htrusted : before.Trusted) : scope'.Faithful user := by
  obtain ⟨flight, stage', hcurrent, hspared, hproceeds, rfl⟩ := proceed_cases hproceed
  refine ⟨fun flight' hflight => ?_, fun hgrants => ?_⟩
  · cases hflight
    exact hproceeds.upon htrusted (h.upon flight hcurrent)
  · dsimp only [draftAfter] at hgrants
    split at hgrants
    case isTrue => exact absurd hgrants MemoryStore.not_backs_empty
    case isFalse =>
      refine (h.promised hgrants).imp_right ?_
      rintro ⟨flight', hflight, hrow, hleaves⟩
      cases hcurrent.symm.trans hflight
      refine ⟨_, rfl, hrow, hproceeds.leaves htrusted (fun hanswer => ?_) hleaves⟩
      -- a write inside a transaction is not cut off
      refine Bool.eq_false_iff.2 fun hfails => ?_
      have hnone := hspared (hproceeds.lost hanswer hfails)
      rw [hnone] at hrow
      cases hrow

theorem OpenScope.Faithful.ask {scope scope' : OpenScope} {reading : MemoryStore}
    (h : scope.Faithful user) (hask : scope.ask locked before reading = some (scope', after)) :
    scope'.Faithful user := by
  obtain ⟨owned, request, onUnknown, next, applied, hcurrent, -, -, rfl, rfl⟩ := ask_cases hask
  obtain ⟨rfl, haccepted, hrest⟩ := h.upon _ hcurrent
  refine ⟨fun flight hflight => ?_, fun hgrants => ?_⟩
  · cases hflight
    exact hrest
  · dsimp only at hgrants
    split at hgrants
    case isTrue => exact absurd hgrants MemoryStore.not_backs_empty
    case isFalse =>
      cases hwrite : reading.writeOf request with
      | none =>
        rw [hwrite, Option.toList_none, List.append_nil] at hgrants
        exact .inl (h.promised_waiting hcurrent hgrants)
      | some write =>
        rw [hwrite, Option.toList_some] at hgrants
        by_cases hrow : write.row = .role user
        · obtain ⟨role, rfl, rfl⟩ := MemoryStore.syncUserRole_of_writeOf hwrite hrow
          obtain ⟨reply, hreply⟩ := MemoryStore.answer_ok_of_writeOf hwrite
          refine .inr ⟨_, rfl, rfl, ?_⟩
          rw [hreply]
          exact (haccepted reply).leaves role rfl (RowWrite.grants_role hgrants)
        · exact .inl (h.promised_waiting hcurrent (RowWrite.grants_of_append hrow hgrants))

theorem OpenScope.Faithful.invoke {scope scope' : OpenScope} {request : StoreRequest}
    (h : scope.Faithful user) (hinvoke : scope.invoke request = some scope') :
    scope'.Faithful user := by
  obtain ⟨hidle, rfl⟩ := invoke_cases hinvoke
  refine ⟨fun flight hflight => ?_, fun hgrants => ?_⟩
  · cases hflight
    exact Scope.handle_upon request
  · refine (h.promised hgrants).imp_right ?_
    rintro ⟨flight, hflight, -⟩
    rw [hidle] at hflight
    cases hflight

theorem OpenScope.Faithful.finish {scope scope' : OpenScope} (h : scope.Faithful user)
    (hfinish : scope.finish = some scope') : scope'.Faithful user := by
  obtain ⟨hdraft, hidle, flight, hcurrent, hends⟩ := finish_leaves hfinish
  refine ⟨fun flight' hflight => ?_, fun hgrants => .inl ?_⟩
  · rw [hidle] at hflight
    cases hflight
  · rw [hdraft] at hgrants
    rcases h.promised hgrants with ⟨update, hmem, hpromotes⟩ | ⟨flight', hflight, -, hleaves⟩
    · refine ⟨update, ?_, hpromotes⟩
      rcases hends with ⟨ending, -, hdeferred⟩ | ⟨-, hdeferred⟩
      · rw [hdeferred]
        exact List.mem_append_left _ hmem
      · rwa [hdeferred]
    · cases hcurrent.symm.trans hflight
      rcases hends with ⟨ending, hstage, hdeferred⟩ | ⟨hstage, -⟩
      · rw [hstage] at hleaves
        obtain ⟨update, hmem, hpromotes⟩ := hleaves
        refine ⟨update, ?_, hpromotes⟩
        rw [hdeferred]
        exact List.mem_append_right _ hmem
      · rw [hstage] at hleaves
        exact False.elim hleaves

/-- A move of a party leaves it faithful. -/
theorem Party.Faithful.moves {party party' : Party} (h : party.Faithful user)
    (hmove : party.move locked before move = some (party', after)) (htrusted : before.Trusted) :
    party'.Faithful user := by
  cases party with
  | call coordinator flight =>
    rcases call_moves hmove with ⟨progress, stage', -, hproceeds, rfl⟩ | ⟨flight', -, hask, rfl⟩
    · exact hproceeds.upon htrusted h
    · obtain ⟨request, onUnknown, next, hstage, -, rfl, -⟩ := CoordinatorFlight.ask_cases hask
      have hupon : flight.stage.Upon flight.request _ := h
      rw [hstage] at hupon
      exact hupon.2.2
  | scope opened =>
    have hopened : opened.Faithful user := h
    obtain ⟨opened', rfl, hcases⟩ := scope_moves hmove
    rcases hcases with ⟨progress, -, hproceed⟩ | ⟨reading, -, hask⟩ |
      ⟨request, -, hinvoke, -⟩ | ⟨-, hfinish, -⟩
    · exact hopened.proceed hproceed htrusted
    · exact hopened.ask hask
    · exact hopened.invoke hinvoke
    · exact hopened.finish hfinish

/-- At a move, an administrator of the engine stays one and a party stays bound, or the party makes
an administrator, or its request unmakes him. -/
def Party.Upholds (user : UserId) (before after : Backend) (party party' : Party) (move : Move) :
    Prop :=
  before.Holds (.administration user) ∨ party.Bound user →
    after.Holds (.administration user) ∨ party'.Bound user ∨
      move = .proceed .advance ∧ party.Unmakes user before.engine.base

/-- What becomes of an administrator of the store at a move of a party: the move writes his role, and
then the party is bound to promote him; or it does not, and upholds what was. -/
def Party.Attends (user : UserId) (before after : Backend) (party party' : Party) (move : Move) :
    Prop :=
  .role user ∈ (party.writes before.store move).map RowWrite.row ∧ party'.Bound user ∨
    .role user ∉ (party.writes before.store move).map RowWrite.row ∧
      before.Backs (.administration user) ∧ party.Upholds user before after party' move

theorem Party.attends_of_unwritten {party party' : Party}
    (hwrites : party.writes before.store move = []) (hstore : after.store = before.store)
    (hbacks : after.Backs (.administration user))
    (hupholds : party.Upholds user before after party' move) :
    party.Attends user before after party' move := by
  rw [Backend.Backs, hstore] at hbacks
  refine .inr ⟨?_, hbacks, hupholds⟩
  rw [hwrites]
  exact List.not_mem_nil

/-- A party that is not bound and leaves the engine alone upholds what was. -/
theorem Party.upholds_of_unbound {party party' : Party} (hengine : after.engine = before.engine)
    (hunbound : ¬party.Bound user) : party.Upholds user before after party' move := by
  rintro (hheld | hbound)
  · rw [Backend.Holds, ← hengine] at hheld
    exact .inl hheld
  · exact absurd hbound hunbound

theorem Party.attends_call {coordinator : Nat} {flight : CoordinatorFlight} {party' : Party}
    (h : (Party.call coordinator flight).Faithful user)
    (hmove : (Party.call coordinator flight).move locked before move = some (party', after))
    (htrusted : before.Trusted) (hheard : ¬(Party.call coordinator flight).DropsAnswer move)
    (hbacks : after.Backs (.administration user)) :
    (Party.call coordinator flight).Attends user before after party' move := by
  rcases call_moves hmove with ⟨progress, stage', rfl, hproceeds, rfl⟩ | ⟨flight', rfl, hask, rfl⟩
  · refine attends_of_unwritten rfl (hproceeds.store htrusted) hbacks ?_
    have hhears : flight.stage.hasAnswer = true → progress.fails = false := fun hanswer =>
      Bool.eq_false_iff.2 fun hfails => hheard ⟨hanswer, hfails⟩
    rintro (hheld | hbound)
    · refine (hproceeds.holds_administration htrusted hheld).imp_right fun hunmade => .inr ?_
      exact ⟨congrArg _ hunmade.1, hunmade.2⟩
    · refine (hproceeds.promotes htrusted hhears hbound).imp_right (Or.imp_right fun hunmade => ?_)
      exact ⟨congrArg _ hunmade.1, hunmade.2⟩
  · obtain ⟨request, onUnknown, next, hstage, -, rfl, rfl⟩ := CoordinatorFlight.ask_cases hask
    have hupon : flight.stage.Upon flight.request (Coordinator.Promoting user flight.request) := h
    rw [hstage] at hupon
    obtain ⟨hrequest, haccepted, -⟩ := hupon
    have hunbound : ¬(Party.call coordinator flight).Bound user := by
      intro hbound
      have hpromotes : flight.stage.Promotes user := hbound
      rw [hstage] at hpromotes
      exact hpromotes
    have hwrites : (Party.call coordinator flight).writes before.store .ask =
        (before.store.writeOf request).toList := by
      simp only [writes, hstage]
    rw [Backend.Backs, MemoryStore.backs_answer, ← hwrites] at hbacks
    by_cases hrow : .role user ∈ ((Party.call coordinator flight).writes before.store .ask).map
        RowWrite.row
    · refine .inl ⟨hrow, ?_⟩
      rw [hwrites, List.mem_map] at hrow
      obtain ⟨write, hwrite, hrole⟩ := hrow
      rw [Option.mem_toList] at hwrite
      obtain ⟨role, rfl, rfl⟩ := MemoryStore.syncUserRole_of_writeOf hwrite hrole
      obtain ⟨reply, hreply⟩ := MemoryStore.answer_ok_of_writeOf hwrite
      have hadmin : role.isAdministrative = true := by
        rw [hwrites, hwrite, Option.toList_some] at hbacks
        exact MemoryStore.administrative_of_backs hbacks
      have hpromotes : (next (.ok reply)).Always (EngineRequest.Promotes user) :=
        haccepted reply role hrequest.symm hadmin
      rw [← hreply] at hpromotes
      exact hpromotes
    · rw [MemoryStore.backs_administration_of_notMem hrow] at hbacks
      exact .inr ⟨hrow, hbacks, upholds_of_unbound rfl hunbound⟩

theorem Party.attends_scope {opened : OpenScope} {party' : Party}
    (h : opened.Faithful user)
    (hmove : (Party.scope opened).move locked before move = some (party', after))
    (htrusted : before.Trusted) (hheard : ¬(Party.scope opened).DropsAnswer move)
    (hbacks : after.Backs (.administration user)) :
    (Party.scope opened).Attends user before after party' move := by
  obtain ⟨opened', rfl, hcases⟩ := scope_moves hmove
  rcases hcases with ⟨progress, rfl, hproceed⟩ | ⟨reading, rfl, hask⟩ |
    ⟨request, rfl, hinvoke, rfl⟩ | ⟨rfl, hfinish, rfl⟩
  · obtain ⟨flight, stage', hcurrent, -, hproceeds, rfl⟩ := OpenScope.proceed_cases hproceed
    refine attends_of_unwritten rfl (hproceeds.store htrusted) hbacks ?_
    have hnext : (Party.scope opened).next? = flight.stage.next? := by
      rw [next?, hcurrent, Option.bind_some]
    rintro (hheld | ⟨flight', hflight, hcommit, hpromotes⟩)
    · refine (hproceeds.holds_administration htrusted hheld).imp_right fun hunmade => .inr ?_
      rw [Unmakes, hnext]
      exact ⟨congrArg _ hunmade.1, hunmade.2⟩
    · cases hcurrent.symm.trans hflight
      have hhears : flight.stage.hasAnswer = true → progress.fails = false := fun hanswer =>
        Bool.eq_false_iff.2 fun hfails => hheard ⟨flight, hcurrent, hcommit, hanswer, hfails⟩
      rw [Unmakes, hnext]
      rcases hproceeds.promotes htrusted hhears hpromotes with hholds | hbound | hunmade
      · exact .inl hholds
      · exact .inr (.inl ⟨_, rfl, hcommit, hbound⟩)
      · exact .inr (.inr ⟨congrArg _ hunmade.1, hunmade.2⟩)
  · obtain ⟨owned, request, onUnknown, next, applied, hcurrent, -, -, rfl, rfl⟩ :=
      OpenScope.ask_cases hask
    obtain ⟨rfl, haccepted, -⟩ := h.upon _ hcurrent
    have hunbound : ¬(Party.scope opened).Bound user := by
      rintro ⟨flight, hflight, -, hpromotes⟩
      cases hcurrent.symm.trans hflight
      exact hpromotes
    have hwrites : (Party.scope opened).writes before.store (.askWithin reading) =
        if request = .commit then opened.draft else [] := by
      simp only [writes, hcurrent]
    by_cases hcommit : request = .commit
    case neg =>
      rw [if_neg hcommit] at hwrites
      refine attends_of_unwritten hwrites ?_ hbacks (upholds_of_unbound rfl hunbound)
      exact if_neg hcommit
    case pos =>
      subst hcommit
      rw [if_pos rfl] at hwrites
      have hview : (RowWrite.applyAll before.store opened.draft).Backs (.administration user) :=
        hbacks
      by_cases hrow : .role user ∈ opened.draft.map RowWrite.row
      · refine .inl ⟨by rwa [hwrites], _, rfl, rfl, ?_⟩
        have hgrants := (MemoryStore.backs_administration_of_mem hrow).1 hview
        exact (haccepted ()).promotes rfl (h.promised_waiting hcurrent hgrants)
      · refine .inr ⟨by rwa [hwrites], ?_, upholds_of_unbound rfl hunbound⟩
        exact (MemoryStore.backs_administration_of_notMem hrow).1 hview
  · obtain ⟨hidle, rfl⟩ := OpenScope.invoke_cases hinvoke
    refine attends_of_unwritten rfl rfl hbacks (upholds_of_unbound rfl ?_)
    rintro ⟨flight, hflight, -⟩
    rw [hidle] at hflight
    cases hflight
  · obtain ⟨-, -, flight, hcurrent, hends⟩ := OpenScope.finish_leaves hfinish
    refine attends_of_unwritten rfl rfl hbacks (upholds_of_unbound rfl ?_)
    rintro ⟨flight', hflight, -, hpromotes⟩
    cases hcurrent.symm.trans hflight
    rcases hends with ⟨ending, hstage, -⟩ | ⟨hstage, -⟩
    · rw [hstage] at hpromotes
      exact hpromotes
    · rw [hstage] at hpromotes
      exact hpromotes

/-- A faithful party attends to the administrators of the store. -/
theorem Party.Faithful.attends {party party' : Party} (h : party.Faithful user)
    (hmove : party.move locked before move = some (party', after)) (htrusted : before.Trusted)
    (hheard : ¬party.DropsAnswer move) (hbacks : after.Backs (.administration user)) :
    party.Attends user before after party' move := by
  cases party with
  | call coordinator flight => exact attends_call h hmove htrusted hheard hbacks
  | scope opened => exact attends_scope h hmove htrusted hheard hbacks

end

end AccessControl
