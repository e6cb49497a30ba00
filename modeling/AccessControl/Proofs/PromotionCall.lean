import AccessControl.Proofs.AnswerOrigin

/-!
# What a call does to a new role

A promotion is a request of the engine to record an administrative role.  A call to a coordinator
makes it after the store has accepted the new role.  A call inside a transaction leaves it for the
commit, and the commit makes the promotions that were left.  The engine can refuse a promotion, if
the counter of the subject has moved; then nothing asks for it again.
-/

namespace AccessControl

namespace EngineRequest

/-- Whether the request is a promotion of the user. -/
def Promotes (user : UserId) : (request : EngineRequest) → request.Reply → Prop
  | setRoleIfCurrent subject role _, _ => subject = user ∧ role.isAdministrative = true
  | _, _ => False

/-- Whether the request leaves the user without an administrative role in this fact base: it records
an ordinary role, or it is a promotion that is refused. -/
def Unmakes (user : UserId) (base : FactBase) : EngineRequest → Prop
  | setRole subject role => subject = user ∧ role.isAdministrative = false
  | setRoleIfCurrent subject role seen => subject = user ∧
      (role.isAdministrative = false ∧ base.roleVersion user = seen ∨
        role.isAdministrative = true ∧ base.roleVersion user ≠ seen)
  | _ => False

end EngineRequest

namespace FactBase

variable {base : FactBase} {request : EngineRequest} {user : UserId}

/-- An administrator stays one, unless a request unmakes him. -/
theorem holds_administration_of_held (h : base.Holds (.administration user))
    (hkept : ¬request.Unmakes user base) :
    (base.answer request).2.Holds (.administration user) := by
  cases request with
  | setRole subject role =>
    by_cases hsubject : subject = user
    · have hadmin : role.isAdministrative = true := by
        simpa [EngineRequest.Unmakes, hsubject] using hkept
      exact holds_setRole.2 (.inl ⟨congrArg _ hsubject.symm, hadmin⟩)
    · refine holds_setRole.2 (.inr ⟨h, fun heq => ?_⟩)
      cases heq
      exact hsubject rfl
  | setRoleIfCurrent subject role seen =>
    rw [answer]
    split
    case isFalse => exact h
    case isTrue hcurrent =>
      by_cases hsubject : subject = user
      · subst hsubject
        have hadmin : role.isAdministrative = true := by
          simpa [EngineRequest.Unmakes, hcurrent] using hkept
        exact holds_setRole.2 (.inl ⟨rfl, hadmin⟩)
      · refine holds_setRole.2 (.inr ⟨h, fun heq => ?_⟩)
        cases heq
        exact hsubject rfl
  | removeFacts | replaceFacts => exact holds_answer_of_held h (by rintro ⟨action, ⟨⟩⟩)
  | clearObject => exact holds_answer_of_held h (by rintro ⟨subject, action, ⟨⟩⟩)
  | replaceFactsIfCurrent => exact holds_answer_of_held h (by rintro ⟨-, action, ⟨⟩⟩)
  | _ => exact holds_answer_of_held h id

/-- A promotion that is not refused makes an administrator. -/
theorem holds_of_promotes {reply : request.Reply} (h : request.Promotes user reply)
    (hkept : ¬request.Unmakes user base) :
    (base.answer request).2.Holds (.administration user) := by
  cases request with
  | setRoleIfCurrent subject role seen =>
    obtain ⟨rfl, hadmin⟩ := h
    have hcurrent : base.roleVersion subject = seen := by
      simpa [EngineRequest.Unmakes, hadmin] using hkept
    rw [answer, if_pos hcurrent]
    exact holds_setRole.2 (.inl ⟨rfl, hadmin⟩)
  | _ => exact False.elim h

end FactBase

namespace EngineUpdate

variable {user : UserId}

/-- Whether the update is a promotion of the user. -/
def Promotes (user : UserId) : EngineUpdate → Prop
  | assignRole subject role _ => subject = user ∧ role.isAdministrative = true
  | _ => False

theorem apply_promotes {update : EngineUpdate} (h : update.Promotes user) :
    update.apply.Always (EngineRequest.Promotes user) := by
  cases update with
  | assignRole subject role seen => exact fun reply => .inl h
  | _ => exact False.elim h

/-- Promotions in a list of updates are made with the list. -/
theorem applyAll_promotes {updates : List EngineUpdate}
    (h : ∃ update ∈ updates, update.Promotes user) :
    (applyAll updates).Always (EngineRequest.Promotes user) := by
  induction updates with
  | nil => simp at h
  | cons update rest ih =>
    obtain ⟨other, hmem, hother⟩ := h
    rcases List.mem_cons.1 hmem with rfl | hrest
    · exact (apply_promotes hother).bind_left
    · exact update.apply_silent.always_bind fun _ => ih ⟨other, hrest, hother⟩

end EngineUpdate

namespace Call

variable {α β : Type} {owned : StoreRequest} {accepted : Call α → Prop} {call : Call α}

/-- The call asks its store for nothing but what it was made for, and what is left of it once that
has been accepted is as described. -/
def Upon (owned : StoreRequest) (accepted : Call α → Prop) : Call α → Prop
  | done _ => True
  | engine _ next => ∀ reply, (next (.ok reply)).Upon owned accepted
  | store request _ next => request = owned ∧ (∀ reply, accepted (next (.ok reply))) ∧
      ∀ answer, (next answer).Upon owned accepted
  | count _ next => next.Upon owned accepted

/-- A call that does not ask its store has nothing to keep to. -/
theorem All.upon {property : EngineRequest → Prop} (h : call.All property) :
    call.Upon owned accepted := by
  induction call with
  | done => trivial
  | engine request next ih => exact fun reply => ih _ (h.2 reply)
  | store => exact False.elim h
  | count counter next ih => exact ih h

end Call

/-! ## Calls to a coordinator -/

namespace Coordinator

variable {user : UserId} {owned : StoreRequest}

/-- What is left of a call to a coordinator, once its new administrative role has been accepted,
promotes the user. -/
def Promoting (user : UserId) (owned : StoreRequest) (rest : Call owned.Answer) : Prop :=
  ∀ role, owned = .syncUserRole user role → role.isAdministrative = true →
    rest.Always (EngineRequest.Promotes user)

theorem settle_silent {α : Type} (update : EngineUpdate) (result : α) :
    (settle update result).All fun _ => True :=
  update.apply_silent.bind fun _ => trivial

theorem refused_silent {α : Type} (error : StorageError) (updates : List EngineUpdate) :
    (refused (α := α) error updates).All fun _ => True :=
  refused_all error (EngineUpdate.applyAll_silent updates)

theorem repair_silent (subject : UserId) (object : PolicyObject) (action : Action)
    (version : FactVersion) :
    (repair subject object action (.ok version)).All fun _ => True := by
  refine ⟨trivial, fun added => ?_⟩
  cases added <;> trivial

theorem handle_upon (owned : StoreRequest) :
    (handle owned).Upon owned (Promoting user owned) := by
  cases owned with
  | create creator grant =>
    refine fun version => ⟨rfl, fun _ => nofun, fun answer => ?_⟩
    cases answer with
    | error error => trivial
    | ok reply => exact (settle_silent _ _).upon
  | update owner grant =>
    refine fun version => ⟨rfl, fun _ => nofun, fun answer => ?_⟩
    cases answer with
    | error error => exact (refused_silent _ _).upon
    | ok touched =>
      dsimp only
      split
      · exact (settle_silent _ _).upon
      · exact (settle_silent _ _).upon
  | delete owner resource =>
    refine ⟨rfl, fun _ => nofun, fun answer => ?_⟩
    cases answer with
    | error error => exact (refused_silent _ _).upon
    | ok reply => exact (settle_silent _ _).upon
  | validateAccess check =>
    intro ofResource
    cases ofResource with
    | true => trivial
    | false =>
      intro ofType
      cases ofType with
      | true => trivial
      | false =>
        refine fun version => ⟨rfl, fun _ => nofun, fun answer => ?_⟩
        cases answer with
        | error error => trivial
        | ok reply => exact (repair_silent _ _ _ _).upon
  | validateAccessToType check =>
    intro ofType
    cases ofType with
    | true => trivial
    | false =>
      refine fun version => ⟨rfl, fun _ => nofun, fun answer => ?_⟩
      cases answer with
      | error error => trivial
      | ok reply => exact (repair_silent _ _ _ _).upon
  | syncUserRole subject role =>
    refine fun version => ⟨rfl, fun reply promoted heq hadmin => ?_, fun answer => ?_⟩
    · cases heq
      have hpromotes : (EngineUpdate.assignRole user role version).Promotes user := ⟨rfl, hadmin⟩
      exact (EngineUpdate.apply_promotes hpromotes).bind_left
    · cases answer with
      | error error => exact (refused_silent _ _).upon
      | ok reply => exact (settle_silent _ _).upon
  | putRolePolicy role resourceType actions =>
    refine ⟨rfl, fun _ => nofun, fun answer => ?_⟩
    cases answer with
    | error error => exact (refused_silent _ _).upon
    | ok reply => exact (settle_silent _ _).upon
  | allPermissions | allUserRoles | commit | rollback =>
    exact ⟨rfl, fun _ => nofun, fun _ => trivial⟩

end Coordinator

/-! ## Calls inside a transaction -/

namespace Scope

variable {user : UserId} {deferred : List EngineUpdate} {owned : StoreRequest}

/-- Whether some of the updates is a promotion of the user. -/
def Promised (user : UserId) (updates : List EngineUpdate) : Prop :=
  ∃ update ∈ updates, update.Promotes user

/-- What is left of a call inside a transaction, once its new administrative role has been accepted,
leaves a promotion for the commit.  A commit that has been accepted makes the promotions that were
left. -/
structure Promising (user : UserId) (deferred : List EngineUpdate) (owned : StoreRequest)
    (rest : Call (ScopedResult owned.Reply)) : Prop where
  leaves : ∀ role, owned = .syncUserRole user role → role.isAdministrative = true →
    rest.Ends fun result => Promised user result.deferred
  promotes : owned = .commit → Promised user deferred → rest.Always (EngineRequest.Promotes user)

/-- A request that neither records a role nor commits leaves nothing to keep to. -/
theorem promising_of_other {rest : Call (ScopedResult owned.Reply)}
    (hrole : ∀ role, owned ≠ .syncUserRole user role) (hcommit : owned ≠ .commit) :
    Promising user deferred owned rest :=
  ⟨fun role heq => absurd heq (hrole role), fun heq => absurd heq hcommit⟩

theorem handle_upon (owned : StoreRequest) :
    (handle deferred owned).Upon owned (Promising user deferred owned) := by
  cases owned with
  | create creator grant =>
    refine ⟨rfl, fun _ => promising_of_other nofun nofun, fun answer => ?_⟩
    cases answer with
    | error error => trivial
    | ok reply => exact fun version => trivial
  | update owner grant =>
    refine ⟨rfl, fun _ => promising_of_other nofun nofun, fun answer => ?_⟩
    cases answer with
    | error error => trivial
    | ok touched =>
      have hsilent : (EngineUpdate.remove owner (.resource grant.resource)).apply.All
          fun _ => True := EngineUpdate.apply_silent _
      refine Call.All.upon (hsilent.bind fun _ => ⟨trivial, fun version => ?_⟩)
      dsimp only
      split <;> trivial
  | delete owner resource =>
    refine ⟨rfl, fun _ => promising_of_other nofun nofun, fun answer => ?_⟩
    cases answer with
    | error error => trivial
    | ok reply =>
      have hsilent : (EngineUpdate.remove owner (.resource resource)).apply.All fun _ => True :=
        EngineUpdate.apply_silent _
      exact Call.All.upon (hsilent.bind fun _ => trivial)
  | validateAccess check =>
    intro ofResource
    cases ofResource with
    | true => trivial
    | false =>
      intro ofType
      cases ofType with
      | true => trivial
      | false => exact ⟨rfl, fun _ => promising_of_other nofun nofun, fun _ => trivial⟩
  | validateAccessToType check =>
    intro ofType
    cases ofType with
    | true => trivial
    | false => exact ⟨rfl, fun _ => promising_of_other nofun nofun, fun _ => trivial⟩
  | syncUserRole subject role =>
    have hsilent : (EngineUpdate.demote subject role).apply.All fun _ => True :=
      EngineUpdate.apply_silent _
    refine ⟨rfl, fun reply => ⟨fun promoted heq hadmin => ?_, nofun⟩, fun answer => ?_⟩
    · cases heq
      refine hsilent.ends_bind fun _ version => ?_
      exact ⟨_, List.mem_singleton_self _, rfl, hadmin⟩
    · cases answer with
      | error error => trivial
      | ok reply => exact Call.All.upon (hsilent.bind fun _ => ⟨trivial, fun _ => trivial⟩)
  | putRolePolicy role resourceType actions =>
    refine ⟨rfl, fun _ => promising_of_other nofun nofun, fun answer => ?_⟩
    cases answer with
    | error error => trivial
    | ok reply =>
      have hsilent : (EngineUpdate.clearObject (.type resourceType)).apply.All fun _ => True :=
        EngineUpdate.apply_silent _
      exact Call.All.upon (hsilent.bind fun _ => trivial)
  | commit =>
    refine ⟨rfl, fun reply => ⟨nofun, fun _ hpromised => ?_⟩, fun answer => ?_⟩
    · exact (EngineUpdate.applyAll_promotes hpromised).bind_left.bind_left
    · cases answer with
      | error error =>
        have hsilent : (Coordinator.refused (α := Unit) error
          (EngineUpdate.onUnknownAll deferred)).All fun _ => True := Coordinator.refused_silent _ _
        exact Call.All.upon (hsilent.bind fun _ => trivial)
      | ok reply =>
        have hsilent : ((EngineUpdate.applyAll deferred).bind fun _ =>
            (.done (.ok ()) : Call (Except StorageError Unit))).All fun _ => True :=
          (EngineUpdate.applyAll_silent deferred).bind fun _ => trivial
        exact Call.All.upon (hsilent.bind fun _ => trivial)
  | allPermissions | allUserRoles | rollback =>
    exact ⟨rfl, fun _ => promising_of_other nofun nofun, fun _ => trivial⟩

end Scope

end AccessControl
