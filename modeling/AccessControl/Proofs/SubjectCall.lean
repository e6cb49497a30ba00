import AccessControl.Proofs.CallRequests
import AccessControl.Proofs.Moments
import AccessControl.Proofs.SubjectView

/-!
# What a call does to the users that it does not concern

A call asks the engine for nothing that concerns a user whom it does not concern itself, and the
store only for what it was made for.  How many facts the engine has cleared depends on all users,
but the call that has cleared them does not heed the number.  So what a call does next depends on
nothing that the users whom it concerns cannot notice.
-/

namespace AccessControl

/-- Whether a request to the engine concerns the users that a call concerns, and no others. -/
def EngineRequest.BelongsTo (owned : StoreRequest) (request : EngineRequest) : Prop :=
  ∀ user, request.concerns user = owned.concerns user

/-- Every request of the call belongs to `owned`, which is all that the store is asked for.  How the
call goes on does not depend on the reply to a request that names no subject. -/
def Call.Within {α : Type} (owned : StoreRequest) : Call α → Prop
  | done _ => True
  | engine request next =>
    request.BelongsTo owned ∧
      (request.subject? = none → ∀ reply reply', next (.ok reply) = next (.ok reply')) ∧
      ∀ reply, (next (.ok reply)).Within owned
  | store request onUnknown next =>
    request = owned ∧
      (∀ update ∈ onUnknown, ∀ asked, update.Asks asked → asked.BelongsTo owned) ∧
      ∀ answer, (next answer).Within owned
  | count _ next => next.Within owned

namespace Call

variable {α β : Type} {owned : StoreRequest} {call : Call α} {request : EngineRequest}

theorem Within.bind {next : α → Call β} (h : call.Within owned)
    (hnext : ∀ result, (next result).Within owned) : (call.bind next).Within owned := by
  induction call with
  | done result => exact hnext result
  | engine request rest ih =>
    obtain ⟨hrequest, hunheeded, hrest⟩ := h
    refine ⟨hrequest, fun hnone reply reply' => ?_, fun reply => ih _ (hrest reply)⟩
    exact congrArg (Call.bind · next) (hunheeded hnone reply reply')
  | store request onUnknown rest ih =>
    obtain ⟨hrequest, hunknown, hrest⟩ := h
    exact ⟨hrequest, hunknown, fun answer => ih answer (hrest answer)⟩
  | count counter rest ih => exact ih h

/-- A request that names a subject may be heeded. -/
theorem Within.engine {next : Except EngineError request.Reply → Call α}
    (hrequest : request.BelongsTo owned) (hnamed : request.subject? ≠ none)
    (hnext : ∀ reply, (next (.ok reply)).Within owned) : (Call.engine request next).Within owned :=
  ⟨hrequest, fun hnone => absurd hnone hnamed, hnext⟩

end Call

/-! ## Updates of the engine -/

namespace EngineUpdate

variable {owned : StoreRequest}

/-- The subject that an update names. -/
def subject? : EngineUpdate → Option UserId
  | grant subject .. => some subject
  | replace subject .. => some subject
  | remove subject _ => some subject
  | assignRole subject .. => some subject
  | demote subject _ => some subject
  | clearObject _ => none

theorem subject?_of_asks {update : EngineUpdate} {asked : EngineRequest} (h : update.Asks asked) :
    asked.subject? = update.subject? := by
  have hdemotion : ∀ subject role, DemotionAsks subject role asked →
      asked.subject? = some subject := by
    rintro subject role (⟨-, rfl⟩ | ⟨resourceType, rfl⟩) <;> rfl
  cases update with
  | grant subject object actions seen =>
    obtain ⟨action, -, rfl⟩ := h
    rfl
  | replace subject object actions seen => rcases h with rfl | rfl <;> rfl
  | remove subject object | clearObject object =>
    obtain rfl := h
    rfl
  | assignRole subject role seen =>
    rcases h with rfl | hasks
    · rfl
    · exact hdemotion subject role hasks
  | demote subject role => exact hdemotion subject role h

/-- Whether an update names the user, or no subject at all. -/
def concerns (user : UserId) (update : EngineUpdate) : Bool :=
  update.subject?.all fun subject => subject = user

theorem belongs_of_asks {update : EngineUpdate} {asked : EngineRequest}
    (h : ∀ user, update.concerns user = owned.concerns user) (hasks : update.Asks asked) :
    asked.BelongsTo owned := by
  intro user
  rw [EngineRequest.concerns, subject?_of_asks hasks]
  exact h user

/-- An update stays within a call to which its requests belong. -/
theorem apply_within {update : EngineUpdate}
    (h : ∀ asked, update.Asks asked → asked.BelongsTo owned) : update.apply.Within owned := by
  by_cases hnamed : update.subject? = none
  · cases update with
    | clearObject object => exact ⟨h _ rfl, fun _ _ _ => rfl, fun _ => trivial⟩
    | _ => cases hnamed
  · refine apply_induction (fun _ => trivial) (fun request next hrequest hnext => ?_)
      fun asked hasks => And.intro (h asked hasks) (subject?_of_asks hasks)
    obtain ⟨hbelongs, hsubject⟩ := hrequest
    refine .engine hbelongs ?_ hnext
    rw [hsubject]
    exact hnamed

theorem applyAll_within {updates : List EngineUpdate}
    (h : ∀ update ∈ updates, ∀ asked, update.Asks asked → asked.BelongsTo owned) :
    (applyAll updates).Within owned := by
  induction updates with
  | nil => trivial
  | cons update rest ih =>
    have hfirst : update.apply.Within owned := apply_within (h update List.mem_cons_self)
    exact hfirst.bind fun _ => ih fun other hmem => h other (List.mem_cons_of_mem update hmem)

end EngineUpdate

/-! ## Calls to a coordinator -/

namespace Coordinator

variable {α : Type} {owned : StoreRequest} {told : EngineUpdate} {updates : List EngineUpdate}

theorem refused_within (error : StorageError)
    (h : ∀ update ∈ updates, ∀ asked, update.Asks asked → asked.BelongsTo owned) :
    (refused (α := α) error updates).Within owned := by
  have hupdates : (EngineUpdate.applyAll updates).Within owned := EngineUpdate.applyAll_within h
  unfold refused
  split
  · exact hupdates.bind fun _ => trivial
  · trivial

theorem settle_within {result : α} (h : ∀ user, told.concerns user = owned.concerns user) :
    (settle told result).Within owned := by
  have happly : told.apply.Within owned :=
    EngineUpdate.apply_within fun _ => EngineUpdate.belongs_of_asks h
  exact happly.bind fun _ => trivial

/-- What is done when the outcome is unknown belongs to the call, if the update does. -/
theorem unknown_within (h : ∀ user, told.concerns user = owned.concerns user) :
    ∀ fallback ∈ EngineUpdate.onUnknownAll [told], ∀ asked, fallback.Asks asked →
      asked.BelongsTo owned := by
  intro fallback hmem asked hasks
  obtain ⟨source, hsource, hfallback⟩ := List.mem_filterMap.1 hmem
  obtain rfl := List.mem_singleton.1 hsource
  have hsubject : fallback.subject? = source.subject? := by
    cases source <;> cases hfallback <;> rfl
  refine EngineUpdate.belongs_of_asks (fun user => ?_) hasks
  rw [EngineUpdate.concerns, hsubject]
  exact h user

/-- A write that evicts when its outcome is unknown. -/
theorem write_within {request : StoreRequest} {next : request.Answer → Call (Except StorageError α)}
    (h : ∀ user, told.concerns user = request.concerns user)
    (hrefused : ∀ error, next (.error error) = refused error (EngineUpdate.onUnknownAll [told]))
    (haccepted : ∀ reply, (next (.ok reply)).Within request) :
    (Call.store request (EngineUpdate.onUnknownAll [told]) next).Within request := by
  refine ⟨rfl, unknown_within h, fun answer => ?_⟩
  cases answer with
  | error error =>
    rw [hrefused]
    exact refused_within error (unknown_within h)
  | ok reply => exact haccepted reply

theorem create_within (user : UserId) (grant : Grant) :
    (create user grant).Within (.create user grant) := by
  refine .engine (fun _ => rfl) nofun fun seen => ⟨rfl, nofun, fun answer => ?_⟩
  cases answer with
  | error error => trivial
  | ok reply => exact settle_within fun _ => rfl

theorem update_within (user : UserId) (grant : Grant) :
    (update user grant).Within (.update user grant) := by
  refine .engine (fun _ => rfl) nofun fun seen => ?_
  refine write_within (fun _ => rfl) (fun _ => rfl) fun touched => ?_
  dsimp only
  split <;> exact settle_within fun _ => rfl

theorem delete_within (user : UserId) (resource : ResourceId) :
    (delete user resource).Within (.delete user resource) :=
  write_within (fun _ => rfl) (fun _ => rfl) fun _ => settle_within fun _ => rfl

theorem syncUserRole_within (user : UserId) (role : Role) :
    (syncUserRole user role).Within (.syncUserRole user role) :=
  .engine (fun _ => rfl) nofun fun _ =>
    write_within (fun _ => rfl) (fun _ => rfl) fun _ => settle_within fun _ => rfl

theorem putRolePolicy_within (role : Role) (resourceType : ResourceType) (actions : ActionSet) :
    (putRolePolicy role resourceType actions).Within (.putRolePolicy role resourceType actions) :=
  write_within (fun _ => rfl) (fun _ => rfl) fun _ => settle_within fun _ => rfl

theorem repair_within {subject : UserId} {object : PolicyObject} {action : Action}
    {version : FactVersion}
    (h : (EngineRequest.addFactIfCurrent subject object action version).BelongsTo owned) :
    (repair subject object action (.ok version)).Within owned := by
  refine .engine h nofun fun added => ?_
  cases added <;> trivial

/-- What a check does once the engine has not passed it. -/
theorem miss_within {request : StoreRequest} {subject : UserId} {object : PolicyObject}
    {action : Action}
    {answered : Except EngineError FactVersion → request.Answer → Call (Except StorageError Unit)}
    (h : ∀ user, request.concerns user = decide (subject = user))
    (hdenied : ∀ seen error, answered seen (.error error) = .done (.error error))
    (hallowed : ∀ seen reply, answered seen (.ok reply) = repair subject object action seen) :
    (Call.count .misses (.engine (.version subject object) fun seen =>
      .store request [] (answered seen))).Within request := by
  have hversion : ((Call.engine (.version subject object) fun seen =>
      .store request [] (answered seen)) : Call (Except StorageError Unit)).Within request := by
    refine .engine (fun user => (h user).symm) nofun fun version => ⟨rfl, nofun, fun answer => ?_⟩
    cases answer with
    | error error =>
      rw [hdenied]
      trivial
    | ok reply =>
      rw [hallowed]
      exact repair_within fun user => (h user).symm
  exact hversion

theorem validateAccess_within (check : InstanceCheck) :
    (validateAccess check).Within (.validateAccess check) := by
  refine .engine (fun _ => rfl) nofun fun ofResource => ?_
  split
  case isTrue => trivial
  case isFalse =>
    refine .engine (fun _ => rfl) nofun fun ofType => ?_
    split
    case isTrue => trivial
    case isFalse => exact miss_within (fun _ => rfl) (fun _ _ => rfl) fun _ _ => rfl

theorem validateAccessToType_within (check : TypeCheck) :
    (validateAccessToType check).Within (.validateAccessToType check) := by
  refine .engine (fun _ => rfl) nofun fun ofType => ?_
  split
  case isTrue => trivial
  case isFalse => exact miss_within (fun _ => rfl) (fun _ _ => rfl) fun _ _ => rfl

/-- Every call stays within its request. -/
theorem handle_within (request : StoreRequest) : (handle request).Within request := by
  cases request with
  | create user grant => exact create_within user grant
  | update user grant => exact update_within user grant
  | delete user resource => exact delete_within user resource
  | validateAccess check => exact validateAccess_within check
  | validateAccessToType check => exact validateAccessToType_within check
  | syncUserRole user role => exact syncUserRole_within user role
  | putRolePolicy role resourceType actions => exact putRolePolicy_within role resourceType actions
  | allPermissions | allUserRoles | commit | rollback => exact ⟨rfl, nofun, fun _ => trivial⟩

end Coordinator

end AccessControl
