import AccessControl.Cache.Scope
import AccessControl.Proofs.UpdateEffect

/-!
# What a call may ask of the engine

A call is followed here through every reply of the engine, its failures included, and through every
answer of the store that is let in.  A call inside a transaction asks the engine what changes
nothing.  Once the store has accepted its write, it asks for the evictions that belong to the write;
the updates that were held back are left to the commit.
-/

namespace AccessControl

namespace EngineRequest

/-- Whether a request only looks. -/
def Observes : EngineRequest → Prop
  | version .. => True
  | roleVersion _ => True
  | check .. => True
  | roleOf _ => True
  | actionsFor .. => True
  | factCount => True
  | _ => False

variable {request : EngineRequest} {privilege : Privilege}

theorem Observes.answer_base {base : FactBase} (h : request.Observes) :
    (base.answer request).2 = base := by
  cases request with
  | version | roleVersion | check | roleOf | actionsFor | factCount => rfl
  | _ => exact False.elim h

theorem Observes.modest (h : request.Observes) : request.Modest privilege := by
  cases request with
  | version | roleVersion | check | roleOf | actionsFor | factCount =>
    exact ⟨id, fun _ => False.elim⟩
  | _ => exact False.elim h

theorem Observes.not_withdraws {reply : request.Reply} (h : request.Observes) :
    ¬request.Withdraws privilege reply := by
  cases request with
  | version | roleVersion | check | roleOf | actionsFor | factCount => exact id
  | _ => exact False.elim h

end EngineRequest

namespace EngineUpdate

/-- Whether an update can only take away. -/
def Evicts : EngineUpdate → Prop
  | remove .. => True
  | demote .. => True
  | clearObject _ => True
  | _ => False

variable {update : EngineUpdate} {request : EngineRequest} {privilege : Privilege}

theorem Evicts.modest (h : update.Evicts) (hasks : update.Asks request) :
    request.Modest privilege := by
  cases update with
  | remove subject object =>
    obtain rfl := hasks
    exact ⟨id, fun _ => False.elim⟩
  | demote subject role => exact modest_of_demotionAsks hasks
  | clearObject object =>
    obtain rfl := hasks
    exact ⟨id, fun _ => False.elim⟩
  | _ => exact False.elim h

/-- What a request of an eviction withdraws, the eviction withdraws. -/
theorem Evicts.withdraws {reply : request.Reply} (h : update.Evicts) (hasks : update.Asks request)
    (hw : request.Withdraws privilege reply) : update.Withdraws privilege := by
  cases update with
  | remove subject object =>
    obtain rfl := hasks
    exact hw
  | demote subject role =>
    rcases hasks with ⟨hordinary, rfl⟩ | ⟨resourceType, rfl⟩
    · exact .inr ⟨hw, hordinary⟩
    · obtain ⟨action, rfl⟩ := hw
      exact .inl ⟨resourceType, action, rfl⟩
  | clearObject object =>
    obtain rfl := hasks
    exact hw
  | _ => exact False.elim h

/-- What is done when the outcome of a write is unknown only takes away. -/
theorem evicts_of_mem_onUnknownAll {updates : List EngineUpdate}
    (h : update ∈ onUnknownAll updates) : update.Evicts := by
  obtain ⟨source, -, hsource⟩ := List.mem_filterMap.1 h
  cases source <;> simp [onUnknown] at hsource <;> subst hsource <;> trivial

end EngineUpdate

/-- What a transaction takes from the engine as soon as the store has accepted a request. -/
def StoreRequest.evictions : StoreRequest → List EngineUpdate
  | update user grant => [.remove user (.resource grant.resource)]
  | delete user resource => [.remove user (.resource resource)]
  | syncUserRole user role => [.demote user role]
  | putRolePolicy _ resourceType _ => [.clearObject (.type resourceType)]
  | _ => []

namespace StoreRequest

variable {request : StoreRequest} {update : EngineUpdate}

theorem evicts_of_mem_evictions (h : update ∈ request.evictions) : update.Evicts := by
  cases request <;> simp [evictions] at h <;> subst h <;> trivial

theorem evictions_of_row (h : request.row? = none) : request.evictions = [] := by
  cases request <;> first | rfl | cases h

/-- What the evictions of a request withdraw, the request may revoke. -/
theorem revokes_of_mem_evictions {privilege : Privilege} (h : update ∈ request.evictions)
    (hw : update.Withdraws privilege) : request.Revokes privilege := by
  cases request with
  | update user grant =>
    obtain rfl := List.mem_singleton.1 h
    exact hw
  | delete user resource =>
    obtain rfl := List.mem_singleton.1 h
    exact hw
  | syncUserRole user role =>
    obtain rfl := List.mem_singleton.1 h
    exact hw
  | putRolePolicy role resourceType actions =>
    obtain rfl := List.mem_singleton.1 h
    exact hw
  | _ => cases h

end StoreRequest

namespace Call

variable {α β : Type} {property : EngineRequest → Prop}
  {heard : (request : StoreRequest) → request.Answer → Prop} {call : Call α}

/-- Every request that the call may still make to the engine has the property, whatever the engine
replies, as long as the store answers what `heard` lets in.  So do the requests that it makes when it
is given up. -/
def Only (property : EngineRequest → Prop)
    (heard : (request : StoreRequest) → request.Answer → Prop) : Call α → Prop
  | done _ => True
  | engine request next => property request ∧ ∀ reply, (next reply).Only property heard
  | store request onUnknown next =>
    (∀ update ∈ onUnknown, ∀ asked, update.Asks asked → property asked) ∧
      ∀ answer, heard request answer → (next answer).Only property heard
  | count _ next => next.Only property heard

theorem Only.bind {next : α → Call β} (h : call.Only property heard)
    (hnext : ∀ result, (next result).Only property heard) :
    (call.bind next).Only property heard := by
  induction call with
  | done result => exact hnext result
  | engine request rest ih => exact ⟨h.1, fun reply => ih reply (h.2 reply)⟩
  | store request onUnknown rest ih =>
    exact ⟨h.1, fun answer hanswer => ih answer (h.2 answer hanswer)⟩
  | count counter rest ih => exact ih h

theorem Only.map {f : α → β} (h : call.Only property heard) : (call.map f).Only property heard :=
  h.bind fun _ => trivial

theorem Only.ask {request : EngineRequest}
    {next : request.Reply → Call (Except EngineError α)} (h : property request)
    (hnext : ∀ reply, (next reply).Only property heard) :
    (Call.ask request next).Only property heard := by
  refine ⟨h, fun reply => ?_⟩
  cases reply with
  | ok reply => exact hnext reply
  | error error => trivial

end Call

namespace EngineUpdate

variable {property : EngineRequest → Prop}
  {heard : (request : StoreRequest) → request.Answer → Prop}

/-- An update makes no other requests than it may take. -/
theorem apply_only {update : EngineUpdate} (h : ∀ asked, update.Asks asked → property asked) :
    update.apply.Only property heard :=
  apply_induction (fun _ => trivial) (fun _ _ => Call.Only.ask) h

theorem applyAll_only {updates : List EngineUpdate}
    (h : ∀ update ∈ updates, ∀ asked, update.Asks asked → property asked) :
    (applyAll updates).Only property heard := by
  induction updates with
  | nil => trivial
  | cons update rest ih =>
    have hfirst : update.apply.Only property heard := apply_only (h update List.mem_cons_self)
    exact hfirst.bind fun _ => ih fun other hmem => h other (List.mem_cons_of_mem update hmem)

end EngineUpdate

/-- A refused write makes no other requests than those that stand for its unknown outcome. -/
theorem Coordinator.refused_only {α : Type} {property : EngineRequest → Prop}
    {heard : (request : StoreRequest) → request.Answer → Prop} {error : StorageError}
    {onUnknown : List EngineUpdate}
    (h : ∀ update ∈ onUnknown, ∀ asked, update.Asks asked → property asked) :
    (refused (α := α) error onUnknown).Only property heard := by
  unfold refused
  split
  case isTrue =>
    have hupdates : (EngineUpdate.applyAll onUnknown).Only property heard :=
      EngineUpdate.applyAll_only h
    exact hupdates.bind fun _ => trivial
  case isFalse => trivial

namespace Scope

variable {property : EngineRequest → Prop}
  {heard : (request : StoreRequest) → request.Answer → Prop} {deferred : List EngineUpdate}
  {request : StoreRequest}

/-- A write inside a transaction that evicts ends with a refusal, or makes the eviction as soon as it
is accepted. -/
theorem evicting_only {α : Type} {eviction : EngineUpdate}
    {next : request.Answer → Call (ScopedResult α)} {rest : request.Reply → Call (ScopedResult α)}
    (hrefused : ∀ error, next (.error error) = refused error)
    (haccepted : ∀ reply, next (.ok reply) = eviction.apply.bind fun _ => rest reply)
    (hevicts : ∀ reply, heard request (.ok reply) → ∀ asked, eviction.Asks asked → property asked)
    (hrest : ∀ reply, (rest reply).Only property heard) :
    (Call.store request [] next).Only property heard := by
  refine ⟨nofun, fun answer hanswer => ?_⟩
  cases answer with
  | error error =>
    rw [hrefused error]
    trivial
  | ok reply =>
    have heviction : eviction.apply.Only property heard :=
      EngineUpdate.apply_only (hevicts reply hanswer)
    rw [haccepted reply]
    exact heviction.bind fun _ => hrest reply

theorem validateAccess_only (check : InstanceCheck)
    (hobserves : ∀ asked : EngineRequest, asked.Observes → property asked) :
    (validateAccess check).Only property heard := by
  refine ⟨hobserves _ trivial, fun ofResource => ?_⟩
  dsimp only
  split
  case isTrue => trivial
  case isFalse =>
    refine ⟨hobserves _ trivial, fun ofType => ?_⟩
    dsimp only
    split
    case isTrue => trivial
    case isFalse => exact ⟨nofun, fun _ _ => trivial⟩

theorem validateAccessToType_only (check : TypeCheck)
    (hobserves : ∀ asked : EngineRequest, asked.Observes → property asked) :
    (validateAccessToType check).Only property heard := by
  refine ⟨hobserves _ trivial, fun ofType => ?_⟩
  dsimp only
  split
  case isTrue => trivial
  case isFalse => exact ⟨nofun, fun _ _ => trivial⟩

theorem commit_only
    (huncommitted : ∀ reply, ¬heard .commit (.ok reply))
    (hunknown : ∀ update ∈ EngineUpdate.onUnknownAll deferred, ∀ asked, update.Asks asked →
      property asked) :
    (commit deferred).Only property heard := by
  refine ⟨hunknown, fun answer hanswer => ?_⟩
  cases answer with
  | ok reply => exact False.elim (huncommitted reply hanswer)
  | error error => exact Coordinator.refused_only hunknown

/-- A call inside a transaction that is not committed looks at the engine, and makes the evictions
of its request once that has been accepted.  A commit that fails makes the evictions that stand for
what was held back. -/
theorem handle_only (hobserves : ∀ asked : EngineRequest, asked.Observes → property asked)
    (hevicts : ∀ reply, heard request (.ok reply) → ∀ update ∈ request.evictions,
      ∀ asked, update.Asks asked → property asked)
    (hcommit : request = .commit → (∀ reply, ¬heard .commit (.ok reply)) ∧
      ∀ update ∈ EngineUpdate.onUnknownAll deferred, ∀ asked, update.Asks asked →
        property asked) :
    (handle deferred request).Only property heard := by
  cases request with
  | create user grant =>
    refine ⟨nofun, fun answer _ => ?_⟩
    cases answer with
    | error error => trivial
    | ok reply =>
      refine ⟨hobserves _ trivial, fun seen => ?_⟩
      cases seen <;> trivial
  | update user grant =>
    refine evicting_only (fun _ => rfl) (fun _ => rfl)
      (fun reply hok => hevicts reply hok _ List.mem_cons_self) fun touched => ?_
    refine ⟨hobserves _ trivial, fun seen => ?_⟩
    cases seen with
    | error error => trivial
    | ok version =>
      dsimp only
      split <;> trivial
  | delete user resource =>
    exact evicting_only (fun _ => rfl) (fun _ => rfl)
      (fun reply hok => hevicts reply hok _ List.mem_cons_self) fun _ => trivial
  | validateAccess check => exact (validateAccess_only check hobserves).map
  | validateAccessToType check => exact (validateAccessToType_only check hobserves).map
  | syncUserRole user role =>
    refine evicting_only (fun _ => rfl) (fun _ => rfl)
      (fun reply hok => hevicts reply hok _ List.mem_cons_self) fun reply => ?_
    refine ⟨hobserves _ trivial, fun seen => ?_⟩
    cases seen <;> trivial
  | putRolePolicy role resourceType actions =>
    exact evicting_only (fun _ => rfl) (fun _ => rfl)
      (fun reply hok => hevicts reply hok _ List.mem_cons_self) fun _ => trivial
  | commit => exact (commit_only (hcommit rfl).1 (hcommit rfl).2).map
  | allPermissions | allUserRoles | rollback => exact ⟨nofun, fun _ _ => trivial⟩

end Scope

end AccessControl
