import AccessControl.Proofs.CoordinatorCall

/-!
# What a call inside a transaction promises

A call inside a transaction gives no privilege.  An accepted write leaves for the commit only offers
that the draft then bears out, under versions that were read after the write.  If the write may
revoke a privilege, the call withdraws it at once and leaves an update that withdraws it again.  The
commit makes the updates that were left, or the withdrawing half of them.
-/

namespace AccessControl

/-- Whether a draft grants the privilege all by itself. -/
def RowWrite.Grants (draft : List RowWrite) (privilege : Privilege) : Prop :=
  (applyAll ∅ draft).Backs privilege

theorem RowWrite.exists_row_of_grants {draft : List RowWrite} {privilege : Privilege}
    (h : Grants draft privilege) : ∃ row ∈ draft.map RowWrite.row, privilege.DependsOn row := by
  false_or_by_contra
  rename_i hnone
  refine MemoryStore.not_backs_empty (MemoryStore.backs_of_sameAt (fun row hrow => ?_) h)
  exact MemoryStore.sameAt_applyAll_of_notMem fun hmem => hnone ⟨row, hmem, hrow⟩

namespace Call

variable {α : Type} {privilege : Privilege} {call : Call (ScopedResult α)}

/-- A call that gives nothing and leaves nothing for the commit. -/
def Quiet (privilege : Privilege) (call : Call (ScopedResult α)) : Prop :=
  call.All (EngineRequest.Modest privilege) ∧ call.Ends fun result => result.deferred = []

/-- A call that gives nothing, and leaves for the commit only offers that the draft bears out, under
versions that the engine has shown it. -/
def Settles (privilege : Privilege) (draft : List RowWrite) (seen : FactVersion → Prop)
    (call : Call (ScopedResult α)) : Prop :=
  call.Until privilege (fun _ _ _ _ => False)
    (fun shown result => ∀ update ∈ result.deferred, ∀ version, update.Offers privilege version →
      shown version ∧ ¬privilege.OnType ∧ RowWrite.Grants draft privilege) seen

theorem Quiet.settles {draft : List RowWrite} {seen : FactVersion → Prop}
    (h : call.Quiet privilege) : call.Settles privilege draft seen := by
  obtain ⟨hall, hends⟩ := h
  induction call generalizing seen with
  | done result =>
    intro update hmem
    simp only [Ends] at hends
    simp [hends] at hmem
  | engine request next ih => exact ⟨hall.1, fun reply => ih _ (hall.2 reply) (hends reply)⟩
  | store => exact False.elim hall
  | count counter next ih => exact ih hall hends

theorem Quiet.map {β : Type} {rest : Call β} {f : β → ScopedResult α}
    (h : rest.All (EngineRequest.Modest privilege)) (hf : ∀ result, (f result).deferred = []) :
    (rest.map f).Quiet privilege :=
  ⟨h.bind fun _ => trivial, h.ends_bind fun result => hf result⟩

end Call

/-- A request that writes no row revokes nothing. -/
theorem StoreRequest.not_revokes_of_row {request : StoreRequest} {privilege : Privilege}
    (h : request.row? = none) : ¬request.Revokes privilege := by
  cases request <;> simp_all [Revokes, row?]

/-- What a call inside a transaction still does when it has come to its request to the store;
`deferred` is what was left for the commit so far. -/
structure ScopeWaits {α : Type} (privilege : Privilege) (deferred : List EngineUpdate)
    (owned : StoreRequest) (seen : FactVersion → Prop) (request : StoreRequest)
    (onUnknown : List EngineUpdate) (next : request.Answer → Call (ScopedResult α)) : Prop where
  request_eq : request = owned
  refused : ∀ error, (next (.error error)).Quiet privilege
  unknown : (EngineUpdate.applyAll onUnknown).All (EngineRequest.Modest privilege)
  accepted : request.endsTransaction = false →
    ∀ (reading : MemoryStore) (reply : request.Reply) (draft : List RowWrite),
      (reading.answer request).1 = .ok reply →
        (next (.ok reply)).Settles privilege (draft ++ (reading.writeOf request).toList)
          fun _ => False
  evicts : request.Revokes privilege → ∀ reply,
    (next (.ok reply)).Always (EngineRequest.Withdraws privilege) ∧
      (next (.ok reply)).Ends fun result => ∃ update ∈ result.deferred, update.Withdraws privilege
  rolledBack : request = .rollback → ∀ reply,
    (next (.ok reply)).All (EngineRequest.Modest privilege)
  offers : request = .commit → ∀ reply,
    (next (.ok reply)).All (EngineRequest.OffersOnly privilege fun version =>
      ∃ update ∈ deferred, update.Offers privilege version)
  committed : request = .commit → (∃ update ∈ deferred, update.Withdraws privilege) →
    (∀ reply, (next (.ok reply)).Always (EngineRequest.Withdraws privilege)) ∧
      (∀ reason, (next (.error (.internal reason))).Always (EngineRequest.Withdraws privilege)) ∧
      (EngineUpdate.applyAll onUnknown).Always (EngineRequest.Withdraws privilege)

namespace Scope

variable {α : Type} {privilege : Privilege} {deferred : List EngineUpdate}
  {seen : FactVersion → Prop}

theorem refused_quiet (error : StorageError) : (refused (α := α) error).Quiet privilege :=
  ⟨trivial, rfl⟩

/-! ## The writes -/

theorem create_until (user : UserId) (grant : Grant) :
    (create user grant).Until privilege (ScopeWaits privilege deferred (.create user grant))
      (fun _ result => result.deferred = []) seen := by
  refine ⟨rfl, refused_quiet, trivial, ?_, False.elim, nofun, nofun, nofun⟩
  intro _ reading reply draft hok
  refine ⟨⟨id, fun _ => id⟩, fun version update hmem guard hoffer => ?_⟩
  obtain rfl := List.mem_singleton.1 hmem
  obtain ⟨⟨action, haction, rfl⟩, rfl⟩ := hoffer
  refine ⟨.inr ⟨⟨action, rfl⟩, rfl⟩, id, ?_⟩
  have hwrite : reading.writeOf (.create user grant) =
      some (.rule user grant.resource (some (grant.toRule user))) := by
    simp only [MemoryStore.answer, MemoryStore.create] at hok
    split at hok <;> (try split at hok) <;> simp_all [MemoryStore.writeOf]
  rw [hwrite, RowWrite.Grants, MemoryStore.applyAll_append]
  exact ⟨grant.toRule user, by simp [RowWrite.applyAll, RowWrite.apply], haction⟩

theorem update_until (user : UserId) (grant : Grant) :
    (update user grant).Until privilege (ScopeWaits privilege deferred (.update user grant))
      (fun _ result => result.deferred = []) seen := by
  have hmodest : ((EngineUpdate.remove user (.resource grant.resource)).apply).All
      (EngineRequest.Modest privilege) := EngineUpdate.apply_modest fun _ => id
  refine ⟨rfl, refused_quiet, trivial, ?_, fun hrevokes touched => ⟨?_, ?_⟩,
    nofun, nofun, nofun⟩
  · intro _ reading touched draft hok
    refine hmodest.until_bind fun _ shown => ⟨⟨id, fun _ => id⟩, fun version => ?_⟩
    dsimp only
    split
    case isFalse =>
      intro update hmem guard hoffer
      obtain rfl := List.mem_singleton.1 hmem
      exact False.elim hoffer
    case isTrue htouched =>
      intro update hmem guard hoffer
      obtain rfl := List.mem_singleton.1 hmem
      obtain ⟨⟨action, haction, rfl⟩, rfl⟩ := hoffer
      refine ⟨.inr ⟨⟨action, rfl⟩, rfl⟩, id, ?_⟩
      obtain ⟨rule, hactions, hwrite⟩ : ∃ rule : Rule, rule.actions = grant.actions ∧
          reading.writeOf (.update user grant) =
            some (.rule user grant.resource (some rule)) := by
        simp only [MemoryStore.answer, MemoryStore.update] at hok
        split at hok <;> (try split at hok) <;> simp_all [MemoryStore.writeOf]
      rw [hwrite, RowWrite.Grants, MemoryStore.applyAll_append]
      exact ⟨rule, by simp [RowWrite.applyAll, RowWrite.apply], hactions ▸ haction⟩
  · have hremove : (EngineUpdate.remove user (.resource grant.resource)).Withdraws privilege :=
      hrevokes
    exact (EngineUpdate.apply_always hremove).bind_left
  · refine hmodest.ends_bind fun _ version => ?_
    dsimp only
    split <;> exact ⟨_, List.mem_singleton_self _, hrevokes⟩

theorem delete_until (user : UserId) (resource : ResourceId) :
    (delete user resource).Until privilege (ScopeWaits privilege deferred (.delete user resource))
      (fun _ result => result.deferred = []) seen := by
  have hmodest : ((EngineUpdate.remove user (.resource resource)).apply).All
      (EngineRequest.Modest privilege) := EngineUpdate.apply_modest fun _ => id
  refine ⟨rfl, refused_quiet, trivial, ?_, fun hrevokes reply => ⟨?_, ?_⟩,
    nofun, nofun, nofun⟩
  · intro _ reading reply draft hok
    refine hmodest.until_bind fun _ shown update hmem guard hoffer => ?_
    obtain rfl := List.mem_singleton.1 hmem
    exact False.elim hoffer
  · have hremove : (EngineUpdate.remove user (.resource resource)).Withdraws privilege := hrevokes
    exact (EngineUpdate.apply_always hremove).bind_left
  · exact hmodest.ends_bind fun _ => ⟨_, List.mem_singleton_self _, hrevokes⟩

theorem putRolePolicy_until (role : Role) (resourceType : ResourceType) (actions : ActionSet) :
    (putRolePolicy role resourceType actions).Until privilege
      (ScopeWaits privilege deferred (.putRolePolicy role resourceType actions))
      (fun _ result => result.deferred = []) seen := by
  have hmodest : ((EngineUpdate.clearObject (.type resourceType)).apply).All
      (EngineRequest.Modest privilege) := EngineUpdate.apply_modest fun _ => id
  refine ⟨rfl, refused_quiet, trivial, ?_, fun hrevokes reply => ?_,
    nofun, nofun, nofun⟩
  · intro _ reading reply draft hok
    refine hmodest.until_bind fun _ shown update hmem guard hoffer => ?_
    obtain rfl := List.mem_singleton.1 hmem
    exact False.elim hoffer
  · obtain ⟨subject, action, rfl⟩ := hrevokes
    have hclear : (EngineUpdate.clearObject (.type resourceType)).Withdraws
        (.fact subject (.type resourceType) action) := ⟨subject, action, rfl⟩
    exact ⟨(EngineUpdate.apply_always hclear).bind_left,
      hmodest.ends_bind fun _ => ⟨_, List.mem_singleton_self _, hclear⟩⟩

theorem syncUserRole_until (user : UserId) (role : Role) :
    (syncUserRole user role).Until privilege
      (ScopeWaits privilege deferred (.syncUserRole user role))
      (fun _ result => result.deferred = []) seen := by
  have hmodest : ((EngineUpdate.demote user role).apply).All (EngineRequest.Modest privilege) :=
    EngineUpdate.apply_modest fun _ => id
  refine ⟨rfl, refused_quiet, trivial, ?_, fun hrevokes reply => ⟨?_, ?_⟩,
    nofun, nofun, nofun⟩
  · intro _ reading reply draft hok
    refine hmodest.until_bind fun _ shown => ⟨⟨id, fun _ => id⟩, fun version => ?_⟩
    intro update hmem guard hoffer
    obtain rfl := List.mem_singleton.1 hmem
    obtain ⟨⟨rfl, hadmin⟩, rfl⟩ := hoffer
    refine ⟨.inr ⟨rfl, rfl⟩, id, ?_⟩
    have hwrite : reading.writeOf (.syncUserRole user role) = some (.role user role) := by
      simp only [MemoryStore.answer, MemoryStore.syncUserRole] at hok
      split at hok <;> simp_all [MemoryStore.writeOf]
    rw [hwrite, RowWrite.Grants, MemoryStore.applyAll_append]
    exact ⟨role, by simp [RowWrite.applyAll, RowWrite.apply], hadmin⟩
  · have hdemote : (EngineUpdate.demote user role).Withdraws privilege := hrevokes
    exact (EngineUpdate.apply_always hdemote).bind_left
  · exact hmodest.ends_bind fun _ version => ⟨_, List.mem_singleton_self _, hrevokes⟩

/-! ## The reads -/

/-- A read leaves its answer to the store, and nothing for the commit. -/
theorem read_waits {request : StoreRequest} (h : request.row? = none)
    (hends : request.endsTransaction = false) :
    ScopeWaits privilege deferred request seen request []
      fun answer : request.Answer => plain (.done answer) := by
  refine ⟨rfl, fun _ => ⟨trivial, rfl⟩, trivial, ?_, fun hrevokes => ?_, fun _ _ => trivial,
    fun _ _ => trivial, ?_⟩
  · exact fun _ reading reply draft hok => Call.Quiet.settles ⟨trivial, rfl⟩
  · exact absurd hrevokes (StoreRequest.not_revokes_of_row h)
  · rintro rfl
    simp [StoreRequest.endsTransaction] at hends

theorem validateAccess_until (check : InstanceCheck) :
    (plain (validateAccess check)).Until privilege
      (ScopeWaits privilege deferred (.validateAccess check))
      (fun _ result => result.deferred = []) seen := by
  refine ⟨⟨id, fun _ => id⟩, fun ofResource => ?_⟩
  cases ofResource
  case true => rfl
  case false =>
    refine ⟨⟨id, fun _ => id⟩, fun ofType => ?_⟩
    cases ofType
    case true => rfl
    case false => exact read_waits rfl rfl

theorem validateAccessToType_until (check : TypeCheck) :
    (plain (validateAccessToType check)).Until privilege
      (ScopeWaits privilege deferred (.validateAccessToType check))
      (fun _ result => result.deferred = []) seen := by
  refine ⟨⟨id, fun _ => id⟩, fun ofType => ?_⟩
  cases ofType
  case true => rfl
  case false => exact read_waits rfl rfl

/-! ## The ends of the transaction -/

theorem commit_until :
    (plain (commit deferred)).Until privilege (ScopeWaits privilege deferred .commit)
      (fun _ result => result.deferred = []) seen := by
  refine ⟨rfl, fun error => ?_, EngineUpdate.onUnknownAll_all _, nofun, nofun, nofun,
    fun _ reply => ?_, fun _ hw =>
      ⟨fun reply => ?_, fun reason => ?_, EngineUpdate.onUnknownAll_always hw⟩⟩
  · have hnone : (EngineUpdate.applyAll (EngineUpdate.onUnknownAll deferred)).All
        (EngineRequest.Modest privilege) := EngineUpdate.onUnknownAll_all deferred
    exact Call.Quiet.map (Coordinator.refused_all error hnone) fun _ => rfl
  · refine Call.All.bind (Call.All.bind (EngineUpdate.applyAll_all deferred) ?_) ?_
    · exact fun _ => trivial
    · exact fun _ => trivial
  · exact (EngineUpdate.applyAll_always hw).bind_left.bind_left
  · exact (Coordinator.refused_always reason (EngineUpdate.onUnknownAll_always hw)).bind_left

theorem rollback_until :
    (plain rollback).Until privilege (ScopeWaits privilege deferred .rollback)
      (fun _ result => result.deferred = []) seen := by
  refine ⟨rfl, fun _ => ⟨trivial, rfl⟩, trivial, nofun, nofun, fun _ reply => ?_, nofun, nofun⟩
  trivial

/-- Every call inside a transaction keeps the promise. -/
theorem handle_until (request : StoreRequest) :
    (handle deferred request).Until privilege (ScopeWaits privilege deferred request)
      (fun _ result => result.deferred = []) seen := by
  cases request with
  | create user grant => exact create_until user grant
  | update user grant => exact update_until user grant
  | delete user resource => exact delete_until user resource
  | validateAccess check => exact validateAccess_until check
  | validateAccessToType check => exact validateAccessToType_until check
  | allPermissions => exact read_waits rfl rfl
  | allUserRoles => exact read_waits rfl rfl
  | syncUserRole user role => exact syncUserRole_until user role
  | putRolePolicy role resourceType actions => exact putRolePolicy_until role resourceType actions
  | commit => exact commit_until
  | rollback => exact rollback_until

end Scope

end AccessControl
