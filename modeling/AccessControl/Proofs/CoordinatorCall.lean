import AccessControl.Proofs.UpdateEffect

/-!
# What a call to a coordinator promises

A call to a coordinator gives no privilege before the store has answered.  After an accepted request
it offers only what the store then backs, and only under versions that it had read before the store
was asked.  If the request may revoke a privilege, the call does not end without withdrawing it,
unless the store refuses the request.
-/

namespace AccessControl

namespace MemoryStore

variable {store : MemoryStore} {request : StoreRequest}

/-- A store that writes accepts the request. -/
theorem answer_ok_of_writeOf {write : RowWrite} (h : store.writeOf request = some write) :
    ∃ reply, (store.answer request).1 = .ok reply := by
  cases request with
  | create user grant =>
    simp only [writeOf, Option.ite_none_right_eq_some, Bool.and_eq_true, Bool.not_eq_true'] at h
    exact ⟨(), by simp [answer, create, h.1]⟩
  | syncUserRole user role =>
    simp only [writeOf, Option.ite_none_right_eq_some] at h
    exact ⟨(), by simp [answer, syncUserRole, h.1]⟩
  | update user grant => exact ⟨_, rfl⟩
  | _ => simp [writeOf] at h <;> exact ⟨_, rfl⟩

theorem of_decision_ok {allowed : Bool} (h : decision allowed = .ok ()) : allowed = true := by
  cases allowed with
  | true => rfl
  | false => simp [decision] at h

/-- What an instance check allows is backed by a rule. -/
theorem backs_of_allowsInstance {check : InstanceCheck} (h : store.allowsInstance check = true) :
    store.Backs (.fact check.user (.resource check.resource) check.action) := by
  obtain ⟨rule, hrule, hallowed⟩ := Option.any_eq_true .. |>.1 h
  simp only [Bool.and_eq_true, decide_eq_true_eq] at hallowed
  exact ⟨rule, hrule, hallowed.2⟩

end MemoryStore

/-- What a call to a coordinator still does when it has come to its request to the store, with the
versions that it has seen. -/
structure CoordinatorWaits {α : Type} (privilege : Privilege) (owned : StoreRequest)
    (seen : FactVersion → Prop) (request : StoreRequest) (onUnknown : List EngineUpdate)
    (next : request.Answer → Call α) : Prop where
  request_eq : request = owned
  refused : ∀ error, (next (.error error)).All (EngineRequest.Modest privilege)
  unknown : (EngineUpdate.applyAll onUnknown).All (EngineRequest.Modest privilege)
  offers : ∀ (store : MemoryStore) (reply : request.Reply), (store.answer request).1 = .ok reply →
    (next (.ok reply)).All (EngineRequest.OffersOnly privilege fun version =>
      seen version ∧ (store.answer request).2.Backs privilege)
  withdraws : request.Revokes privilege →
    (∀ reply, (next (.ok reply)).Always (EngineRequest.Withdraws privilege)) ∧
      (∀ reason, (next (.error (.internal reason))).Always (EngineRequest.Withdraws privilege)) ∧
      (EngineUpdate.applyAll onUnknown).Always (EngineRequest.Withdraws privilege)

namespace Coordinator

variable {α : Type} {privilege : Privilege} {property : EngineRequest → Prop}
  {effect : (request : EngineRequest) → request.Reply → Prop}
  {updates onUnknown : List EngineUpdate} {allowed seen : FactVersion → Prop}

/-! ## The ends of a write -/

theorem refused_all (error : StorageError) (h : (EngineUpdate.applyAll onUnknown).All property) :
    (refused (α := α) error onUnknown).All property := by
  unfold refused
  split
  · exact h.bind fun _ => trivial
  · trivial

theorem refused_always (reason : String) (h : (EngineUpdate.applyAll onUnknown).Always effect) :
    (refused (α := α) (.internal reason) onUnknown).Always effect :=
  Call.Always.bind_left h

theorem settle_all {update : EngineUpdate} {result : α}
    (h : ∀ version, update.Offers privilege version → allowed version) :
    (settle update result).All (EngineRequest.OffersOnly privilege allowed) :=
  (update.apply_all.imp fun _ hrequest => hrequest.imp h).bind fun _ => trivial

theorem settle_always {update : EngineUpdate} {result : α} (h : update.Withdraws privilege) :
    (settle update result).Always (EngineRequest.Withdraws privilege) :=
  (EngineUpdate.apply_always h).bind_left

/-- An update that is right for both outcomes of a write withdraws after each end of the write. -/
theorem onUnknown_always {update : EngineUpdate} (h : update.Withdraws privilege) :
    (EngineUpdate.applyAll (EngineUpdate.onUnknownAll [update])).Always
      (EngineRequest.Withdraws privilege) :=
  EngineUpdate.onUnknownAll_always ⟨update, List.mem_singleton_self update, h⟩

/-- A repair offers the one fact under the one version. -/
theorem repair_all {subject : UserId} {object : PolicyObject} {action : Action}
    {version : FactVersion} (h : privilege = .fact subject object action → allowed version) :
    (repair subject object action (.ok version)).All
      (EngineRequest.OffersOnly privilege allowed) := by
  refine ⟨⟨id, ?_⟩, ?_⟩
  · rintro _ ⟨hp, rfl⟩
    exact h hp
  · rintro ⟨⟩ <;> trivial

/-! ## The calls -/

theorem create_until (user : UserId) (grant : Grant) :
    (create user grant).Until privilege (CoordinatorWaits privilege (.create user grant))
      (fun _ _ => True) seen := by
  refine ⟨⟨id, fun _ => id⟩, fun version => ⟨rfl, fun _ => trivial, trivial, ?_, False.elim⟩⟩
  intro store reply hok
  refine settle_all fun guard hoffer => ?_
  obtain ⟨⟨action, hmem, rfl⟩, rfl⟩ := hoffer
  refine ⟨.inr ⟨⟨action, rfl⟩, rfl⟩, grant.toRule user, ?_, hmem⟩
  simp only [MemoryStore.answer, MemoryStore.create] at hok ⊢
  split at hok <;> (try split at hok) <;> simp_all

theorem update_until (user : UserId) (grant : Grant) :
    (update user grant).Until privilege (CoordinatorWaits privilege (.update user grant))
      (fun _ _ => True) seen := by
  refine ⟨⟨id, fun _ => id⟩, fun version => ⟨rfl, ?_, ?_, ?_, ?_⟩⟩
  · exact fun error => refused_all error (EngineUpdate.onUnknownAll_all _)
  · exact EngineUpdate.onUnknownAll_all _
  · intro store touched hok
    dsimp only
    split
    case isFalse => exact settle_all fun _ => False.elim
    case isTrue htouched =>
      refine settle_all fun guard hoffer => ?_
      obtain ⟨⟨action, hmem, rfl⟩, rfl⟩ := hoffer
      refine ⟨.inr ⟨⟨action, rfl⟩, rfl⟩, ?_⟩
      simp only [MemoryStore.answer, MemoryStore.update] at hok ⊢
      split at hok <;> (try split at hok) <;> simp_all [MemoryStore.Backs]
  · intro hrevokes
    refine ⟨fun touched => ?_, fun reason => refused_always reason (onUnknown_always hrevokes),
      onUnknown_always hrevokes⟩
    dsimp only
    split <;> exact settle_always hrevokes

theorem delete_until (user : UserId) (resource : ResourceId) :
    (delete user resource).Until privilege (CoordinatorWaits privilege (.delete user resource))
      (fun _ _ => True) seen := by
  refine ⟨rfl, ?_, EngineUpdate.onUnknownAll_all _, ?_, fun hrevokes => ⟨?_, ?_, ?_⟩⟩
  · exact fun error => refused_all error (EngineUpdate.onUnknownAll_all _)
  · exact fun store reply hok => settle_all fun _ => False.elim
  · exact fun _ => settle_always hrevokes
  · exact fun reason => refused_always reason (onUnknown_always hrevokes)
  · exact onUnknown_always hrevokes

theorem putRolePolicy_until (role : Role) (resourceType : ResourceType) (actions : ActionSet) :
    (putRolePolicy role resourceType actions).Until privilege
      (CoordinatorWaits privilege (.putRolePolicy role resourceType actions))
      (fun _ _ => True) seen := by
  refine ⟨rfl, ?_, EngineUpdate.onUnknownAll_all _, ?_, fun hrevokes => ?_⟩
  · exact fun error => refused_all error (EngineUpdate.onUnknownAll_all _)
  · exact fun store reply hok => settle_all fun _ => False.elim
  · obtain ⟨subject, action, rfl⟩ := hrevokes
    have hclear : (EngineUpdate.clearObject (.type resourceType)).Withdraws
        (.fact subject (.type resourceType) action) := ⟨subject, action, rfl⟩
    exact ⟨fun _ => settle_always hclear, fun reason =>
      refused_always reason (onUnknown_always hclear), onUnknown_always hclear⟩

theorem syncUserRole_until (user : UserId) (role : Role) :
    (syncUserRole user role).Until privilege (CoordinatorWaits privilege (.syncUserRole user role))
      (fun _ _ => True) seen := by
  have hdemote : StoreRequest.Revokes (.syncUserRole user role) privilege →
      (EngineUpdate.demote user role).Withdraws privilege := id
  refine ⟨⟨id, fun _ => id⟩, fun version => ⟨rfl, ?_, ?_, ?_, fun hrevokes => ⟨?_, ?_, ?_⟩⟩⟩
  · exact fun error => refused_all error (EngineUpdate.onUnknownAll_all _)
  · exact EngineUpdate.onUnknownAll_all _
  · intro store reply hok
    refine settle_all fun guard hoffer => ?_
    obtain ⟨⟨rfl, hadmin⟩, rfl⟩ := hoffer
    refine ⟨.inr ⟨rfl, rfl⟩, role, ?_, hadmin⟩
    simp only [MemoryStore.answer, MemoryStore.syncUserRole] at hok ⊢
    split at hok <;> simp_all
  · exact fun _ => settle_always hrevokes
  · exact fun reason => refused_always reason (onUnknown_always (hdemote hrevokes))
  · exact onUnknown_always (hdemote hrevokes)

theorem validateAccess_until (check : InstanceCheck) :
    (validateAccess check).Until privilege (CoordinatorWaits privilege (.validateAccess check))
      (fun _ _ => True) seen := by
  refine ⟨⟨id, fun _ => id⟩, fun ofResource => ?_⟩
  cases ofResource
  case true => trivial
  case false =>
    refine ⟨⟨id, fun _ => id⟩, fun ofType => ?_⟩
    cases ofType
    case true => trivial
    case false =>
      refine ⟨⟨id, fun _ => id⟩, fun version => ⟨rfl, fun _ => trivial, trivial, ?_, False.elim⟩⟩
      intro store reply hok
      refine repair_all fun hp => ?_
      subst hp
      have hallowed := MemoryStore.of_decision_ok hok
      exact ⟨.inr ⟨⟨check.action, rfl⟩, rfl⟩, MemoryStore.backs_of_allowsInstance hallowed⟩

theorem validateAccessToType_until (check : TypeCheck) :
    (validateAccessToType check).Until privilege
      (CoordinatorWaits privilege (.validateAccessToType check)) (fun _ _ => True) seen := by
  refine ⟨⟨id, fun _ => id⟩, fun ofType => ?_⟩
  cases ofType
  case true => trivial
  case false =>
    refine ⟨⟨id, fun _ => id⟩, fun version => ⟨rfl, fun _ => trivial, trivial, ?_, False.elim⟩⟩
    intro store reply hok
    refine repair_all fun hp => ?_
    subst hp
    exact ⟨.inr ⟨⟨check.action, rfl⟩, rfl⟩, MemoryStore.of_decision_ok hok⟩

/-- Every call to a coordinator keeps the promise. -/
theorem handle_until (request : StoreRequest) :
    (handle request).Until privilege (CoordinatorWaits privilege request)
      (fun _ _ => True) seen := by
  cases request with
  | create user grant => exact create_until user grant
  | update user grant => exact update_until user grant
  | delete user resource => exact delete_until user resource
  | validateAccess check => exact validateAccess_until check
  | validateAccessToType check => exact validateAccessToType_until check
  | syncUserRole user role => exact syncUserRole_until user role
  | putRolePolicy role resourceType actions => exact putRolePolicy_until role resourceType actions
  | _ => exact ⟨rfl, fun _ => trivial, trivial, fun _ _ _ => trivial, False.elim⟩

end Coordinator

end AccessControl
