import AccessControl.Engine.FactBase
import AccessControl.Proofs.StoreRow

/-!
# Privileges

A privilege is one thing that the engine can let a user do: a single fact, or the administrative
role that passes every check.  The engine holds privileges, the rule store backs them, and a request
to the store can take the backing of a privilege away.
-/

namespace AccessControl

/-- One thing that the engine can let a user do. -/
inductive Privilege where
  /-- One action on one object. -/
  | fact (user : UserId) (object : PolicyObject) (action : Action)
  /-- A role that passes every check. -/
  | administration (user : UserId)
  deriving DecidableEq, Repr

/-- Whether the engine would pass a check because of the privilege. -/
def FactBase.Holds (base : FactBase) : Privilege → Prop
  | .fact user object action => action ∈ base.actionsFor user object
  | .administration user => base.isAdministrator user = true

/-- Whether the data of record grant the privilege. -/
def MemoryStore.Backs (store : MemoryStore) : Privilege → Prop
  | .fact user (.resource resource) action =>
    ∃ rule, store.rules.get? (user, resource) = some rule ∧ action ∈ rule.actions
  | .fact user (.type resourceType) action =>
    store.allowsType ⟨user, resourceType, action⟩ = true
  | .administration user =>
    ∃ role, store.users.get? user = some role ∧ role.isAdministrative = true

/-- Whether a request may take away what the data of record grant. -/
def StoreRequest.Revokes : StoreRequest → Privilege → Prop
  | .update user grant, privilege =>
    ∃ action, privilege = .fact user (.resource grant.resource) action
  | .delete user resource, privilege => ∃ action, privilege = .fact user (.resource resource) action
  | .syncUserRole user role, privilege =>
    (∃ resourceType action, privilege = .fact user (.type resourceType) action) ∨
      privilege = .administration user ∧ role.isAdministrative = false
  | .putRolePolicy _ resourceType _, privilege =>
    ∃ user action, privilege = .fact user (.type resourceType) action
  | _, _ => False

namespace Privilege

/-- Whose privilege it is. -/
def user : Privilege → UserId
  | fact user _ _ => user
  | administration user => user

/-- Whether the backing of a privilege is read from the row.  A fact about a resource type is backed
by two rows, the role of the user and the policy of that role. -/
def DependsOn : Privilege → Row → Prop
  | fact user (.resource resource) _, row => row = .rule user resource
  | fact user (.type resourceType) _, row =>
    row = .role user ∨ ∃ role, row = .policy role resourceType
  | administration user, row => row = .role user

/-- Whether the privilege is a fact about a whole resource type. -/
def OnType : Privilege → Prop
  | fact _ (.type _) _ => True
  | _ => False

/-- A privilege that is no fact about a type is backed by one row. -/
theorem dependsOn_unique {privilege : Privilege} {row other : Row} (hone : ¬privilege.OnType)
    (h : privilege.DependsOn row) (h' : privilege.DependsOn other) : row = other := by
  match privilege with
  | fact _ (.resource _) _ => exact Eq.trans h (Eq.symm h')
  | fact _ (.type _) _ => exact absurd trivial hone
  | administration _ => exact Eq.trans h (Eq.symm h')

theorem eq_of_dependsOn_rule {privilege : Privilege} {user : UserId} {resource : ResourceId}
    (h : privilege.DependsOn (.rule user resource)) :
    ∃ action, privilege = fact user (.resource resource) action := by
  match privilege with
  | fact owner (.resource other) action =>
    obtain ⟨rfl, rfl⟩ : user = owner ∧ resource = other := by simpa [DependsOn] using h
    exact ⟨action, rfl⟩
  | fact _ (.type _) _ => simp [DependsOn] at h
  | administration _ => simp [DependsOn] at h

theorem eq_of_dependsOn_role {privilege : Privilege} {user : UserId}
    (h : privilege.DependsOn (.role user)) :
    (∃ resourceType action, privilege = fact user (.type resourceType) action) ∨
      privilege = administration user := by
  match privilege with
  | fact _ (.resource _) _ => simp [DependsOn] at h
  | fact owner (.type resourceType) action =>
    obtain rfl : user = owner := by simpa [DependsOn] using h
    exact .inl ⟨resourceType, action, rfl⟩
  | administration owner =>
    obtain rfl : user = owner := by simpa [DependsOn] using h
    exact .inr rfl

theorem eq_of_dependsOn_policy {privilege : Privilege} {role : Role} {resourceType : ResourceType}
    (h : privilege.DependsOn (.policy role resourceType)) :
    ∃ user action, privilege = fact user (.type resourceType) action := by
  match privilege with
  | fact _ (.resource _) _ => simp [DependsOn] at h
  | fact user (.type other) action =>
    obtain rfl : resourceType = other := by simpa [DependsOn] using h
    exact ⟨user, action, rfl⟩
  | administration _ => simp [DependsOn] at h

end Privilege

namespace MemoryStore

variable {store left right : MemoryStore} {privilege : Privilege} {request : StoreRequest}

theorem backs_of_sameAt (h : ∀ row, privilege.DependsOn row → left.SameAt right row)
    (hb : left.Backs privilege) : right.Backs privilege := by
  match privilege with
  | .fact user (.resource resource) action =>
    obtain ⟨rule, hrule, haction⟩ := hb
    have hrow : left.rules.get? (user, resource) = right.rules.get? (user, resource) := h _ rfl
    exact ⟨rule, hrow ▸ hrule, haction⟩
  | .fact user (.type resourceType) action =>
    have hrole : left.users.get? user = right.users.get? user := h (.role user) (.inl rfl)
    have hpolicy : ∀ role, left.policyOf role resourceType = right.policyOf role resourceType := by
      intro role
      have hrow := h (.policy role resourceType) (.inr ⟨role, rfl⟩)
      simp only [SameAt] at hrow
      simp [policyOf, hrow]
    simpa [Backs, allowsType, hrole, hpolicy] using hb
  | .administration user =>
    obtain ⟨role, hrole, hadmin⟩ := hb
    have hrow : left.users.get? user = right.users.get? user := h _ rfl
    exact ⟨role, hrow ▸ hrole, hadmin⟩

/-- The backing of a privilege depends on its rows only. -/
theorem backs_congr (h : ∀ row, privilege.DependsOn row → left.SameAt right row) :
    left.Backs privilege ↔ right.Backs privilege :=
  ⟨backs_of_sameAt h, backs_of_sameAt fun row hrow => (h row hrow).symm⟩

/-- A list of writes that takes a backing away writes a row that it is read from. -/
theorem exists_row_of_lost {writes : List RowWrite} (hb : store.Backs privilege)
    (hl : ¬(RowWrite.applyAll store writes).Backs privilege) :
    ∃ row ∈ writes.map RowWrite.row, privilege.DependsOn row := by
  false_or_by_contra
  rename_i hnone
  refine hl (backs_of_sameAt (fun row hrow => ?_) hb)
  exact (sameAt_applyAll_of_notMem fun hmem => hnone ⟨row, hmem, hrow⟩).symm

/-- The backing after a request is the backing after the write of that request. -/
theorem backs_answer : (store.answer request).2.Backs privilege ↔
    (RowWrite.applyAll store (store.writeOf request).toList).Backs privilege :=
  backs_congr fun row _ => sameAt_answer store request row

/-- A store that adds a rule had none in that row. -/
theorem not_backs_of_create {reading : MemoryStore} {user : UserId} {grant : Grant}
    {write : RowWrite} (hw : reading.writeOf (.create user grant) = some write)
    (hsame : reading.SameAt store write.row) (hdep : privilege.DependsOn write.row) :
    ¬store.Backs privilege := by
  simp only [writeOf, Option.ite_none_right_eq_some, Bool.and_eq_true, Bool.not_eq_true'] at hw
  obtain ⟨⟨-, hfree⟩, hwrite⟩ := hw
  obtain rfl := Option.some.inj hwrite
  obtain ⟨action, rfl⟩ := Privilege.eq_of_dependsOn_rule hdep
  rintro ⟨rule, hrule, -⟩
  have hrow : reading.rules.get? (user, grant.resource) = store.rules.get? _ := hsame
  simp [Table.contains, hrow, hrule] at hfree

/-- A request whose write takes a backing away is one that may do so.  The write was chosen by a
reading of the store that is current in the written row. -/
theorem revokes_of_write_lost {reading : MemoryStore} {write : RowWrite}
    (hw : reading.writeOf request = some write) (hsame : reading.SameAt store write.row)
    (hb : store.Backs privilege) (hl : ¬(write.apply store).Backs privilege) :
    request.Revokes privilege := by
  have hdep : privilege.DependsOn write.row := by
    false_or_by_contra
    rename_i hnot
    refine hl (backs_of_sameAt (fun row hrow => (sameAt_apply_of_ne ?_).symm) hb)
    rintro rfl
    exact hnot hrow
  have hrow := row_of_writeOf hw
  cases request with
  | create user grant => exact absurd hb (not_backs_of_create hw hsame hdep)
  | update user grant =>
    rw [← Option.some.inj hrow] at hdep
    exact Privilege.eq_of_dependsOn_rule hdep
  | delete user resource =>
    rw [← Option.some.inj hrow] at hdep
    exact Privilege.eq_of_dependsOn_rule hdep
  | syncUserRole user role =>
    rw [← Option.some.inj hrow] at hdep
    refine (Privilege.eq_of_dependsOn_role hdep).imp_right fun hp => ⟨hp, ?_⟩
    subst hp
    simp only [writeOf, Option.ite_none_right_eq_some, Option.some.injEq] at hw
    obtain ⟨-, rfl⟩ := hw
    exact Bool.eq_false_iff.2 fun hadmin => hl ⟨role, by simp [RowWrite.apply], hadmin⟩
  | putRolePolicy role resourceType actions =>
    rw [← Option.some.inj hrow] at hdep
    exact Privilege.eq_of_dependsOn_policy hdep
  | _ => simp [StoreRequest.row?] at hrow

/-- A request that writes a row from which a fact about a type is backed may revoke that fact. -/
theorem revokes_of_onType {reading : MemoryStore} {write : RowWrite}
    (hw : reading.writeOf request = some write) (htype : privilege.OnType)
    (hdep : privilege.DependsOn write.row) : request.Revokes privilege := by
  have hrow := row_of_writeOf hw
  cases request with
  | syncUserRole user role =>
    rw [← Option.some.inj hrow] at hdep
    rcases Privilege.eq_of_dependsOn_role hdep with hp | rfl
    · exact .inl hp
    · exact False.elim htype
  | putRolePolicy role resourceType actions =>
    rw [← Option.some.inj hrow] at hdep
    exact Privilege.eq_of_dependsOn_policy hdep
  | create user grant =>
    rw [← Option.some.inj hrow] at hdep
    obtain ⟨action, rfl⟩ := Privilege.eq_of_dependsOn_rule hdep
    exact False.elim htype
  | update user grant =>
    rw [← Option.some.inj hrow] at hdep
    exact Privilege.eq_of_dependsOn_rule hdep
  | delete user resource =>
    rw [← Option.some.inj hrow] at hdep
    exact Privilege.eq_of_dependsOn_rule hdep
  | _ => simp [StoreRequest.row?] at hrow

/-- A request that takes a backing away makes a write and is one that may do so. -/
theorem revokes_of_lost (hb : store.Backs privilege)
    (hl : ¬(store.answer request).2.Backs privilege) :
    (∃ write, store.writeOf request = some write) ∧ request.Revokes privilege := by
  rw [backs_answer] at hl
  cases hw : store.writeOf request with
  | none => exact absurd hb (by simpa [hw, RowWrite.applyAll] using hl)
  | some write =>
    refine ⟨⟨write, rfl⟩, revokes_of_write_lost hw (.refl store write.row) hb ?_⟩
    simpa [hw, RowWrite.applyAll] using hl

/-- What a list of writes leaves of a privilege that depends on one of the written rows does not
depend on the store, unless it is a fact about a type. -/
theorem backs_applyAll_congr {writes : List RowWrite} (hone : ¬privilege.OnType)
    (h : ∃ row ∈ writes.map RowWrite.row, privilege.DependsOn row) :
    (RowWrite.applyAll left writes).Backs privilege ↔
      (RowWrite.applyAll right writes).Backs privilege := by
  obtain ⟨row, hmem, hdep⟩ := h
  refine backs_congr fun other hother => ?_
  rw [Privilege.dependsOn_unique hone hother hdep]
  exact sameAt_applyAll_of_mem hmem

theorem not_backs_empty : ¬(∅ : MemoryStore).Backs privilege := by
  match privilege with
  | .fact user (.resource resource) action =>
    rintro ⟨rule, hrule, -⟩
    exact Option.some_ne_none rule hrule.symm
  | .fact user (.type resourceType) action => exact Bool.false_ne_true
  | .administration user =>
    rintro ⟨role, hrole, -⟩
    exact Option.some_ne_none role hrole.symm

end MemoryStore

end AccessControl
