import AccessControl.Store.Memory

/-!
# Rows of a rule store

What a rule store holds falls into rows: one for the rule of a user and a resource, one for the role
of a user, one for what a role may do with a resource type.  A request writes one row or none, so
what two parties write can be told apart row by row.
-/

namespace AccessControl

/-- A place of a rule store that one request can write. -/
inductive Row where
  | rule (user : UserId) (resource : ResourceId)
  | role (user : UserId)
  | policy (role : Role) (resourceType : ResourceType)
  deriving DecidableEq, Repr

/-- What a request puts into a row; the row of a rule can also be emptied. -/
inductive RowWrite where
  | rule (user : UserId) (resource : ResourceId) (value : Option Rule)
  | role (user : UserId) (value : Role)
  | policy (role : Role) (resourceType : ResourceType) (value : ActionSet)
  deriving DecidableEq, Repr

namespace RowWrite

/-- The row that is written. -/
def row : RowWrite → Row
  | rule user resource _ => .rule user resource
  | role user _ => .role user
  | policy holders resourceType _ => .policy holders resourceType

/-- The store after a write. -/
def apply (store : MemoryStore) : RowWrite → MemoryStore
  | rule user resource (some value) =>
    { store with rules := store.rules.insert (user, resource) value }
  | rule user resource none => store.delete user resource
  | role user value => { store with users := store.users.insert user value }
  | policy holders resourceType value => store.putRolePolicy holders resourceType value

/-- The store after a list of writes. -/
def applyAll (store : MemoryStore) (writes : List RowWrite) : MemoryStore :=
  writes.foldl apply store

end RowWrite

/-- The row that a request may write. -/
def StoreRequest.row? : StoreRequest → Option Row
  | .create user grant => some (.rule user grant.resource)
  | .update user grant => some (.rule user grant.resource)
  | .delete user resource => some (.rule user resource)
  | .syncUserRole user _ => some (.role user)
  | .putRolePolicy role resourceType _ => some (.policy role resourceType)
  | _ => none

namespace MemoryStore

/-- What a store writes when it is asked, if it writes. -/
def writeOf (store : MemoryStore) : StoreRequest → Option RowWrite
  | .create user grant =>
    if store.users.contains user && !store.rules.contains (user, grant.resource) then
      some (.rule user grant.resource (some (grant.toRule user)))
    else none
  | .update user grant =>
    match store.rules.get? (user, grant.resource) with
    | some rule =>
      if rule.resourceType = grant.resourceType then
        some (.rule user grant.resource (some { rule with actions := grant.actions }))
      else none
    | none => none
  | .delete user resource =>
    if store.rules.contains (user, resource) then some (.rule user resource none) else none
  | .syncUserRole user role => if store.users.contains user then some (.role user role) else none
  | .putRolePolicy role resourceType actions => some (.policy role resourceType actions)
  | _ => none

/-- Whether two stores hold the same in a row. -/
def SameAt (left right : MemoryStore) : Row → Prop
  | .rule user resource => left.rules.get? (user, resource) = right.rules.get? (user, resource)
  | .role user => left.users.get? user = right.users.get? user
  | .policy role resourceType =>
    left.policies.get? (role, resourceType) = right.policies.get? (role, resourceType)

instance (left right : MemoryStore) : DecidablePred (left.SameAt right)
  | .rule user resource =>
    decEq (left.rules.get? (user, resource)) (right.rules.get? (user, resource))
  | .role user => decEq (left.users.get? user) (right.users.get? user)
  | .policy role resourceType =>
    decEq (left.policies.get? (role, resourceType)) (right.policies.get? (role, resourceType))

variable {store left right : MemoryStore} {row : Row} {write : RowWrite} {writes : List RowWrite}

theorem SameAt.refl (store : MemoryStore) (row : Row) : store.SameAt store row := by
  cases row <;> rfl

theorem SameAt.symm (h : left.SameAt right row) : right.SameAt left row := by
  cases row <;> exact Eq.symm h

theorem SameAt.trans {middle : MemoryStore} (h : left.SameAt middle row)
    (h' : middle.SameAt right row) : left.SameAt right row := by
  cases row <;> exact Eq.trans h h'

/-! ## Writes, row by row -/

/-- A write leaves every other row alone. -/
theorem sameAt_apply_of_ne (h : row ≠ write.row) : (write.apply store).SameAt store row := by
  cases write with
  | rule user resource value =>
    cases value <;> cases row <;>
      simp_all [RowWrite.apply, RowWrite.row, SameAt, delete, Prod.ext_iff]
  | role user value => cases row <;> simp_all [RowWrite.apply, RowWrite.row, SameAt]
  | policy role resourceType value =>
    cases row <;>
      simp_all [RowWrite.apply, RowWrite.row, SameAt, putRolePolicy, Prod.ext_iff]

/-- What a write puts into its row does not depend on the store. -/
theorem sameAt_apply_row : (write.apply left).SameAt (write.apply right) write.row := by
  cases write with
  | rule user resource value =>
    cases value <;> simp [RowWrite.apply, RowWrite.row, SameAt, delete]
  | role user value => simp [RowWrite.apply, RowWrite.row, SameAt]
  | policy role resourceType value => simp [RowWrite.apply, RowWrite.row, SameAt, putRolePolicy]

theorem sameAt_apply (h : left.SameAt right row) :
    (write.apply left).SameAt (write.apply right) row := by
  by_cases hrow : row = write.row
  · rw [hrow]
    exact sameAt_apply_row
  · exact (sameAt_apply_of_ne hrow).trans (h.trans (sameAt_apply_of_ne hrow).symm)

theorem sameAt_applyAll (h : left.SameAt right row) :
    (RowWrite.applyAll left writes).SameAt (RowWrite.applyAll right writes) row := by
  induction writes generalizing left right with
  | nil => exact h
  | cons write rest ih => exact ih (sameAt_apply h)

/-- A list of writes leaves every row alone that none of them writes. -/
theorem sameAt_applyAll_of_notMem (h : row ∉ writes.map RowWrite.row) :
    (RowWrite.applyAll store writes).SameAt store row := by
  induction writes generalizing store with
  | nil => exact .refl store row
  | cons write rest ih =>
    rw [List.map_cons, List.mem_cons, not_or] at h
    exact (ih h.2).trans (sameAt_apply_of_ne h.1)

/-- What a list of writes leaves in a row that one of them writes does not depend on the store. -/
theorem sameAt_applyAll_of_mem (h : row ∈ writes.map RowWrite.row) :
    (RowWrite.applyAll left writes).SameAt (RowWrite.applyAll right writes) row := by
  induction writes generalizing left right with
  | nil => simp at h
  | cons write rest ih =>
    by_cases hrest : row ∈ rest.map RowWrite.row
    · exact ih hrest
    · have hrow : row = write.row := by simpa [hrest] using h
      rw [hrow]
      have hrest : (RowWrite.applyAll (write.apply left) rest).SameAt
          (RowWrite.applyAll (write.apply right) rest) write.row := sameAt_applyAll sameAt_apply_row
      exact hrest

theorem applyAll_append (more : List RowWrite) :
    RowWrite.applyAll store (writes ++ more) =
      RowWrite.applyAll (RowWrite.applyAll store writes) more :=
  List.foldl_append

/-! ## Requests, row by row -/

/-- A request writes only its own row. -/
theorem row_of_writeOf {request : StoreRequest} (h : store.writeOf request = some write) :
    request.row? = some write.row := by
  unfold writeOf at h
  split at h <;> (try split at h) <;> (try split at h) <;> simp_all [StoreRequest.row?] <;>
    subst h <;> rfl

/-- The store after a request is the store after the write of that request. -/
theorem sameAt_answer (store : MemoryStore) (request : StoreRequest) (row : Row) :
    (store.answer request).2.SameAt
      (RowWrite.applyAll store (store.writeOf request).toList) row := by
  cases request with
  | create user grant =>
    cases hu : store.users.contains user <;>
      cases hr : store.rules.contains (user, grant.resource) <;>
        simp [answer, create, writeOf, RowWrite.applyAll, RowWrite.apply, hu, hr, SameAt.refl]
  | update user grant =>
    simp only [answer, update, writeOf]
    cases store.rules.get? (user, grant.resource) with
    | none => exact .refl _ row
    | some rule =>
      by_cases ht : rule.resourceType = grant.resourceType <;>
        simp [RowWrite.applyAll, RowWrite.apply, ht, SameAt.refl]
  | delete user resource =>
    cases hr : store.rules.contains (user, resource) with
    | true => simp [answer, writeOf, RowWrite.applyAll, RowWrite.apply, hr, SameAt.refl]
    | false =>
      have hnone : store.rules.get? (user, resource) = none := by
        simpa [Table.contains] using hr
      cases row <;> simp [answer, writeOf, RowWrite.applyAll, hr, SameAt, delete]
      grind
  | syncUserRole user role =>
    cases hu : store.users.contains user <;>
      simp [answer, syncUserRole, writeOf, RowWrite.applyAll, RowWrite.apply, hu, SameAt.refl]
  | putRolePolicy role resourceType actions => exact .refl _ row
  | validateAccess check => exact .refl _ row
  | validateAccessToType check => exact .refl _ row
  | allPermissions => exact .refl _ row
  | allUserRoles => exact .refl _ row
  | commit => exact .refl _ row
  | rollback => exact .refl _ row

/-- A request leaves every row alone but the one that it may write. -/
theorem sameAt_of_row {request : StoreRequest} (h : request.row? ≠ some row) :
    (store.answer request).2.SameAt store row := by
  refine (sameAt_answer store request row).trans ?_
  cases hwrite : store.writeOf request with
  | none => exact .refl store row
  | some write =>
    refine sameAt_apply_of_ne fun heq => h ?_
    rw [row_of_writeOf hwrite, heq]

/-- A request that writes nothing leaves the store as it is. -/
theorem answer_of_row {request : StoreRequest} (h : request.row? = none) :
    (store.answer request).2 = store := by
  cases request with
  | create | update | delete | syncUserRole | putRolePolicy => cases h
  | _ => rfl

end MemoryStore

end AccessControl
