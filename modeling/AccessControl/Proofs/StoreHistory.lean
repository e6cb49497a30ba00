import AccessControl.Proofs.SeededStore
import AccessControl.Proofs.WarmUpCopy

/-!
# The history of a store in memory

A store in memory is changed by the requests it answers and by the registration of users.  Whatever
is done to it from the beginning, accepted or rejected, it keeps the constraints of a relational
schema: a rule is held under its own user and resource, there is one rule for the two at most, and
its user is of record.  Who is of record and which resource type a rule names can be told from what
was done.
-/

namespace AccessControl

/-- What a rule is held under. -/
def Rule.pair (rule : Rule) : UserId × ResourceId := (rule.user, rule.resource)

/-- What can be done to a store in memory. -/
inductive StoreOperation where
  /-- A user becomes a user of record. -/
  | registerUser (user : UserId) (role : Role)
  | request (request : StoreRequest)
  deriving DecidableEq, Repr

namespace MemoryStore

/-- The store after an operation, accepted or rejected. -/
def perform (store : MemoryStore) : StoreOperation → MemoryStore
  | .registerUser user role => store.registerUser user role
  | .request request => (store.answer request).2

/-- The store after some operations, made in order. -/
def performAll (store : MemoryStore) (operations : List StoreOperation) : MemoryStore :=
  operations.foldl perform store

variable {store : MemoryStore} {operation : StoreOperation} {operations : List StoreOperation}
  {user : UserId} {resource : ResourceId} {resourceType : ResourceType}

theorem performAll_append (more : List StoreOperation) :
    store.performAll (operations ++ more) = (store.performAll operations).performAll more :=
  List.foldl_append

theorem Reachable.perform (h : store.Reachable) (operation : StoreOperation) :
    (store.perform operation).Reachable := by
  cases operation with
  | registerUser user role => exact h.registerUser user role
  | request request => exact h.answer request

theorem Reachable.performAll (h : store.Reachable) (operations : List StoreOperation) :
    (store.performAll operations).Reachable := by
  induction operations generalizing store with
  | nil => exact h
  | cons operation rest ih => exact ih (h.perform operation)

/-! ## Rules and what they are held under -/

/-- What the rules are held under can be told from the rules. -/
theorem Keyed.pairs_eq (h : store.Keyed) : store.rules.values.map Rule.pair = store.rules.keys := by
  unfold Table.values Table.keys
  rw [List.map_map]
  refine List.map_congr_left ?_
  intro row hrow
  obtain ⟨huser, hresource⟩ := h row.1.1 row.1.2 row.2 (Table.mem_rows_iff.1 hrow)
  show (row.2.user, row.2.resource) = row.1
  rw [huser, hresource]

theorem Keyed.nodup_pairs (h : store.Keyed) : (store.rules.values.map Rule.pair).Nodup := by
  rw [h.pairs_eq]
  exact store.rules.nodup

theorem Keyed.mem_values_iff {rule : Rule} (h : store.Keyed) :
    rule ∈ store.rules.values ↔ store.rules.get? rule.pair = some rule := by
  unfold Table.values
  rw [List.mem_map]
  constructor
  · intro ⟨row, hrow, hrule⟩
    subst hrule
    have hget := Table.mem_rows_iff.1 hrow
    obtain ⟨huser, hresource⟩ := h row.1.1 row.1.2 row.2 hget
    rw [Rule.pair, huser, hresource]
    exact hget
  · intro hget
    exact ⟨(rule.pair, rule), Table.mem_rows_iff.2 hget, rfl⟩

/-! ## Users of record -/

theorem isSome_role_answer (store : MemoryStore) (request : StoreRequest) (user : UserId) :
    ((store.answer request).2.users.get? user).isSome = (store.users.get? user).isSome := by
  by_cases hrow : request.row? = some (.role user)
  · cases request with
    | syncUserRole other role =>
      obtain rfl : other = user := by simpa [StoreRequest.row?] using hrow
      simp only [answer, syncUserRole]
      split
      case isTrue hknown => simpa [Table.contains] using hknown.symm
      case isFalse => rfl
    | _ => cases hrow
  · have hsame : (store.answer request).2.users.get? user = store.users.get? user :=
      sameAt_of_row hrow
    rw [hsame]

/-- A user is of record from the first registration on: no operation strikes a user off. -/
theorem isSome_role_performAll_iff :
    ((store.performAll operations).users.get? user).isSome = true ↔
      (∃ role, .registerUser user role ∈ operations) ∨ (store.users.get? user).isSome = true := by
  induction operations generalizing store with
  | nil => simp [MemoryStore.performAll]
  | cons operation rest ih =>
    have hrest : ((store.performAll (operation :: rest)).users.get? user).isSome = true ↔
        _ ∨ ((store.perform operation).users.get? user).isSome = true := ih
    rw [hrest]
    cases operation with
    | registerUser other role =>
      by_cases h : user = other
      · simp [MemoryStore.perform, MemoryStore.registerUser, h]
      · simp [MemoryStore.perform, MemoryStore.registerUser, h]
    | request request =>
      simp [MemoryStore.perform, isSome_role_answer]

/-! ## Resource types -/

/-- The resource type of the rule of a user for a resource, if there is one. -/
def typeAt (store : MemoryStore) (user : UserId) (resource : ResourceId) : Option ResourceType :=
  (store.rules.get? (user, resource)).map (·.resourceType)

/-- Whether the operation makes the rule: it adds one for the user and the resource, and the store
accepts it. -/
def Makes (store : MemoryStore) (operation : StoreOperation) (user : UserId)
    (resource : ResourceId) (resourceType : ResourceType) : Prop :=
  ∃ grant : Grant, operation = .request (.create user grant) ∧ grant.resource = resource ∧
    grant.resourceType = resourceType ∧ (store.answer (.create user grant)).1 = .ok ()

/-- A rule that is added is the first one of its user and resource. -/
theorem typeAt_create {grant : Grant} (h : (store.create user grant).1 = .ok ()) :
    store.typeAt user grant.resource = none ∧
      (store.create user grant).2.typeAt user grant.resource = some grant.resourceType := by
  have hcreated : store.create user grant = (.ok (), (store.create user grant).2) := Prod.ext h rfl
  obtain ⟨hfree, hnext⟩ := create_eq_ok hcreated
  constructor
  · rw [typeAt, hfree]
    rfl
  · rw [typeAt, hnext]
    simp [Grant.toRule]

/-- No update gives a rule another type. -/
theorem typeAt_update {grant : Grant} : (store.update user grant).2.typeAt user grant.resource =
    store.typeAt user grant.resource := by
  unfold update
  split
  case h_1 rule hrule => split <;> simp [typeAt, hrule]
  case h_2 => rfl

/-- A rule that an operation leaves has been made by it, or was there with the same type and is not
taken away. -/
theorem typeAt_perform_iff : (store.perform operation).typeAt user resource = some resourceType ↔
    store.Makes operation user resource resourceType ∨
      store.typeAt user resource = some resourceType ∧
        operation ≠ .request (.delete user resource) := by
  cases operation with
  | registerUser other role => simp [Makes, MemoryStore.perform, MemoryStore.registerUser, typeAt]
  | request request =>
    by_cases hrow : request.row? = some (.rule user resource)
    · cases request with
      | create other grant =>
        obtain ⟨rfl, rfl⟩ : other = user ∧ grant.resource = resource := by
          simpa [StoreRequest.row?] using hrow
        cases hanswer : (store.create other grant).1 with
        | error error =>
          simp [Makes, MemoryStore.perform, answer, hanswer, create_of_error hanswer]
        | ok reply =>
          obtain ⟨hbefore, hafter⟩ := typeAt_create hanswer
          simp [Makes, MemoryStore.perform, answer, hanswer, hbefore, hafter]
      | update other grant =>
        obtain ⟨rfl, rfl⟩ : other = user ∧ grant.resource = resource := by
          simpa [StoreRequest.row?] using hrow
        simp [Makes, MemoryStore.perform, answer, typeAt_update]
      | delete other target =>
        obtain ⟨rfl, rfl⟩ : other = user ∧ target = resource := by
          simpa [StoreRequest.row?] using hrow
        simp [Makes, MemoryStore.perform, answer, delete, typeAt]
      | _ => cases hrow
    · have hsame : (store.answer request).2.rules.get? (user, resource) =
          store.rules.get? (user, resource) := sameAt_of_row hrow
      have hdelete : request ≠ .delete user resource := by
        rintro rfl
        exact hrow rfl
      have hmakes : ¬store.Makes (.request request) user resource resourceType := by
        rintro ⟨grant, heq, rfl, -, -⟩
        cases heq
        exact hrow rfl
      simp [MemoryStore.perform, typeAt, hsame, hdelete, hmakes]

/-- Whether some operations have made a rule, and none of those after it has taken it away. -/
def MadeBy (operations : List StoreOperation) (user : UserId) (resource : ResourceId)
    (resourceType : ResourceType) : Prop :=
  ∃ before operation after, operations = before ++ operation :: after ∧
    (performAll ∅ before).Makes operation user resource resourceType ∧
    .request (.delete user resource) ∉ after

theorem madeBy_append_singleton : MadeBy (operations ++ [operation]) user resource resourceType ↔
    (performAll ∅ operations).Makes operation user resource resourceType ∨
      MadeBy operations user resource resourceType ∧
        operation ≠ .request (.delete user resource) := by
  constructor
  · intro ⟨before, maker, after, heq, hmakes, hkept⟩
    rcases List.eq_nil_or_concat after with rfl | ⟨rest, last, rfl⟩
    · obtain ⟨rfl, hlast⟩ := List.append_inj' heq rfl
      obtain rfl := List.singleton_inj.1 hlast
      exact .inl hmakes
    · rw [List.concat_eq_append, ← List.cons_append, ← List.append_assoc] at heq
      obtain ⟨rfl, hlast⟩ := List.append_inj' heq rfl
      obtain rfl := List.singleton_inj.1 hlast
      simp only [List.concat_eq_append, List.mem_append, List.mem_singleton, not_or] at hkept
      exact .inr ⟨⟨before, maker, rest, rfl, hmakes, hkept.1⟩, Ne.symm hkept.2⟩
  · intro h
    rcases h with hmakes | ⟨⟨before, maker, after, rfl, hmakes, hkept⟩, hlast⟩
    · exact ⟨operations, operation, [], rfl, hmakes, List.not_mem_nil⟩
    · refine ⟨before, maker, after ++ [operation], by simp, hmakes, ?_⟩
      simp [hkept, Ne.symm hlast]

/-- From the operation that makes a rule to the one that takes it away, the rule has the type that
it was made with. -/
theorem typeAt_performAll_iff :
    (performAll ∅ operations).typeAt user resource = some resourceType ↔
      MadeBy operations user resource resourceType := by
  -- the last operation decides whether the rule is made there, or was made before and is kept
  induction operations using List.reverseRecOn with
  | nil =>
    constructor
    · intro h
      cases h
    · intro ⟨before, operation, after, heq, _⟩
      simp at heq
  | append_singleton operations operation ih =>
    rw [madeBy_append_singleton, ← ih, performAll_append]
    exact typeAt_perform_iff

/-- An update that does not name the type of the rule changes nothing. -/
theorem update_of_other_type {grant : Grant}
    (h : store.typeAt user grant.resource ≠ some grant.resourceType) :
    store.answer (.update user grant) = (.ok 0, store) := by
  simp only [answer, update]
  split
  case h_1 rule hrule =>
    have htype : rule.resourceType ≠ grant.resourceType := by
      intro heq
      rw [typeAt, hrule] at h
      exact h (congrArg some heq)
    rw [if_neg htype]
  case h_2 => rfl

/-! ## Every history -/

/-- The store meets the constraints of a relational schema: a rule is held under its own user and
resource, the two tell the rules apart, and the user of a rule is of record. -/
structure Constrained (store : MemoryStore) : Prop where
  keyed : store.Keyed
  unique : (store.rules.values.map Rule.pair).Nodup
  enrolled : ∀ rule ∈ store.rules.values, (store.users.get? rule.user).isSome = true

theorem Reachable.constrained (h : store.Reachable) : store.Constrained := by
  refine ⟨h.keyed, h.keyed.nodup_pairs, fun rule hrule => ?_⟩
  have hget : store.rules.get? (rule.user, rule.resource) = some rule :=
    h.keyed.mem_values_iff.1 hrule
  refine h.enrolled rule.user rule.resource ?_
  rw [hget]
  rfl

/-- Whatever is done to a store in memory from the beginning, it meets the constraints of a
relational schema.  Its users of record are those that were ever registered.  A rule has the type
that it was made with, and stands until it is taken away; an update that names another type finds
nothing to change. -/
theorem constraints_kept (operations : List StoreOperation) :
    let store := performAll ∅ operations
    store.Constrained ∧
      (∀ user, (store.users.get? user).isSome = true ↔
        ∃ role, .registerUser user role ∈ operations) ∧
      (∀ user resource resourceType, store.typeAt user resource = some resourceType ↔
        MadeBy operations user resource resourceType) ∧
      ∀ user grant, store.typeAt user grant.resource ≠ some grant.resourceType →
        store.answer (.update user grant) = (.ok 0, store) := by
  intro store
  have hreachable : store.Reachable := Reachable.empty.performAll operations
  refine ⟨hreachable.constrained, fun user => ?_, fun user resource resourceType => ?_,
    fun user grant => update_of_other_type⟩
  · rw [isSome_role_performAll_iff]
    exact or_iff_left Bool.false_ne_true
  · exact typeAt_performAll_iff

/-- A rule for a page outlives an update that takes it for a dashboard, and a second grant. -/
theorem type_kept_beside_update :
    let page : Grant := ⟨System.someResource, .page, .ofList [.get]⟩
    let dashboard : Grant := ⟨System.someResource, .dashboard, .ofList [.delete]⟩
    let operations : List StoreOperation := [.registerUser System.someUser .user,
      .request (.create System.someUser page), .request (.update System.someUser dashboard),
      .request (.create System.someUser dashboard)]
    let store := performAll ∅ operations
    store.typeAt System.someUser System.someResource = some .page ∧
      store.answer (.update System.someUser dashboard) = (.ok 0, store) := by
  intro page dashboard operations store
  obtain ⟨-, -, htypes, hupdates⟩ := constraints_kept operations
  have hpage : store.typeAt System.someUser System.someResource = some .page :=
    (htypes _ _ _).2 ⟨[.registerUser System.someUser .user],
      .request (.create System.someUser page), _, rfl, ⟨page, rfl, rfl, rfl, rfl⟩, by decide⟩
  refine ⟨hpage, hupdates System.someUser dashboard ?_⟩
  rw [hpage]
  decide

end MemoryStore

end AccessControl
