import AccessControl.Proofs.Privilege

/-!
# Requests that grant

A request can give a privilege only if it names it: a rule with the action, an administrative role,
a policy with the action.  All other requests leave a privilege without backing as it is, and where
they leave it backed they have not touched the row that backs it.
-/

namespace AccessControl

/-- Whether the data of record may grant the privilege because of the request.  A new role of a user
may do so for every fact about a type. -/
def StoreRequest.Grants : StoreRequest → Privilege → Prop
  | .create user grant, privilege =>
    ∃ action ∈ grant.actions, privilege = .fact user (.resource grant.resource) action
  | .update user grant, privilege =>
    ∃ action ∈ grant.actions, privilege = .fact user (.resource grant.resource) action
  | .syncUserRole user role, privilege =>
    (∃ resourceType action, privilege = .fact user (.type resourceType) action) ∨
      privilege = .administration user ∧ role.isAdministrative = true
  | .putRolePolicy _ resourceType actions, privilege =>
    ∃ user, ∃ action ∈ actions, privilege = .fact user (.type resourceType) action
  | _, _ => False

/-- A request that writes no row grants nothing. -/
theorem StoreRequest.not_grants_of_row {request : StoreRequest} {privilege : Privilege}
    (h : request.row? = none) : ¬request.Grants privilege := by
  cases request <;> simp_all [Grants, row?]

namespace MemoryStore

variable {store reading : MemoryStore} {privilege : Privilege} {request : StoreRequest}
  {write : RowWrite}

/-- A write by which a policy comes to back a fact about a type names the action. -/
theorem mem_of_policy_gained {user : UserId} {resourceType : ResourceType} {action : Action}
    {role : Role} {actions : ActionSet}
    (hnot : ¬store.Backs (.fact user (.type resourceType) action))
    (hbacks : ((RowWrite.policy role resourceType actions).apply store).Backs
      (.fact user (.type resourceType) action)) : action ∈ actions := by
  simp only [Backs, allowsType, RowWrite.apply, putRolePolicy, policyOf, Table.get?_insert,
    Option.any_eq_true, Bool.or_eq_true, not_exists, not_and, not_or] at hnot hbacks
  obtain ⟨held, hheld, hallowed⟩ := hbacks
  obtain ⟨hordinary, hpolicy⟩ := hnot held hheld
  have hgained := hallowed.resolve_left hordinary
  split at hgained
  · exact hgained
  · exact absurd hgained hpolicy

/-- The write of a request that does not grant a privilege either leaves it without backing or does
not write a row that it is backed by. -/
theorem not_dependsOn_of_backs (hw : reading.writeOf request = some write)
    (hgrants : ¬request.Grants privilege) (hone : ¬privilege.OnType)
    (hbacks : (write.apply store).Backs privilege) : ¬privilege.DependsOn write.row := by
  intro hdep
  cases request with
  | create user grant =>
    simp only [writeOf, Option.ite_none_right_eq_some, Option.some.injEq] at hw
    obtain ⟨-, rfl⟩ := hw
    obtain ⟨action, rfl⟩ := Privilege.eq_of_dependsOn_rule hdep
    obtain ⟨rule, hrule, haction⟩ := hbacks
    obtain rfl : grant.toRule user = rule := by simpa [RowWrite.apply] using hrule
    exact hgrants ⟨action, haction, rfl⟩
  | update user grant =>
    simp only [writeOf] at hw
    split at hw
    case h_2 => cases hw
    case h_1 old hold =>
      simp only [Option.ite_none_right_eq_some, Option.some.injEq] at hw
      obtain ⟨-, rfl⟩ := hw
      obtain ⟨action, rfl⟩ := Privilege.eq_of_dependsOn_rule hdep
      obtain ⟨rule, hrule, haction⟩ := hbacks
      obtain rfl : { old with actions := grant.actions } = rule := by
        simpa [RowWrite.apply] using hrule
      exact hgrants ⟨action, haction, rfl⟩
  | delete user resource =>
    simp only [writeOf, Option.ite_none_right_eq_some, Option.some.injEq] at hw
    obtain ⟨-, rfl⟩ := hw
    obtain ⟨action, rfl⟩ := Privilege.eq_of_dependsOn_rule hdep
    obtain ⟨rule, hrule, -⟩ := hbacks
    simp [RowWrite.apply, delete] at hrule
  | syncUserRole user role =>
    simp only [writeOf, Option.ite_none_right_eq_some, Option.some.injEq] at hw
    obtain ⟨-, rfl⟩ := hw
    rcases Privilege.eq_of_dependsOn_role hdep with hfact | rfl
    · exact hgrants (.inl hfact)
    · obtain ⟨held, hheld, hadmin⟩ := hbacks
      obtain rfl : role = held := by simpa [RowWrite.apply] using hheld
      exact hgrants (.inr ⟨rfl, hadmin⟩)
  | putRolePolicy role resourceType actions =>
    obtain rfl := Option.some.inj hw
    obtain ⟨user, action, rfl⟩ := Privilege.eq_of_dependsOn_policy hdep
    exact hone trivial
  | _ => cases hw

/-- A privilege that is backed after the write of a request that does not grant it was backed
before. -/
theorem backs_of_write (hw : reading.writeOf request = some write)
    (hgrants : ¬request.Grants privilege) (hbacks : (write.apply store).Backs privilege) :
    store.Backs privilege := by
  by_cases hdep : privilege.DependsOn write.row
  · -- only a fact about a type can depend on the row, and only by a policy
    have htype : privilege.OnType := Classical.byContradiction fun hone =>
      not_dependsOn_of_backs hw hgrants hone hbacks hdep
    have hrow := row_of_writeOf hw
    cases request with
    | syncUserRole user role =>
      rw [← Option.some.inj hrow] at hdep
      rcases Privilege.eq_of_dependsOn_role hdep with hfact | rfl
      · exact absurd (.inl hfact) hgrants
      · exact False.elim htype
    | putRolePolicy role resourceType actions =>
      rw [← Option.some.inj hrow] at hdep
      obtain rfl := Option.some.inj hw
      obtain ⟨user, action, rfl⟩ := Privilege.eq_of_dependsOn_policy hdep
      refine Classical.byContradiction fun hnot => hgrants ⟨user, action, ?_, rfl⟩
      exact mem_of_policy_gained hnot hbacks
    | create user grant =>
      rw [← Option.some.inj hrow] at hdep
      obtain ⟨action, rfl⟩ := Privilege.eq_of_dependsOn_rule hdep
      exact False.elim htype
    | update user grant =>
      rw [← Option.some.inj hrow] at hdep
      obtain ⟨action, rfl⟩ := Privilege.eq_of_dependsOn_rule hdep
      exact False.elim htype
    | delete user resource =>
      rw [← Option.some.inj hrow] at hdep
      obtain ⟨action, rfl⟩ := Privilege.eq_of_dependsOn_rule hdep
      exact False.elim htype
    | _ => cases hw
  · refine backs_of_sameAt (fun row hrow => sameAt_apply_of_ne ?_) hbacks
    rintro rfl
    exact hdep hrow

/-- A privilege that is backed after a request that does not grant it was backed before. -/
theorem backs_of_answer (hgrants : ¬request.Grants privilege)
    (hbacks : (store.answer request).2.Backs privilege) : store.Backs privilege := by
  rw [backs_answer] at hbacks
  cases hw : store.writeOf request with
  | none => simpa [hw, RowWrite.applyAll] using hbacks
  | some write =>
    rw [hw] at hbacks
    exact backs_of_write hw hgrants hbacks

/-- A rule that allows the action after a request that does not grant it is the rule of before. -/
theorem rule_of_answer {user : UserId} {resource : ResourceId} {action : Action} {rule : Rule}
    (hgrants : ¬request.Grants (.fact user (.resource resource) action))
    (hrule : (store.answer request).2.rules.get? (user, resource) = some rule)
    (haction : action ∈ rule.actions) : store.rules.get? (user, resource) = some rule := by
  have hsame := sameAt_answer store request (.rule user resource)
  rw [SameAt, hrule] at hsame
  cases hw : store.writeOf request with
  | none => simpa [hw, RowWrite.applyAll] using hsame.symm
  | some write =>
    rw [hw] at hsame
    have hbacks : (write.apply store).Backs (.fact user (.resource resource) action) :=
      ⟨rule, hsame.symm, haction⟩
    have hother : Row.rule user resource ≠ write.row := fun heq =>
      not_dependsOn_of_backs hw hgrants id hbacks heq.symm
    have hkept : (write.apply store).SameAt store (.rule user resource) :=
      sameAt_apply_of_ne hother
    rw [SameAt] at hkept
    exact hkept.symm.trans hsame.symm

end MemoryStore

end AccessControl
