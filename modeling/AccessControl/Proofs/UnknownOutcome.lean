import AccessControl.Proofs.UpdateRun
import Mathlib.Data.Set.Basic

/-!
# The engine after a write of unknown outcome

Where it is not known whether a write was made, the engine is given another update in its place.
That update is right for both outcomes: the engine then allows nothing that it did not allow before,
and nothing that it would not allow after the update of the write itself.  So it is with the updates
of several writes, although each of them moves counters that the later ones are guarded by: what the
engine holds in the one course it holds in the other, and no counter has a say in what is withdrawn.
-/

namespace AccessControl

namespace EngineUpdate

variable {privilege : Privilege} {update fallback : EngineUpdate}

/-- The update that is made instead withdraws what the update itself withdraws. -/
theorem withdraws_onUnknown (h : update.onUnknown = some fallback) :
    fallback.Withdraws privilege ↔ update.Withdraws privilege := by
  cases update <;> simp [onUnknown] at h <;> subst h <;> exact Iff.rfl

/-- Only a grant has nothing made in its place. -/
theorem not_withdraws_of_onUnknown (h : update.onUnknown = none) : ¬update.Withdraws privilege := by
  intro hw
  obtain ⟨fallback, hfallback, -⟩ := exists_onUnknown_withdraws hw
  rw [h] at hfallback
  cases hfallback

end EngineUpdate

namespace FactBase

variable {base left right : FactBase} {privilege : Privilege} {update : EngineUpdate}

/-! ## What an update leaves -/

/-- A privilege that is held stays held, unless the update withdraws it. -/
theorem holds_updated_of_held (h : base.Holds privilege) (hkept : ¬update.Withdraws privilege) :
    (base.updated update).Holds privilege := by
  cases update with
  | grant subject object actions seen =>
    simp only [updated]
    split
    · exact holds_withFacts.2 (.inr h)
    · exact h
  | replace subject object actions seen =>
    -- stale or not, nothing but the pair is touched
    simp only [updated]
    split
    · exact holds_replaceFacts.2 (.inr ⟨h, hkept⟩)
    · exact holds_removeFacts.2 ⟨h, hkept⟩
  | remove subject object => exact holds_removeFacts.2 ⟨h, hkept⟩
  | assignRole subject role seen =>
    simp only [updated]
    split
    · obtain ⟨htype, hrole⟩ := not_or.1 hkept
      refine holds_withoutAllTypeFacts.2 ⟨holds_setRole.2 ?_, htype⟩
      by_cases hadmin : privilege = .administration subject
      · refine .inl ⟨hadmin, ?_⟩
        by_contra hordinary
        exact hrole ⟨hadmin, Bool.eq_false_iff.2 hordinary⟩
      · exact .inr ⟨h, hadmin⟩
    · exact holds_demoted.2 ⟨h, hkept⟩
  | demote subject role => exact holds_demoted.2 ⟨h, hkept⟩
  | clearObject object => exact holds_clearObject.2 ⟨h, hkept⟩

/-! ## The update that is made instead -/

/-- The fact base after what is done when it is not known whether the write of the update was
made. -/
def evicted (base : FactBase) (update : EngineUpdate) : FactBase :=
  update.onUnknown.elim base base.updated

/-- Nothing is held that was not held before, and nothing that the update withdraws. -/
theorem holds_evicted (h : (base.evicted update).Holds privilege) :
    base.Holds privilege ∧ ¬update.Withdraws privilege := by
  cases hinstead : update.onUnknown with
  | none =>
    rw [evicted, hinstead] at h
    exact ⟨h, EngineUpdate.not_withdraws_of_onUnknown hinstead⟩
  | some fallback =>
    rw [evicted, hinstead] at h
    rcases holds_updated h with ⟨hheld, hkept⟩ | ⟨version, hoffers⟩
    · exact ⟨hheld, mt (EngineUpdate.withdraws_onUnknown hinstead).2 hkept⟩
    · exact absurd hoffers (EngineUpdate.not_offers_onUnknown hinstead)

/-! ## Two courses side by side -/

/-- Whether every privilege that the first fact base holds is held by the second.  It would not do to
compare the checks that pass: they may pass by a fact in the one course and by a role in the other,
and then a demotion spares the fact. -/
def HoldsNoMore (left right : FactBase) : Prop :=
  ∀ privilege, left.Holds privilege → right.Holds privilege

namespace HoldsNoMore

theorem refl (base : FactBase) : base.HoldsNoMore base := fun _ => id

theorem evicted_left (h : left.HoldsNoMore right) (update : EngineUpdate) :
    (left.evicted update).HoldsNoMore right :=
  fun privilege hholds => h privilege (holds_evicted hholds).1

/-- An update in the one course, what is made instead of it in the other. -/
theorem step (h : left.HoldsNoMore right) (update : EngineUpdate) :
    (left.evicted update).HoldsNoMore (right.updated update) := by
  intro privilege hholds
  obtain ⟨hheld, hkept⟩ := holds_evicted hholds
  exact holds_updated_of_held (h privilege hheld) hkept

theorem foldl_evicted_left (h : left.HoldsNoMore right) (updates : List EngineUpdate) :
    (updates.foldl evicted left).HoldsNoMore right := by
  induction updates generalizing left with
  | nil => exact h
  | cons update rest ih => exact ih (h.evicted_left update)

theorem run (h : left.HoldsNoMore right) (updates : List EngineUpdate) :
    (updates.foldl evicted left).HoldsNoMore (updates.foldl updated right) := by
  induction updates generalizing left right with
  | nil => exact h
  | cons update rest ih => exact ih (h.step update)

end HoldsNoMore

/-- What is made instead of a list of updates is made instead of each of them in turn. -/
theorem foldl_updated_onUnknownAll (base : FactBase) (updates : List EngineUpdate) :
    (EngineUpdate.onUnknownAll updates).foldl updated base = updates.foldl evicted base := by
  induction updates generalizing base with
  | nil => rfl
  | cons update rest ih =>
    rw [List.foldl_cons, ← ih, EngineUpdate.onUnknownAll, List.filterMap_cons, evicted]
    cases update.onUnknown <;> rfl

end FactBase

/-! ## What the engine allows -/

namespace Engine

variable {engine left right : Engine}

/-- The checks that the engine answers with yes. -/
def allowed (engine : Engine) : Set (UserId × PolicyObject × Action) :=
  { check | (engine.answer (.check check.1 check.2.1 check.2.2)).1 = .ok true }

theorem mem_allowed {check : UserId × PolicyObject × Action} :
    check ∈ engine.allowed ↔ engine.passes check.1 check.2.1 check.2.2 = true := by
  have hallows : ∀ reply : Except EngineError Bool,
      reply = .ok true ↔ Coordinator.allows reply = true := by
    intro reply
    cases reply <;> simp [Coordinator.allows]
  exact hallows _

/-- An engine that holds no more than another, and answers if that one does, allows no more. -/
theorem allowed_subset (hpoisoned : left.poisoned = right.poisoned)
    (h : left.base.HoldsNoMore right.base) : left.allowed ⊆ right.allowed := by
  intro check hmem
  rw [mem_allowed, passes_iff] at hmem ⊢
  exact ⟨hpoisoned ▸ hmem.1, hmem.2.imp (h _) (h _)⟩

/-- The engine after what is done when it is not known whether the write of the update was made. -/
def afterInstead (engine : Engine) (update : EngineUpdate) : Engine :=
  update.onUnknown.elim engine fun instead => engine.after instead.apply

theorem afterInstead_of_works (h : engine.poisoned = false) (update : EngineUpdate) :
    engine.afterInstead update = { engine with base := engine.base.evicted update } := by
  rw [afterInstead, FactBase.evicted]
  cases update.onUnknown with
  | none => rfl
  | some instead => exact after_apply h instead

theorem afterInstead_of_poisoned (h : engine.poisoned = true) (update : EngineUpdate) :
    engine.afterInstead update = engine := by
  rw [afterInstead]
  cases update.onUnknown with
  | none => rfl
  | some instead => exact after_of_poisoned h instead.apply

/-- What is done when the outcome of a write is unknown is right for both outcomes, whatever the
engine holds and wherever its counters stand: the engine allows no more than before, and no more than
after the update of the write.  The same is true of the updates of any number of writes. -/
theorem eviction_right_for_both_outcomes (engine : Engine) :
    (∀ update : EngineUpdate,
      (engine.afterInstead update).allowed ⊆
        engine.allowed ∩ (engine.after update.apply).allowed) ∧
      ∀ updates : List EngineUpdate,
        (engine.after (EngineUpdate.applyAll (EngineUpdate.onUnknownAll updates))).allowed ⊆
          engine.allowed ∩ (engine.after (EngineUpdate.applyAll updates)).allowed := by
  have hrefl := FactBase.HoldsNoMore.refl engine.base
  cases hpoisoned : engine.poisoned with
  | true =>
    -- an engine that fails stays as it is
    simp [afterInstead_of_poisoned hpoisoned, after_of_poisoned hpoisoned]
  | false =>
    constructor
    · intro update
      rw [afterInstead_of_works hpoisoned, after_apply hpoisoned]
      exact Set.subset_inter (allowed_subset rfl (hrefl.evicted_left update))
        (allowed_subset rfl (hrefl.step update))
    · intro updates
      rw [after_applyAll, after_applyAll, updatedAll_of_works hpoisoned,
        updatedAll_of_works hpoisoned, FactBase.foldl_updated_onUnknownAll]
      exact Set.subset_inter (allowed_subset rfl (hrefl.foldl_evicted_left updates))
        (allowed_subset rfl (hrefl.run updates))

end Engine

end AccessControl
