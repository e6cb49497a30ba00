import AccessControl.Proofs.CheckAnswer
import AccessControl.Proofs.UpdateEffect
import AccessControl.Proofs.WarmUp

/-!
# The engine after updates that nobody interrupts

An update of the engine takes one request after another.  If nobody comes between them, the fact
base afterwards can be told from the one before.  After a list of updates the engine holds what it
held before and no update has withdrawn, and what the last update that speaks of it has given.
-/

namespace AccessControl

/-- Something in the list gives, and nothing after it takes. -/
def Lasts {α : Type} (gives takes : α → Prop) : List α → Prop
  | [] => False
  | first :: rest => gives first ∧ (∀ later ∈ rest, ¬takes later) ∨ Lasts gives takes rest

theorem lasts_append {α : Type} {gives takes : α → Prop} {left right : List α} :
    Lasts gives takes (left ++ right) ↔
      Lasts gives takes left ∧ (∀ later ∈ right, ¬takes later) ∨ Lasts gives takes right := by
  induction left with
  | nil => simp [Lasts]
  | cons first rest ih =>
    simp only [List.cons_append, Lasts, ih, List.forall_mem_append]
    grind

theorem lasts_iff {α : Type} {gives takes : α → Prop} {list : List α} :
    Lasts gives takes list ↔ ∃ before giver after, list = before ++ giver :: after ∧ gives giver ∧
      ∀ later ∈ after, ¬takes later := by
  constructor
  · intro h
    induction list with
    | nil => exact False.elim h
    | cons first rest ih =>
      rcases h with ⟨hgives, hnone⟩ | hrest
      · exact ⟨[], first, rest, rfl, hgives, hnone⟩
      · obtain ⟨before, giver, after, rfl, hgiver⟩ := ih hrest
        exact ⟨first :: before, giver, after, rfl, hgiver⟩
  · rintro ⟨before, giver, after, rfl, hgiver⟩
    exact lasts_append.2 (.inr (.inl hgiver))

namespace FactBase

variable {base : FactBase} {privilege : Privilege} {subject other : UserId} {role : Role}

/-- The fact base after the pairs of a subject with resource types have been evicted one by one. -/
def withoutTypeFacts (base : FactBase) (subject : UserId) (types : List ResourceType) : FactBase :=
  types.foldl (fun base resourceType => base.removeFacts subject (.type resourceType)) base

/-- The fact base after a subject has been moved to a role, if that takes privilege away. -/
def demoted (base : FactBase) (subject : UserId) (role : Role) : FactBase :=
  (if role.isAdministrative then base else base.setRole subject role).withoutTypeFacts subject
    ResourceType.all

/-- The fact base after an update. -/
def updated (base : FactBase) : EngineUpdate → FactBase
  | .grant subject object actions seen =>
    if base.version subject object = seen then base.withFacts subject object actions.toList
    else base
  | .replace subject object actions seen =>
    if base.version subject object = seen then base.replaceFacts subject object actions
    else base.removeFacts subject object
  | .remove subject object => base.removeFacts subject object
  | .assignRole subject role seen =>
    if base.roleVersion subject = seen then
      (base.setRole subject role).withoutTypeFacts subject ResourceType.all
    else base.demoted subject role
  | .demote subject role => base.demoted subject role
  | .clearObject object => base.clearObject object

theorem holds_withoutTypeFacts {types : List ResourceType} :
    (base.withoutTypeFacts subject types).Holds privilege ↔ base.Holds privilege ∧
      ¬∃ resourceType ∈ types, ∃ action, privilege = .fact subject (.type resourceType) action := by
  induction types generalizing base with
  | nil => simp [withoutTypeFacts]
  | cons resourceType rest ih =>
    have hlater : (base.withoutTypeFacts subject (resourceType :: rest)).Holds privilege ↔
        (base.removeFacts subject (.type resourceType)).Holds privilege ∧ _ := ih
    rw [hlater, holds_removeFacts]
    simp only [List.mem_cons, or_and_right, exists_or, exists_eq_left, not_or, and_assoc]

theorem holds_withoutAllTypeFacts :
    (base.withoutTypeFacts subject ResourceType.all).Holds privilege ↔ base.Holds privilege ∧
      ¬∃ resourceType action, privilege = .fact subject (.type resourceType) action := by
  rw [holds_withoutTypeFacts]
  simp [ResourceType.mem_all]

theorem roleOf_withoutTypeFacts {types : List ResourceType} :
    (base.withoutTypeFacts subject types).roleOf other = base.roleOf other := by
  induction types generalizing base with
  | nil => rfl
  | cons resourceType rest ih => exact ih.trans roleOf_removeFacts

theorem actionsFor_withoutTypeFacts {types : List ResourceType} {resource : ResourceId} :
    (base.withoutTypeFacts subject types).actionsFor other (.resource resource) =
      base.actionsFor other (.resource resource) := by
  induction types generalizing base with
  | nil => rfl
  | cons resourceType rest ih =>
    have hfirst : (base.removeFacts subject (.type resourceType)).actionsFor other
        (.resource resource) = base.actionsFor other (.resource resource) := by
      simp
    exact ih.trans hfirst

theorem subjectVersion_withoutTypeFacts {types : List ResourceType} (h : other ≠ subject) :
    (base.withoutTypeFacts subject types).subjectVersion other = base.subjectVersion other := by
  induction types generalizing base with
  | nil => rfl
  | cons resourceType rest ih => exact ih.trans (by simp [h])

theorem objectVersion_withoutTypeFacts {types : List ResourceType} {object : PolicyObject} :
    (base.withoutTypeFacts subject types).objectVersion object = base.objectVersion object := by
  induction types generalizing base with
  | nil => rfl
  | cons resourceType rest ih => exact ih.trans objectVersion_removeFacts

/-- Moving a subject towards a role gives nothing, and takes what a change of the role takes. -/
theorem holds_demoted : (base.demoted subject role).Holds privilege ↔
    base.Holds privilege ∧ ¬EngineUpdate.LostByRole privilege subject role := by
  rw [demoted, holds_withoutAllTypeFacts, EngineUpdate.LostByRole]
  cases hadmin : role.isAdministrative with
  | true => simp
  | false => simp [holds_setRole, hadmin, and_assoc, and_comm]

theorem roleOf_demoted : (base.demoted subject role).roleOf other =
    if other = subject ∧ role.isAdministrative = false then some role else base.roleOf other := by
  rw [demoted, roleOf_withoutTypeFacts]
  cases role.isAdministrative <;> simp

theorem subjectVersion_demoted (h : other ≠ subject) :
    (base.demoted subject role).subjectVersion other = base.subjectVersion other := by
  rw [demoted, subjectVersion_withoutTypeFacts h]
  split <;> simp [h]

theorem objectVersion_demoted {object : PolicyObject} :
    (base.demoted subject role).objectVersion object = base.objectVersion object := by
  rw [demoted, objectVersion_withoutTypeFacts]
  split <;> simp

/-- After an update the engine holds what it held before and the update does not withdraw, and what
the update offers. -/
theorem holds_updated {update : EngineUpdate} (h : (base.updated update).Holds privilege) :
    base.Holds privilege ∧ ¬update.Withdraws privilege ∨
      ∃ version, update.Offers privilege version := by
  cases update with
  | grant subject object actions seen =>
    simp only [updated] at h
    split at h
    · rcases holds_withFacts.1 h with ⟨action, hmem, rfl⟩ | hheld
      · exact .inr ⟨seen, ⟨action, ActionSet.mem_toList.1 hmem, rfl⟩, rfl⟩
      · exact .inl ⟨hheld, id⟩
    · exact .inl ⟨h, id⟩
  | replace subject object actions seen =>
    simp only [updated] at h
    split at h
    · rcases holds_replaceFacts.1 h with hgiven | hheld
      · exact .inr ⟨seen, hgiven, rfl⟩
      · exact .inl hheld
    · exact .inl (holds_removeFacts.1 h)
  | remove subject object => exact .inl (holds_removeFacts.1 h)
  | assignRole subject role seen =>
    simp only [updated] at h
    split at h
    · obtain ⟨hholds, htype⟩ := holds_withoutAllTypeFacts.1 h
      rcases holds_setRole.1 hholds with hgiven | ⟨hheld, hother⟩
      · exact .inr ⟨seen, hgiven, rfl⟩
      · refine .inl ⟨hheld, ?_⟩
        rintro (hlost | ⟨hrole, -⟩)
        · exact htype hlost
        · exact hother hrole
    · exact .inl (holds_demoted.1 h)
  | demote subject role => exact .inl (holds_demoted.1 h)
  | clearObject object => exact .inl (holds_clearObject.1 h)

/-- After a list of updates the engine holds what it held before and none of them withdraws, and
what one of them offers and no later one withdraws. -/
theorem holds_foldl_updated {updates : List EngineUpdate}
    (h : (updates.foldl updated base).Holds privilege) :
    base.Holds privilege ∧ (∀ update ∈ updates, ¬update.Withdraws privilege) ∨
      Lasts (fun update => ∃ version, EngineUpdate.Offers privilege version update)
        (EngineUpdate.Withdraws privilege) updates := by
  induction updates generalizing base with
  | nil => exact .inl ⟨h, nofun⟩
  | cons update rest ih =>
    rcases ih h with ⟨hholds, hnone⟩ | hlasts
    · rcases holds_updated hholds with ⟨hheld, hkept⟩ | hoffers
      · exact .inl ⟨hheld, List.forall_mem_cons.2 ⟨hkept, hnone⟩⟩
      · exact .inr (.inl ⟨hoffers, hnone⟩)
    · exact .inr (.inr hlasts)

end FactBase

namespace LocalCache

variable {α : Type} {cache : LocalCache}

/-- An engine that fails stays as it is. -/
theorem run_poisoned (h : cache.engine.poisoned = true) (call : Call α) :
    (run call cache).2.engine = cache.engine := by
  induction call generalizing cache with
  | done result => rfl
  | engine request next ih =>
    have hsame : cache.engine.answer request = (.error .poisoned, cache.engine) := if_pos h
    rw [run, hsame]
    exact ih _ h
  | store request onUnknown next ih => exact ih _ h
  | count counter next ih => exact ih h

variable (h : cache.engine.poisoned = false)

include h

/-- A request to an engine that works is answered by its fact base. -/
theorem run_ask {β : Type} (request : EngineRequest)
    (next : request.Reply → Call (Except EngineError β)) :
    run (Call.ask request next) cache =
      run (next (cache.engine.base.answer request).1)
        (cache.withBase (cache.engine.base.answer request).2) := by
  simp [Call.ask, run, Engine.answer, h, withBase]

theorem run_addFacts (subject : UserId) (object : PolicyObject) (actions : List Action)
    (seen : FactVersion) :
    (run (EngineUpdate.addFacts subject object seen actions) cache).2 =
      cache.withBase (if cache.engine.base.version subject object = seen then
        cache.engine.base.withFacts subject object actions else cache.engine.base) := by
  induction actions generalizing cache with
  | nil =>
    have hnothing : cache.engine.base.withFacts subject object [] = cache.engine.base := rfl
    rw [hnothing, ite_self]
    rfl
  | cons action rest ih =>
    rw [EngineUpdate.addFacts, run_ask h]
    by_cases hseen : cache.engine.base.version subject object = seen
    · -- adding a fact moves no counter, so the guard of the rest holds as well
      have hadded : cache.engine.base.answer (.addFactIfCurrent subject object action seen) =
          (true, cache.engine.base.addFact subject object action) := if_pos hseen
      have hstill : (cache.engine.base.addFact subject object action).version subject object =
          seen := hseen
      have hnext : (cache.withBase
          (cache.engine.base.addFact subject object action)).engine.poisoned = false := h
      have hrest := (ih hnext).trans (congrArg cache.withBase (if_pos hstill))
      rw [hadded, if_pos rfl, if_pos hseen]
      exact hrest
    · have hrefused : cache.engine.base.answer (.addFactIfCurrent subject object action seen) =
          (false, cache.engine.base) := if_neg hseen
      rw [hrefused, if_neg Bool.false_ne_true, if_neg hseen]
      rfl

theorem run_dropTypeFacts (subject : UserId) (types : List ResourceType) :
    (run (EngineUpdate.dropTypeFacts subject types) cache).2 =
      cache.withBase (cache.engine.base.withoutTypeFacts subject types) := by
  induction types generalizing cache with
  | nil => rfl
  | cons resourceType rest ih =>
    rw [EngineUpdate.dropTypeFacts, run_ask h]
    exact ih h

theorem run_demotion (subject : UserId) (role : Role) :
    (run (EngineUpdate.demotion subject role) cache).2 =
      cache.withBase (cache.engine.base.demoted subject role) := by
  rw [EngineUpdate.demotion, FactBase.demoted]
  split
  · exact run_dropTypeFacts h subject _
  · have hnext : (cache.withBase (cache.engine.base.setRole subject role)).engine.poisoned =
        false := h
    rw [run_ask h]
    exact run_dropTypeFacts hnext subject _

/-- What an update leaves. -/
theorem run_apply (update : EngineUpdate) :
    (run update.apply cache).2 = cache.withBase (cache.engine.base.updated update) := by
  cases update with
  | grant subject object actions seen => exact run_addFacts h subject object _ seen
  | replace subject object actions seen =>
    rw [EngineUpdate.apply, run_ask h, FactBase.updated]
    by_cases hseen : cache.engine.base.version subject object = seen
    · have hreplaced : cache.engine.base.answer
          (.replaceFactsIfCurrent subject object actions seen) = (true, _) := if_pos hseen
      rw [hreplaced, if_pos rfl, if_pos hseen]
      rfl
    · have hrefused : cache.engine.base.answer
          (.replaceFactsIfCurrent subject object actions seen) = (false, _) := if_neg hseen
      rw [hrefused, if_neg Bool.false_ne_true, if_neg hseen]
      exact congrArg Prod.snd (run_ask h (.removeFacts subject object) fun _ => .done (.ok ()))
  | remove subject object =>
    rw [EngineUpdate.apply, run_ask h]
    rfl
  | assignRole subject role seen =>
    rw [EngineUpdate.apply, run_ask h, FactBase.updated]
    by_cases hseen : cache.engine.base.roleVersion subject = seen
    · have hrecorded : cache.engine.base.answer (.setRoleIfCurrent subject role seen) =
          (true, _) := if_pos hseen
      have hnext : (cache.withBase (cache.engine.base.setRole subject role)).engine.poisoned =
          false := h
      rw [hrecorded, if_pos rfl, if_pos hseen]
      exact run_dropTypeFacts hnext subject _
    · have hrefused : cache.engine.base.answer (.setRoleIfCurrent subject role seen) =
          (false, _) := if_neg hseen
      rw [hrefused, if_neg Bool.false_ne_true, if_neg hseen]
      exact run_demotion h subject role
  | demote subject role => exact run_demotion h subject role
  | clearObject object =>
    rw [EngineUpdate.apply, run_ask h]
    rfl

/-- What a list of updates leaves. -/
theorem run_applyAll (updates : List EngineUpdate) :
    (run (EngineUpdate.applyAll updates) cache).2 =
      cache.withBase (updates.foldl FactBase.updated cache.engine.base) := by
  induction updates generalizing cache with
  | nil => rfl
  | cons update rest ih =>
    rw [EngineUpdate.applyAll, run_bind, run_apply h]
    exact ih h

end LocalCache

namespace Engine

/-- The engine after a call that nobody interrupts and that asks nothing of a store. -/
def after {α : Type} (engine : Engine) (call : Call α) : Engine :=
  (LocalCache.run call { engine }).2.engine

/-- The engine after a list of updates that nobody interrupts.  An engine that fails stays as it
is. -/
def updatedAll (engine : Engine) (updates : List EngineUpdate) : Engine :=
  if engine.poisoned then engine
  else { engine with base := updates.foldl FactBase.updated engine.base }

variable {engine : Engine}

theorem updatedAll_of_works (h : engine.poisoned = false) (updates : List EngineUpdate) :
    engine.updatedAll updates =
      { engine with base := updates.foldl FactBase.updated engine.base } :=
  if_neg (Bool.eq_false_iff.1 h)

theorem after_of_poisoned {α : Type} (h : engine.poisoned = true) (call : Call α) :
    engine.after call = engine :=
  LocalCache.run_poisoned h call

theorem after_apply (h : engine.poisoned = false) (update : EngineUpdate) :
    engine.after update.apply = { engine with base := engine.base.updated update } :=
  congrArg LocalCache.engine (LocalCache.run_apply h update)

theorem after_applyAll (engine : Engine) (updates : List EngineUpdate) :
    engine.after (EngineUpdate.applyAll updates) = engine.updatedAll updates := by
  rw [updatedAll]
  split
  case isTrue hpoisoned => exact after_of_poisoned hpoisoned _
  case isFalse hanswers =>
    have hworks : ({ engine } : LocalCache).engine.poisoned = false :=
      Bool.eq_false_iff.2 hanswers
    exact congrArg LocalCache.engine (LocalCache.run_applyAll hworks updates)

end Engine

end AccessControl
