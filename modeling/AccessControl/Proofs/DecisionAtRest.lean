import AccessControl.Proofs.AnswerOrigin
import AccessControl.Proofs.CoordinatorRun
import AccessControl.Proofs.WarmUp

/-!
# Decisions while nothing is written

A system is at rest while no write is under way.  Then the engine holds only what the store backs,
so a check is passed only if the store allows the action: for every resource of the type, or by the
rule for the resource.  The engine knows a rule by its resource alone, so the type that the rule
names may be another one than the check asks about.
-/

namespace AccessControl

/-- A fact about a resource is backed if the resource passes its check under some type. -/
theorem MemoryStore.backs_resource_iff {store : MemoryStore} {check : InstanceCheck} :
    store.Backs (.fact check.user (.resource check.resource) check.action) ↔
      ∃ resourceType, store.allowsInstance { check with resourceType } = true := by
  constructor
  · rintro ⟨rule, hrule, haction⟩
    refine ⟨rule.resourceType, ?_⟩
    have hallowed : rule.actions.contains check.action = true := haction
    simp [allowsInstance, hrule, hallowed]
  · rintro ⟨resourceType, hallowed⟩
    have hbacks := backs_of_allowsInstance hallowed
    exact hbacks

/-- What passes a check of a resource is backed only if the store allows the check or one that
differs from it in the resource type. -/
theorem MemoryStore.allowed_of_backs {store : MemoryStore} {check : InstanceCheck}
    {privilege : Privilege}
    (hmem : privilege ∈ StoreRequest.privileges (.validateAccess check))
    (hbacks : store.Backs privilege) :
    store.allowsType check.ofType = true ∨
      ∃ resourceType, store.allowsInstance { check with resourceType } = true := by
  simp only [StoreRequest.privileges, List.mem_cons, List.not_mem_nil, or_false] at hmem
  rcases hmem with rfl | rfl | rfl
  · obtain ⟨role, hrole, hadmin⟩ := hbacks
    have huser : store.users.get? check.ofType.user = some role := hrole
    exact .inl (by simp [allowsType, huser, hadmin])
  · exact .inr (backs_resource_iff.1 hbacks)
  · exact .inl hbacks

/-- Whether the party is a call that writes nothing or has come to its end. -/
def Party.atRest : Party → Bool
  | call _ flight => flight.request.row?.isNone || flight.stage.finished
  | scope _ => false

namespace System

variable {store : MemoryStore} {base : FactBase} {events beside : List Event}
  {system next moment : System} {privilege : Privilege} {id coordinator : Nat}
  {check : InstanceCheck}

/-- No call that writes is under way, and no transaction is open. -/
def AtRest (system : System) : Prop := system.CallsOnly fun request => request.row? = none

theorem atRest_iff :
    system.AtRest ↔ ∀ row ∈ system.parties.rows, row.2.atRest = true := by
  constructor
  · rintro h ⟨id, party⟩ hrow
    obtain ⟨coordinator, flight, rfl, hreads⟩ := h id party (Table.mem_rows_iff.1 hrow)
    cases hfinished : flight.stage.finished with
    | true => simp [Party.atRest, hfinished]
    | false => simp [Party.atRest, hreads hfinished]
  · intro h id party hget
    have hrest : party.atRest = true := h (id, party) (Table.mem_rows_iff.2 hget)
    cases party with
    | scope opened => cases hrest
    | call coordinator flight =>
      refine ⟨coordinator, flight, rfl, fun hunfinished => ?_⟩
      rw [Party.atRest, hunfinished, Bool.or_false] at hrest
      exact Option.isNone_iff_eq_none.1 hrest

instance (system : System) : Decidable system.AtRest := decidable_of_iff _ atRest_iff.symm

/-- At rest the engine holds only what the store backs. -/
theorem Sound.backs_atRest (h : system.Sound privilege) (hrest : system.AtRest)
    (hholds : system.backend.Holds privilege) : system.backend.Backs privilege := by
  rcases h.backed_or_pending hrest.onlyCalls hholds with hbacks |
    ⟨id, coordinator, flight, hget, hpending, hrevokes⟩
  · exact hbacks
  · obtain ⟨coordinator', flight', heq, hreads⟩ := hrest id _ hget
    cases heq
    exact absurd hrevokes (StoreRequest.not_revokes_of_row (hreads hpending.2))

/-- Beside reads, a system at rest stays at rest, and its store stays as it is. -/
theorem AtRest.visits (hrest : system.AtRest) (hsound : system.Sound privilege)
    (hrun : system.run events = some next) (hfew : next.backend.revocations < UInt64.size)
    (hreads : ∀ event ∈ events, event.Starts fun request => request.row? = none)
    (hvisits : system.Visits events moment) :
    moment.AtRest ∧ moment.backend.store = system.backend.store := by
  have hkeeps : ∀ (store : MemoryStore) (request : StoreRequest), request.row? = none →
      store = system.backend.store → (store.answer request).2 = system.backend.store := by
    intro store request hrow hsame
    rw [MemoryStore.answer_of_row hrow, hsame]
  exact CallsOnly.visits hrest hsound hrun hfew hreads hkeeps rfl hvisits

/-- A check of a resource that is passed while the system is at rest is one that the store allows
for every resource of the type, or for the resource under some type. -/
theorem allowed_of_passed_atRest (hrun : (opened store base).run events = some system)
    (hstart : ∀ privilege, base.Holds privilege → store.Backs privilege)
    (hrest : system.AtRest)
    (hcheck : system.run (.start id coordinator (.validateAccess check) :: beside) = some next)
    (hbeside : ∀ event ∈ beside, event.Starts fun request => request.row? = none)
    (hfew : next.backend.revocations < UInt64.size)
    (hpassed : next.answer? id (.validateAccess check) = some (.ok ())) :
    system.backend.store.allowsType check.ofType = true ∨
      ∃ resourceType, system.backend.store.allowsInstance { check with resourceType } = true := by
  have hsystem : system.backend.revocations < UInt64.size :=
    Nat.lt_of_le_of_lt (run_revocations hcheck) hfew
  have hsound : ∀ privilege, system.Sound privilege := fun privilege =>
    (sound_opened (hstart privilege)).run hrun hsystem
  have hreads : ∀ event ∈ Event.start id coordinator (.validateAccess check) :: beside,
      event.Starts fun request => request.row? = none := List.forall_mem_cons.2 ⟨rfl, hbeside⟩
  have hmoment : ∀ moment, system.Visits (.start id coordinator (.validateAccess check) :: beside)
      moment → moment.AtRest ∧ moment.backend.store = system.backend.store := fun moment =>
    hrest.visits (hsound (.administration check.user)) hcheck hfew hreads
  cases answer_origin (hsound (.administration check.user)).trusted hcheck hpassed with
  | stored hgave =>
    obtain ⟨moment, hvisits, hstored⟩ := hgave
    have hallowed := MemoryStore.of_decision_ok hstored.symm
    rw [(hmoment moment hvisits).2] at hallowed
    exact .inr ⟨check.resourceType, hallowed⟩
  | passed value moment privilege _ hvisits hmem hholds =>
    obtain ⟨hatRest, hstore⟩ := hmoment moment hvisits
    have hbacks := ((hsound privilege).visits hcheck hfew hvisits).backs_atRest hatRest hholds
    rw [Backend.Backs, hstore] at hbacks
    exact MemoryStore.allowed_of_backs hmem hbacks
  | reported error herror => cases herror

/-- A check of a dashboard, although the rule for the resource names a page. -/
def dashboardCheck : InstanceCheck := ⟨someUser, someResource, .dashboard, .update⟩

/-- The rule is given a second action. -/
def wideningUpdate : List Event :=
  [.start 0 0 (.update someUser ⟨someResource, .page, .ofList [.get, .update]⟩),
    .move 0 (.proceed .advance), .move 0 .ask, .move 0 (.proceed .receive),
    .move 0 (.proceed .advance)]

/-- The check finds the fact in the engine. -/
def checkAfterUpdate : List Event :=
  [.start 1 0 (.validateAccess dashboardCheck), .move 1 (.proceed .advance),
    .move 1 (.proceed .advance)]

theorem someStore_keyed : someStore.Keyed := by
  intro user resource rule hrule
  simp only [someStore, Table.get?_insert, Table.get?_empty, Option.ite_none_right_eq_some] at hrule
  obtain ⟨hkey, heq⟩ := hrule
  cases hkey
  cases heq
  exact ⟨rfl, rfl⟩

/-- A rule for a page passes a check of a dashboard, which the store does not allow, although
nothing is being written and the engine was loaded from that very store. -/
theorem page_rule_passes_dashboard_check : ∃ cache system next,
    LocalCache.ofStore someStore = .ok cache ∧
      (opened someStore cache.engine.base).run wideningUpdate = some system ∧ system.AtRest ∧
      system.run checkAfterUpdate = some next ∧
      next.answer? 1 (.validateAccess dashboardCheck) = some (.ok ()) ∧
      system.backend.store.allowsType dashboardCheck.ofType = false ∧
      system.backend.store.allowsInstance dashboardCheck = false :=
  ⟨_, _, _, rfl, rfl, by decide, rfl, by decide, by decide, by decide⟩

theorem dashboard_check_allowed_as_page_check : ∃ cache system next,
    LocalCache.ofStore someStore = .ok cache ∧
      (opened someStore cache.engine.base).run wideningUpdate = some system ∧
      system.run checkAfterUpdate = some next ∧
      next.answer? 1 (.validateAccess dashboardCheck) = some (.ok ()) ∧
      ∃ resourceType,
        system.backend.store.allowsInstance { dashboardCheck with resourceType } = true := by
  refine ⟨_, _, _, rfl, rfl, rfl, by decide, Or.resolve_left (allowed_of_passed_atRest
    (rfl : (opened someStore _).run wideningUpdate = some _) ?_ ?_
    (rfl : run _ checkAfterUpdate = some _) ?_ ?_ ?_) ?_⟩
  · exact fun privilege hholds => ((LocalCache.holds_ofStore someStore_keyed rfl).1 hholds).2
  · decide
  · simp [Event.Starts]
  · decide
  · decide
  · decide

end System

end AccessControl
