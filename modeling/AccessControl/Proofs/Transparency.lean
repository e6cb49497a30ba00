import AccessControl.Proofs.DecisionAtRest
import AccessControl.Proofs.EvictionRecovery

/-!
# Checks that are answered as the store answers them

While no write is under way the engine holds only what the store backs, and what the engine does not
pass is left to the store.  So a coordinator answers every check of a type as its store does.  It
answers a check of a resource as its store does if the rule for the resource names the type of the
check, and if the engine can pass the check neither by the user's role nor by a fact about the type:
the store, when it is asked about a resource, looks at neither.
-/

namespace AccessControl

namespace System

/-- A coordinator answers the request as the store does.  It does so at once if nobody interrupts
the call, and also beside calls that write nothing, as long as they keep the system `calm`.  Only a
call that is told of a failure of its store may report the failure instead. -/
structure Transparent (calm : System → Prop) (asked : StoreRequest) (system : System) : Prop where
  alone : calm system → ∀ reader,
    (system.backend.cacheOf reader).answerTo asked = (system.backend.store.answer asked).1
  beside : ∀ {id coordinator : Nat} {beside : List Event} {next : System} {answer : asked.Answer},
    system.run (.start id coordinator asked :: beside) = some next →
    next.backend.revocations < UInt64.size →
    (∀ event ∈ beside, event.Starts fun request => request.row? = none) →
    (∀ moment, system.Visits (.start id coordinator asked :: beside) moment → calm moment) →
    next.answer? id asked = some answer →
      answer = (system.backend.store.answer asked).1 ∨
        ∃ error, answer = .error error ∧ Reports beside id error

variable {store : MemoryStore} {base : FactBase} {events : List Event} {system : System}
  {asked : StoreRequest} {calm : System → Prop}

/-- At rest a coordinator answers as its store does if the store allows whatever a privilege that it
backs passes, and is left the rest. -/
theorem transparent_of_allowed (hsound : ∀ privilege, system.Sound privilege)
    (hrest : system.AtRest) (hreads : asked.row? = none)
    (hmiss : ∀ cache : LocalCache, ¬cache.engine.Allows asked →
      cache.answerTo asked = (cache.store.answer asked).1)
    (hhit : ∀ cache : LocalCache, cache.engine.Allows asked →
      ∃ reply, cache.answerTo asked = .ok reply)
    (hallowed : ∀ moment, calm moment → ∀ privilege ∈ asked.privileges,
      moment.backend.Holds privilege → system.backend.Backs privilege →
        ∀ reply, (system.backend.store.answer asked).1 = .ok reply) :
    system.Transparent calm asked := by
  refine ⟨fun hcalm reader => ?_, ?_⟩
  · by_cases hengine : (system.backend.cacheOf reader).engine.Allows asked
    · obtain ⟨reply, hreply⟩ := hhit _ hengine
      obtain ⟨-, privilege, hmem, hholds⟩ := hengine
      have hbacks : system.backend.Backs privilege := (hsound privilege).backs_atRest hrest hholds
      rw [hreply, hallowed system hcalm privilege hmem hholds hbacks reply]
    · exact hmiss _ hengine
  · intro id coordinator beside next answer hrun hfew hbeside hcalm hanswer
    have hstarts : ∀ event ∈ Event.start id coordinator asked :: beside,
        event.Starts fun request => request.row? = none :=
      List.forall_mem_cons.2 ⟨hreads, hbeside⟩
    have htrusted : system.backend.Trusted := (hsound (.administration ⟨.ofNat 0⟩)).trusted
    have hmoment : ∀ privilege moment,
        system.Visits (.start id coordinator asked :: beside) moment →
          moment.AtRest ∧ moment.backend.store = system.backend.store := fun privilege moment =>
      hrest.visits (hsound privilege) hrun hfew hstarts
    cases answer_origin htrusted hrun hanswer with
    | stored hgave =>
      obtain ⟨moment, hvisits, hstored⟩ := hgave
      rw [(hmoment (.administration ⟨.ofNat 0⟩) moment hvisits).2] at hstored
      exact .inl hstored
    | passed reply moment privilege hreply hvisits hmem hholds =>
      obtain ⟨hatRest, hstore⟩ := hmoment privilege moment hvisits
      have hbacks : moment.backend.Backs privilege :=
        ((hsound privilege).visits hrun hfew hvisits).backs_atRest hatRest hholds
      rw [Backend.Backs, hstore] at hbacks
      rw [hreply, hallowed moment (hcalm moment hvisits) privilege hmem hholds hbacks reply]
      exact .inl rfl
    | reported error herror hreports => exact .inr ⟨error, herror, hreports⟩

/-- At rest a coordinator answers every check of a type as its store does.  It answers a check of a
resource as its store does if the user is no administrator, the rule for the resource, if there is
one, names the type of the check, and the engine holds no fact about the type that passes it. -/
theorem checks_transparent_atRest (hrun : (opened store base).run events = some system)
    (hstart : ∀ privilege, base.Holds privilege → store.Backs privilege) (hrest : system.AtRest)
    (hfew : system.backend.revocations < UInt64.size) :
    (∀ check : TypeCheck, system.Transparent (fun _ => True) (.validateAccessToType check)) ∧
    ∀ check : InstanceCheck, ¬system.backend.Backs (.administration check.user) →
      (∀ rule, system.backend.store.rules.get? (check.user, check.resource) = some rule →
        rule.resourceType = check.resourceType) →
      system.Transparent
        (fun moment =>
          ¬moment.backend.Holds (.fact check.user (.type check.resourceType) check.action))
        (.validateAccess check) := by
  have hsound : ∀ privilege, system.Sound privilege := fun privilege =>
    (sound_opened (hstart privilege)).run hrun hfew
  refine ⟨fun check => ?_, fun check hordinary htype => ?_⟩
  · refine transparent_of_allowed hsound hrest rfl
      (fun cache => LocalCache.answerTo_validateAccessToType_of_miss)
      (fun cache hengine => ⟨(), LocalCache.answerTo_validateAccessToType.2 (.inl hengine)⟩) ?_
    intro moment _ privilege hmem _ hbacks reply
    have hallowed : system.backend.store.allowsType check = true :=
      MemoryStore.allowsType_of_backs hmem hbacks
    simp [MemoryStore.answer, MemoryStore.decision, hallowed]
  · refine transparent_of_allowed hsound hrest rfl
      (fun cache => LocalCache.answerTo_validateAccess_of_miss)
      (fun cache hengine => ⟨(), LocalCache.answerTo_validateAccess.2 (.inl hengine)⟩) ?_
    intro moment hcalm privilege hmem hholds hbacks reply
    simp only [StoreRequest.privileges, List.mem_cons, List.not_mem_nil, or_false] at hmem
    rcases hmem with rfl | rfl | rfl
    · exact absurd hbacks hordinary
    · have hallowed : system.backend.store.allowsInstance check = true :=
        MemoryStore.allowsInstance_of_backs hbacks htype
      simp [MemoryStore.answer, MemoryStore.decision, hallowed]
    · exact absurd hholds hcalm

/-- A check of an action that neither the rule nor the policy allows. -/
def deletionCheck : InstanceCheck := ⟨someUser, someResource, .page, .delete⟩

/-- What happens beside a check of the type: a check of the resource is passed by the engine, and
the first check learns the store's answer. -/
def besideTypeCheck : List Event :=
  [.move 1 (.proceed .advance), .start 2 1 (.validateAccess pageCheck),
    .move 1 (.proceed .advance), .move 2 (.proceed .advance), .move 1 (.proceed .advance),
    .move 1 .ask, .move 2 (.proceed .advance), .move 1 (.proceed .receive),
    .move 1 (.proceed .advance), .move 1 (.proceed .advance)]

/-- The rule has been given a second action.  A third one is denied, and a check of the type is
passed by the policy, although another check comes between its steps. -/
theorem checks_answered_as_stored : ∃ system next,
    (opened someStore someBase).run wideningUpdate = some system ∧ system.AtRest ∧
      (system.backend.cacheOf 0).answerTo (.validateAccess deletionCheck) =
        (system.backend.store.answer (.validateAccess deletionCheck)).1 ∧
      system.run (.start 1 0 (.validateAccessToType pageCheck.ofType) :: besideTypeCheck) =
        some next ∧
      next.answer? 1 (.validateAccessToType pageCheck.ofType) =
        some (system.backend.store.answer (.validateAccessToType pageCheck.ofType)).1 := by
  have hwidened : ((opened someStore someBase).run wideningUpdate).any (fun system =>
      system.AtRest ∧ system.backend.revocations < UInt64.size ∧
        system.backend.store.users.get? someUser = some .user ∧
        system.backend.store.rules.get? (someUser, someResource) =
          some ⟨someUser, someResource, .page, .ofList [.get, .update]⟩ ∧
        system.backend.engine.base.actionsFor someUser (.type .page) = ∅ ∧
        (system.run (.start 1 0 (.validateAccessToType pageCheck.ofType) :: besideTypeCheck)).any
          (fun next => next.backend.revocations < UInt64.size ∧
            (next.answer? 1 (.validateAccessToType pageCheck.ofType)).isSome)) = true := by
    decide
  obtain ⟨system, hrun, hsystem⟩ := (Option.any_eq_true ..).1 hwidened
  obtain ⟨hrest, hfew, huser, hrule, hcalm, hchecked⟩ := of_decide_eq_true hsystem
  obtain ⟨next, hchecked, hnext⟩ := (Option.any_eq_true ..).1 hchecked
  obtain ⟨hfewer, hanswered⟩ := of_decide_eq_true hnext
  have htransparent := checks_transparent_atRest hrun someStore_backs_someBase hrest hfew
  refine ⟨system, next, hrun, hrest, ?_, hchecked, ?_⟩
  · refine (htransparent.2 deletionCheck ?_ ?_).alone ?_ 0
    · rintro ⟨role, hrole, hadmin⟩
      cases huser.symm.trans hrole
      cases hadmin
    · intro rule hget
      cases hrule.symm.trans hget
      rfl
    · intro hholds
      have hmem : Action.delete ∈ system.backend.engine.base.actionsFor someUser (.type .page) :=
        hholds
      rw [hcalm] at hmem
      exact ActionSet.not_mem_empty _ hmem
  · have hbeside : ∀ event ∈ besideTypeCheck, event.Starts fun request => request.row? = none := by
      simp [besideTypeCheck, Event.Starts, StoreRequest.row?]
    obtain ⟨answer, hanswer⟩ := Option.isSome_iff_exists.1 hanswered
    rcases (htransparent.1 pageCheck.ofType).beside hchecked hfewer hbeside (fun _ _ => trivial)
      hanswer with hstored | ⟨error, -, hreports⟩
    · rw [hanswer, hstored]
    · exact absurd hreports (not_reports (by decide))

end System

end AccessControl
