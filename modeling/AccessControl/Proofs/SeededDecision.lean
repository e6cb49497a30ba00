import AccessControl.Program
import AccessControl.Proofs.CheckAnswer
import AccessControl.Proofs.SeededStore
import AccessControl.Proofs.WarmUp

/-!
# Checks of a seeded program

A program with a store in memory seeds it from a fixture, loads a fresh engine from the store and
decides one check.  The decision is the one that the fixture states, although the store is read in no
particular order and the engine knows no facts about resource types yet.
-/

namespace AccessControl

/-- What a fixture describes does not hang on the order of the rows. -/
theorem Fixture.Describes.reordered {fixture : Fixture} {store other : MemoryStore}
    (h : fixture.Describes store) (hsame : store.SameRows other) : fixture.Describes other where
  role user role := by rw [← Table.get?_of_perm hsame.users, h.role]
  policy role resourceType actions := by rw [← Table.get?_of_perm hsame.policies, h.policy]
  rule rule := by rw [← Table.get?_of_perm hsame.rules, h.rule]
  keyed user resource rule hrule := by
    rw [← Table.get?_of_perm hsame.rules] at hrule
    exact h.keyed user resource rule hrule

/-! ## What the fixture allows -/

namespace Fixture

/-- The user is an administrator, or the role of the user has a policy for the type that names the
action. -/
def AllowsType (fixture : Fixture) (user : UserId) (resourceType : ResourceType)
    (action : Action) : Prop :=
  fixture.RoleOf user .admin ∨ ∃ role actions, fixture.RoleOf user role ∧
    fixture.PolicyOf role resourceType actions ∧ action ∈ actions

/-- The user is an administrator, or has a grant on the resource that names the action. -/
def AllowsResource (fixture : Fixture) (user : UserId) (resource : ResourceId)
    (action : Action) : Prop :=
  fixture.RoleOf user .admin ∨ ∃ resourceType actions,
    fixture.Grants ⟨user, resource, resourceType, actions⟩ ∧ action ∈ actions

/-- What the fixture states of a check, of a whole type or of the resource that a text spells.  With a
resource the check has to name the type of the grant on it, if there is one. -/
inductive Verdict (fixture : Fixture) (user : UserId) (resourceType : ResourceType)
    (action : Action) : Option String → Prop → Prop
  | type : Verdict fixture user resourceType action none
      (fixture.AllowsType user resourceType action)
  | resource {text : String} {resource : ResourceId} (hspelled : resource.id.SpelledBy text)
      (htype : ∀ granted actions, fixture.Grants ⟨user, resource, granted, actions⟩ →
        resourceType = granted) :
      Verdict fixture user resourceType action (some text)
        (fixture.AllowsResource user resource action)

namespace Describes

variable {fixture : Fixture} {store : MemoryStore} {user : UserId} {resource : ResourceId}
  {resourceType : ResourceType} {action : Action}

theorem backs_administration (h : fixture.Describes store) :
    store.Backs (.administration user) ↔ fixture.RoleOf user .admin := by
  rw [← h.role]
  constructor
  · rintro ⟨role, hrole, hadmin⟩
    cases role with
    | admin => exact hrole
    | analyst | user => cases hadmin
  · intro hrole
    exact ⟨.admin, hrole, rfl⟩

theorem backs_resource (h : fixture.Describes store) :
    store.Backs (.fact user (.resource resource) action) ↔
      ∃ resourceType actions, fixture.Grants ⟨user, resource, resourceType, actions⟩ ∧
        action ∈ actions := by
  constructor
  · rintro ⟨rule, hrule, hmem⟩
    obtain ⟨rfl, rfl⟩ := h.keyed user resource rule hrule
    exact ⟨rule.resourceType, rule.actions, (h.rule rule).1 hrule, hmem⟩
  · rintro ⟨resourceType, actions, hgrants, hmem⟩
    exact ⟨_, (h.rule _).2 hgrants, hmem⟩

/-- The store allows a check of a type if the fixture does. -/
theorem allowsType_iff (h : fixture.Describes store) :
    store.allowsType ⟨user, resourceType, action⟩ = true ↔
      fixture.AllowsType user resourceType action := by
  simp only [AllowsType, ← h.role, ← h.policy, MemoryStore.allowsType, MemoryStore.policyOf,
    Option.any_eq_true, Bool.or_eq_true]
  constructor
  · rintro ⟨role, hrole, hadmin | hpolicy⟩
    · cases role with
      | admin => exact .inl hrole
      | analyst | user => cases hadmin
    · cases hactions : store.policies.get? (role, resourceType) with
      | none =>
        rw [hactions] at hpolicy
        exact absurd hpolicy (ActionSet.not_mem_empty action)
      | some actions =>
        rw [hactions] at hpolicy
        exact .inr ⟨role, actions, hrole, hactions, hpolicy⟩
  · rintro (hadmin | ⟨role, actions, hrole, hactions, hmem⟩)
    · exact ⟨.admin, hadmin, .inl rfl⟩
    · refine ⟨role, hrole, .inr ?_⟩
      rw [hactions]
      exact hmem

end Describes

end Fixture

/-! ## A newly opened cache -/

namespace LocalCache

variable {fixture : Fixture} {store : MemoryStore} {cache : LocalCache}

/-- The engine of a newly opened cache passes a check if the fixture makes the user an administrator
or grants the action on the resource; of types it knows nothing yet. -/
theorem allows_opened (h : fixture.Describes store) (hopened : ofStore store = .ok cache) :
    (∀ check, cache.engine.Allows (.validateAccess check) ↔
        fixture.AllowsResource check.user check.resource check.action) ∧
      ∀ check, cache.engine.Allows (.validateAccessToType check) ↔
        fixture.RoleOf check.user .admin := by
  have hworks : cache.engine.poisoned = false := by
    rw [ofStore_eq] at hopened
    rw [← Except.ok.inj hopened]
  have hholds : ∀ privilege, cache.engine.base.Holds privilege ↔
      ¬privilege.OnType ∧ store.Backs privilege := fun _ => holds_ofStore h.keyed hopened
  constructor
  · intro check
    simp [Engine.Allows, hworks, StoreRequest.privileges, hholds, Privilege.OnType,
      h.backs_administration, h.backs_resource, Fixture.AllowsResource]
  · intro check
    simp [Engine.Allows, hworks, StoreRequest.privileges, hholds, Privilege.OnType,
      h.backs_administration]

/-- Whether the answer to a check is that it is passed, or else that it is denied. -/
def Settles (allowed : Prop) (answer : Except StorageError Unit) : Prop :=
  (allowed → answer = .ok ()) ∧ (¬allowed → answer = .error .accessDenied)

theorem store_opened (hopened : ofStore store = .ok cache) : cache.store = store := by
  rw [ofStore_eq] at hopened
  rw [← Except.ok.inj hopened]

/-- A newly opened cache answers a check of a resource as the fixture states. -/
theorem settles_resource (h : fixture.Describes store) (hopened : ofStore store = .ok cache)
    (check : InstanceCheck) :
    Settles (fixture.AllowsResource check.user check.resource check.action)
      (cache.answerTo (.validateAccess check)) := by
  have hengine := (allows_opened h hopened).1 check
  constructor
  · intro hallowed
    exact answerTo_validateAccess.2 (.inl (hengine.2 hallowed))
  · intro hdenied
    have hstore : store.allowsInstance check = false := by
      rw [Bool.eq_false_iff]
      intro hallows
      obtain ⟨rule, hrule, hnames⟩ := (Option.any_eq_true ..).1 hallows
      have hmem : check.action ∈ rule.actions := (Bool.and_eq_true_iff.1 hnames).2
      exact hdenied (.inr (h.backs_resource.1 ⟨rule, hrule, hmem⟩))
    rw [answerTo_validateAccess_of_miss (mt hengine.1 hdenied), store_opened hopened]
    simp [MemoryStore.answer, MemoryStore.decision, hstore]

/-- A newly opened cache answers a check of a type as the fixture states. -/
theorem settles_type (h : fixture.Describes store) (hopened : ofStore store = .ok cache)
    (check : TypeCheck) :
    Settles (fixture.AllowsType check.user check.resourceType check.action)
      (cache.answerTo (.validateAccessToType check)) := by
  have hengine := (allows_opened h hopened).2 check
  have hstore : store.allowsType check = true ↔
      fixture.AllowsType check.user check.resourceType check.action := h.allowsType_iff
  rw [← store_opened hopened] at hstore
  constructor
  · intro hallowed
    exact answerTo_validateAccessToType.2 (.inr (hstore.2 hallowed))
  · intro hdenied
    have hmiss : ¬cache.engine.Allows (.validateAccessToType check) := fun hadmin =>
      hdenied (.inl (hengine.1 hadmin))
    rw [answerTo_validateAccessToType_of_miss hmiss]
    simp [MemoryStore.answer, MemoryStore.decision, Bool.eq_false_iff.2 (mt hstore.1 hdenied)]

end LocalCache

/-! ## The program -/

/-- The action that is asked for, by its name or by a method. -/
def Demand.Asks (action : Action) : Demand → Prop
  | .action asked => asked = action
  | .method name => Action.ofMethod? name = some action

/-- The request to the service that a check of the command line makes. -/
def Demand.attempt (demand : Demand) (deadline : Duration) (user : UserId)
    (resourceType : ResourceType) (resource : Option String) : Attempt (Outcome Unit) :=
  match demand with
  | .action asked => Service.authorize deadline user resourceType asked resource
  | .method name => Service.authorizeRequest deadline user resourceType name resource

namespace Program

variable {cache : LocalCache} {deadline : Duration} {user : UserId} {resource : Option String}
  {resourceType : ResourceType} {demand : Demand} {action : Action} {allowed : Prop}

/-- Whether a run tells that a check is passed, or else that it is denied. -/
def Tells (allowed : Prop) (result : RunResult) : Prop :=
  (allowed → result = done "allowed\n") ∧
    (¬allowed → result = { output := "denied\n", code := 1 })

/-- Whether the service decides a check as `allowed` states, and the program tells so. -/
structure Decides (cache : LocalCache) (deadline : Duration) (user : UserId)
    (resourceType : ResourceType) (demand : Demand) (resource : Option String)
    (allowed : Prop) : Prop where
  passed : ask cache (demand.attempt deadline user resourceType resource) = .ok () ↔ allowed
  denied : ¬allowed → ∃ error,
    ask cache (demand.attempt deadline user resourceType resource) = .error error ∧
      error.kind = .denied
  told : Tells allowed (runCommand cache deadline (.check user resourceType demand resource))

theorem attempt_of_asks (h : demand.Asks action) :
    demand.attempt deadline user resourceType resource =
      Service.authorize deadline user resourceType action resource := by
  cases demand with
  | action asked =>
    obtain rfl : asked = action := h
    rfl
  | method method =>
    have hmethod : Action.ofMethod? method = some action := h
    simp only [Demand.attempt, Service.authorizeRequest, hmethod]

theorem runCommand_check : runCommand cache deadline (.check user resourceType demand resource) =
    reportCheck cache (demand.attempt deadline user resourceType resource) := by
  cases demand <;> rfl

/-- A request to the service ends as the call of the coordinator does that it makes. -/
theorem ask_run {operation context : String} {call : Call (Except StorageError Unit)} :
    ask cache (Service.run deadline operation context call Service.answerOnly) =
      (LocalCache.run call cache).1.mapError fun error => ⟨operation, context, .storage error⟩ := by
  rw [ask, Service.run, Call.map, LocalCache.run_bind]
  cases (LocalCache.run call cache).1 <;> rfl

/-- What the coordinator answers the service decides, and the program tells. -/
theorem decides_of_settles {operation context : String} {call : Call (Except StorageError Unit)}
    (hattempt : demand.attempt deadline user resourceType resource =
      Service.run deadline operation context call Service.answerOnly)
    (h : LocalCache.Settles allowed (LocalCache.run call cache).1) :
    Decides cache deadline user resourceType demand resource allowed := by
  obtain ⟨hpassed, hdenied⟩ := h
  have hok : allowed → ask cache (demand.attempt deadline user resourceType resource) = .ok () := by
    intro hallowed
    rw [hattempt, ask_run, hpassed hallowed]
    rfl
  have herror : ¬allowed → ask cache (demand.attempt deadline user resourceType resource) =
      .error ⟨operation, context, .storage .accessDenied⟩ := by
    intro hnot
    rw [hattempt, ask_run, hdenied hnot]
    rfl
  refine ⟨⟨fun hask => ?_, hok⟩, fun hnot => ⟨_, herror hnot, rfl⟩, fun hallowed => ?_,
    fun hnot => ?_⟩
  · by_contra hnot
    rw [herror hnot] at hask
    cases hask
  · rw [runCommand_check, reportCheck, hok hallowed]
  · rw [runCommand_check, reportCheck, herror hnot]
    rfl

/-- A newly opened cache over a store that the fixture describes decides each check as the fixture
states. -/
theorem decides_of_describes {fixture : Fixture} {store : MemoryStore}
    (h : fixture.Describes store) (hopened : LocalCache.ofStore store = .ok cache)
    (hasks : demand.Asks action)
    (hverdict : fixture.Verdict user resourceType action resource allowed) :
    Decides cache deadline user resourceType demand resource allowed := by
  cases hverdict with
  | type =>
    refine decides_of_settles (attempt_of_asks hasks) ?_
    exact LocalCache.settles_type h hopened ⟨user, resourceType, action⟩
  | @resource text resource hspelled =>
    obtain ⟨context, hattempt⟩ : ∃ context,
        demand.attempt deadline user resourceType (some text) =
          Service.run deadline "authorize" context
            (Coordinator.validateAccess ⟨user, resource, resourceType, action⟩)
            Service.answerOnly := by
      rw [attempt_of_asks hasks]
      simp only [Service.authorize, ResourceId.ofText_eq_ok.2 hspelled]
      exact ⟨_, rfl⟩
    exact decides_of_settles hattempt
      (LocalCache.settles_resource h hopened ⟨user, resource, resourceType, action⟩)

/-- A run of the program that asks for a store in memory and a fixture runs its command over a cache
that is opened over the seeded store. -/
theorem run_seeded {arguments : List String} {file : String → FileText} {environment : Environment}
    {invocation : Invocation} {path : String} {fixture : Fixture} {counts : SeedCounts}
    {store : MemoryStore} {configuration : Configuration}
    (hread : CommandLine.read arguments = .ok invocation) (hmemory : invocation.memory = true)
    (hseed : invocation.seed = some path) (hload : Fixture.load (file path) = .ok fixture)
    (happly : fixture.apply ∅ = (.ok counts, store))
    (hconfiguration : Configuration.load (invocation.config.map file) environment =
      .ok configuration)
    (hopened : LocalCache.ofStore store = .ok cache) :
    run arguments file environment =
      runCommand cache configuration.checkTimeout invocation.command := by
  simp only [run, hread, runInvocation, hconfiguration, hmemory, if_true, runInMemory, openStore,
    hseed, Option.map_some, hload, happly, hopened]

/-- A service that is opened over a store seeded without error decides each check as the fixture
states, whatever order the store is read in and however the entries of the fixture and the resource
of the check are spelled, and the program tells what it decides. -/
theorem seeded_checks_decided {fixture : Fixture} {counts : SeedCounts} {store : MemoryStore}
    (h : fixture.apply ∅ = (.ok counts, store)) :
    (∀ enumerated, store.SameRows enumerated → ∃ cache,
      LocalCache.ofStore enumerated = .ok cache ∧
        ∀ deadline user resourceType demand action resource allowed, Demand.Asks action demand →
          fixture.Verdict user resourceType action resource allowed →
          Decides cache deadline user resourceType demand resource allowed) ∧
    ∀ arguments file environment invocation path configuration user resourceType demand action
        resource allowed,
      CommandLine.read arguments = .ok invocation → invocation.memory = true →
      invocation.seed = some path → Fixture.load (file path) = .ok fixture →
      Configuration.load (invocation.config.map file) environment = .ok configuration →
      invocation.command = .check user resourceType demand resource →
      Demand.Asks action demand → fixture.Verdict user resourceType action resource allowed →
      Tells allowed (run arguments file environment) := by
  have hopens : ∀ enumerated, ∃ cache, LocalCache.ofStore enumerated = .ok cache :=
    fun enumerated => ⟨_, LocalCache.ofStore_eq enumerated⟩
  have hdescribes : fixture.Describes store := Fixture.describes_of_apply h
  constructor
  · intro enumerated hsame
    obtain ⟨cache, hopened⟩ := hopens enumerated
    refine ⟨cache, hopened, ?_⟩
    intro deadline user resourceType demand action resource allowed hasks hverdict
    exact decides_of_describes (hdescribes.reordered hsame) hopened hasks hverdict
  · intro arguments file environment invocation path configuration user resourceType demand action
      resource allowed hread hmemory hseed hload hconfiguration hcommand hasks hverdict
    obtain ⟨cache, hopened⟩ := hopens store
    rw [run_seeded hread hmemory hseed hload h hconfiguration hopened, hcommand]
    exact (decides_of_describes hdescribes hopened hasks hverdict).told

/-- A fixture with entries that later ones overwrite, in several spellings. -/
def spelledFixture : Fixture where
  users := [⟨"\x7b6F1C2A4E-8B3D-4C5E-9F70-1A2B3C4D5E6F\x7d", "admin"⟩,
    ⟨" 6f1c2a4e8b3d4c5e9f701a2b3c4d5e6f ", "ROLE:user"⟩]
  grants := [⟨"urn:uuid:6f1c2a4e-8b3d-4c5e-9f70-1a2b3c4d5e6f",
    "0E9D8C7B-6A59-4837-A261-504F3E2D1C0B", "dashboard", ["read"]⟩]
  policies := [⟨"USER", "page", ["CREATE"]⟩, ⟨"user", "PAGE", []⟩]

/-- A fixture that makes the user an administrator. -/
def administeredFixture : Fixture where
  users := [⟨"6f1c2a4e8b3d4c5e9f701a2b3c4d5e6f", "ROLE:admin"⟩]

/-- The file in which that fixture is found. -/
def administeredFile : FileText :=
  .ok "[[users]]\nid='6f1c2a4e8b3d4c5e9f701a2b3c4d5e6f'\nrole='ROLE:admin'"

/-- A command line that asks whether the user may create pages. -/
def pageArguments : List String :=
  ["--memory", "--seed", "seed.toml", "check", "--user", "6F1C2A4E8B3D4C5E9F701A2B3C4D5E6F",
    "--type", "Page", "--action", "create"]

theorem spelled_checks_decided : ∃ counts store cache,
    spelledFixture.apply ∅ = (.ok counts, store) ∧ LocalCache.ofStore store = .ok cache ∧
      runCommand cache Service.defaultDeadline (.check System.idleUser .dashboard (.method "get")
        (some "0e9d8c7b6a594837a261504f3e2d1c0b ")) = done "allowed\n" ∧
      runCommand cache Service.defaultDeadline (.check System.idleUser .page (.action .create)
        none) = { output := "denied\n", code := 1 } ∧
      run pageArguments (fun _ => administeredFile) (fun _ => none) = done "allowed\n" := by
  have happly : spelledFixture.apply ∅ = (.ok ⟨2, 1, 2⟩, (spelledFixture.apply ∅).2) := by
    decide +kernel
  have hdescribes : spelledFixture.Describes (spelledFixture.apply ∅).2 :=
    Fixture.describes_of_apply happly
  have hrule : (spelledFixture.apply ∅).2.rules.get? (System.idleUser, System.idleResource) =
      some ⟨System.idleUser, System.idleResource, .dashboard, .ofList [.get]⟩ := by decide +kernel
  obtain ⟨hdecides, -⟩ := seeded_checks_decided happly
  obtain ⟨cache, hopened, hchecks⟩ := hdecides _ (.refl _)
  refine ⟨_, _, cache, happly, hopened, ?_, ?_, ?_⟩
  · have hspelled : System.idleResource.id.SpelledBy "0e9d8c7b6a594837a261504f3e2d1c0b " :=
      ResourceId.ofText_eq_ok.1 (by decide +kernel)
    have htype : ∀ granted actions,
        spelledFixture.Grants ⟨System.idleUser, System.idleResource, granted, actions⟩ →
          .dashboard = granted := by
      intro granted actions hgrants
      have hgranted := (hdescribes.rule _).2 hgrants
      rw [hrule] at hgranted
      exact congrArg Rule.resourceType (Option.some.inj hgranted)
    have hallowed : spelledFixture.AllowsResource System.idleUser System.idleResource .get :=
      .inr (hdescribes.backs_resource.1 ⟨_, hrule, by decide⟩)
    exact (hchecks _ _ _ (.method "get") .get _ _ rfl (.resource hspelled htype)).told.1 hallowed
  · have hdenied : ¬spelledFixture.AllowsType System.idleUser .page .create := by
      rw [← hdescribes.allowsType_iff]
      decide +kernel
    exact (hchecks _ _ _ (.action .create) .create none _ rfl .type).told.2 hdenied
  · have hadministered : administeredFixture.apply ∅ =
        (.ok ⟨1, 0, 0⟩, (administeredFixture.apply ∅).2) := by decide +kernel
    have hadmin : administeredFixture.RoleOf System.idleUser .admin :=
      ((Fixture.describes_of_apply hadministered).role _ _).1 (by decide +kernel)
    refine ((seeded_checks_decided hadministered).2 pageArguments _ _ _ "seed.toml" _
      System.idleUser .page (.action .create) .create none _ rfl rfl rfl (by decide +kernel) rfl rfl
      rfl .type).1 (.inl hadmin)

end Program

end AccessControl
