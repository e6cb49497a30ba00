import AccessControl.Identifier.Reader
import AccessControl.Store.Memory

/-!
# Fixtures

A fixture lists users, grants and policies by their names.  It is seeded into a store entry by
entry: users first, because a grant needs its user, then grants, then policies.  Seeding ends with
the first entry that cannot be read or that the store refuses, and keeps what it has done by then.
-/

namespace AccessControl

/-- A user of record, as a fixture names it. -/
structure FixtureUser where
  id : String
  role : String
  deriving DecidableEq, Repr

/-- A rule for one user and one resource, as a fixture names it. -/
structure FixtureGrant where
  user : String
  resource : String
  resourceType : String
  actions : List String
  deriving DecidableEq, Repr

/-- What a role may do with every resource of a type, as a fixture names it. -/
structure FixturePolicy where
  role : String
  resourceType : String
  actions : List String := []
  deriving DecidableEq, Repr

/-- The entries of a fixture. -/
structure Fixture where
  users : List FixtureUser := []
  grants : List FixtureGrant := []
  policies : List FixturePolicy := []
  deriving DecidableEq, Repr

/-- Why an entry was not seeded. -/
inductive SeedingError where
  | invalidIdentifier (error : InvalidIdentifier)
  | unknownName (error : UnknownName)
  | storage (error : StorageError)
  deriving DecidableEq, Repr

/-- What is said about an entry that was not seeded. -/
def SeedingError.message : SeedingError → String
  | .invalidIdentifier error => "invalid id " ++ Text.quoted error.input ++ ": " ++ error.reason
  | .unknownName error => error.message
  | .storage error => "seeding failed: " ++ error.message

/-- How many entries of each kind were seeded. -/
structure SeedCounts where
  users : Nat
  grants : Nat
  policies : Nat
  deriving DecidableEq, Repr

namespace Fixture

/-- The resource of an entry; blanks around its identifier do not count. -/
def readResource (text : String) : Except SeedingError ResourceId :=
  (ResourceId.ofText text).mapError .invalidIdentifier

/-- The user of an entry, which is written as a resource is. -/
def readUser (text : String) : Except SeedingError UserId :=
  (readResource text).map fun resource => ⟨resource.id⟩

/-- A value that an entry names. -/
def readName {α : Type} (result : Except UnknownName α) : Except SeedingError α :=
  result.mapError .unknownName

/-- The user that an entry names, with the role. -/
def statedRole (entry : FixtureUser) : Except SeedingError (UserId × Role) := do
  let user ← readUser entry.id
  return (user, ← readName (Role.ofName entry.role))

/-- The user that an entry names, and what the user is granted. -/
def statedGrant (entry : FixtureGrant) : Except SeedingError (UserId × Grant) := do
  let resource ← readResource entry.resource
  let resourceType ← readName (ResourceType.ofName entry.resourceType)
  let actions ← readName (ActionSet.ofNames entry.actions)
  return (← readUser entry.user, ⟨resource, resourceType, actions⟩)

/-- The role and the resource type that an entry names, with the actions. -/
def statedPolicy (entry : FixturePolicy) :
    Except SeedingError (Role × ResourceType × ActionSet) := do
  let role ← readName (Role.ofName entry.role)
  let resourceType ← readName (ResourceType.ofName entry.resourceType)
  return (role, resourceType, ← readName (ActionSet.ofNames entry.actions))

/-- Writes what an entry states into a store.  An entry that cannot be read leaves the store as it
is, and one that is refused leaves what the store makes of it. -/
def enter {α : Type} (store : MemoryStore) (stated : Except SeedingError α)
    (write : α → Except StorageError Unit × MemoryStore) : Except SeedingError Unit × MemoryStore :=
  match stated with
  | .error error => (.error error, store)
  | .ok value =>
    let (result, store) := write value
    (result.mapError .storage, store)

/-- Seeds a user. -/
def seedUser (store : MemoryStore) (entry : FixtureUser) : Except SeedingError Unit × MemoryStore :=
  enter store (statedRole entry) fun (user, role) => (.ok (), store.registerUser user role)

/-- Seeds a grant. -/
def seedGrant (store : MemoryStore) (entry : FixtureGrant) :
    Except SeedingError Unit × MemoryStore :=
  enter store (statedGrant entry) fun (user, grant) => store.create user grant

/-- Seeds a policy. -/
def seedPolicy (store : MemoryStore) (entry : FixturePolicy) :
    Except SeedingError Unit × MemoryStore :=
  enter store (statedPolicy entry) fun (role, resourceType, actions) =>
    (.ok (), store.putRolePolicy role resourceType actions)

/-- Seeds entries one after another, up to the first one that fails. -/
def seedEach {α : Type} (seed : MemoryStore → α → Except SeedingError Unit × MemoryStore)
    (store : MemoryStore) : List α → Except SeedingError Unit × MemoryStore
  | [] => (.ok (), store)
  | entry :: entries =>
    match seed store entry with
    | (.ok (), store) => seedEach seed store entries
    | (.error error, store) => (.error error, store)

/-- Seeds a fixture into a store, which keeps what is done by the time that an entry fails. -/
def apply (fixture : Fixture) (store : MemoryStore) :
    Except SeedingError SeedCounts × MemoryStore :=
  match seedEach seedUser store fixture.users with
  | (.error error, store) => (.error error, store)
  | (.ok (), store) =>
    match seedEach seedGrant store fixture.grants with
    | (.error error, store) => (.error error, store)
    | (.ok (), store) =>
      match seedEach seedPolicy store fixture.policies with
      | (.error error, store) => (.error error, store)
      | (.ok (), store) =>
        (.ok ⟨fixture.users.length, fixture.grants.length, fixture.policies.length⟩, store)

end Fixture

end AccessControl
