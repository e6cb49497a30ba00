import AccessControl.Proofs.EntryReading

/-!
# How far a fixture is seeded

The entries of a fixture are seeded in one order: users, then grants, then policies.  An entry is
accepted if its texts state a row, and a grant only if the store knows its user and has no rule for
its user and resource.  The entries before the first one that is refused are written, and nothing of
that entry and of those behind it.
-/

namespace AccessControl

/-- The entries in the order in which they are seeded. -/
def Fixture.entries (fixture : Fixture) : List FixtureEntry :=
  fixture.users.map .user ++ (fixture.grants.map .grant ++ fixture.policies.map .policy)

/-! ## What a store holds against a rule -/

namespace MemoryStore

/-- Whether what an entry states can be written: a rule has to be for a user that the store knows,
and has to be the first one of its user and resource. -/
def Admits (store : MemoryStore) : RowWrite → Prop
  | .rule user resource _ =>
    (∃ role, store.users.get? user = some role) ∧ store.rules.get? (user, resource) = none
  | .role .. => True
  | .policy .. => True

/-- Why a rule cannot be written. -/
inductive Refuses (store : MemoryStore) : RowWrite → StorageError → Prop
  | unknownUser {user : UserId} {resource : ResourceId} {value : Option Rule}
      (hunknown : store.users.get? user = none) :
      Refuses store (.rule user resource value) (.notFound ("user " ++ user.text))
  | taken {user : UserId} {resource : ResourceId} {value : Option Rule} {role : Role} {old : Rule}
      (hknown : store.users.get? user = some role)
      (htaken : store.rules.get? (user, resource) = some old) :
      Refuses store (.rule user resource value) .duplicateEntry

variable {store : MemoryStore} {rule : Rule}

theorem admits_or_refuses (store : MemoryStore) (write : RowWrite) :
    store.Admits write ∨ ∃ error, store.Refuses write error := by
  cases write with
  | role | policy => exact .inl trivial
  | rule user resource value =>
    cases huser : store.users.get? user with
    | none => exact .inr ⟨_, .unknownUser huser⟩
    | some role =>
      cases hrule : store.rules.get? (user, resource) with
      | none => exact .inl ⟨⟨role, huser⟩, hrule⟩
      | some old => exact .inr ⟨_, .taken huser hrule⟩

theorem create_of_admits (h : store.Admits (.rule rule.user rule.resource (some rule))) :
    store.create rule.user ⟨rule.resource, rule.resourceType, rule.actions⟩ =
      (.ok (), RowWrite.apply store (.rule rule.user rule.resource (some rule))) := by
  obtain ⟨⟨role, hknown⟩, hfree⟩ := h
  simp [create, Table.contains, hknown, hfree, Grant.toRule, RowWrite.apply]

theorem create_of_refuses {error : StorageError}
    (h : store.Refuses (.rule rule.user rule.resource (some rule)) error) :
    store.create rule.user ⟨rule.resource, rule.resourceType, rule.actions⟩ =
      (.error error, store) := by
  cases h with
  | unknownUser hunknown => simp [create, Table.contains, hunknown, MemoryStore.unknownUser]
  | taken hknown htaken => simp [create, Table.contains, hknown, htaken]

end MemoryStore

/-! ## One entry -/

namespace FixtureEntry

variable {store : MemoryStore} {entry : FixtureEntry} {write : RowWrite} {error : SeedingError}

/-- Whether the entry is seeded into the store, and what it writes. -/
structure Accepted (store : MemoryStore) (entry : FixtureEntry) (write : RowWrite) : Prop where
  states : entry.States write
  admits : store.Admits write

/-- Why an entry is not seeded: the first of its texts that spells nothing, or what the store holds
against its rule. -/
inductive Refused (store : MemoryStore) (entry : FixtureEntry) : SeedingError → Prop
  | illegible {error : SeedingError} (h : FirstIllegible entry.texts error) :
      Refused store entry error
  | refused {write : RowWrite} {error : StorageError} (hstates : entry.States write)
      (h : store.Refuses write error) : Refused store entry (.storage error)

theorem accepted_or_refused (store : MemoryStore) (entry : FixtureEntry) :
    (∃ write, entry.Accepted store write) ∨ ∃ error, entry.Refused store error := by
  rcases entry.states_or_illegible with ⟨write, hstates⟩ | ⟨error, hfirst⟩
  · rcases store.admits_or_refuses write with hadmits | ⟨error, hrefuses⟩
    · exact .inl ⟨write, hstates, hadmits⟩
    · exact .inr ⟨_, .refused hstates hrefuses⟩
  · exact .inr ⟨error, .illegible hfirst⟩

/-- Seeds an entry. -/
def seed (store : MemoryStore) : FixtureEntry → Except SeedingError Unit × MemoryStore
  | user entry => Fixture.seedUser store entry
  | grant entry => Fixture.seedGrant store entry
  | policy entry => Fixture.seedPolicy store entry

/-- Puts what an entry states into a store. -/
def put (store : MemoryStore) : RowWrite → Except StorageError Unit × MemoryStore
  | .rule owner resource (some rule) =>
    store.create owner ⟨resource, rule.resourceType, rule.actions⟩
  | write => (.ok (), write.apply store)

/-- An entry is read before anything is written. -/
theorem seed_eq (store : MemoryStore) (entry : FixtureEntry) :
    entry.seed store = Fixture.enter store entry.read (put store) := by
  have hmap : ∀ {α : Type} (stated : Except SeedingError α) (f : α → RowWrite),
      Fixture.enter store (stated.map f) (put store) =
        Fixture.enter store stated fun value => put store (f value) := by
    intro α stated f
    cases stated <;> rfl
  cases entry <;> rw [FixtureEntry.read, hmap] <;> rfl

theorem put_of_accepted (h : entry.Accepted store write) :
    put store write = (.ok (), write.apply store) := by
  obtain ⟨hstates, hadmits⟩ := h
  cases hstates with
  | user | policy => rfl
  | grant hspells => exact MemoryStore.create_of_admits hadmits

/-- A store that refuses a rule is left as it is. -/
theorem put_of_refuses {error : StorageError} (hstates : entry.States write)
    (h : store.Refuses write error) : put store write = (.error error, store) := by
  cases hstates with
  | user | policy => cases h
  | grant hspells => exact MemoryStore.create_of_refuses h

theorem seed_of_accepted (h : entry.Accepted store write) :
    entry.seed store = (.ok (), write.apply store) := by
  rw [seed_eq, read_eq_ok.2 h.states, Fixture.enter, put_of_accepted h]
  rfl

theorem seed_of_refused (h : entry.Refused store error) :
    entry.seed store = (.error error, store) := by
  rw [seed_eq]
  cases h with
  | illegible hfirst => rw [entry.read_texts.eq_error hfirst, Fixture.enter]
  | refused hstates hrefuses =>
    rw [read_eq_ok.2 hstates, Fixture.enter, put_of_refuses hstates hrefuses]
    rfl

end FixtureEntry

/-! ## One entry after another -/

/-- Entries are seeded in two parts: the second part only if the first has met no error. -/
theorem Fixture.seedEach_append {α : Type} {store : MemoryStore}
    {seed : MemoryStore → α → Except SeedingError Unit × MemoryStore} (first second : List α) :
    seedEach seed store (first ++ second) =
      match seedEach seed store first with
      | (.ok (), next) => seedEach seed next second
      | (.error error, next) => (.error error, next) := by
  induction first generalizing store with
  | nil => rfl
  | cons entry rest ih =>
    rw [List.cons_append, seedEach, seedEach]
    rcases seed store entry with ⟨_ | _, next⟩
    · rfl
    · exact ih

namespace FixtureEntry

/-- Each entry is accepted by the store that those before it have left. -/
inductive AllAccepted : MemoryStore → List FixtureEntry → List RowWrite → Prop
  | nil {store : MemoryStore} : AllAccepted store [] []
  | cons {store : MemoryStore} {entry : FixtureEntry} {entries : List FixtureEntry}
      {write : RowWrite} {writes : List RowWrite} (h : entry.Accepted store write)
      (hrest : AllAccepted (write.apply store) entries writes) :
      AllAccepted store (entry :: entries) (write :: writes)

/-- The entries are accepted up to the first one that is refused. -/
def StopsAt (store : MemoryStore) (entries : List FixtureEntry) (writes : List RowWrite)
    (error : SeedingError) : Prop :=
  ∃ before entry after, entries = before ++ entry :: after ∧ AllAccepted store before writes ∧
    entry.Refused (RowWrite.applyAll store writes) error

variable {store : MemoryStore} {entries : List FixtureEntry} {writes : List RowWrite}
  {error : SeedingError}

theorem allAccepted_or_stops (store : MemoryStore) (entries : List FixtureEntry) :
    (∃ writes, AllAccepted store entries writes) ∨
      ∃ writes error, StopsAt store entries writes error := by
  induction entries generalizing store with
  | nil => exact .inl ⟨[], .nil⟩
  | cons entry rest ih =>
    rcases entry.accepted_or_refused store with ⟨write, haccepted⟩ | ⟨error, hrefused⟩
    · rcases ih (write.apply store) with
        ⟨writes, hrest⟩ | ⟨writes, error, before, stop, after, rfl, hbefore, hstop⟩
      · exact .inl ⟨write :: writes, .cons haccepted hrest⟩
      · exact .inr ⟨write :: writes, error, entry :: before, stop, after, rfl,
          .cons haccepted hbefore, hstop⟩
    · exact .inr ⟨[], error, [], entry, rest, rfl, .nil, hrefused⟩

theorem seedEach_of_accepted (h : AllAccepted store entries writes) :
    Fixture.seedEach seed store entries = (.ok (), RowWrite.applyAll store writes) := by
  induction h with
  | nil => rfl
  | cons haccepted hrest ih =>
    rw [Fixture.seedEach, seed_of_accepted haccepted]
    exact ih

theorem seedEach_of_stops (h : StopsAt store entries writes error) :
    Fixture.seedEach seed store entries = (.error error, RowWrite.applyAll store writes) := by
  obtain ⟨before, entry, after, rfl, hbefore, hrefused⟩ := h
  rw [Fixture.seedEach_append, seedEach_of_accepted hbefore]
  simp only [Fixture.seedEach, seed_of_refused hrefused]

end FixtureEntry

namespace Fixture

variable {store next : MemoryStore} {fixture : Fixture} {writes : List RowWrite}

theorem seedEach_map {α β : Type}
    {seed : MemoryStore → β → Except SeedingError Unit × MemoryStore}
    (wrap : α → β) (entries : List α) :
    seedEach seed store (entries.map wrap) =
      seedEach (fun store entry => seed store (wrap entry)) store entries := by
  induction entries generalizing store with
  | nil => rfl
  | cons entry rest ih =>
    rw [List.map_cons, seedEach, seedEach]
    rcases seed store (wrap entry) with ⟨_ | _, next⟩
    · rfl
    · exact ih

/-- How many entries of each kind the fixture has. -/
def counts (fixture : Fixture) : SeedCounts :=
  ⟨fixture.users.length, fixture.grants.length, fixture.policies.length⟩

/-- The three lists are seeded as one. -/
theorem apply_eq (fixture : Fixture) (store : MemoryStore) :
    fixture.apply store =
      ((seedEach FixtureEntry.seed store fixture.entries).1.map fun _ => fixture.counts,
        (seedEach FixtureEntry.seed store fixture.entries).2) := by
  have husers : ∀ store, seedEach FixtureEntry.seed store (fixture.users.map .user) =
      seedEach seedUser store fixture.users := fun _ => seedEach_map _ _
  have hgrants : ∀ store, seedEach FixtureEntry.seed store (fixture.grants.map .grant) =
      seedEach seedGrant store fixture.grants := fun _ => seedEach_map _ _
  have hpolicies : ∀ store, seedEach FixtureEntry.seed store (fixture.policies.map .policy) =
      seedEach seedPolicy store fixture.policies := fun _ => seedEach_map _ _
  simp only [apply, entries, seedEach_append, husers, hgrants, hpolicies]
  rcases seedEach seedUser store fixture.users with ⟨_ | _, registered⟩
  · rfl
  · simp only
    rcases seedEach seedGrant registered fixture.grants with ⟨_ | _, granted⟩
    · rfl
    · simp only
      rcases seedEach seedPolicy granted fixture.policies with ⟨_ | _, seeded⟩ <;> rfl

/-- A fixture is seeded entry by entry, users first, then grants, then policies.  If each entry is
accepted by the store that those before it have left, the numbers of entries are answered, all that
they state is written in order, and what a later entry states takes the place of what an earlier one
has stated of the same user or policy.  Otherwise the error is that of the first entry that is
refused, what the entries before it state is written in order, and nothing else is.  One of the two
is the case. -/
theorem seeded_up_to_first_fault (fixture : Fixture) (store : MemoryStore) :
    (∀ writes, FixtureEntry.AllAccepted store fixture.entries writes →
      fixture.apply store = (.ok fixture.counts, RowWrite.applyAll store writes) ∧
        fixture.Overlays store (RowWrite.applyAll store writes)) ∧
    (∀ writes error, FixtureEntry.StopsAt store fixture.entries writes error →
      fixture.apply store = (.error error, RowWrite.applyAll store writes)) ∧
    ((∃ writes, FixtureEntry.AllAccepted store fixture.entries writes) ∨
      ∃ writes error, FixtureEntry.StopsAt store fixture.entries writes error) := by
  refine ⟨fun writes haccepted => ?_, fun writes error hstops => ?_,
    FixtureEntry.allAccepted_or_stops store fixture.entries⟩
  · have happly : fixture.apply store = (.ok fixture.counts, RowWrite.applyAll store writes) := by
      rw [apply_eq, FixtureEntry.seedEach_of_accepted haccepted]
      rfl
    exact ⟨happly, overlays_of_apply happly⟩
  · rw [apply_eq, FixtureEntry.seedEach_of_stops hstops]
    rfl

open AccessControl.System (idleUser idleResource)

/-- A user whose role is stated twice, and who is granted a resource. -/
def restatedFixture : Fixture where
  users := [⟨"6f1c2a4e-8b3d-4c5e-9f70-1a2b3c4d5e6f", "ADMIN"⟩,
    ⟨" 6F1C2A4E8B3D4C5E9F701A2B3C4D5E6F", "ROLE:user"⟩]
  grants := [⟨"6f1c2a4e-8b3d-4c5e-9f70-1a2b3c4d5e6f", "0e9d8c7b-6a59-4837-a261-504f3e2d1c0b",
    "page", ["read"]⟩]

/-- The same, with another grant of the resource behind the first. -/
def regrantedFixture : Fixture :=
  { restatedFixture with grants := restatedFixture.grants ++
      [⟨"6f1c2a4e-8b3d-4c5e-9f70-1a2b3c4d5e6f", "0e9d8c7b6a594837a261504f3e2d1c0b", "dashboard",
        []⟩] }

/-- What the first of the two fixtures states. -/
def restatedWrites : List RowWrite :=
  [.role idleUser .admin, .role idleUser .user,
    .rule idleUser idleResource (some ⟨idleUser, idleResource, .page, .ofList [.get]⟩)]

/-- The later role stands, and the second grant is one too many. -/
theorem second_grant_stops_seeding :
    restatedFixture.apply ∅ = (.ok ⟨2, 1, 0⟩, RowWrite.applyAll ∅ restatedWrites) ∧
      restatedFixture.RoleOf idleUser .user ∧
      regrantedFixture.apply ∅ =
        (.error (.storage .duplicateEntry), RowWrite.applyAll ∅ restatedWrites) := by
  have haccepted : FixtureEntry.AllAccepted ∅ restatedFixture.entries restatedWrites :=
    .cons ⟨FixtureEntry.read_eq_ok.1 (by decide +kernel), trivial⟩ <|
      .cons ⟨FixtureEntry.read_eq_ok.1 (by decide +kernel), trivial⟩ <|
      .cons ⟨FixtureEntry.read_eq_ok.1 (by decide +kernel), ⟨.user, by decide +kernel⟩,
        by decide +kernel⟩ .nil
  obtain ⟨hseeded, -, -⟩ := seeded_up_to_first_fault restatedFixture ∅
  obtain ⟨happly, hoverlays⟩ := hseeded restatedWrites haccepted
  obtain ⟨-, hstopped, -⟩ := seeded_up_to_first_fault regrantedFixture ∅
  refine ⟨happly, ?_, hstopped _ _ ⟨_, _, [], rfl, haccepted, ?_⟩⟩
  · rcases (hoverlays.role idleUser .user).1 (by decide +kernel) with hrole | ⟨-, hold⟩
    · exact hrole
    · cases hold
  · have hstates : (FixtureEntry.grant ⟨"6f1c2a4e-8b3d-4c5e-9f70-1a2b3c4d5e6f",
        "0e9d8c7b6a594837a261504f3e2d1c0b", "dashboard", []⟩).States
          (.rule idleUser idleResource (some ⟨idleUser, idleResource, .dashboard, ∅⟩)) :=
      FixtureEntry.read_eq_ok.1 (by decide +kernel)
    have hknown : (RowWrite.applyAll ∅ restatedWrites).users.get? idleUser = some .user := by
      decide +kernel
    have htaken : (RowWrite.applyAll ∅ restatedWrites).rules.get? (idleUser, idleResource) =
        some ⟨idleUser, idleResource, .page, .ofList [.get]⟩ := by decide +kernel
    exact .refused hstates (.taken hknown htaken)

end Fixture

end AccessControl
