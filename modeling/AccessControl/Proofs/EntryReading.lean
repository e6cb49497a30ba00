import AccessControl.Proofs.SeededStore
import AccessControl.Proofs.StoreRow

/-!
# What an entry of a fixture states

An entry of a fixture is read text by text, in a fixed order.  If each text spells what it stands
for, the entry states one row of the store.  If not, what is reported is the first text that spells
nothing.
-/

namespace AccessControl

/-- An entry of a fixture. -/
inductive FixtureEntry where
  | user (entry : FixtureUser)
  | grant (entry : FixtureGrant)
  | policy (entry : FixturePolicy)
  deriving DecidableEq, Repr

/-! ## The texts of an entry -/

/-- A text of an entry, by what it stands for. -/
inductive EntryText where
  | id (text : String)
  | role (text : String)
  | resourceType (text : String)
  | action (text : String)
  deriving DecidableEq, Repr

namespace EntryText

/-- Whether the text spells what it stands for. -/
def Legible : EntryText → Prop
  | id text => ∃ id : Identifier, id.SpelledBy text
  | role text => ∃ role : Role, role.SpelledBy text
  | resourceType text => ∃ resourceType : ResourceType, resourceType.SpelledBy text
  | action text => ∃ action : Action, action.SpelledBy text

/-- What is reported of the text if it spells nothing.  It is reported as it stands, also where the
blanks around it do not count. -/
def error : EntryText → SeedingError
  | id text =>
    .invalidIdentifier ⟨text, (Identifier.faultOf (Text.trimBlanks text.toList)).message⟩
  | role text => .unknownName ⟨.role, text⟩
  | resourceType text => .unknownName ⟨.resourceType, text⟩
  | action text => .unknownName ⟨.action, text⟩

end EntryText

/-- The error is that of the first text that spells nothing. -/
inductive FirstIllegible : List EntryText → SeedingError → Prop
  | head {text : EntryText} {rest : List EntryText} (h : ¬text.Legible) :
      FirstIllegible (text :: rest) text.error
  | tail {text : EntryText} {rest : List EntryText} {error : SeedingError} (h : text.Legible)
      (hrest : FirstIllegible rest error) : FirstIllegible (text :: rest) error

namespace FirstIllegible

variable {texts more : List EntryText} {error other : SeedingError}

theorem append_left (h : FirstIllegible texts error) (more : List EntryText) :
    FirstIllegible (texts ++ more) error := by
  induction h with
  | head h => exact .head h
  | tail h hrest ih => exact .tail h ih

theorem append_right (hlegible : ∀ text ∈ texts, text.Legible) (h : FirstIllegible more error) :
    FirstIllegible (texts ++ more) error := by
  induction texts with
  | nil => exact h
  | cons text rest ih =>
    rw [List.forall_mem_cons] at hlegible
    exact .tail hlegible.1 (ih hlegible.2)

theorem not_legible (h : FirstIllegible texts error) : ¬∀ text ∈ texts, text.Legible := by
  induction h with
  | head h => exact fun hall => h (hall _ List.mem_cons_self)
  | tail h hrest ih => exact fun hall => ih fun text hmem => hall text (List.mem_cons_of_mem _ hmem)

theorem unique (h : FirstIllegible texts error) (hother : FirstIllegible texts other) :
    error = other := by
  induction h with
  | head h =>
    cases hother with
    | head => rfl
    | tail hlegible => exact absurd hlegible h
  | tail h hrest ih =>
    cases hother with
    | head hillegible => exact absurd h hillegible
    | tail hlegible hrest => exact ih hrest

end FirstIllegible

/-! ## Reading texts -/

/-- What is read from texts is a value if all of them are legible, and the error of the first one
that is not otherwise. -/
structure ReadsTexts {α : Type} (texts : List EntryText) (result : Except SeedingError α) :
    Prop where
  legible : ∀ value, result = .ok value → ∀ text ∈ texts, text.Legible
  first : ∀ error, result = .error error → FirstIllegible texts error

namespace ReadsTexts

variable {α β : Type} {texts more : List EntryText} {result : Except SeedingError α}

theorem pure (value : α) : ReadsTexts [] (.ok value) := ⟨by simp, nofun⟩

theorem map (h : ReadsTexts texts result) (f : α → β) : ReadsTexts texts (result.map f) := by
  cases result with
  | ok value => exact ⟨fun _ _ => h.legible value rfl, nofun⟩
  | error error =>
    refine ⟨nofun, fun other heq => ?_⟩
    obtain rfl := Except.error.inj heq
    exact h.first error rfl

theorem bind_ok (h : ReadsTexts texts result) (f : α → β) :
    ReadsTexts texts (result >>= fun value => .ok (f value)) := by
  cases result with
  | ok value => exact h.map f
  | error error => exact h.map f

/-- What is read in two parts is read from the texts of both. -/
theorem bind {next : α → Except SeedingError β} (h : ReadsTexts texts result)
    (hnext : ∀ value, ReadsTexts more (next value)) :
    ReadsTexts (texts ++ more) (result >>= next) := by
  constructor
  · intro value hread text hmem
    obtain ⟨middle, hresult, hrest⟩ := Except.exists_of_bind_ok hread
    rcases List.mem_append.1 hmem with hmem | hmem
    · exact h.legible middle hresult text hmem
    · exact (hnext middle).legible value hrest text hmem
  · intro error hread
    rcases Except.of_bind_error hread with hresult | ⟨middle, hresult, hrest⟩
    · exact (h.first error hresult).append_left more
    · exact .append_right (h.legible middle hresult) ((hnext middle).first error hrest)

/-- A text that is read by itself. -/
theorem single {text : EntryText} {spelled : α → Prop}
    (hok : ∀ value, result = .ok value ↔ spelled value)
    (hlegible : text.Legible ↔ ∃ value, spelled value)
    (herror : ∀ error, result = .error error → error = text.error) :
    ReadsTexts [text] result := by
  constructor
  · intro value hread
    simpa using hlegible.2 ⟨value, (hok value).1 hread⟩
  · intro error hread
    rw [herror error hread]
    refine .head fun h => ?_
    obtain ⟨value, hspelled⟩ := hlegible.1 h
    rw [(hok value).2 hspelled] at hread
    cases hread

theorem eq_error {error : SeedingError} (h : ReadsTexts texts result)
    (hfirst : FirstIllegible texts error) : result = .error error := by
  cases hresult : result with
  | ok value => exact absurd (h.legible value hresult) hfirst.not_legible
  | error other => rw [(h.first other hresult).unique hfirst]

end ReadsTexts

namespace Fixture

variable {text : String}

theorem readName_eq_ok {α : Type} {result : Except UnknownName α} {value : α} :
    readName result = .ok value ↔ result = .ok value := by
  refine ⟨of_readName, fun h => ?_⟩
  rw [h]
  rfl

theorem readResource_texts : ReadsTexts [.id text] (readResource text) := by
  refine ReadsTexts.single (fun _ => readResource_eq_ok) ?_ fun error hread => ?_
  · exact ⟨fun ⟨id, h⟩ => ⟨⟨id⟩, h⟩, fun ⟨resource, h⟩ => ⟨resource.id, h⟩⟩
  · cases hid : Identifier.read? (Text.trimBlanks text.toList) with
    | some id =>
      simp [readResource, ResourceId.ofText, Identifier.read, hid, Except.mapError] at hread
    | none =>
      simp [readResource, ResourceId.ofText, Identifier.read, hid, Except.mapError] at hread
      rw [← hread, EntryText.error]

theorem readUser_texts : ReadsTexts [.id text] (readUser text) :=
  ReadsTexts.map readResource_texts _

/-- A name that is not read is reported as it stands. -/
theorem readName_error {α : Type} {result : Except UnknownName α} {unknown : UnknownName}
    (h : ∀ error, result = .error error → error = unknown) (error : SeedingError)
    (hread : readName result = .error error) : error = .unknownName unknown := by
  cases result with
  | ok value => cases hread
  | error other =>
    rw [← h other rfl]
    exact (Except.error.inj hread).symm

theorem readRole_texts : ReadsTexts [.role text] (readName (Role.ofName text)) := by
  refine ReadsTexts.single (fun _ => readName_eq_ok.trans Role.ofName_eq_ok) Iff.rfl
    (readName_error fun error h => ?_)
  unfold Role.ofName at h
  split at h
  · cases h
  · exact (Except.error.inj h).symm

theorem readType_texts : ReadsTexts [.resourceType text] (readName (ResourceType.ofName text)) := by
  refine ReadsTexts.single (fun _ => readName_eq_ok.trans ResourceType.ofName_eq_ok) Iff.rfl
    (readName_error fun error h => ?_)
  unfold ResourceType.ofName at h
  split at h
  · cases h
  · exact (Except.error.inj h).symm

theorem readAction_texts : ReadsTexts [.action text] (readName (Action.ofName text)) := by
  refine ReadsTexts.single (fun _ => readName_eq_ok.trans Action.ofName_eq_ok) Iff.rfl
    (readName_error fun error h => ?_)
  unfold Action.ofName at h
  split at h
  · cases h
  · split at h
    · cases h
    · exact (Except.error.inj h).symm

theorem readName_bind {α β : Type} (first : Except UnknownName α)
    (next : α → Except UnknownName β) :
    readName (first >>= next) = readName first >>= fun value => readName (next value) := by
  cases first <;> rfl

/-- The actions of a list are read one after another. -/
theorem readActions_texts {texts : List String} :
    ReadsTexts (texts.map .action) (readName (ActionSet.ofNames texts)) := by
  have hlist : ReadsTexts (texts.map .action) (readName (Action.ofNames texts)) := by
    induction texts with
    | nil => exact ReadsTexts.pure []
    | cons text rest ih =>
      rw [Action.ofNames, readName_bind]
      refine ReadsTexts.bind readAction_texts fun action => ?_
      rw [readName_bind]
      exact ReadsTexts.map ih (action :: ·)
  have hset : readName (ActionSet.ofNames texts) =
      (readName (Action.ofNames texts)).map ActionSet.ofList := by
    rw [ActionSet.ofNames]
    cases Action.ofNames texts <;> rfl
  rw [hset]
  exact ReadsTexts.map hlist ActionSet.ofList

end Fixture

/-! ## What an entry states -/

namespace FixtureEntry

/-- The texts of an entry in the order in which they are read. -/
def texts : FixtureEntry → List EntryText
  | user entry => [.id entry.id, .role entry.role]
  | grant entry =>
    .id entry.resource :: .resourceType entry.resourceType ::
      (entry.actions.map .action ++ [.id entry.user])
  | policy entry =>
    .role entry.role :: .resourceType entry.resourceType :: entry.actions.map .action

/-- What the texts of an entry say is to be written. -/
inductive States : FixtureEntry → RowWrite → Prop
  | user {entry : FixtureUser} {user : UserId} {role : Role} (hfor : entry.For user)
      (hrole : role.SpelledBy entry.role) : States (.user entry) (.role user role)
  | grant {entry : FixtureGrant} {rule : Rule} (h : entry.Spells rule) :
      States (.grant entry) (.rule rule.user rule.resource (some rule))
  | policy {entry : FixturePolicy} {role : Role} {resourceType : ResourceType}
      {actions : ActionSet} (hfor : entry.For role resourceType)
      (hactions : actions.SpelledBy entry.actions) :
      States (.policy entry) (.policy role resourceType actions)

/-- Reads what an entry says is to be written. -/
def read : FixtureEntry → Except SeedingError RowWrite
  | user entry => (Fixture.statedRole entry).map fun (owner, role) => .role owner role
  | grant entry => (Fixture.statedGrant entry).map fun (owner, granted) =>
    .rule owner granted.resource (some (granted.toRule owner))
  | policy entry => (Fixture.statedPolicy entry).map fun (role, resourceType, actions) =>
    .policy role resourceType actions

theorem read_texts (entry : FixtureEntry) : ReadsTexts entry.texts entry.read := by
  cases entry with
  | user entry =>
    rw [read, Fixture.statedRole]
    refine ReadsTexts.map (ReadsTexts.bind Fixture.readUser_texts fun user => ?_) _
    exact ReadsTexts.bind_ok Fixture.readRole_texts _
  | grant entry =>
    rw [read, Fixture.statedGrant]
    refine ReadsTexts.map (ReadsTexts.bind Fixture.readResource_texts fun resource => ?_) _
    refine ReadsTexts.bind Fixture.readType_texts fun resourceType => ?_
    refine ReadsTexts.bind Fixture.readActions_texts fun actions => ?_
    exact ReadsTexts.bind_ok Fixture.readUser_texts _
  | policy entry =>
    rw [read, Fixture.statedPolicy]
    refine ReadsTexts.map (ReadsTexts.bind Fixture.readRole_texts fun role => ?_) _
    refine ReadsTexts.bind Fixture.readType_texts fun resourceType => ?_
    exact ReadsTexts.bind_ok Fixture.readActions_texts _

theorem read_eq_ok {entry : FixtureEntry} {write : RowWrite} :
    entry.read = .ok write ↔ entry.States write := by
  constructor
  · intro h
    cases entry with
    | user entry =>
      rw [read] at h
      obtain ⟨stated, hstated, hwrite⟩ := Except.exists_of_map_ok h
      obtain ⟨user, huser, hrest⟩ := Except.exists_of_bind_ok hstated
      obtain ⟨role, hrole, hvalue⟩ := Except.exists_of_bind_ok hrest
      obtain rfl := Except.ok.inj hvalue
      obtain rfl := hwrite
      exact .user (Fixture.readUser_eq_ok.1 huser)
        (Role.ofName_eq_ok.1 (Fixture.of_readName hrole))
    | grant entry =>
      rw [read] at h
      obtain ⟨stated, hstated, hwrite⟩ := Except.exists_of_map_ok h
      obtain ⟨resource, hresource, hrest⟩ := Except.exists_of_bind_ok hstated
      obtain ⟨resourceType, htype, hrest⟩ := Except.exists_of_bind_ok hrest
      obtain ⟨actions, hactions, hrest⟩ := Except.exists_of_bind_ok hrest
      obtain ⟨user, huser, hvalue⟩ := Except.exists_of_bind_ok hrest
      obtain rfl := Except.ok.inj hvalue
      obtain rfl := hwrite
      have hspells : entry.Spells ⟨user, resource, resourceType, actions⟩ :=
        ⟨Fixture.readUser_eq_ok.1 huser, Fixture.readResource_eq_ok.1 hresource,
          ResourceType.ofName_eq_ok.1 (Fixture.of_readName htype),
          ActionSet.ofNames_eq_ok.1 (Fixture.of_readName hactions)⟩
      exact .grant hspells
    | policy entry =>
      rw [read] at h
      obtain ⟨stated, hstated, hwrite⟩ := Except.exists_of_map_ok h
      obtain ⟨role, hrole, hrest⟩ := Except.exists_of_bind_ok hstated
      obtain ⟨resourceType, htype, hrest⟩ := Except.exists_of_bind_ok hrest
      obtain ⟨actions, hactions, hvalue⟩ := Except.exists_of_bind_ok hrest
      obtain rfl := Except.ok.inj hvalue
      obtain rfl := hwrite
      have hfor : entry.For role resourceType := ⟨Role.ofName_eq_ok.1 (Fixture.of_readName hrole),
        ResourceType.ofName_eq_ok.1 (Fixture.of_readName htype)⟩
      exact .policy hfor (ActionSet.ofNames_eq_ok.1 (Fixture.of_readName hactions))
  · intro h
    cases h with
    | user hfor hrole =>
      rw [read, Fixture.statedRole, Fixture.readUser_eq_ok.2 hfor, Role.ofName_eq_ok.2 hrole]
      rfl
    | grant h =>
      obtain ⟨huser, hresource, htype, hactions⟩ := h
      rw [read, Fixture.statedGrant, Fixture.readResource_eq_ok.2 hresource,
        ResourceType.ofName_eq_ok.2 htype, ActionSet.ofNames_eq_ok.2 hactions,
        Fixture.readUser_eq_ok.2 huser]
      rfl
    | policy hfor hactions =>
      rw [read, Fixture.statedPolicy, Role.ofName_eq_ok.2 hfor.1, ResourceType.ofName_eq_ok.2 hfor.2,
        ActionSet.ofNames_eq_ok.2 hactions]
      rfl

/-- An entry states something, or one of its texts spells nothing. -/
theorem states_or_illegible (entry : FixtureEntry) :
    (∃ write, entry.States write) ∨ ∃ error, FirstIllegible entry.texts error := by
  cases hread : entry.read with
  | ok write => exact .inl ⟨write, read_eq_ok.1 hread⟩
  | error error => exact .inr ⟨error, entry.read_texts.first error hread⟩

end FixtureEntry

end AccessControl
