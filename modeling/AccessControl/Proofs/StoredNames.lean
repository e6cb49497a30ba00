import AccessControl.Proofs.DatabaseFailure
import AccessControl.Proofs.SeededStore
import Mathlib.Data.List.Forall2

/-!
# What is read back of the names that are kept

The database keeps resource types, actions and roles by their names.  A name that it replies may be
spelled in any way that stands for a value, whoever has written it.  A reply is read whole if every
name in it stands for something, and otherwise not at all.  What was kept under the names that are
bound on writing is read back as it was.
-/

namespace AccessControl

/-! ## Rows -/

/-- The cell in which a bound value is kept. -/
def Parameter.cell : Parameter → Cell
  | identifier id => .identifier id
  | text value => .text value
  | texts values => .texts values

/-- The row in which a statement keeps the values that are bound to it. -/
def Statement.keptRow (sent : Statement) : List Cell := sent.parameters.map Parameter.cell

/-- The row of a rule that was added. -/
def Rule.keptRow (rule : Rule) : List Cell :=
  (Statement.insertRule rule.user ⟨rule.resource, rule.resourceType, rule.actions⟩).keptRow

/-- The row of a user who was added with a role. -/
def UserId.keptRow (entry : UserId × Role) : List Cell :=
  (Statement.insertUser entry.1 entry.2).keptRow

namespace RuleRow

variable {row : RuleRow} {rule : Rule}

/-- The row as the database replies it. -/
def cells (row : RuleRow) : List Cell :=
  [.identifier row.user, .identifier row.resource, .text row.resourceType, .texts row.actions]

/-- Whether every name in the row stands for something. -/
def Legible (row : RuleRow) : Prop :=
  (∃ resourceType : ResourceType, resourceType.SpelledBy row.resourceType) ∧
    ∀ name ∈ row.actions, ∃ action : Action, action.SpelledBy name

/-- Whether the row says of the rule whose it is, what it is about and which actions it permits, in
whatever order and however often each of them is named. -/
structure StandsFor (row : RuleRow) (rule : Rule) : Prop where
  user : row.user = rule.user.id
  resource : row.resource = rule.resource.id
  resourceType : rule.resourceType.SpelledBy row.resourceType
  actions : rule.actions.SpelledBy row.actions

theorem ofCells_cells (row : RuleRow) : ofCells row.cells = .ok row := rfl

theorem cells_ofRule (rule : Rule) : (ofRule rule).cells = rule.keptRow := rfl

theorem toRule_eq_ok : row.toRule = .ok rule ↔ row.StandsFor rule := by
  constructor
  · intro h
    unfold toRule at h
    split at h
    case h_1 => cases h
    case h_2 resourceType htype =>
      split at h
      case h_1 => cases h
      case h_2 actions hactions =>
        obtain rfl := Except.ok.inj h
        exact ⟨rfl, rfl, ResourceType.ofName_eq_ok.1 htype, ActionSet.ofNames_eq_ok.1 hactions⟩
  · intro ⟨huser, hresource, htype, hactions⟩
    simp only [toRule, ResourceType.ofName_eq_ok.2 htype, ActionSet.ofNames_eq_ok.2 hactions,
      huser, hresource]

/-- A row stands for a rule as soon as each of its names stands for something. -/
theorem legible_iff : row.Legible ↔ ∃ rule, row.StandsFor rule := by
  constructor
  · rintro ⟨⟨resourceType, htype⟩, hactions⟩
    obtain ⟨actions, hnames⟩ := Action.exists_ofNames hactions
    have hset : ActionSet.ofNames row.actions = .ok (.ofList actions) := by
      rw [ActionSet.ofNames, hnames]
      rfl
    exact ⟨⟨⟨row.user⟩, ⟨row.resource⟩, resourceType, .ofList actions⟩,
      rfl, rfl, htype, ActionSet.ofNames_eq_ok.1 hset⟩
  · rintro ⟨rule, h⟩
    exact ⟨⟨rule.resourceType, h.resourceType⟩, h.actions.1⟩

theorem ofRule_standsFor (rule : Rule) : (ofRule rule).StandsFor rule where
  user := rfl
  resource := rfl
  resourceType := Text.sameLetters_iff.2 rfl
  actions := by
    have hname : ∀ {action other : Action}, other.SpelledBy action.name ↔ other = action := by
      intro action other
      rw [← Action.ofName_eq_ok]
      cases action <;> cases other <;> decide
    simp [ActionSet.SpelledBy, ofRule, ActionSet.names, hname]

end RuleRow

namespace RoleRow

variable {row : RoleRow} {entry : UserId × Role}

/-- The row as the database replies it. -/
def cells (row : RoleRow) : List Cell := [.identifier row.user, .text row.role]

/-- Whether the name in the row stands for a role. -/
def Legible (row : RoleRow) : Prop := ∃ role : Role, role.SpelledBy row.role

/-- Whether the row says of the user that this is the role. -/
structure StandsFor (row : RoleRow) (entry : UserId × Role) : Prop where
  user : row.user = entry.1.id
  role : entry.2.SpelledBy row.role

theorem ofCells_cells (row : RoleRow) : ofCells row.cells = .ok row := rfl

theorem cells_ofRole (entry : UserId × Role) :
    (ofRole entry.1 entry.2).cells = UserId.keptRow entry := rfl

theorem toRole_eq_ok : row.toRole = .ok entry ↔ row.StandsFor entry := by
  constructor
  · intro h
    unfold toRole at h
    split at h
    case h_1 => cases h
    case h_2 role hrole =>
      obtain rfl := Except.ok.inj h
      exact ⟨rfl, Role.ofName_eq_ok.1 hrole⟩
  · intro ⟨huser, hrole⟩
    simp only [toRole, Role.ofName_eq_ok.2 hrole, huser]

theorem legible_iff : row.Legible ↔ ∃ entry, row.StandsFor entry :=
  ⟨fun ⟨role, hrole⟩ => ⟨(⟨row.user⟩, role), rfl, hrole⟩, fun ⟨entry, h⟩ => ⟨entry.2, h.role⟩⟩

theorem ofRole_standsFor (entry : UserId × Role) : (ofRole entry.1 entry.2).StandsFor entry :=
  ⟨rfl, .inl (Text.sameLetters_iff.2 rfl)⟩

end RoleRow

/-! ## Lists of rows -/

section Collect

variable {γ δ ε : Type} {f : γ → Except ε δ} {items : List γ} {values : List δ}

/-- A list is collected if each of its items gives a value, and then to these values in order. -/
theorem collect_eq_ok :
    collect f items = .ok values ↔
      List.Forall₂ (fun item value => f item = .ok value) items values := by
  induction items generalizing values with
  | nil => simp [collect, eq_comm]
  | cons item rest ih =>
    constructor
    · intro h
      obtain ⟨value, hfirst, h⟩ := Except.exists_of_bind_ok h
      obtain ⟨others, hrest, h⟩ := Except.exists_of_bind_ok h
      obtain rfl := Except.ok.inj h
      exact .cons hfirst (ih.1 hrest)
    · intro h
      cases h with
      | cons hfirst hrest =>
        rw [collect, hfirst, ih.2 hrest]
        rfl

/-- What can be read of what each item was written as is read back as it was. -/
theorem collect_map {g : δ → γ} (h : ∀ value, f (g value) = .ok value) :
    collect f (values.map g) = .ok values :=
  collect_eq_ok.2 (List.forall₂_map_left_iff.2 (List.forall₂_same.2 fun value _ => h value))

end Collect

/-- Whether a reading gives what it is to give if all is legible, and is a failure of the store
otherwise. -/
structure ReadsWhole {α : Type} (legible : Prop) (Right : α → Prop)
    (result : Except StorageError α) : Prop where
  whole : legible → ∃ value, result = .ok value ∧ Right value
  nothing : ¬legible → ∃ message, result = .error (.internal message)

theorem StorageError.eq_internal_of_kind {error : StorageError} (h : error.kind = .internal) :
    ∃ message, error = .internal message := by
  cases error with
  | internal message => exact ⟨message, rfl⟩
  | _ => cases h

section Rows

variable {ρ β : Type} {rows : List ρ} {decode : List Cell → Except DatabaseError ρ}
  {cells : ρ → List Cell} {lookUp : ρ → Except StorageError β} {StandsFor : ρ → β → Prop}
  {Legible : ρ → Prop}

theorem decodeAll_map (h : ∀ row, decode (cells row) = .ok row) :
    ResultSet.decodeAll decode (.ok (rows.map cells)) = .ok rows := by
  rw [ResultSet.decodeAll, Except.bind, collect_map h]

/-- Rows are read whole if a row is read as what it stands for and is else a failure of the store. -/
theorem collect_readsWhole (hvalue : ∀ row value, lookUp row = .ok value ↔ StandsFor row value)
    (hlegible : ∀ row, Legible row ↔ ∃ value, StandsFor row value)
    (herror : ∀ row error, lookUp row = .error error → error.kind = .internal) :
    ReadsWhole (∀ row ∈ rows, Legible row) (List.Forall₂ StandsFor rows) (collect lookUp rows) := by
  have hrow : ∀ row, Legible row ↔ (lookUp row).isOk = true := by
    intro row
    rw [hlegible]
    simp only [← hvalue]
    cases lookUp row <;> simp [Except.isOk, Except.toBool]
  have hall : (∀ row ∈ rows, Legible row) ↔ (collect lookUp rows).isOk = true := by
    rw [RelationalStore.collect_isOk, List.all_eq_true]
    exact forall₂_congr fun row _ => hrow row
  rw [hall]
  cases hresult : collect lookUp rows with
  | ok values =>
    have hstands : List.Forall₂ StandsFor rows values :=
      (collect_eq_ok.1 hresult).imp fun row value => (hvalue row value).1
    exact ⟨fun _ => ⟨values, rfl, hstands⟩, fun hnot => absurd rfl hnot⟩
  | error error =>
    obtain ⟨row, -, herrorRow⟩ := RelationalStore.exists_of_collect_error hresult
    obtain ⟨message, rfl⟩ := StorageError.eq_internal_of_kind (herror row error herrorRow)
    exact ⟨fun hok => absurd hok Bool.false_ne_true, fun _ => ⟨message, rfl⟩⟩

end Rows

/-! ## The last row of a user -/

section Last

variable {κ α ρ : Type} {rows : List ρ} {entries : List (κ × α)} {key : κ} {value : α}

/-- The last row about something is found by what the rows stand for. -/
theorem lastStates_of_forall₂ {StandsFor : ρ → κ × α → Prop} {about states : ρ → Prop}
    (h : List.Forall₂ StandsFor rows entries)
    (habout : ∀ row entry, StandsFor row entry → (about row ↔ entry.1 = key))
    (hstates : ∀ row entry, StandsFor row entry → (states row ↔ entry.2 = value)) :
    LastStates (fun entry => entry.1 = key) (fun entry => entry.2 = value) entries ↔
      LastStates about states rows := by
  have hnone : ∀ {rows entries}, List.Forall₂ StandsFor rows entries →
      ((∀ entry ∈ entries, ¬entry.1 = key) ↔ ∀ row ∈ rows, ¬about row) := by
    intro rows entries h
    induction h with
    | nil => simp
    | cons hfirst _ ih => rw [List.forall_mem_cons, List.forall_mem_cons, habout _ _ hfirst, ih]
  induction h with
  | nil => simp [LastStates]
  | cons hfirst hrest ih =>
    rw [lastStates_cons, lastStates_cons, hnone hrest, habout _ _ hfirst, hstates _ _ hfirst]
    exact or_congr_left ih

variable [DecidableEq κ]

theorem get?_foldl_insert {table : Table κ α} :
    (entries.foldl (fun table row => table.insert row.1 row.2) table).get? key = some value ↔
      LastStates (fun entry => entry.1 = key) (fun entry => entry.2 = value) entries ∨
        (∀ entry ∈ entries, ¬entry.1 = key) ∧ table.get? key = some value := by
  induction entries generalizing table with
  | nil => simp [LastStates]
  | cons entry rest ih =>
    rw [List.foldl_cons, ih, lastStates_cons, Table.get?_insert, List.forall_mem_cons]
    by_cases hkey : entry.1 = key
    · simp [hkey]
    · simp [hkey, Ne.symm hkey]

/-- A table that is made of a list has the value of the last entry for a key. -/
theorem Table.get?_ofList : (Table.ofList entries).get? key = some value ↔
    LastStates (fun entry => entry.1 = key) (fun entry => entry.2 = value) entries := by
  have hempty : (Table.empty : Table κ α).get? key ≠ some value := nofun
  rw [Table.ofList, get?_foldl_insert]
  simp [hempty]

/-- Where no key is listed twice, the order in which the keys are listed does not matter. -/
theorem Table.get?_ofList_of_perm {table : Table κ α} (h : entries.Perm table.rows) :
    (Table.ofList entries).get? key = table.get? key := by
  have hnodup : (entries.map Prod.fst).Nodup := (h.map Prod.fst).nodup_iff.2 table.nodup
  ext value
  rw [Table.get?_ofList, ← Table.mem_rows_iff, ← h.mem_iff]
  constructor
  · rintro ⟨before, entry, after, rfl, rfl, rfl, -⟩
    simp
  · intro hmem
    obtain ⟨before, after, rfl⟩ := List.append_of_mem hmem
    refine ⟨before, (key, value), after, rfl, rfl, rfl, fun later hlater hkey => ?_⟩
    rw [List.map_append, List.map_cons, List.nodup_append, List.nodup_cons] at hnodup
    exact hnodup.2.1.1 (List.mem_map.2 ⟨later, hlater, hkey⟩)

end Last

/-! ## The requests -/

/-- What a script keeps to that answers by what `read` makes of the reply to `query`. -/
structure Script.AnswersFrom {α : Type} (query : Statement)
    (read : Except DatabaseError query.Result → Except StorageError α)
    (script : Script (Except StorageError α)) : Prop where
  /-- A run that ends well has sent the query, and its result is what was made of the reply. -/
  asks : ∀ exchanges value, script.Runs exchanges (.ok value) →
    ∃ reply, .statement query reply ∈ exchanges ∧ read reply = .ok value
  /-- A run that has sent the query ends with what is made of the reply, or with a failure of the
  store when what could be read could not be committed. -/
  answers : ∀ exchanges reply result, script.Runs exchanges result →
    .statement query reply ∈ exchanges →
      result = read reply ∨ ∃ value error, read reply = .ok value ∧
        .command .commit (.error error) ∈ exchanges ∧
        result = .error (ResultSet.storageError error)

namespace RelationalStore

open ResultSet Script

section Requests

variable {α : Type} {query : Statement}
  {read : Except DatabaseError query.Result → Except StorageError α} {exchanges : List Exchange}
  {result : Except StorageError α}

theorem single_answersFrom : (single query read).AnswersFrom query read := by
  constructor
  case asks =>
    intro exchanges value hruns
    generalize Except.ok value = result at hruns
    cases hruns with
    | statement reply rest =>
      cases rest
      exact ⟨reply, List.mem_cons_self, rfl⟩
  case answers =>
    intro exchanges reply result hruns hmem
    cases hruns with
    | statement other rest =>
      cases rest
      obtain rfl : reply = other := by simpa using hmem
      exact .inl rfl

/-- How a reading of all rows can go: it fails before it has sent the query, or ends with what is
made of the reply, unless that could not be committed. -/
inductive ReadingEnds (query : Statement)
    (read : Except DatabaseError query.Result → Except StorageError α) :
    List Exchange → Except StorageError α → Prop
  | unasked {exchanges : List Exchange} (error : StorageError)
      (h : ∀ reply, Exchange.statement query reply ∉ exchanges) :
      ReadingEnds query read exchanges (.error error)
  | read {exchanges : List Exchange} (reply : Except DatabaseError query.Result)
      (h : ∀ other, Exchange.statement query other ∈ exchanges ↔ other = reply) :
      ReadingEnds query read exchanges (read reply)
  | uncommitted {exchanges : List Exchange} (reply : Except DatabaseError query.Result) {value : α}
      {error : DatabaseError}
      (h : ∀ other, Exchange.statement query other ∈ exchanges ↔ other = reply)
      (hread : read reply = .ok value) (hcommit : .command .commit (.error error) ∈ exchanges) :
      ReadingEnds query read exchanges (.error (storageError error))

theorem readAll_ends (hquery : query ≠ .readOneState)
    (h : (readAll query read).Runs exchanges result) :
    ReadingEnds query read exchanges result := by
  cases h with | command started rest =>
  cases started with
  | error error =>
    cases rest
    exact .unasked _ (by simp)
  | ok =>
    cases rest with | statement isolated rest =>
    cases isolated with
    | error error =>
      cases rest with | command left rest =>
      cases rest
      exact .unasked _ (by simp [hquery])
    | ok isolated =>
      cases rest with | statement found rest =>
      cases hread : read found with
      | error error =>
        simp only [hread] at rest
        cases rest with | command left rest =>
        cases rest
        rw [← hread]
        exact .read found (by simp [hquery])
      | ok value =>
        simp only [hread] at rest
        cases rest with | command closed rest =>
        cases closed with
        | ok =>
          cases rest
          rw [← hread]
          exact .read found (by simp [hquery])
        | error error =>
          cases rest with | command left rest =>
          cases rest
          exact .uncommitted found (by simp [hquery]) hread (by simp)

/-- What has been read is the result once it is committed. -/
theorem readAll_answersFrom (hquery : query ≠ .readOneState) :
    (readAll query read).AnswersFrom query read := by
  constructor
  case asks =>
    intro exchanges value hruns
    generalize hresult : Except.ok value = result at hruns
    cases readAll_ends hquery hruns with
    | unasked error hnone => cases hresult
    | read reply hasked => exact ⟨reply, (hasked reply).2 rfl, rfl⟩
    | uncommitted reply hasked hread hcommit => cases hresult
  case answers =>
    intro exchanges reply result hruns hmem
    cases readAll_ends hquery hruns with
    | unasked error hnone => exact absurd hmem (hnone reply)
    | read other hasked =>
      obtain rfl := (hasked reply).1 hmem
      exact .inl rfl
    | uncommitted other hasked hread hcommit =>
      obtain rfl := (hasked reply).1 hmem
      exact .inr ⟨_, _, hread, hcommit, rfl⟩

end Requests

/-- A reply to the query for all rules is read as the rules that its rows stand for, in their order,
if each row is legible, and not at all otherwise. -/
theorem rules_readsWhole (rows : List RuleRow) :
    ReadsWhole (∀ row ∈ rows, row.Legible) (List.Forall₂ RuleRow.StandsFor rows)
      (rules (.ok (rows.map RuleRow.cells))) := by
  rw [rules, decodeAll_map RuleRow.ofCells_cells]
  exact collect_readsWhole (fun _ _ => RuleRow.toRule_eq_ok) (fun _ => RuleRow.legible_iff)
    fun _ _ => kind_toRule

/-- A reply to the query for all roles is read as a table that has the role of the last row of each
user, if each row is legible, and not at all otherwise. -/
theorem userRoles_readsWhole (rows : List RoleRow) :
    ReadsWhole (∀ row ∈ rows, row.Legible)
      (fun roles => ∀ user role, roles.get? user = some role ↔
        LastStates (fun row : RoleRow => row.user = user.id)
          (fun row => role.SpelledBy row.role) rows)
      (userRoles (.ok (rows.map RoleRow.cells))) := by
  have hrole : ∀ {row : RoleRow} {role other : Role}, other.SpelledBy row.role →
      (role.SpelledBy row.role ↔ other = role) := by
    intro row role other hother
    rw [← Role.ofName_eq_ok, Role.ofName_eq_ok.2 hother, Except.ok.injEq]
  rw [userRoles, decodeAll_map RoleRow.ofCells_cells]
  obtain ⟨hwhole, hnothing⟩ : ReadsWhole (∀ row ∈ rows, row.Legible)
      (List.Forall₂ RoleRow.StandsFor rows) (collect RoleRow.toRole rows) :=
    collect_readsWhole (fun _ _ => RoleRow.toRole_eq_ok) (fun _ => RoleRow.legible_iff)
      fun _ _ => kind_toRole
  constructor
  case whole =>
    intro hlegible
    obtain ⟨entries, hcollect, hstands⟩ := hwhole hlegible
    refine ⟨Table.ofList entries, ?_, fun user role => ?_⟩
    · show (collect RoleRow.toRole rows).bind _ = _
      rw [hcollect]
      rfl
    · rw [Table.get?_ofList]
      refine lastStates_of_forall₂ hstands (fun row entry h => ?_) fun row entry h => hrole h.role
      rw [h.user, UserId.mk.injEq]
  case nothing =>
    intro hillegible
    obtain ⟨message, hcollect⟩ := hnothing hillegible
    refine ⟨message, ?_⟩
    show (collect RoleRow.toRole rows).bind _ = _
    rw [hcollect]
    rfl

/-- Rules that were added are read back as they were, and in the order of their rows. -/
theorem rules_keptRow (kept : List Rule) :
    rules (.ok (kept.map Rule.keptRow)) = .ok kept := by
  have hrows : kept.map Rule.keptRow = (kept.map RuleRow.ofRule).map RuleRow.cells := by
    rw [List.map_map]
    exact List.map_congr_left fun rule _ => RuleRow.cells_ofRule rule
  rw [hrows, rules, decodeAll_map RuleRow.ofCells_cells]
  exact collect_map fun rule => RuleRow.toRule_eq_ok.2 (RuleRow.ofRule_standsFor rule)

/-- The roles of users who were added are read back as they were, in whatever order their rows
come. -/
theorem userRoles_keptRow {roles : Table UserId Role}
    {entries : List (UserId × Role)} (h : entries.Perm roles.rows) :
    ∃ found, userRoles (.ok (entries.map UserId.keptRow)) = .ok found ∧
      ∀ user, found.get? user = roles.get? user := by
  have hrows : entries.map UserId.keptRow =
      (entries.map fun entry => RoleRow.ofRole entry.1 entry.2).map RoleRow.cells := by
    rw [List.map_map]
    exact List.map_congr_left fun entry _ => RoleRow.cells_ofRole entry
  have hcollect : collect RoleRow.toRole (entries.map fun entry => RoleRow.ofRole entry.1 entry.2) =
      .ok entries :=
    collect_map fun entry => RoleRow.toRole_eq_ok.2 (RoleRow.ofRole_standsFor entry)
  refine ⟨Table.ofList entries, ?_, fun user => Table.get?_ofList_of_perm h⟩
  rw [hrows, userRoles, decodeAll_map RoleRow.ofCells_cells]
  show (collect RoleRow.toRole _).bind _ = _
  rw [hcollect]
  rfl

/-- The names under which rules and roles are kept are read back as what they stand for.  Rules that
were added come back as they were and in order, and so do the roles of users in whatever order their
rows come.  Whatever names the rows of a reply have, they are read whole if each name stands for
something: as one rule for each row, whose actions are those that the row names, and as the role of
the last row of each user; otherwise the reading is a failure of the store that gives nothing.  Both
requests answer so, in a transaction of their own and in an open one, and neither ends well before it
has asked for the rows. -/
theorem kept_names_read_whole :
    (∀ kept, rules (.ok (kept.map Rule.keptRow)) = .ok kept) ∧
      (∀ (roles : Table UserId Role) (entries : List (UserId × Role)),
        entries.Perm roles.rows →
          ∃ found, userRoles (.ok (entries.map UserId.keptRow)) = .ok found ∧
            ∀ user, found.get? user = roles.get? user) ∧
      (∀ rows : List RuleRow,
        ReadsWhole (∀ row ∈ rows, row.Legible) (List.Forall₂ RuleRow.StandsFor rows)
          (rules (.ok (rows.map RuleRow.cells)))) ∧
      (∀ rows : List RoleRow,
        ReadsWhole (∀ row ∈ rows, row.Legible)
          (fun roles => ∀ user role, roles.get? user = some role ↔
            LastStates (fun row : RoleRow => row.user = user.id)
              (fun row => role.SpelledBy row.role) rows)
          (userRoles (.ok (rows.map RoleRow.cells)))) ∧
      (∀ script ∈ [pooled .allPermissions, inTransaction .allPermissions],
        script.AnswersFrom .allRules rules) ∧
      (∀ script ∈ [pooled .allUserRoles, inTransaction .allUserRoles],
        script.AnswersFrom .allUserRoles userRoles) := by
  refine ⟨rules_keptRow, fun _ _ => userRoles_keptRow, rules_readsWhole, userRoles_readsWhole, ?_, ?_⟩
  · simp only [List.forall_mem_cons]
    exact ⟨readAll_answersFrom nofun, single_answersFrom, nofun⟩
  · simp only [List.forall_mem_cons]
    exact ⟨readAll_answersFrom nofun, single_answersFrom, nofun⟩

end RelationalStore

end AccessControl
