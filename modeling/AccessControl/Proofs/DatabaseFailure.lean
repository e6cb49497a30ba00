import AccessControl.Database.RuleStore
import AccessControl.Proofs.ServiceCall

/-!
# Failures of the relational store

The first exchange with the database in which something is wrong decides how a request to the
relational store ends.  A check is denied only by a reply that says so.  What the database refuses
is a condition of the data for two codes of the statements that write a row, and a failure of the
store for every other code and every other statement, as is a reply that cannot be read.
-/

namespace AccessControl

/-- The kind that the service reports an error of its store as. -/
def StorageError.kind (error : StorageError) : ErrorKind := (ServiceCause.storage error).kind

/-- The kind of error that a result is, if it is one. -/
def failureKind? {α : Type} (result : Except StorageError α) : Option ErrorKind :=
  (failure? result).map StorageError.kind

/-! ## What is wrong with an exchange -/

/-- Whether a row can be taken apart and each name in it stands for something. -/
def isReadable {α β : Type} (decode : List Cell → Except DatabaseError α)
    (lookUp : α → Except StorageError β) (row : List Cell) : Bool :=
  (decode row).toOption.any fun found => (lookUp found).isOk

namespace Statement

/-- Whether the statement adds or changes a rule or a user. -/
def writesRow : Statement → Bool
  | insertRule .. => true
  | updateRule .. => true
  | insertUser .. => true
  | _ => false

/-- The kind of a failure of the statement.  The codes are those of a row that is there already, and
of a row that speaks of something that is not there. -/
def failure (sent : Statement) : DatabaseError → ErrorKind
  | .refused code _ =>
    if sent.writesRow ∧ code = "23505" then .duplicateEntry
    else if sent.writesRow ∧ code = "23503" then .notFound
    else .internal
  | _ => .internal

/-- The answer in the row that a check is replied, if there is one that can be read. -/
def answerIn (row : Option (List Cell)) : Option Bool :=
  row.bind fun cells => (ColumnType.flag.read cells 0).toOption

/-- What is wrong with an answer. -/
def denial : Option Bool → Option ErrorKind
  | some true => none
  | some false => some .denied
  | none => some .internal

/-- What is wrong with rows of which it is known whether they can be read. -/
def illegible (readable : Bool) : Option ErrorKind := if readable then none else some .internal

/-- What is wrong with the result of the statement. -/
def complaint : (sent : Statement) → sent.Result → Option ErrorKind
  | ruleAllows _, row => denial (answerIn row)
  | roleAllows _, row => denial (answerIn row)
  | updateUserRole .., affected => if affected = 0 then some .notFound else none
  | lockRule .., row =>
    illegible (row.all fun cells => (ColumnType.identifier.read cells 0).isOk)
  | allRules, rows => illegible (rows.all (isReadable RuleRow.ofCells RuleRow.toRule))
  | allUserRoles, rows => illegible (rows.all (isReadable RoleRow.ofCells RoleRow.toRole))
  | _, _ => none

/-- What is wrong with the reply to the statement. -/
def fault (sent : Statement) : Except DatabaseError sent.Result → Option ErrorKind
  | .error error => some (sent.failure error)
  | .ok result => sent.complaint result

/-- Whether the statement asks whether a check passes, and the result is a row that says no. -/
def Denies : (sent : Statement) → sent.Result → Prop
  | ruleAllows _, row | roleAllows _, row =>
    ∃ cells, row = some cells ∧ cells[0]? = some (.flag false)
  | _, _ => False

/-- Whether the statement changes the role of a user, and the result is that no user is changed. -/
def FindsNoUser : (sent : Statement) → sent.Result → Prop
  | updateUserRole .., affected => affected = 0
  | _, _ => False

/-- Whether a row of the result cannot be taken apart, or names what there is not. -/
def Undecodable : (sent : Statement) → sent.Result → Prop
  | ruleAllows _, row | roleAllows _, row =>
    ∃ cells, row = some cells ∧ ∀ allowed, ColumnType.flag.read cells 0 ≠ .ok allowed
  | lockRule .., row =>
    ∃ cells, row = some cells ∧ ∀ id, ColumnType.identifier.read cells 0 ≠ .ok id
  | allRules, rows => ∃ cells ∈ rows,
    ∀ found rule, RuleRow.ofCells cells = .ok found → found.toRule ≠ .ok rule
  | allUserRoles, rows => ∃ cells ∈ rows,
    ∀ found role, RoleRow.ofCells cells = .ok found → found.toRole ≠ .ok role
  | _, _ => False

/-- What the kind of a fault says of the reply to a statement. -/
structure KindsTell (sent : Statement) (reply : Except DatabaseError sent.Result) : Prop where
  denied : sent.fault reply = some .denied ↔ ∃ result, reply = .ok result ∧ sent.Denies result
  duplicateEntry : sent.fault reply = some .duplicateEntry ↔ sent.writesRow = true ∧
    ∃ message, reply = .error (.refused "23505" message)
  notFound : sent.fault reply = some .notFound ↔
    (sent.writesRow = true ∧ ∃ message, reply = .error (.refused "23503" message)) ∨
      ∃ result, reply = .ok result ∧ sent.FindsNoUser result
  failed : ∀ error, reply = .error error →
    (sent.writesRow = true → ∀ code message, error = .refused code message →
      code ≠ "23505" ∧ code ≠ "23503") → sent.fault reply = some .internal
  undecodable : ∀ result, reply = .ok result → sent.Undecodable result →
    sent.fault reply = some .internal

variable {sent : Statement}

theorem read_flag_iff {row : List Cell} {value : Bool} :
    ColumnType.flag.read row 0 = .ok value ↔ row[0]? = some (.flag value) := by
  unfold ColumnType.read
  cases row[0]? with
  | none => simp
  | some cell => cases cell <;> simp [ColumnType.value?, Cell.type?]

theorem denial_eq_denied_iff {answer : Option Bool} :
    denial answer = some .denied ↔ answer = some false := by
  rcases answer with _ | _ | _ <;> simp [denial]

theorem answerIn_eq_false_iff {row : Option (List Cell)} :
    answerIn row = some false ↔ ∃ cells, row = some cells ∧ cells[0]? = some (.flag false) := by
  simp only [answerIn, Option.bind_eq_some_iff, ← read_flag_iff]
  refine exists_congr fun cells => and_congr_right fun _ => ?_
  cases ColumnType.flag.read cells 0 <;> simp [Except.toOption]

theorem answerIn_eq_none {row : Option (List Cell)} (h : ∃ cells, row = some cells ∧
    ∀ allowed, ColumnType.flag.read cells 0 ≠ .ok allowed) : answerIn row = none := by
  obtain ⟨cells, rfl, hnone⟩ := h
  rw [answerIn, Option.bind_some]
  cases hread : ColumnType.flag.read cells 0 with
  | ok allowed => exact absurd hread (hnone allowed)
  | error error => rfl

/-- A reply to a check is at fault if it says no, or if it says nothing. -/
theorem kindsTell_of_check {result : sent.Result} {row : Option (List Cell)}
    (hcomplaint : sent.complaint result = denial (answerIn row))
    (hdenies : sent.Denies result ↔ answerIn row = some false)
    (hfinds : ¬sent.FindsNoUser result)
    (hundecodable : sent.Undecodable result → answerIn row = none) : sent.KindsTell (.ok result) := by
  have hother : ∀ kind, kind ≠ .denied → kind ≠ .internal → denial (answerIn row) ≠ some kind := by
    intro kind hdenied hinternal
    rcases answerIn row with _ | _ | _
    · simpa [denial] using hinternal.symm
    · simpa [denial] using hdenied.symm
    · simp [denial]
  constructor
  case denied =>
    rw [fault, hcomplaint, denial_eq_denied_iff]
    simp [hdenies]
  case duplicateEntry => simpa [fault, hcomplaint] using hother .duplicateEntry nofun nofun
  case notFound => simpa [fault, hcomplaint, hfinds] using hother .notFound nofun nofun
  case failed => nofun
  case undecodable =>
    rintro _ ⟨⟩ h
    rw [fault, hcomplaint, hundecodable h, denial]

/-- A reply that is only read, or not even that, is at fault if it cannot be read. -/
theorem kindsTell_of_illegible {result : sent.Result} (hdenies : ¬sent.Denies result)
    (hfinds : ¬sent.FindsNoUser result)
    (hcomplaint : ∀ kind, sent.complaint result = some kind → kind = .internal)
    (hundecodable : sent.Undecodable result → sent.complaint result = some .internal) :
    sent.KindsTell (.ok result) := by
  have hother : ∀ kind, kind ≠ .internal → sent.fault (.ok result) ≠ some kind :=
    fun kind hkind hfault => hkind (hcomplaint kind hfault)
  exact {
    denied := by simpa [hdenies] using hother .denied nofun
    duplicateEntry := by simpa using hother .duplicateEntry nofun
    notFound := by simpa [hfinds] using hother .notFound nofun
    failed := nofun
    undecodable := by
      rintro _ ⟨⟩ h
      exact hundecodable h }

theorem eq_internal_of_illegible {readable : Bool} {kind : ErrorKind}
    (h : illegible readable = some kind) : kind = .internal := by
  cases readable with
  | true => cases h
  | false => exact (Option.some.inj h).symm

/-- Rows of which one cannot be read are at fault. -/
theorem illegible_of_mem {α β : Type} {decode : List Cell → Except DatabaseError α}
    {lookUp : α → Except StorageError β} {rows : List (List Cell)} {row : List Cell}
    (hmem : row ∈ rows)
    (hnone : ∀ found value, decode row = .ok found → lookUp found ≠ .ok value) :
    illegible (rows.all (isReadable decode lookUp)) = some .internal := by
  have hrow : isReadable decode lookUp row = false := by
    rw [isReadable]
    cases hfound : decode row with
    | error error => rfl
    | ok found =>
      cases hvalue : lookUp found with
      | error error => simp [Except.toOption, hvalue, Except.isOk, Except.toBool]
      | ok value => exact absurd hvalue (hnone found value hfound)
  have hall : rows.all (isReadable decode lookUp) = false := by
    rw [List.all_eq_false]
    exact ⟨row, hmem, by simp [hrow]⟩
  rw [hall]
  rfl

theorem kindsTell_ok (sent : Statement) (result : sent.Result) : sent.KindsTell (.ok result) := by
  cases sent with
  | ruleAllows | roleAllows =>
    exact kindsTell_of_check rfl answerIn_eq_false_iff.symm id answerIn_eq_none
  | updateUserRole user role =>
    by_cases hnone : result = 0 <;>
      constructor <;> simp [fault, complaint, Denies, FindsNoUser, writesRow, Undecodable, hnone]
  | lockRule =>
    refine kindsTell_of_illegible id id (fun _ => eq_internal_of_illegible) ?_
    rintro ⟨cells, rfl, hnone⟩
    rw [complaint, Option.all_some]
    cases hread : ColumnType.identifier.read cells 0 with
    | ok id => exact absurd hread (hnone id)
    | error error => rfl
  | allRules =>
    refine kindsTell_of_illegible id id (fun _ => eq_internal_of_illegible) ?_
    rintro ⟨cells, hmem, hnone⟩
    exact illegible_of_mem hmem hnone
  | allUserRoles =>
    refine kindsTell_of_illegible id id (fun _ => eq_internal_of_illegible) ?_
    rintro ⟨cells, hmem, hnone⟩
    exact illegible_of_mem hmem hnone
  | insertRule | updateRule | deleteRule | insertUser | upsertRolePolicy | readOneState | define
  | seedRoles | seedResourceTypes => exact kindsTell_of_illegible id id nofun False.elim

theorem kindsTell_error (sent : Statement) (error : DatabaseError) :
    sent.KindsTell (.error error) := by
  cases error with
  | refused code message =>
    cases hwrites : sent.writesRow with
    | false => constructor <;> simp [fault, failure, hwrites]
    | true =>
      by_cases hunique : code = "23505"
      · subst hunique
        constructor <;> simp [fault, failure, hwrites]
      · by_cases hforeign : code = "23503"
        · subst hforeign
          constructor <;> simp [fault, failure, hwrites]
        · constructor <;> simp [fault, failure, hunique, hforeign]
  | noRow | undecodable | lost | closed => constructor <;> simp [fault, failure]

/-- The kind of a fault says where it comes from, whatever the statement and the reply. -/
theorem kindsTell (sent : Statement) (reply : Except DatabaseError sent.Result) :
    sent.KindsTell reply := by
  cases reply with
  | ok result => exact kindsTell_ok sent result
  | error error => exact kindsTell_error sent error

end Statement

/-- What was sent to the database, and what it replied. -/
inductive Exchange where
  | statement (sent : Statement) (reply : Except DatabaseError sent.Result)
  | command (sent : TransactionCommand) (reply : Except DatabaseError Unit)

/-- What is wrong with an exchange.  A command that starts or ends a transaction can only fail. -/
def Exchange.fault : Exchange → Option ErrorKind
  | statement sent reply => sent.fault reply
  | command _ (.ok ()) => none
  | command _ (.error _) => some .internal

/-! ## Runs of a script -/

namespace Script

variable {α β : Type}

/-- What a script can exchange with the database and end with.  The database may reply anything. -/
inductive Runs : Script α → List Exchange → α → Prop
  | done (result : α) : Runs (.done result) [] result
  | statement {sent : Statement} {next : Except DatabaseError sent.Result → Script α}
      {exchanges : List Exchange} {result : α} (reply : Except DatabaseError sent.Result)
      (rest : Runs (next reply) exchanges result) :
      Runs (.statement sent next) (.statement sent reply :: exchanges) result
  | command {sent : TransactionCommand} {next : Except DatabaseError Unit → Script α}
      {exchanges : List Exchange} {result : α} (reply : Except DatabaseError Unit)
      (rest : Runs (next reply) exchanges result) :
      Runs (.command sent next) (.command sent reply :: exchanges) result

/-- Whether every run of a script ends with the kind of error that the first exchange with something
wrong calls for, and well if nothing is wrong. -/
def ReportsFaults (script : Script (Except StorageError α)) : Prop :=
  ∀ exchanges result, script.Runs exchanges result →
    failureKind? result = exchanges.findSome? Exchange.fault

/-- Whatever the database replies, what is left of a script ends with the kind of error that was
called for so far, or else by the first exchange to come that calls for one. -/
def Owes : Option ErrorKind → Script (Except StorageError α) → Prop
  | owed, done result => failureKind? result = owed
  | owed, statement sent next => ∀ reply, (next reply).Owes (owed.or (sent.fault reply))
  | owed, command sent next =>
    ∀ reply, (next reply).Owes (owed.or (Exchange.command sent reply).fault)

theorem Owes.of_runs {owed : Option ErrorKind} {script : Script (Except StorageError α)}
    {exchanges : List Exchange} {result : Except StorageError α} (h : script.Owes owed)
    (hruns : script.Runs exchanges result) :
    failureKind? result = owed.or (exchanges.findSome? Exchange.fault) := by
  have hcons : ∀ (exchange : Exchange) rest, (exchange :: rest).findSome? Exchange.fault =
      exchange.fault.or (rest.findSome? Exchange.fault) := by
    intro exchange rest
    rw [List.findSome?_cons]
    cases exchange.fault <;> rfl
  -- a kind that is owed already stands before those that the exchanges to come call for
  induction hruns generalizing owed with
  | done result => exact h.trans (Option.or_none).symm
  | statement reply rest ih =>
    rw [hcons, ← Option.or_assoc]
    exact ih (h reply)
  | command reply rest ih =>
    rw [hcons, ← Option.or_assoc]
    exact ih (h reply)

theorem Owes.reportsFaults {script : Script (Except StorageError α)} (h : script.Owes none) :
    script.ReportsFaults :=
  fun _ _ hruns => h.of_runs hruns

end Script

namespace RelationalStore

open ResultSet Script

variable {α : Type} {sent : Statement}

/-! ## Reading a reply -/

/-- Whether what is made of the reply to a statement is an error of the kind that the reply calls
for. -/
def Reads (sent : Statement) (read : Except DatabaseError sent.Result → Except StorageError α) :
    Prop :=
  ∀ reply, failureKind? (read reply) = sent.fault reply

theorem failureKind_map {β : Type} (f : α → β) (result : Except StorageError α) :
    failureKind? (result.map f) = failureKind? result := by
  cases result <;> rfl

/-- What is made of a reply calls for the right kind if it does for every result and every failure. -/
theorem reads_of_cases {read : Except DatabaseError sent.Result → Except StorageError α}
    (hresult : ∀ result, failureKind? (read (.ok result)) = sent.complaint result)
    (hfailure : ∀ error, failureKind? (read (.error error)) = some (sent.failure error)) :
    Reads sent read := by
  intro reply
  cases reply with
  | ok result => exact hresult result
  | error error => exact hfailure error

/-- A failure to write a row. -/
theorem write_failure (h : sent.writesRow = true) (error : DatabaseError) :
    some (writeError error).kind = some (sent.failure error) := by
  cases error with
  | refused code message =>
    simp only [writeError, Statement.failure, h, true_and]
    split
    · rfl
    · split <;> rfl
  | noRow | undecodable | lost | closed => rfl

/-- What the database refuses of a statement that writes no row is a failure of the store. -/
theorem store_failure (h : sent.writesRow = false) (error : DatabaseError) :
    some (storageError error).kind = some (sent.failure error) := by
  have hfailure : sent.failure error = .internal := by
    cases error <;> simp [Statement.failure, h]
  rw [hfailure]
  rfl

theorem Reads.withoutCount {read : Except DatabaseError sent.Result → Except StorageError Nat}
    (h : Reads sent read) : Reads sent fun reply => withoutCount (read reply) :=
  fun reply => (failureKind_map _ _).trans (h reply)

theorem insertRule_reads (user : UserId) (grant : Grant) :
    Reads (.insertRule user grant) fun reply => RelationalStore.withoutCount (written reply) :=
  Reads.withoutCount (reads_of_cases (fun _ => rfl) (write_failure rfl))

theorem updateRule_reads (user : UserId) (grant : Grant) :
    Reads (.updateRule user grant) written :=
  reads_of_cases (fun _ => rfl) (write_failure rfl)

theorem insertUser_reads (user : UserId) (role : Role) :
    Reads (.insertUser user role) fun reply => RelationalStore.withoutCount (written reply) :=
  Reads.withoutCount (reads_of_cases (fun _ => rfl) (write_failure rfl))

theorem deleteRule_reads (user : UserId) (resource : ResourceId) :
    Reads (.deleteRule user resource) fun reply =>
      RelationalStore.withoutCount (performed reply) :=
  Reads.withoutCount (reads_of_cases (fun _ => rfl) (store_failure rfl))

theorem readOneState_reads : Reads .readOneState performed :=
  reads_of_cases (fun _ => rfl) (store_failure rfl)

theorem upsertRolePolicy_reads (role : Role) (resourceType : ResourceType)
    (actions : ActionSet) : Reads (.upsertRolePolicy role resourceType actions) fun reply =>
      RelationalStore.withoutCount (performed reply) :=
  Reads.withoutCount (reads_of_cases (fun _ => rfl) (store_failure rfl))

/-- The role of a user who is not there is not recorded. -/
theorem roleRecorded_reads (user : UserId) (role : Role) :
    Reads (.updateUserRole user role) fun reply => roleRecorded user (performed reply) := by
  refine reads_of_cases (fun affected => ?_) (store_failure rfl)
  match affected with
  | 0 => rfl
  | _ + 1 => rfl

theorem decodeRow?_some (decode : List Cell → Except DatabaseError α) (cells : List Cell) :
    decodeRow? decode (.ok (some cells)) = (decode cells).map some := by
  show Except.bind (decode cells) _ = _
  cases decode cells <;> rfl

theorem decodeRow_some (decode : List Cell → Except DatabaseError α) (cells : List Cell) :
    decodeRow decode (.ok (some cells)) = decode cells := by
  rw [decodeRow, decodeRow?_some]
  cases decode cells <;> rfl

/-- A check is denied by a row that says no, and by nothing else. -/
theorem kind_decision (row : Option (List Cell)) :
    failureKind? (decision (.ok row)) = Statement.denial (Statement.answerIn row) := by
  cases row with
  | none => rfl
  | some cells =>
    rw [decision, decodeRow_some, Statement.answerIn, Option.bind_some]
    match ColumnType.flag.read cells 0 with
    | .ok true => rfl
    | .ok false => rfl
    | .error _ => rfl

/-- A row says that the rule is there if it can be read. -/
theorem found_some (cells : List Cell) : found (.ok (some cells)) =
    ((ColumnType.identifier.read cells 0).map fun _ => true).mapError storageError := by
  rw [found, decodeRow?_some]
  cases ColumnType.identifier.read cells 0 <;> rfl

theorem ruleAllows_reads (check : InstanceCheck) : Reads (.ruleAllows check) decision :=
  reads_of_cases kind_decision (store_failure rfl)

theorem roleAllows_reads (check : TypeCheck) : Reads (.roleAllows check) decision :=
  reads_of_cases kind_decision (store_failure rfl)

theorem found_reads (user : UserId) (resource : ResourceId) :
    Reads (.lockRule user resource) found := by
  refine reads_of_cases (fun row => ?_) (store_failure rfl)
  cases row with
  | none => rfl
  | some cells =>
    rw [found_some, Statement.complaint, Option.all_some]
    cases ColumnType.identifier.read cells 0 <;> rfl

/-! ## Reading all rows -/

section Collect

variable {γ δ ε : Type} {f : γ → Except ε δ} {items : List γ}

theorem collect_isOk : (collect f items).isOk = items.all fun item => (f item).isOk := by
  induction items with
  | nil => rfl
  | cons item rest ih =>
    rw [collect, List.all_cons, ← ih]
    cases f item with
    | error error => rfl
    | ok value => cases collect f rest <;> rfl

/-- What holds of all results that are read holds of all items. -/
theorem all_of_collect {values : List δ} (h : collect f items = .ok values) (property : δ → Bool) :
    values.all property = items.all fun item => (f item).toOption.any property := by
  induction items generalizing values with
  | nil =>
    obtain rfl := Except.ok.inj h
    rfl
  | cons item rest ih =>
    obtain ⟨value, hfirst, h⟩ := Except.exists_of_bind_ok h
    obtain ⟨others, hrest, h⟩ := Except.exists_of_bind_ok h
    obtain rfl := Except.ok.inj h
    rw [List.all_cons, List.all_cons, ih hrest, hfirst]
    rfl

theorem exists_of_collect_error {error : ε} (h : collect f items = .error error) :
    ∃ item ∈ items, f item = .error error := by
  induction items with
  | nil => cases h
  | cons item rest ih =>
    rcases Except.of_bind_error h with hfirst | ⟨value, -, h⟩
    · exact ⟨item, List.mem_cons_self, hfirst⟩
    · rcases Except.of_bind_error h with hrest | ⟨others, -, h⟩
      · obtain ⟨found, hmem, herror⟩ := ih hrest
        exact ⟨found, List.mem_cons_of_mem _ hmem, herror⟩
      · cases h

end Collect

/-- Rows are read whole, or the store has failed. -/
theorem kind_collect_decodeAll {β : Type} {decode : List Cell → Except DatabaseError α}
    {lookUp : α → Except StorageError β}
    (hlookUp : ∀ row error, lookUp row = .error error → error.kind = .internal)
    (cells : List (List Cell)) : failureKind? (do
        let rows ← decodeAll decode (.ok cells)
        collect lookUp rows) =
      Statement.illegible (cells.all (isReadable decode lookUp)) := by
  have hdecode : decodeAll decode (.ok cells) = (collect decode cells).mapError storageError := by
    rw [decodeAll, Except.bind]
    cases collect decode cells <;> rfl
  rw [hdecode]
  cases hrows : collect decode cells with
  | error error =>
    obtain ⟨row, hmem, hrow⟩ := exists_of_collect_error hrows
    have hnone : ∀ found value, decode row = .ok found → lookUp found ≠ .ok value := by
      intro found value hfound
      rw [hrow] at hfound
      cases hfound
    rw [Statement.illegible_of_mem hmem hnone]
    rfl
  | ok rows =>
    have hreadable : cells.all (isReadable decode lookUp) = (collect lookUp rows).isOk :=
      (all_of_collect hrows fun found => (lookUp found).isOk).symm.trans collect_isOk.symm
    rw [hreadable]
    show failureKind? (collect lookUp rows) = _
    cases hvalues : collect lookUp rows with
    | error error =>
      obtain ⟨row, -, hrow⟩ := exists_of_collect_error hvalues
      exact congrArg some (hlookUp row error hrow)
    | ok values => rfl

theorem kind_toRule {row : RuleRow} {error : StorageError} (h : row.toRule = .error error) :
    error.kind = .internal := by
  unfold RuleRow.toRule at h
  split at h
  · obtain rfl := Except.error.inj h
    rfl
  · split at h
    · obtain rfl := Except.error.inj h
      rfl
    · cases h

theorem kind_toRole {row : RoleRow} {error : StorageError} (h : row.toRole = .error error) :
    error.kind = .internal := by
  unfold RoleRow.toRole at h
  split at h
  · obtain rfl := Except.error.inj h
    rfl
  · cases h

theorem rules_reads : Reads .allRules rules :=
  reads_of_cases (kind_collect_decodeAll fun _ _ => kind_toRule) (store_failure rfl)

theorem userRoles_reads : Reads .allUserRoles userRoles := by
  refine reads_of_cases (fun cells => ?_) (store_failure rfl)
  have hroles : userRoles (.ok cells) = Except.map Table.ofList (do
      let rows ← decodeAll RoleRow.ofCells (.ok cells)
      collect RoleRow.toRole rows) := by
    rw [userRoles]
    cases decodeAll RoleRow.ofCells (.ok cells) <;> rfl
  rw [hroles, failureKind_map]
  exact kind_collect_decodeAll (fun _ _ => kind_toRole) cells

/-! ## The scripts -/

theorem single_owes {read : Except DatabaseError sent.Result → Except StorageError α}
    (h : Reads sent read) : (single sent read).Owes none :=
  h

theorem abandon_owes (error : StorageError) :
    (abandon (α := α) error).Owes (some error.kind) :=
  fun _ => rfl

theorem close_owes (command : TransactionCommand) (result : α) :
    (close command result).Owes none := by
  intro reply
  cases reply with
  | ok _ => rfl
  | error error => exact abandon_owes (storageError error)

theorem opening_owes {next : Script (Except StorageError α)} (h : next.Owes none) :
    (opening next).Owes none := by
  intro reply
  cases reply with
  | ok _ => exact h
  | error error => rfl

/-- A statement after which a script goes on with what it has read, or ends with the error. -/
theorem statement_owes {β : Type}
    {read : Except DatabaseError sent.Result → Except StorageError β}
    {next : Except DatabaseError sent.Result → Script (Except StorageError α)}
    (hreads : Reads sent read)
    (hfailed : ∀ reply error, read reply = .error error → (next reply).Owes (some error.kind))
    (hread : ∀ reply value, read reply = .ok value → (next reply).Owes none) :
    (statement sent next).Owes none := by
  intro reply
  rw [Option.none_or, ← hreads reply]
  cases hresult : read reply with
  | ok value => exact hread reply value hresult
  | error error => exact hfailed reply error hresult

theorem registerUser_owes (user : UserId) (role : Role) : (registerUser user role).Owes none :=
  single_owes (insertUser_reads user role)

theorem openTransaction_owes : openTransaction.Owes none := by
  intro reply
  cases reply <;> rfl

theorem update_owes (user : UserId) (grant : Grant) : (update user grant).Owes none := by
  refine opening_owes (statement_owes (found_reads user grant.resource) ?_ ?_)
  · intro reply error hfound
    simp only [hfound]
    exact abandon_owes error
  · intro reply locked hfound
    simp only [hfound]
    cases locked with
    | false => exact close_owes _ _
    | true =>
      -- the row is there and locked, so it is written before the transaction ends
      refine statement_owes (updateRule_reads user grant) ?_ ?_
      · intro reply error hwritten
        simp only [hwritten]
        exact abandon_owes error
      · intro reply touched hwritten
        simp only [hwritten]
        exact close_owes _ _

theorem readAll_owes {read : Except DatabaseError sent.Result → Except StorageError α}
    (h : Reads sent read) : (readAll sent read).Owes none := by
  refine opening_owes (statement_owes readOneState_reads ?_ ?_)
  · intro reply error hperformed
    cases reply with
    | ok isolated => cases hperformed
    | error other =>
      obtain rfl : storageError other = error := Except.error.inj hperformed
      exact abandon_owes (storageError other)
  · intro reply isolated hperformed
    cases reply with
    | error other => cases hperformed
    | ok result =>
      refine statement_owes h ?_ ?_
      · intro reply error hread
        simp only [hread]
        exact abandon_owes error
      · intro reply value hread
        simp only [hread]
        exact close_owes _ _

theorem pooled_owes (request : StoreRequest) : (pooled request).Owes none := by
  cases request with
  | create user grant => exact single_owes (insertRule_reads user grant)
  | update user grant => exact update_owes user grant
  | delete user resource => exact single_owes (deleteRule_reads user resource)
  | validateAccess check => exact single_owes (ruleAllows_reads check)
  | validateAccessToType check => exact single_owes (roleAllows_reads check)
  | allPermissions => exact readAll_owes rules_reads
  | allUserRoles => exact readAll_owes userRoles_reads
  | syncUserRole user role => exact single_owes (roleRecorded_reads user role)
  | putRolePolicy role resourceType actions =>
    exact single_owes (upsertRolePolicy_reads role resourceType actions)
  | commit | rollback => rfl

theorem inTransaction_owes (request : StoreRequest) : (inTransaction request).Owes none := by
  cases request with
  | create user grant => exact single_owes (insertRule_reads user grant)
  | update user grant =>
    refine statement_owes (found_reads user grant.resource) ?_ ?_
    · intro reply error hfound
      simp only [hfound]
      rfl
    · intro reply locked hfound
      simp only [hfound]
      cases locked with
      | false => rfl
      | true => exact single_owes (updateRule_reads user grant)
  | delete user resource => exact single_owes (deleteRule_reads user resource)
  | validateAccess check => exact single_owes (ruleAllows_reads check)
  | validateAccessToType check => exact single_owes (roleAllows_reads check)
  | allPermissions => exact single_owes rules_reads
  | allUserRoles => exact single_owes userRoles_reads
  | syncUserRole user role => exact single_owes (roleRecorded_reads user role)
  | putRolePolicy role resourceType actions =>
    exact single_owes (upsertRolePolicy_reads role resourceType actions)
  | commit | rollback => exact close_owes _ _

end RelationalStore

end AccessControl
