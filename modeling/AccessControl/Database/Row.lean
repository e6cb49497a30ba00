import AccessControl.Database.Script
import AccessControl.Store.Request

/-!
# Rows of results

How a rule and the role of a user are read back from a row.  All rows are taken apart before any
name in them is looked up, and a list of rows is read whole or not at all.
-/

namespace AccessControl

/-- The type of the values that a column is read as. -/
abbrev ColumnType.Value : ColumnType → Type
  | identifier => Identifier
  | text => String
  | texts => List String
  | flag => Bool

namespace ColumnType

/-- The value in a cell of a column of this type. -/
def value? : (type : ColumnType) → Cell → Option type.Value
  | identifier, .identifier id => some id
  | text, .text value => some value
  | texts, .texts values => some values
  | flag, .flag value => some value
  | _, _ => none

/-- The value at a place of a row whose column there has to be of this type. -/
def read (type : ColumnType) (row : List Cell) (place : Nat) : Except DatabaseError type.Value :=
  match row[place]? with
  | none => .error (.undecodable (.missing row.length place))
  | some cell =>
    match type.value? cell, cell.type? with
    | some value, _ => .ok value
    | none, some found => .error (.undecodable (.wrongType place type found))
    | none, none => .error (.undecodable (.null place))

end ColumnType

/-- A row of the query for all rules, with its names as they are written. -/
structure RuleRow where
  user : Identifier
  resource : Identifier
  resourceType : String
  actions : List String
  deriving DecidableEq, Repr

/-- A row of the query for all roles, with its name as it is written. -/
structure RoleRow where
  user : Identifier
  role : String
  deriving DecidableEq, Repr

/-- The results of `f` on a list, or the first error. -/
def collect {α β ε : Type} (f : α → Except ε β) : List α → Except ε (List β)
  | [] => .ok []
  | item :: rest => do
    let first ← f item
    let others ← collect f rest
    return first :: others

namespace RuleRow

/-- Takes a row apart. -/
def ofCells (row : List Cell) : Except DatabaseError RuleRow := do
  let user ← ColumnType.identifier.read row 0
  let resource ← ColumnType.identifier.read row 1
  let resourceType ← ColumnType.text.read row 2
  let actions ← ColumnType.texts.read row 3
  return { user, resource, resourceType, actions }

/-- The row that a rule is kept as. -/
def ofRule (rule : Rule) : RuleRow :=
  ⟨rule.user.id, rule.resource.id, rule.resourceType.name, rule.actions.names⟩

/-- The rule that a row stands for; a name that stands for nothing is a failure of the store. -/
def toRule (row : RuleRow) : Except StorageError Rule :=
  match ResourceType.ofName row.resourceType with
  | .error error => .error (.internal error.message)
  | .ok resourceType =>
    match ActionSet.ofNames row.actions with
    | .error error => .error (.internal error.message)
    | .ok actions => .ok ⟨⟨row.user⟩, ⟨row.resource⟩, resourceType, actions⟩

end RuleRow

namespace RoleRow

/-- Takes a row apart. -/
def ofCells (row : List Cell) : Except DatabaseError RoleRow := do
  let user ← ColumnType.identifier.read row 0
  let role ← ColumnType.text.read row 1
  return { user, role }

/-- The row that the role of a user is kept as. -/
def ofRole (user : UserId) (role : Role) : RoleRow := ⟨user.id, role.name⟩

/-- The role of a user that a row stands for; a name that stands for nothing is a failure of the
store. -/
def toRole (row : RoleRow) : Except StorageError (UserId × Role) :=
  match Role.ofName row.role with
  | .error error => .error (.internal ("user " ++ row.user.text ++ ": " ++ error.message))
  | .ok role => .ok (⟨row.user⟩, role)

end RoleRow

namespace ResultSet

/-- A failure of the database as a failure of the store. -/
def storageError (error : DatabaseError) : StorageError := .internal error.message

/-- A failure of a statement that adds or changes a row: a row that is there already, or that
speaks of something that is not there, is a condition of the data. -/
def writeError : DatabaseError → StorageError
  | .refused code message =>
    if code = "23505" then .duplicateEntry
    else if code = "23503" then .notFound message
    else storageError (.refused code message)
  | error => storageError error

/-- Reads each of the rows of a reply. -/
def decodeAll {α : Type} (decode : List Cell → Except DatabaseError α)
    (reply : Except DatabaseError (List (List Cell))) : Except StorageError (List α) :=
  match reply.bind (collect decode) with
  | .ok rows => .ok rows
  | .error error => .error (storageError error)

/-- Reads the row of a reply, if there is one. -/
def decodeRow? {α : Type} (decode : List Cell → Except DatabaseError α)
    (reply : Except DatabaseError (Option (List Cell))) : Except DatabaseError (Option α) := do
  match ← reply with
  | none => return none
  | some row => return some (← decode row)

/-- Reads the row of a reply, which has to have one. -/
def decodeRow {α : Type} (decode : List Cell → Except DatabaseError α)
    (reply : Except DatabaseError (Option (List Cell))) : Except DatabaseError α := do
  match ← decodeRow? decode reply with
  | some value => return value
  | none => .error .noRow

/-- The rules of a reply. -/
def rules (reply : Except DatabaseError (List (List Cell))) : Except StorageError (List Rule) := do
  collect RuleRow.toRule (← decodeAll RuleRow.ofCells reply)

/-- The role of each user of a reply; of two rows of one user the later one counts. -/
def userRoles (reply : Except DatabaseError (List (List Cell))) :
    Except StorageError (Table UserId Role) := do
  return Table.ofList (← collect RoleRow.toRole (← decodeAll RoleRow.ofCells reply))

/-- Whether a reply says that a check passes. -/
def decision (reply : Except DatabaseError (Option (List Cell))) : Except StorageError Unit :=
  match decodeRow (fun row => ColumnType.flag.read row 0) reply with
  | .ok true => .ok ()
  | .ok false => .error .accessDenied
  | .error error => .error (storageError error)

/-- Whether a reply has a row with an identifier. -/
def found (reply : Except DatabaseError (Option (List Cell))) : Except StorageError Bool :=
  match decodeRow? (fun row => ColumnType.identifier.read row 0) reply with
  | .ok row => .ok row.isSome
  | .error error => .error (storageError error)

/-- The end of a statement that adds or changes a row. -/
def written (reply : Except DatabaseError Nat) : Except StorageError Nat :=
  match reply with
  | .ok affected => .ok affected
  | .error error => .error (writeError error)

/-- The end of a statement whose failure is always one of the store. -/
def performed (reply : Except DatabaseError Nat) : Except StorageError Nat :=
  match reply with
  | .ok affected => .ok affected
  | .error error => .error (storageError error)

end ResultSet

end AccessControl
