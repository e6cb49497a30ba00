import AccessControl.Database.Statement

/-!
# Scripts

A script is what the relational store does with one connection: it sends statements, starts and
ends transactions, and goes on with what the database replies.  A transaction that is left open is
rolled back, and a script says so where it leaves one.
-/

namespace AccessControl

/-- What the values in a column of a result are. -/
inductive ColumnType where
  | identifier
  | text
  | texts
  | flag
  deriving DecidableEq, Repr

/-- The name that the database has for the type of a column. -/
def ColumnType.name : ColumnType → String
  | identifier => "UUID"
  | text => "TEXT"
  | texts => "TEXT[]"
  | flag => "BOOL"

/-- The name that a message has for the type of the values of a column once they are read. -/
def ColumnType.readName : ColumnType → String
  | identifier => "uuid::Uuid"
  | text => "alloc::string::String"
  | texts => "alloc::vec::Vec<alloc::string::String>"
  | flag => "bool"

/-- A value in a row of a result. -/
inductive Cell where
  | null
  | identifier (id : Identifier)
  | text (value : String)
  | texts (values : List String)
  | flag (value : Bool)
  deriving DecidableEq, Repr

/-- The type of the column that a value stands in; a missing value tells nothing of it. -/
def Cell.type? : Cell → Option ColumnType
  | null => none
  | identifier _ => some .identifier
  | text _ => some .text
  | texts _ => some .texts
  | flag _ => some .flag

/-- What a statement changed and found. -/
structure ResultSet where
  affected : Nat := 0
  rows : List (List Cell) := []
  deriving DecidableEq, Repr

/-- What is handed over of a result to a script that asks for this of it.  Where a row is asked for
there is one or none, and no further row that a script could read or fail to read. -/
abbrev Extent.Part : Extent → Type
  | count => Nat
  | row => Option (List Cell)
  | rows => List (List Cell)

/-- What is handed over of the result of a statement to the script that has sent it. -/
abbrev Statement.Result (sent : Statement) : Type := sent.extent.Part

/-- What is handed over of a result; of several rows the first where one is asked for. -/
def ResultSet.part (result : ResultSet) : (extent : Extent) → extent.Part
  | .count => result.affected
  | .row => result.rows.head?
  | .rows => result.rows

/-- What is wrong with a value in a row of a result. -/
inductive CellFault where
  /-- The row has only so many values. -/
  | missing (width place : Nat)
  | null (place : Nat)
  /-- The column is not of the type that is asked for. -/
  | wrongType (place : Nat) (wanted found : ColumnType)
  deriving DecidableEq, Repr

/-- Why the database did not do what it was sent. -/
inductive DatabaseError where
  /-- The database refused the statement. -/
  | refused (code message : String)
  /-- A query that has to have a row has none. -/
  | noRow
  | undecodable (fault : CellFault)
  /-- The connection has broken. -/
  | lost (reason : String)
  /-- No connection can be had any more. -/
  | closed
  deriving DecidableEq, Repr

/-- What is said about a value that cannot be read. -/
def CellFault.message : CellFault → String
  | missing width place =>
    "column index out of bounds: the len is " ++ toString width ++ ", but the index is " ++
      toString place
  | null place =>
    "error occurred while decoding column " ++ toString place ++
      ": unexpected null; try decoding as an `Option`"
  | wrongType place wanted found =>
    "error occurred while decoding column " ++ toString place ++
      ": mismatched types; Rust type `" ++ wanted.readName ++ "` (as SQL type `" ++ wanted.name ++
      "`) is not compatible with SQL type `" ++ found.name ++ "`"

/-- What is said when the database did not do what it was sent. -/
def DatabaseError.message : DatabaseError → String
  | refused _ message => "error returned from database: " ++ message
  | noRow => "no rows returned by a query that expected to return at least one row"
  | undecodable fault => fault.message
  | lost reason => "error communicating with database: " ++ reason
  | closed => "attempted to acquire a connection on a closed pool"

/-- What starts or ends a transaction. -/
inductive TransactionCommand where
  | start
  | commit
  | rollback
  deriving DecidableEq, Repr

/-- The text of a command. -/
def TransactionCommand.text : TransactionCommand → String
  | start => "BEGIN"
  | commit => "COMMIT"
  | rollback => "ROLLBACK"

/-- What is left to do with the database to come to an `α`. -/
inductive Script (α : Type) : Type where
  | done (result : α)
  | statement (statement : Statement) (next : Except DatabaseError statement.Result → Script α)
  | command (command : TransactionCommand) (next : Except DatabaseError Unit → Script α)

namespace Script

variable {α β : Type}

/-- Does the second script with the result of the first. -/
def bind : Script α → (α → Script β) → Script β
  | done result, next => next result
  | statement sent continue_, next => statement sent fun reply => (continue_ reply).bind next
  | command sent continue_, next => command sent fun reply => (continue_ reply).bind next

/-- The script with its result changed by a function. -/
def map (f : α → β) (script : Script α) : Script β := script.bind fun result => done (f result)

/-- Sends one statement and ends with what is made of the reply. -/
def single (sent : Statement) (result : Except DatabaseError sent.Result → α) : Script α :=
  statement sent fun reply => done (result reply)

/-- Ends with an error and leaves the transaction open, which rolls it back. -/
def abandon {ε : Type} (error : ε) : Script (Except ε α) :=
  command .rollback fun _ => done (.error error)

end Script

end AccessControl
