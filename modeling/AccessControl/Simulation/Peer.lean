import AccessControl.Database.RuleStore
import AccessControl.Simulation.Reply

/-!
# A database that replies as it is told

A peer receives statements and gives the replies it was given beforehand.  It knows nothing of what
the statements mean, but it knows transactions: once a statement of one has failed, the later ones
fail too, until the transaction is ended.  It has no way to send a missing value: the connection
breaks where it is told to, and a transaction is lost with its connection.
-/

namespace AccessControl

/-- What a peer was sent. -/
inductive Sent where
  | statement (statement : Statement)
  | command (command : TransactionCommand)
  deriving DecidableEq, Repr

/-- Whether a peer can send a result. -/
def ResultSet.isSendable (result : ResultSet) : Bool :=
  result.rows.all fun row => !row.contains .null

/-- A peer: the replies it still has, the commands that it will refuse, the state of its connection,
and what it was sent, the last first. -/
structure Peer where
  replies : List (Except DatabaseError ResultSet) := []
  refusals : List (TransactionCommand × DatabaseError) := []
  inTransaction : Bool := false
  aborted : Bool := false
  /-- Whether the connection has broken and no other transaction was started since. -/
  lost : Bool := false
  closed : Bool := false
  sent : List Sent := []

namespace Peer

/-- What the database says to a statement of a transaction in which one has failed. -/
def abortedError : DatabaseError :=
  .refused "25P02"
    "current transaction is aborted, commands ignored until end of transaction block"

/-- What is known of a reply that the connection has broken at. -/
def resetError : DatabaseError := .lost "Connection reset by peer (os error 104)"

/-- What is known of whatever is to go over a connection that has broken before. -/
def lostError : DatabaseError := .lost "expected to read 5 bytes, got 0 bytes at EOF"

/-- The reply to a statement that has come through. -/
def answer (peer : Peer) (statement : Statement) : Except DatabaseError statement.Result × Peer :=
  if peer.aborted then (.error abortedError, peer)
  else
    match peer.replies with
    | [] => (.ok (ResultSet.part {} statement.extent), peer)
    | .ok result :: rest =>
      if result.isSendable then (.ok (result.part statement.extent), { peer with replies := rest })
      else (.error resetError, { peer with replies := rest, lost := true })
    | .error error :: rest =>
      (.error error, { peer with replies := rest, aborted := peer.inTransaction })

/-- The reply to a statement.  Outside a transaction each has a connection of its own. -/
def reply (peer : Peer) (statement : Statement) : Except DatabaseError statement.Result × Peer :=
  if peer.closed then (.error .closed, peer)
  else if peer.lost && peer.inTransaction then (.error lostError, peer)
  else { peer with sent := .statement statement :: peer.sent }.answer statement

/-- The first refusal of a command, and the others. -/
def takeRefusal (command : TransactionCommand) :
    List (TransactionCommand × DatabaseError) →
      Option DatabaseError × List (TransactionCommand × DatabaseError)
  | [] => (none, [])
  | (other, error) :: rest =>
    if other = command then (some error, rest)
    else
      let (found, others) := takeRefusal command rest
      (found, (other, error) :: others)

/-- The reply to a command that has come through.  After a refused command the connection is outside
a transaction. -/
def perform (peer : Peer) (command : TransactionCommand) : Except DatabaseError Unit × Peer :=
  let (refusal, refusals) := takeRefusal command peer.refusals
  let peer := { peer with refusals, aborted := false, lost := false }
  match refusal with
  | some error => (.error error, { peer with inTransaction := false })
  | none => (.ok (), { peer with inTransaction := command == .start })

/-- The reply to a command.  A transaction is started on a connection that is whole. -/
def obey (peer : Peer) (command : TransactionCommand) : Except DatabaseError Unit × Peer :=
  if peer.closed then (.error .closed, peer)
  else if peer.lost && command != .start then
    (.error lostError, { peer with inTransaction := false })
  else { peer with sent := .command command :: peer.sent }.perform command

/-- Runs a script against a peer. -/
def run {α : Type} : Script α → Peer → α × Peer
  | .done result, peer => (result, peer)
  | .statement statement next, peer =>
    let (reply, peer) := peer.reply statement
    run (next reply) peer
  | .command command next, peer =>
    let (reply, peer) := peer.obey command
    run (next reply) peer

end Peer

/-- The open transaction of a simulation with a peer. -/
inductive PeerTransaction where
  /-- A store on the transaction, used directly. -/
  | plain
  /-- A scope over the transaction, with what the engine is told at commit. -/
  | scoped (deferred : List EngineUpdate)
  deriving DecidableEq

/-- A peer, the engine, the counters of the coordinator if there is one, and the open
transaction. -/
structure PeerWorld where
  peer : Peer := {}
  engine : Engine := {}
  counters : Option Counters := none
  transaction : Option PeerTransaction := none

namespace PeerWorld

instance : Inhabited PeerWorld := ⟨{}⟩

/-- Runs a script against the peer. -/
def script {α : Type} (world : PeerWorld) (script : Script α) : α × PeerWorld :=
  let (result, peer) := world.peer.run script
  (result, { world with peer })

/-- Runs a call whose requests to the store are made by scripts. -/
def run {α : Type} (scriptOf : (request : StoreRequest) → Script request.Answer) :
    Call α → PeerWorld → α × PeerWorld
  | .done result, world => (result, world)
  | .count counter next, world =>
    run scriptOf next { world with counters := world.counters.map fun c => c.count counter }
  | .engine request next, world =>
    let (reply, engine) := world.engine.answer request
    run scriptOf (next reply) { world with engine }
  | .store request _ next, world =>
    let (answer, world) := world.script (scriptOf request)
    run scriptOf (next answer) world

/-- A request to the store itself, by scripts on the pool or inside the transaction. -/
def askStore (world : PeerWorld)
    (scriptOf : (request : StoreRequest) → Script request.Answer) (request : StoreRequest) :
    Reply × PeerWorld :=
  let (answer, world) := world.script (scriptOf request)
  (.ofStore request answer, world)

/-- A request to the coordinator. -/
def askCoordinator (world : PeerWorld) (request : StoreRequest) : Reply × PeerWorld :=
  let (answer, world) := run RelationalStore.pooled (Coordinator.handle request) world
  (.ofStore request answer, world)

/-- A request to the scope over the open transaction. -/
def askScope (world : PeerWorld) (deferred : List EngineUpdate) (request : StoreRequest) :
    Reply × PeerWorld :=
  let (ended, world) :=
    run RelationalStore.inTransaction (Scope.handle deferred request) world
  (.ofStore request ended.result,
    { world with transaction := some (.scoped (deferred ++ ended.deferred)) })

/-- A unit result as a reply. -/
def unitReply : Except StorageError Unit → Reply
  | .ok () => .ok .nothing
  | .error error => .error (.storage error)

/-- Opens a transaction of the given kind. -/
def openTransaction (world : PeerWorld) (kind : PeerTransaction) : Reply × PeerWorld :=
  match world.script RelationalStore.openTransaction with
  | (.ok (), world) => (.ok .nothing, { world with transaction := some kind })
  | (.error error, world) => (.error (.storage error), world)

/-- Opens a coordinator after it has loaded the store into the engine.  An earlier coordinator stays
if that fails. -/
def warm (world : PeerWorld) : Reply × PeerWorld :=
  match run RelationalStore.pooled Coordinator.warmUp world with
  | (.ok (), world) => (.ok .nothing, { world with counters := some {} })
  | (.error error, world) => (.error (.storage error), world)

end PeerWorld

end AccessControl
