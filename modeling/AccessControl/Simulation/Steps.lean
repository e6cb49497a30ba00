import AccessControl.Simulation.World

/-!
# Steps of a simulation

A step names a coordinator, a transaction or a held call that the world knows, and does one thing
with it: it makes a call, ends a transaction, lets a held call go on or gives it up, or changes the
circumstances under which later calls run.
-/

namespace AccessControl

/-- A call that is ready to be made: whose it is, when it has to be at its end, and its steps. -/
structure Task where
  route : Route
  deadline : Option (Deadline Ending) := none
  call : Call Ending

namespace World

/-- Keeps what a call inside a transaction leaves to be told to the engine at commit. -/
def conclude (world : World) (route : Route) (ending : Ending) : World :=
  match world.transactionOf route with
  | some (id, entry) =>
    let entry := { entry with deferred := entry.deferred ++ ending.deferred }
    { world with transactions := world.transactions.insert id entry }
  | none => world

/-- Makes a call from its beginning to its end. -/
def perform (world : World) (task : Task) : Ending × World :=
  let (ending, world) := world.run task.route task.deadline task.call
  (ending, world.conclude task.route ending)

/-- A call to a coordinator, which can be asked whatever a store can. -/
def coordinatorTask (entry : CoordinatorEntry) (request : StoreRequest) : Task :=
  { route := { coordinator := entry.id }
    call := (Coordinator.handle request).map (Ending.ofStore request) }

/-- A request to the service over a coordinator, which has to be answered by its deadline. -/
def serviceTask {α : Type} (world : World) (entry : CoordinatorEntry)
    (request : Duration → Attempt (Outcome α)) (value : α → ReplyValue) : Task :=
  let attempt := request entry.deadline
  { route := { coordinator := entry.id }
    deadline := some {
      time := world.clock + entry.deadline.nanoseconds
      ending := .ofOutcome value attempt.onDeadline }
    call := attempt.call.map (Ending.ofOutcome value) }

/-- A call inside a transaction. -/
def transactionTask (id : Nat) (entry : TransactionEntry) (request : StoreRequest) : Task :=
  { route := { coordinator := entry.coordinator, transaction := some id }
    call := (Scope.handle entry.deferred request).map (Ending.ofScoped request) }

/-- The open transaction of a name. -/
def transaction? (world : World) (name : String) : Option (Nat × TransactionEntry) :=
  (world.openTransactions.get? name).bind fun id =>
    (world.transactions.get? id).map fun entry => (id, entry)

/-- Forgets the name of a transaction, which is about to end. -/
def closeTransaction (world : World) (name : String) : World :=
  { world with openTransactions := world.openTransactions.erase name }

/-- Puts a coordinator with fresh counters under a name. -/
def installCoordinator (world : World) (name : String) (id : Nat) (deadline : Duration) : World :=
  { world with
    coordinators := world.coordinators.insert name ⟨id, deadline⟩
    counters := world.counters.insert id {} }

/-- Opens a coordinator over the store and the engine as they are. -/
def attach (world : World) (name : String) (deadline : Duration) : Reply × World :=
  let id := world.nextId
  let world := { world with nextId := id + 1 }
  (.ok (.text deadline.text), world.installCoordinator name id deadline)

/-- Opens a coordinator after it has loaded the store into the engine. -/
def warm (world : World) (name : String) (deadline : Duration) : Reply × World :=
  let id := world.nextId
  let world := { world with nextId := id + 1 }
  match world.run { coordinator := id } none Coordinator.warmUp with
  | (.ok (), world) => (.ok (.text deadline.text), world.installCoordinator name id deadline)
  | (.error error, world) => (.error (.storage error), world)

/-- Opens a transaction through a coordinator. -/
def openTransaction (world : World) (name : String) (entry : CoordinatorEntry) : World :=
  let id := world.nextId
  { world with
    nextId := id + 1
    transactions := world.transactions.insert id { coordinator := entry.id }
    openTransactions := world.openTransactions.insert name id }

/-- Starts a call that is to wait at its first request to the store.  It is kept under `name` if it
comes to wait; a call kept under that name before is given up. -/
def start (world : World) (name : String) (point : HoldPoint) (task : Task) :
    Option Ending × World :=
  match world.runUntil point task.route task.deadline task.call with
  | (.ended ending, world) => (some ending, world.conclude task.route ending)
  | (.waits waiting, world) =>
    let world := match world.held.get? name with
      | some earlier => world.cancel earlier.route earlier.waiting
      | none => world
    let held := ⟨task.route, task.deadline, waiting⟩
    (none, { world with held := world.held.insert name held })

/-- Lets a held call go on to its end. -/
def finish (world : World) (name : String) (held : HeldCall) : Ending × World :=
  let world := { world with held := world.held.erase name }
  let (ending, world) := world.resume held.route held.deadline held.waiting
  (ending, world.conclude held.route ending)

/-- Gives a held call up. -/
def giveUpHeld (world : World) (name : String) (held : HeldCall) : World :=
  let world := { world with held := world.held.erase name }
  world.cancel held.route held.waiting

/-- Asks the committed store behind every coordinator. -/
def askCommitted (world : World) (request : StoreRequest) : Reply × World :=
  let (answer, store) := world.store.answer request
  (.ofStore request answer, { world with store })

/-- Asks the engine itself, which no failure was set for. -/
def askEngineItself (world : World) (request : EngineRequest) : Reply × World :=
  let (answer, engine) := world.engine.answer request
  (.ofEngine request answer, { world with engine })

/-- Records a list of roles in the engine itself. -/
def loadRoles (world : World) (roles : List (UserId × Role)) : Reply × World :=
  let (answer, engine) := world.engine.loadRoles roles 0
  (match answer with
    | .ok loaded => .ok (.count loaded)
    | .error error => .error (.engine error),
    { world with engine })

/-- Makes a writer die while it holds the engine's lock. -/
def poison (world : World) : World :=
  { world with engine := { world.engine with poisoned := true } }

/-- Sets the failure that the next request of a name meets. -/
def setFault (world : World) (name : String) (fault : StoreFault) : World :=
  { world with faults := world.faults.insert name fault }

/-- Moves the clock. -/
def advance (world : World) (duration : Duration) : World :=
  { world with clock := world.clock + duration.nanoseconds }

/-- Keeps a version under a name. -/
def saveVersion (world : World) (name : String) (version : FactVersion) : World :=
  { world with versions := world.versions.insert name version }

end World

end AccessControl
