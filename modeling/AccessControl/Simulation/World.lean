import AccessControl.Simulation.Reply
import AccessControl.Store.Staging

/-!
# A world to try calls in

A world holds one committed store and one engine, coordinators and transactions over them, and calls
that wait.  Requests to the store can be made to fail, to wait and to take time; requests to the
engine can be made to fail.  The clock moves only when it is told to, or when a call has nothing to
do but to wait for it.
-/

namespace AccessControl

/-- Where a call waits at its first request to the store. -/
inductive HoldPoint where
  /-- Before the store is asked. -/
  | before
  /-- After the store has answered. -/
  | after
  deriving DecidableEq, Repr

/-- A failure that the next request of one name meets. -/
structure StoreFault where
  /-- Whether the store has done what it was asked when the failure is met. -/
  point : HoldPoint
  error : StorageError
  deriving DecidableEq, Repr

/-- Whose requests a call makes: its coordinator, and its transaction if it has one. -/
structure Route where
  coordinator : Nat
  transaction : Option Nat := none
  deriving DecidableEq, Repr

/-- A coordinator and the deadline of the service over it. -/
structure CoordinatorEntry where
  id : Nat
  deadline : Duration
  deriving DecidableEq, Repr

/-- A transaction: its writes, what the engine is told at commit, and the coordinator that opened
it. -/
structure TransactionEntry where
  store : StagingStore := {}
  deferred : List EngineUpdate := []
  coordinator : Nat
  deriving DecidableEq

/-- When a call has to be at its end, and how it ends otherwise. -/
structure Deadline (α : Type) where
  time : Nat
  ending : α

/-- A call that waits at a request to the store, and the failure that this request meets. -/
inductive Waiting (α : Type) : Type where
  | before (request : StoreRequest) (onUnknown : List EngineUpdate) (next : request.Answer → Call α)
      (fault : Option StoreFault)
  | after (request : StoreRequest) (onUnknown : List EngineUpdate) (next : request.Answer → Call α)
      (fault : Option StoreFault) (answer : request.Answer)

/-- A held call: whose it is, when it has to be at its end, and where it waits. -/
structure HeldCall where
  route : Route
  deadline : Option (Deadline Ending)
  waiting : Waiting Ending

/-- Everything that a simulation keeps.  Times are in nanoseconds. -/
structure World where
  store : MemoryStore := ∅
  engine : Engine := {}
  counters : Table Nat Counters := ∅
  transactions : Table Nat TransactionEntry := ∅
  coordinators : Table String CoordinatorEntry := ∅
  openTransactions : Table String Nat := ∅
  held : Table String HeldCall := ∅
  versions : Table String FactVersion := ∅
  /-- The failure that the next request of a name meets. -/
  faults : Table String StoreFault := ∅
  /-- The names of the engine's operations that fail for every call. -/
  failing : List String := []
  /-- How long a request to the store takes. -/
  delay : Nat := 0
  clock : Nat := 0
  nextId : Nat := 0
  /-- The requests that reached a store, the last one first. -/
  reached : List String := []

namespace World

instance : Inhabited World := ⟨{}⟩

/-- The counters of a coordinator. -/
def countersOf (world : World) (coordinator : Nat) : Counters :=
  (world.counters.get? coordinator).getD {}

/-- Counts an event of a coordinator. -/
def count (world : World) (coordinator : Nat) (counter : Counter) : World :=
  { world with
    counters := world.counters.insert coordinator
      ((world.countersOf coordinator).count counter) }

/-- The engine's answer to a call. -/
def askEngine (world : World) (request : EngineRequest) :
    Except EngineError request.Reply × World :=
  if world.failing.contains request.name then (.error .poisoned, world)
  else
    let (answer, engine) := world.engine.answer request
    (answer, { world with engine })

/-- The name under which a request of a call is known. -/
def requestName (route : Route) (request : StoreRequest) : String :=
  match route.transaction with
  | some _ => "tx." ++ request.name
  | none => request.name

/-- A request reaches the store and meets the failure that was set for it, which is then spent. -/
def reach (world : World) (route : Route) (request : StoreRequest) : Option StoreFault × World :=
  let name := requestName route request
  (world.faults.get? name,
    { world with faults := world.faults.erase name, reached := name :: world.reached })

/-- The transaction of a call that is made inside one, with what is kept of it. -/
def transactionOf (world : World) (route : Route) : Option (Nat × TransactionEntry) := do
  let id ← route.transaction
  let entry ← world.transactions.get? id
  return (id, entry)

/-- The answer of the store that a call is made to. -/
def askStore (world : World) (route : Route) (request : StoreRequest) : request.Answer × World :=
  match world.transactionOf route with
  | some (id, entry) =>
    let (answer, staging, store) := entry.store.answer world.store request
    let transactions := world.transactions.insert id { entry with store := staging }
    (answer, { world with store, transactions })
  | none =>
    let (answer, store) := world.store.answer request
    (answer, { world with store })

/-- A call goes on at time `ready`, unless its deadline passes first.  A call that is ready at its
deadline goes on. -/
def sleepUntil {α : Type} (world : World) (deadline : Option (Deadline α)) (ready : Nat) :
    Option α × World :=
  match deadline with
  | some limit =>
    if limit.time < ready then
      (some limit.ending, { world with clock := max world.clock limit.time })
    else (none, { world with clock := max world.clock ready })
  | none => (none, { world with clock := max world.clock ready })

/-- Makes the engine requests of what is left of a call, up to its next request to the store. -/
def finishEngine {α : Type} (route : Route) : Call α → World → World
  | .done _, world => world
  | .engine request next, world =>
    let (reply, world) := world.askEngine request
    finishEngine route (next reply) world
  | .count counter next, world => finishEngine route next (world.count route.coordinator counter)
  | .store .., world => world

/-- Gives a call up that waits at a request to the store. -/
def giveUp (world : World) (route : Route) (onUnknown : List EngineUpdate) : World :=
  finishEngine route (EngineUpdate.applyAll onUnknown) world

/-- Lets time pass after the store has answered, and meets a failure that was set to come then.  A
call that runs out of time is given up and ends as its deadline says. -/
def afterAnswer {α : Type} (world : World) (route : Route) (deadline : Option (Deadline α))
    (onUnknown : List EngineUpdate) (request : StoreRequest) (fault : Option StoreFault)
    (answer : request.Answer) : (α ⊕ request.Answer) × World :=
  let (expired, world) :=
    if world.delay = 0 then (none, world)
    else world.sleepUntil deadline (world.clock + world.delay)
  match expired with
  | some ending => (.inl ending, world.giveUp route onUnknown)
  | none =>
    match fault with
    | some fault => (.inr (.error fault.error), world)
    | none => (.inr answer, world)

/-- A call that has come to its end, or waits. -/
inductive Progress (α : Type) : Type where
  | ended (ending : α)
  | waits (waiting : Waiting α)

/-- A call is about to wait.  If its deadline has passed it is given up at once. -/
def hold {α : Type} (world : World) (route : Route) (deadline : Option (Deadline α))
    (onUnknown : List EngineUpdate) (waiting : Waiting α) : Progress α × World :=
  match deadline with
  | some limit =>
    if limit.time ≤ world.clock then (.ended limit.ending, world.giveUp route onUnknown)
    else (.waits waiting, world)
  | none => (.waits waiting, world)

/-- Runs a call to its end.  A failure that comes before the store is asked leaves nothing to wait
for. -/
def run {α : Type} (route : Route) (deadline : Option (Deadline α)) : Call α → World → α × World
  | .done ending, world => (ending, world)
  | .count counter next, world =>
    run route deadline next (world.count route.coordinator counter)
  | .engine request next, world =>
    let (reply, world) := world.askEngine request
    run route deadline (next reply) world
  | .store request onUnknown next, world =>
    let (fault, world) := world.reach route request
    match fault with
    | some ⟨.before, error⟩ => run route deadline (next (.error error)) world
    | _ =>
      let (answer, world) := world.askStore route request
      match world.afterAnswer route deadline onUnknown request fault answer with
      | (.inl ending, world) => (ending, world)
      | (.inr answer, world) => run route deadline (next answer) world

/-- Runs a call until it waits at its first request to the store, or to its end if it does not come
to wait. -/
def runUntil {α : Type} (point : HoldPoint) (route : Route) (deadline : Option (Deadline α)) :
    Call α → World → Progress α × World
  | .done ending, world => (.ended ending, world)
  | .count counter next, world =>
    runUntil point route deadline next (world.count route.coordinator counter)
  | .engine request next, world =>
    let (reply, world) := world.askEngine request
    runUntil point route deadline (next reply) world
  | .store request onUnknown next, world =>
    let (fault, world) := world.reach route request
    match point, fault with
    | .before, _ => world.hold route deadline onUnknown (.before request onUnknown next fault)
    | .after, some ⟨.before, error⟩ =>
      let (ending, world) := run route deadline (next (.error error)) world
      (.ended ending, world)
    | .after, _ =>
      let (answer, world) := world.askStore route request
      world.hold route deadline onUnknown (.after request onUnknown next fault answer)

/-- Lets a waiting call whose request was answered go on to its end. -/
def resumeAfter {α : Type} (route : Route) (deadline : Option (Deadline α)) (world : World)
    (request : StoreRequest) (onUnknown : List EngineUpdate) (next : request.Answer → Call α)
    (fault : Option StoreFault) (answer : request.Answer) : α × World :=
  match world.afterAnswer route deadline onUnknown request fault answer with
  | (.inl ending, world) => (ending, world)
  | (.inr answer, world) => run route deadline (next answer) world

/-- Lets a waiting call go on to its end. -/
def resume {α : Type} (route : Route) (deadline : Option (Deadline α)) (world : World) :
    Waiting α → α × World
  | .before request onUnknown next fault =>
    match fault with
    | some ⟨.before, error⟩ => run route deadline (next (.error error)) world
    | _ =>
      let (answer, world) := world.askStore route request
      resumeAfter route deadline world request onUnknown next fault answer
  | .after request onUnknown next fault answer =>
    resumeAfter route deadline world request onUnknown next fault answer

/-- Gives a waiting call up. -/
def cancel {α : Type} (route : Route) (world : World) : Waiting α → World
  | .before _ onUnknown _ _ => world.giveUp route onUnknown
  | .after _ onUnknown _ _ _ => world.giveUp route onUnknown

end World

end AccessControl
