import AccessControl.Cache.Scope
import AccessControl.Proofs.EngineEffect

/-!
# Calls and transactions side by side

Any number of coordinators share one store and one engine, and any number of transactions run beside
them.  One step of the system is one request to the engine, one request to the store, or the end of
a call that waits at its request to the store.  The steps of different parties come in any order.

A request to the store can end in four ways: its answer is received; it is refused and has done
nothing; it has been answered, but the answer is lost; the call is given up, whether it has been
answered or not.

What a transaction writes is its draft, and nobody else sees it.  The commit makes the whole draft
at once or not at all.  A row that stands in a draft is not written by anyone else.  How much a
transaction sees of what others write is left open, save for the row that it is about to write.
-/

namespace AccessControl

/-- What all parties share. -/
structure Backend where
  store : MemoryStore
  engine : Engine
  counters : Table Nat Counters := ∅
  /-- How many requests have moved a revocation counter of the engine. -/
  revocations : Nat := 0

namespace Backend

/-- The engine's answer to a request. -/
def askEngine (backend : Backend) (request : EngineRequest) :
    Except EngineError request.Reply × Backend :=
  let (reply, engine) := backend.engine.answer request
  let moved := match reply with
    | .ok reply => (request.moves reply).toNat
    | .error _ => 0
  (reply, { backend with engine, revocations := backend.revocations + moved })

/-- Counts an event of a coordinator. -/
def count (backend : Backend) (coordinator : Nat) (counter : Counter) : Backend :=
  let counters := (backend.counters.get? coordinator).getD {}
  { backend with counters := backend.counters.insert coordinator (counters.count counter) }

end Backend

/-- The first step of a call, unless the call waits there or has come to its end. -/
def Call.step {α : Type} (coordinator : Nat) (backend : Backend) :
    Call α → Option (Call α × Backend)
  | engine request next =>
    let (reply, backend) := backend.askEngine request
    some (next reply, backend)
  | count counter next => some (next, backend.count coordinator counter)
  | _ => none

/-- Where a call stands. -/
inductive Stage (α : Type) : Type where
  | running (rest : Call α)
  /-- The store has answered, and the call does not know it yet. -/
  | answered (request : StoreRequest) (onUnknown : List EngineUpdate)
      (next : request.Answer → Call α) (answer : request.Answer)
  | abandoned (rest : Call Unit)

/-- How a call goes on without a new answer of the store. -/
inductive Progress where
  | advance
  /-- The call hears the answer of the store. -/
  | receive
  /-- The request to the store is refused, and nothing has been done. -/
  | refuse (error : StorageError)
  /-- The answer of the store is lost, and the request is said to have failed. -/
  | lose (reason : String)
  /-- The call is given up while it waits. -/
  | giveUp
  deriving DecidableEq, Repr

/-- Whether a request to the store ends without its answer. -/
def Progress.fails : Progress → Bool
  | refuse _ => true
  | lose _ => true
  | giveUp => true
  | _ => false

namespace Stage

variable {α : Type}

/-- Whether nothing is left to do. -/
def finished : Stage α → Bool
  | running (.done _) => true
  | abandoned (.done _) => true
  | _ => false

/-- A call goes on without a new answer of the store. -/
def proceed (coordinator : Nat) (backend : Backend) :
    Progress → Stage α → Option (Stage α × Backend)
  | .advance, running rest =>
    (rest.step coordinator backend).map fun (rest, backend) => (running rest, backend)
  | .advance, abandoned rest =>
    (rest.step coordinator backend).map fun (rest, backend) => (abandoned rest, backend)
  | .receive, answered _ _ next answer => some (running (next answer), backend)
  | .refuse error, running (.store _ _ next) => some (running (next (.error error)), backend)
  | .lose reason, answered _ _ next _ => some (running (next (.error (.internal reason))), backend)
  | .giveUp, running (.store _ onUnknown _) =>
    some (abandoned (EngineUpdate.applyAll onUnknown), backend)
  | .giveUp, answered _ onUnknown _ _ =>
    some (abandoned (EngineUpdate.applyAll onUnknown), backend)
  | _, _ => none

end Stage

/-- Whether a request ends the transaction that it is made in. -/
def StoreRequest.endsTransaction : StoreRequest → Bool
  | commit => true
  | rollback => true
  | _ => false

/-- Whether nobody else has a draft of the row that a request may write. -/
def StoreRequest.isFree (request : StoreRequest) (locked : List Row) : Bool :=
  request.row?.all fun row => row ∉ locked

/-- A call that has been made: what it asks for, where it stands, and whether the store has made
its write. -/
structure Flight (Result : StoreRequest → Type) where
  request : StoreRequest
  stage : Stage (Result request)
  applied : Bool := false

/-- The store has made the write of the call, and the call has not come to its end. -/
def Flight.Pending {Result : StoreRequest → Type} (flight : Flight Result) : Prop :=
  flight.applied = true ∧ flight.stage.finished = false

/-- A call to a coordinator. -/
abbrev CoordinatorFlight : Type := Flight StoreRequest.Answer

/-- A call inside a transaction. -/
abbrev ScopeFlight : Type := Flight fun request => ScopedResult request.Reply

/-- The store answers a call to a coordinator. -/
def CoordinatorFlight.ask (locked : List Row) (backend : Backend) (flight : CoordinatorFlight) :
    Option (CoordinatorFlight × Backend) :=
  match flight.stage with
  | .running (.store request onUnknown next) =>
    if request.isFree locked then
      let (answer, store) := backend.store.answer request
      let applied := (backend.store.writeOf request).isSome
      some (⟨flight.request, .answered request onUnknown next answer, applied⟩,
        { backend with store })
    else none
  | _ => none

/-- A transaction that was opened through a coordinator. -/
structure OpenScope where
  coordinator : Nat
  /-- What the transaction has written, in order. -/
  draft : List RowWrite := []
  /-- What the engine is told at commit. -/
  deferred : List EngineUpdate := []
  /-- The call that is under way; one that has ended the transaction stays. -/
  current : Option ScopeFlight := none

namespace OpenScope

/-- The rows that the transaction has written. -/
def rows (scope : OpenScope) : List Row := scope.draft.map RowWrite.row

/-- The store as it would be after the commit. -/
def view (scope : OpenScope) (store : MemoryStore) : MemoryStore :=
  RowWrite.applyAll store scope.draft

/-- Makes a call inside the transaction, which has to be idle. -/
def invoke (scope : OpenScope) (request : StoreRequest) : Option OpenScope :=
  match scope.current with
  | none =>
    let flight := ⟨request, .running (Scope.handle scope.deferred request), false⟩
    some { scope with current := some flight }
  | some _ => none

/-- The transaction's store answers a call, from a reading that is current in the row that the call
may write. -/
def ask (locked : List Row) (backend : Backend) (reading : MemoryStore) (scope : OpenScope) :
    Option (OpenScope × Backend) :=
  match scope.current with
  | some ⟨owned, .running (.store request onUnknown next), _⟩ =>
    let current := request.row?.all fun row => reading.SameAt (scope.view backend.store) row
    if request.isFree locked && current then
      let write := reading.writeOf request
      let applied := request == .commit || write.isSome
      let flight := ⟨owned, .answered request onUnknown next (reading.answer request).1, applied⟩
      let draft := if request.endsTransaction then [] else scope.draft ++ write.toList
      let store := if request = .commit then scope.view backend.store else backend.store
      some ({ scope with draft, current := some flight }, { backend with store })
    else none
  | _ => none

/-- A call inside the transaction goes on without a new answer of the store.  A write runs until it
is answered; a transaction whose end fails is gone all the same. -/
def proceed (backend : Backend) (progress : Progress) (scope : OpenScope) :
    Option (OpenScope × Backend) :=
  match scope.current with
  | some flight =>
    match progress, flight.request.row? with
    | .lose _, some _ => none
    | .giveUp, some _ => none
    | _, _ =>
      (flight.stage.proceed scope.coordinator backend progress).map fun (stage, backend) =>
        let ended := progress.fails && flight.request.endsTransaction
        let draft := if ended then [] else scope.draft
        ({ scope with draft, current := some { flight with stage } }, backend)
  | none => none

/-- A call inside the transaction has come to its end; what it leaves is kept for the commit. -/
def finish (scope : OpenScope) : Option OpenScope :=
  match scope.current with
  | some ⟨request, .running (.done ending), _⟩ =>
    if request.endsTransaction then none
    else some { scope with deferred := scope.deferred ++ ending.deferred, current := none }
  | some ⟨request, .abandoned (.done _), _⟩ =>
    if request.endsTransaction then none else some { scope with current := none }
  | _ => none

end OpenScope

/-- One of the parties that share the backend. -/
inductive Party where
  | call (coordinator : Nat) (flight : CoordinatorFlight)
  | scope (scope : OpenScope)

/-- What a party can do. -/
inductive Move where
  | proceed (progress : Progress)
  /-- The store answers a call to a coordinator. -/
  | ask
  /-- The store of a transaction answers a call. -/
  | askWithin (reading : MemoryStore)
  | invoke (request : StoreRequest)
  | finish

namespace Party

/-- The rows that a party keeps others from writing. -/
def rows : Party → List Row
  | call .. => []
  | scope opened => opened.rows

/-- A party makes a move; `locked` are the rows that others have written. -/
def move (locked : List Row) (backend : Backend) : Move → Party → Option (Party × Backend)
  | .proceed progress, call coordinator flight =>
    (flight.stage.proceed coordinator backend progress).map fun (stage, backend) =>
      (call coordinator { flight with stage }, backend)
  | .ask, call coordinator flight =>
    (flight.ask locked backend).map fun (flight, backend) => (call coordinator flight, backend)
  | .proceed progress, scope opened =>
    (opened.proceed backend progress).map fun (opened, backend) => (scope opened, backend)
  | .askWithin reading, scope opened =>
    (opened.ask locked backend reading).map fun (opened, backend) => (scope opened, backend)
  | .invoke request, scope opened =>
    (opened.invoke request).map fun opened => (scope opened, backend)
  | .finish, scope opened => opened.finish.map fun opened => (scope opened, backend)
  | _, _ => none

end Party

/-- The backend and the parties that share it. -/
structure System where
  backend : Backend
  parties : Table Nat Party := ∅

/-- What can happen. -/
inductive Event where
  /-- A call to a coordinator is made. -/
  | start (id coordinator : Nat) (request : StoreRequest)
  /-- A transaction is opened through a coordinator. -/
  | openScope (id coordinator : Nat)
  | move (id : Nat) (move : Move)
  /-- A transaction is dropped between two of its calls. -/
  | discard (id : Nat)

namespace System

/-- A store and an engine that nobody uses yet. -/
def opened (store : MemoryStore) (base : FactBase) : System :=
  { backend := { store, engine := { base } } }

/-- The rows that others than a party keep from being written. -/
def lockedFor (system : System) (id : Nat) : List Row :=
  (system.parties.erase id).values.flatMap Party.rows

/-- A new party comes in. -/
def enter (system : System) (id : Nat) (party : Party) : Option System :=
  match system.parties.get? id with
  | none => some { system with parties := system.parties.insert id party }
  | some _ => none

/-- The system after an event, if the event can happen. -/
def step (system : System) : Event → Option System
  | .start id coordinator request =>
    system.enter id (.call coordinator ⟨request, .running (Coordinator.handle request), false⟩)
  | .openScope id coordinator => system.enter id (.scope { coordinator })
  | .move id move =>
    match system.parties.get? id with
    | some party =>
      (party.move (system.lockedFor id) system.backend move).map fun (party, backend) =>
        { backend, parties := system.parties.insert id party }
    | none => none
  | .discard id =>
    match system.parties.get? id with
    | some (.scope ⟨_, _, _, none⟩) => some { system with parties := system.parties.erase id }
    | _ => none

/-- The system after a list of events, if they can happen one after another. -/
def run (system : System) : List Event → Option System
  | [] => some system
  | event :: rest => (system.step event).bind fun next => next.run rest

end System

end AccessControl
