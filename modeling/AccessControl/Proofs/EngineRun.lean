import AccessControl.Proofs.CheckAnswer

/-!
# Operations of the engine one after another

Whoever uses the engine makes one request at a time, or hands over a list of roles to be recorded,
which is one request for each of them.  An engine that works answers every request.  What it goes
through in a run of operations is told by the requests and by its replies.
-/

namespace AccessControl

/-- What can be done with the engine. -/
inductive EngineOperation where
  | ask (request : EngineRequest)
  | loadRoles (roles : List (UserId × Role))
  deriving DecidableEq, Repr

/-- The requests that an operation makes. -/
def EngineOperation.requests : EngineOperation → List EngineRequest
  | ask request => [request]
  | loadRoles roles => roles.map fun row => .setRole row.1 row.2

/-- A request that the engine has answered. -/
structure EngineEvent where
  request : EngineRequest
  reply : request.Reply

namespace FactBase

/-- The fact base after requests that are made one after another. -/
def afterAll (base : FactBase) (requests : List EngineRequest) : FactBase :=
  requests.foldl (fun base request => (base.answer request).2) base

/-- Requests that are made one after another, each with its reply. -/
def events (base : FactBase) : List EngineRequest → List EngineEvent
  | [] => []
  | request :: rest =>
    ⟨request, (base.answer request).1⟩ :: (base.answer request).2.events rest

variable {base : FactBase}

theorem afterAll_cons (request : EngineRequest) (rest : List EngineRequest) :
    base.afterAll (request :: rest) = (base.answer request).2.afterAll rest := rfl

theorem afterAll_append (left right : List EngineRequest) :
    base.afterAll (left ++ right) = (base.afterAll left).afterAll right :=
  List.foldl_append

theorem events_append (left right : List EngineRequest) :
    base.events (left ++ right) = base.events left ++ (base.afterAll left).events right := by
  induction left generalizing base with
  | nil => rfl
  | cons request rest ih =>
    rw [List.cons_append, events, ih]
    rfl

end FactBase

namespace Engine

/-- The engine after an operation. -/
def perform (engine : Engine) : EngineOperation → Engine
  | .ask request => (engine.answer request).2
  | .loadRoles roles => (engine.loadRoles roles 0).2

/-- The engine after operations that are made one after another. -/
def performAll (engine : Engine) (operations : List EngineOperation) : Engine :=
  operations.foldl perform engine

/-- The requests that the operations make of an engine that works, each with its reply. -/
def events (engine : Engine) (operations : List EngineOperation) : List EngineEvent :=
  engine.base.events (operations.flatMap EngineOperation.requests)

variable {engine : Engine}

theorem answer_of_works (h : engine.poisoned = false) (request : EngineRequest) :
    engine.answer request = (.ok (engine.base.answer request).1,
      { engine with base := (engine.base.answer request).2 }) := by
  simp [answer, h]

/-- An engine that works records every role of a list. -/
theorem loadRoles_of_works (h : engine.poisoned = false) (roles : List (UserId × Role))
    (loaded : Nat) : engine.loadRoles roles loaded = (.ok (loaded + roles.length),
      { engine with
        base := engine.base.afterAll (EngineOperation.loadRoles roles).requests }) := by
  induction roles generalizing engine loaded with
  | nil => rfl
  | cons row rest ih =>
    obtain ⟨subject, role⟩ := row
    rw [loadRoles, answer_of_works h]
    have hlength : loaded + ((subject, role) :: rest).length = loaded + 1 + rest.length := by
      simp only [List.length_cons]
      omega
    rw [hlength]
    have hnext : { engine with base := engine.base.setRole subject role }.poisoned = false := h
    exact ih hnext (loaded + 1)

theorem perform_of_works (h : engine.poisoned = false) (operation : EngineOperation) :
    engine.perform operation =
      { engine with base := engine.base.afterAll operation.requests } := by
  cases operation with
  | ask request =>
    rw [perform, answer_of_works h]
    rfl
  | loadRoles roles => rw [perform, loadRoles_of_works h]

/-- A run of operations of an engine that works is a run of the requests that they make. -/
theorem performAll_of_works (h : engine.poisoned = false) (operations : List EngineOperation) :
    engine.performAll operations = { engine with
      base := engine.base.afterAll (operations.flatMap EngineOperation.requests) } := by
  induction operations generalizing engine with
  | nil => rfl
  | cons operation rest ih =>
    have hfirst := perform_of_works h operation
    have hworks : (engine.perform operation).poisoned = false := by
      rw [hfirst]
      exact h
    have hrest : engine.performAll (operation :: rest) =
      (engine.perform operation).performAll rest := rfl
    rw [hrest, ih hworks, hfirst, List.flatMap_cons, FactBase.afterAll_append]

end Engine

end AccessControl
