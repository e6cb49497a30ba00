import AccessControl.Cache.Counters
import AccessControl.Cache.EngineUpdate
import AccessControl.Store.Request

/-!
# Calls and their steps

A call is a program whose steps can be told apart: a request to the engine, a request to the store,
or the count of an event.  Between two steps of one call any step of another call may come.  A call
waits only at its request to the store, and there it can be given up; what it then still does to the
engine is carried by the request.
-/

namespace AccessControl

/-- What is left of a call that ends with an `α`. -/
inductive Call (α : Type) : Type where
  | done (result : α)
  | engine (request : EngineRequest) (next : Except EngineError request.Reply → Call α)
  /-- A request to the store; `onUnknown` is applied if the call is given up while it waits. -/
  | store (request : StoreRequest) (onUnknown : List EngineUpdate) (next : request.Answer → Call α)
  | count (counter : Counter) (next : Call α)

namespace Call

variable {α β : Type}

/-- Does the second call with the result of the first. -/
def bind : Call α → (α → Call β) → Call β
  | done result, next => next result
  | engine request continue_, next => engine request fun reply => (continue_ reply).bind next
  | store request onUnknown continue_, next =>
    store request onUnknown fun answer => (continue_ answer).bind next
  | count counter rest, next => count counter (rest.bind next)

/-- The call with its result changed by a function. -/
def map (f : α → β) (call : Call α) : Call β := call.bind fun result => done (f result)

instance : Monad Call where
  pure := done
  bind := bind

@[simp] theorem pure_eq (result : α) : (pure result : Call α) = done result := rfl

@[simp] theorem bind_eq (call : Call α) (next : α → Call β) : call >>= next = call.bind next := rfl

@[simp] theorem done_bind (result : α) (next : α → Call β) :
    (done result).bind next = next result :=
  rfl

@[simp] theorem engine_bind (request : EngineRequest)
    (continue_ : Except EngineError request.Reply → Call α) (next : α → Call β) :
    (engine request continue_).bind next =
      engine request fun reply => (continue_ reply).bind next := rfl

@[simp] theorem store_bind (request : StoreRequest) (onUnknown : List EngineUpdate)
    (continue_ : request.Answer → Call α) (next : α → Call β) :
    (store request onUnknown continue_).bind next =
      store request onUnknown fun answer => (continue_ answer).bind next := rfl

@[simp] theorem count_bind (counter : Counter) (rest : Call α) (next : α → Call β) :
    (count counter rest).bind next = count counter (rest.bind next) := rfl

theorem bind_assoc {γ : Type} (call : Call α) (f : α → Call β) (g : β → Call γ) :
    (call.bind f).bind g = call.bind fun result => (f result).bind g := by
  induction call with
  | done => rfl
  | engine request next ih => simp [ih]
  | store request onUnknown next ih => simp [ih]
  | count counter rest ih => simp [ih]

theorem bind_done (call : Call α) : call.bind done = call := by
  induction call with
  | done => rfl
  | engine request next ih => simp [ih]
  | store request onUnknown next ih => simp [ih]
  | count counter rest ih => simp [ih]

/-- Asks the engine and goes on with its reply, or ends with its error. -/
def ask (request : EngineRequest) (next : request.Reply → Call (Except EngineError α)) :
    Call (Except EngineError α) :=
  engine request fun
    | .ok reply => next reply
    | .error error => done (.error error)

end Call

namespace EngineUpdate

/-- Adds the facts of a list of actions, up to the first that is refused. -/
def addFacts (subject : UserId) (object : PolicyObject) (seen : FactVersion) :
    List Action → Call (Except EngineError Unit)
  | [] => .done (.ok ())
  | action :: rest =>
    .ask (.addFactIfCurrent subject object action seen) fun added =>
      if added then addFacts subject object seen rest else .done (.ok ())

/-- Evicts the pairs of a subject with a list of resource types. -/
def dropTypeFacts (subject : UserId) : List ResourceType → Call (Except EngineError Unit)
  | [] => .done (.ok ())
  | resourceType :: rest =>
    .ask (.removeFacts subject (.type resourceType)) fun _ => dropTypeFacts subject rest

/-- Moves a subject to a role only if that takes privilege away, and drops what was known because of
the earlier role. -/
def demotion (subject : UserId) (role : Role) : Call (Except EngineError Unit) :=
  if role.isAdministrative then dropTypeFacts subject ResourceType.all
  else .ask (.setRole subject role) fun _ => dropTypeFacts subject ResourceType.all

/-- The steps of an update.  It ends at the first request that the engine does not answer. -/
def apply : EngineUpdate → Call (Except EngineError Unit)
  | grant subject object actions seen => addFacts subject object seen actions.toList
  | replace subject object actions seen =>
    .ask (.replaceFactsIfCurrent subject object actions seen) fun replaced =>
      if replaced then .done (.ok ())
      else .ask (.removeFacts subject object) fun _ => .done (.ok ())
  | remove subject object => .ask (.removeFacts subject object) fun _ => .done (.ok ())
  | assignRole subject role seen =>
    .ask (.setRoleIfCurrent subject role seen) fun recorded =>
      if recorded then dropTypeFacts subject ResourceType.all else demotion subject role
  | demote subject role => demotion subject role
  | clearObject object => .ask (.clearObject object) fun _ => .done (.ok ())

/-- Makes the updates in order; one that the engine does not answer is left where it stands. -/
def applyAll : List EngineUpdate → Call Unit
  | [] => .done ()
  | update :: rest => update.apply.bind fun _ => applyAll rest

/-- What to do instead of a list of updates when it is not known whether the write was made. -/
def onUnknownAll (updates : List EngineUpdate) : List EngineUpdate :=
  updates.filterMap onUnknown

end EngineUpdate

namespace Call

/-- What is left of a call that is given up where it stands. -/
def abandon {α : Type} : Call α → Call Unit
  | store _ onUnknown _ => EngineUpdate.applyAll onUnknown
  | _ => done ()

end Call

end AccessControl
