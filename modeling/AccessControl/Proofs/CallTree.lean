import AccessControl.Proofs.Interleaving

/-!
# What a call may still do to a privilege

The properties of this module are about all the ways in which a call can go on, whatever the engine
replies: which requests it may make, which request it cannot end without, and where it may come to
wait.  The engine is taken to reply; a call that goes on after an engine failure is not followed.
-/

namespace AccessControl

namespace Call

variable {α β : Type}

/-- Every request that the call may still make has the property, and the store is not asked. -/
def All (property : EngineRequest → Prop) : Call α → Prop
  | done _ => True
  | engine request next => property request ∧ ∀ reply, (next (.ok reply)).All property
  | store .. => False
  | count _ next => next.All property

/-- The call does not end before a request and its reply have the property. -/
def Always (property : (request : EngineRequest) → request.Reply → Prop) : Call α → Prop
  | done _ => False
  | engine request next => ∀ reply, property request reply ∨ (next (.ok reply)).Always property
  | store .. => False
  | count _ next => next.Always property

/-- The call ends with a result that has the property, and the store is not asked. -/
def Ends (property : α → Prop) : Call α → Prop
  | done result => property result
  | engine _ next => ∀ reply, (next (.ok reply)).Ends property
  | store .. => False
  | count _ next => next.Ends property

/-- The call does not give the privilege before it ends or asks the store.  How it then goes on has
to fit the versions that the engine has shown it: those of `seen`, and those of later replies. -/
def Until (privilege : Privilege)
    (atStore : (FactVersion → Prop) → (request : StoreRequest) → List EngineUpdate →
      (request.Answer → Call α) → Prop)
    (atEnd : (FactVersion → Prop) → α → Prop) : (FactVersion → Prop) → Call α → Prop
  | seen, done result => atEnd seen result
  | seen, engine request next =>
    request.Modest privilege ∧ ∀ reply,
      (next (.ok reply)).Until privilege atStore atEnd
        fun version => seen version ∨ request.Reveals privilege version reply
  | seen, store request onUnknown next => atStore seen request onUnknown next
  | seen, count _ next => next.Until privilege atStore atEnd seen

variable {property property' : EngineRequest → Prop} {call : Call α} {next : α → Call β}
  {effect : (request : EngineRequest) → request.Reply → Prop}

theorem All.imp (h : call.All property) (himp : ∀ request, property request → property' request) :
    call.All property' := by
  induction call with
  | done => trivial
  | engine request next ih => exact ⟨himp request h.1, fun reply => ih _ (h.2 reply)⟩
  | store => exact h
  | count counter next ih => exact ih h

/-- A call that gives nothing gives nothing that is not allowed. -/
theorem All.of_modest {privilege : Privilege} {allowed : FactVersion → Prop}
    (h : call.All (EngineRequest.Modest privilege)) :
    call.All (EngineRequest.OffersOnly privilege allowed) :=
  h.imp fun _ hrequest => hrequest.imp fun _ => False.elim

theorem All.bind (h : call.All property) (hnext : ∀ result, (next result).All property) :
    (call.bind next).All property := by
  induction call with
  | done result => exact hnext result
  | engine request rest ih => exact ⟨h.1, fun reply => ih _ (h.2 reply)⟩
  | store => exact False.elim h
  | count counter rest ih => exact ih h

theorem Always.bind_left (h : call.Always effect) : (call.bind next).Always effect := by
  induction call with
  | done => exact False.elim h
  | engine request rest ih => exact fun reply => (h reply).imp_right (ih _)
  | store => exact False.elim h
  | count counter rest ih => exact ih h

theorem All.ends_bind {result : β → Prop} (h : call.All property)
    (hnext : ∀ value, (next value).Ends result) : (call.bind next).Ends result := by
  induction call with
  | done value => exact hnext value
  | engine request rest ih => exact fun reply => ih _ (h.2 reply)
  | store => exact False.elim h
  | count counter rest ih => exact ih h

theorem All.until_bind {privilege : Privilege} {atStore} {atEnd : (FactVersion → Prop) → β → Prop}
    {seen : FactVersion → Prop} (h : call.All (EngineRequest.Modest privilege))
    (hnext : ∀ result shown, (next result).Until privilege atStore atEnd shown) :
    (call.bind next).Until privilege atStore atEnd seen := by
  induction call generalizing seen with
  | done result => exact hnext result seen
  | engine request rest ih => exact ⟨h.1, fun reply => ih _ (h.2 reply)⟩
  | store => exact False.elim h
  | count counter rest ih => exact ih h

theorem All.always_bind (h : call.All property) (hnext : ∀ result, (next result).Always effect) :
    (call.bind next).Always effect := by
  induction call with
  | done result => exact hnext result
  | engine request rest ih => exact fun reply => .inr (ih _ (h.2 reply))
  | store => exact False.elim h
  | count counter rest ih => exact ih h

end Call

namespace Stage

variable {α : Type}

/-- However the call goes on from where it stands, what is left of it has the property. -/
def Every (property : {β : Type} → Call β → Prop) : Stage α → Prop
  | running rest => property rest
  | answered _ onUnknown next answer =>
    property (next answer) ∧ (∀ reason, property (next (.error (.internal reason)))) ∧
      property (EngineUpdate.applyAll onUnknown)
  | abandoned rest => property rest

theorem Every.imp {property property' : {β : Type} → Call β → Prop} {stage : Stage α}
    (h : stage.Every property)
    (himp : ∀ {β : Type} (call : Call β), property call → property' call) :
    stage.Every property' := by
  cases stage with
  | running rest => exact himp rest h
  | answered request onUnknown next answer =>
    exact ⟨himp _ h.1, fun reason => himp _ (h.2.1 reason), himp _ h.2.2⟩
  | abandoned rest => exact himp rest h

end Stage

end AccessControl
