import AccessControl.Cache.Local
import AccessControl.Proofs.FailureKind
import AccessControl.Proofs.IdentifierReading

/-!
# One resource in many spellings

A request names its resource by a text, and many texts name the same resource.  The text is read
before anything else is done with it, so that a check is decided by the resource: whatever the engine
and the store reply and whatever else goes on, two spellings of one resource lead to the same request
to the store, the same kind of result and the same state.  A text that names no resource is refused
as it was given, and nothing is asked.
-/

namespace AccessControl

namespace Identifier

variable {id other : Identifier} {text : String}

theorem SpelledBy.ofText (h : id.SpelledBy text) : ResourceId.ofText text = .ok ⟨id⟩ :=
  ResourceId.ofText_eq_ok.2 h

/-- A text spells one identifier at most. -/
theorem SpelledBy.unique (h : id.SpelledBy text) (hother : other.SpelledBy text) : id = other := by
  have hsame := h.ofText.symm.trans hother.ofText
  exact congrArg ResourceId.id (Except.ok.inj hsame)

/-- The written form of an identifier spells it. -/
theorem spelledBy_text (id : Identifier) : id.SpelledBy id.text :=
  ⟨[], id.text.toList, [], by simp, .hyphenated rfl, nofun, nofun⟩

end Identifier

/-! ## Surroundings of a call -/

/-- What a call runs in, with states `τ`: how a request to the engine is replied, what a request to
the store is answered if it is answered in time, and what becomes of a count.  Whatever others do
meanwhile is part of the states. -/
structure Surroundings (τ : Type) where
  reply : τ → (request : EngineRequest) → Except EngineError request.Reply × τ
  answer : τ → (request : StoreRequest) → Option request.Answer × τ
  count : τ → Counter → τ

/-- A cache over a store in memory, which answers at once. -/
def LocalCache.surroundings : Surroundings LocalCache where
  reply cache request :=
    let (reply, engine) := cache.engine.answer request
    (reply, { cache with engine })
  answer cache request :=
    let (answer, store) := cache.store.answer request
    (some answer, { cache with store })
  count cache counter := { cache with counters := cache.counters.count counter }

/-- What has come of a call: what it has asked the store and been answered, how it has ended, and the
state that it has left. -/
structure Meeting (α τ : Type) where
  exchanges : List StoreExchange
  ending : α
  left : τ

namespace Call

variable {α β τ : Type} {surroundings : Surroundings τ} {call : Call α} {state : τ}

/-- The state that a call leaves which asks the engine only. -/
def leave (surroundings : Surroundings τ) : Call α → τ → τ
  | done _, state => state
  | engine request next, state =>
    let (reply, left) := surroundings.reply state request
    (next reply).leave surroundings left
  | store _ _ _, state => state
  | count counter rest, state => rest.leave surroundings (surroundings.count state counter)

/-- Runs a call in surroundings of any kind.  A call whose store does not answer in time is given up
and ends with nothing. -/
def meet (surroundings : Surroundings τ) : Call α → τ → Meeting (Option α) τ
  | done result, state => ⟨[], some result, state⟩
  | engine request next, state =>
    let (reply, left) := surroundings.reply state request
    (next reply).meet surroundings left
  | store request onUnknown next, state =>
    match surroundings.answer state request with
    | (some answer, left) =>
      let met := (next answer).meet surroundings left
      { met with exchanges := ⟨request, some answer⟩ :: met.exchanges }
    | (none, left) =>
      ⟨[⟨request, none⟩], none, (EngineUpdate.applyAll onUnknown).leave surroundings left⟩
  | count counter rest, state => rest.meet surroundings (surroundings.count state counter)

/-- A call with its result changed meets with the same. -/
theorem meet_map (f : α → β) : (call.map f).meet surroundings state =
    { call.meet surroundings state with
      ending := (call.meet surroundings state).ending.map f } := by
  induction call generalizing state with
  | done result => rfl
  | engine request next ih => exact ih _
  | store request onUnknown next ih =>
    show (Call.store request onUnknown fun answer => (next answer).map f).meet _ _ = _
    simp only [meet]
    cases surroundings.answer state request with
    | mk answer left =>
      cases answer with
      | none => rfl
      | some answer => simp only [ih]
  | count counter rest ih => exact ih

/-- What a call meets with is one of its runs. -/
theorem runs_meet : call.Runs (call.meet surroundings state).exchanges
    (call.meet surroundings state).ending := by
  induction call generalizing state with
  | done result => exact .done result
  | engine request next ih => exact .engine _ (ih _)
  | store request onUnknown next ih =>
    simp only [meet]
    cases surroundings.answer state request with
    | mk answer left =>
      cases answer with
      | none => exact .late
      | some answer => exact .answered answer (ih answer)
  | count counter rest ih => exact .count ih

/-- Over a store in memory a call comes to its end. -/
theorem meet_local (cache : LocalCache) :
    (call.meet LocalCache.surroundings cache).ending = some (LocalCache.run call cache).1 ∧
      (call.meet LocalCache.surroundings cache).left = (LocalCache.run call cache).2 := by
  induction call generalizing cache with
  | done result => exact ⟨rfl, rfl⟩
  | engine request next ih => exact ih _ _
  | store request onUnknown next ih => exact ih _ _
  | count counter rest ih => exact ih _

end Call

/-- Makes an attempt in surroundings of any kind. -/
def Attempt.meet {α τ : Type} (surroundings : Surroundings τ) (attempt : Attempt α) (state : τ) :
    Meeting α τ :=
  let met := attempt.call.meet surroundings state
  { met with ending := met.ending.getD attempt.onDeadline }

/-- What an attempt meets with is one of the ways in which it can end. -/
theorem Attempt.ends_meet {α τ : Type} {surroundings : Surroundings τ} {attempt : Attempt α}
    {state : τ} : attempt.Ends (attempt.meet surroundings state).exchanges
      (attempt.meet surroundings state).ending :=
  ⟨_, Call.runs_meet, rfl⟩

/-! ## Decisions -/

/-- Why a call of the service has failed, if it has not succeeded. -/
def Outcome.cause? {α : Type} (outcome : Outcome α) : Option ServiceCause :=
  (failure? outcome.result).map ServiceError.cause

namespace Meeting

variable {α τ : Type}

/-- Whether two calls of the service have come to the same: they have asked the store the same, which
has answered the same, they have succeeded both or failed for the same cause, and they have left the
same state. -/
structure Agrees (met other : Meeting (Outcome α) τ) : Prop where
  exchanges : met.exchanges = other.exchanges
  kind : met.ending.kind? = other.ending.kind?
  cause : met.ending.cause? = other.ending.cause?
  left : met.left = other.left

/-- Whether a call of the service has been refused because of a text that is no identifier, before
anything was asked or counted. -/
structure RefusedFor (met : Meeting (Outcome α) τ) (text : String) (state : τ) : Prop where
  exchanges : met.exchanges = []
  kind : met.ending.kind? = some .precondition
  cause : ∃ reason, met.ending.cause? = some (.invalidIdentifier ⟨text, reason⟩)
  left : met.left = state

end Meeting

namespace Service

variable {α β τ : Type} {surroundings : Surroundings τ} {state : τ}

/-- The context of a request is only told with its failure. -/
theorem run_agrees (deadline : Duration) (operation context other : String)
    (call : Call (Except StorageError α)) (report : α → β × List AuditEvent) :
    ((run deadline operation context call report).meet surroundings state).Agrees
      ((run deadline operation other call report).meet surroundings state) := by
  simp only [Attempt.meet, run, Call.meet_map]
  cases (call.meet surroundings state).ending with
  | none => exact ⟨rfl, rfl, rfl, rfl⟩
  | some result => cases result <;> exact ⟨rfl, rfl, rfl, rfl⟩

section Authorize

variable {deadline : Duration} {user : UserId} {resourceType : ResourceType} {action : Action}
  {id : Identifier} {text other : String}

/-- A check of a resource that is spelled goes to the coordinator as a check of the resource. -/
theorem authorize_of_spelled (h : id.SpelledBy text) : ∃ context,
    authorize deadline user resourceType action (some text) =
      run deadline "authorize" context
        (Coordinator.validateAccess ⟨user, ⟨id⟩, resourceType, action⟩) answerOnly := by
  simp only [authorize, h.ofText]
  exact ⟨_, rfl⟩

theorem authorize_agrees (h : id.SpelledBy text) (hother : id.SpelledBy other) :
    ((authorize deadline user resourceType action (some text)).meet surroundings state).Agrees
      ((authorize deadline user resourceType action (some other)).meet surroundings state) := by
  obtain ⟨context, hcheck⟩ := authorize_of_spelled h
  obtain ⟨otherContext, hotherCheck⟩ := authorize_of_spelled hother
  rw [hcheck, hotherCheck]
  exact run_agrees _ _ _ _ _ _

theorem authorize_refused (h : ∀ id : Identifier, ¬id.SpelledBy text) :
    ((authorize deadline user resourceType action (some text)).meet surroundings state).RefusedFor
      text state := by
  rw [authorize]
  cases htext : ResourceId.ofText text with
  | ok resource => exact absurd (ResourceId.ofText_eq_ok.1 htext) (h resource.id)
  | error error =>
    -- the error holds the text as it was given, with its blanks
    obtain ⟨reason, rfl⟩ : ∃ reason, error = ⟨text, reason⟩ := by
      rw [ResourceId.ofText] at htext
      split at htext
      · cases htext
      · exact ⟨_, (Except.error.inj htext).symm⟩
    exact ⟨rfl, rfl, ⟨reason, rfl⟩, rfl⟩

end Authorize

/-- A check is decided by the resource and not by the text that names it.  A text is read as the
resource whose identifier it spells: in one of the four forms, with digits of either case and blanks
around it; the written form of a resource is one of its spellings, and no text spells two
identifiers.  Whatever surroundings a check meets with and in whatever state they are, two spellings of
one resource come to the same, and a text that spells none is refused as it was given. -/
theorem authorize_by_resource :
    (∀ text (resource : ResourceId),
      ResourceId.ofText text = .ok resource ↔ resource.id.SpelledBy text) ∧
    (∀ resource : ResourceId, ResourceId.ofText resource.text = .ok resource) ∧
    (∀ text (id other : Identifier), id.SpelledBy text → other.SpelledBy text → id = other) ∧
    (∀ (τ : Type) (surroundings : Surroundings τ) state deadline user resourceType action
      (id : Identifier) text other, id.SpelledBy text → id.SpelledBy other →
        ((authorize deadline user resourceType action (some text)).meet surroundings state).Agrees
          ((authorize deadline user resourceType action (some other)).meet surroundings state)) ∧
    ∀ (τ : Type) (surroundings : Surroundings τ) state deadline user resourceType action text,
      (∀ id : Identifier, ¬id.SpelledBy text) →
        ((authorize deadline user resourceType action (some text)).meet surroundings
          state).RefusedFor text state := by
  refine ⟨fun _ _ => ResourceId.ofText_eq_ok, fun resource => ?_,
    fun _ _ _ => Identifier.SpelledBy.unique, ?_, ?_⟩
  · exact resource.id.spelledBy_text.ofText
  · intro τ surroundings state deadline user resourceType action id text other h hother
    exact authorize_agrees h hother
  · intro τ surroundings state deadline user resourceType action text h
    exact authorize_refused h

/-- A name in capitals between blanks and bare digits come to the same in an empty cache, and a
text with a missing digit is refused with its blanks. -/
theorem authorize_spelled_twice :
    let id := Identifier.ofNat 0xabcdef
    let named := "\t urn:uuid:00000000-0000-0000-0000-000000ABCDEF\n"
    let bare := "00000000000000000000000000abcdef"
    let short := " 0000000000000000000000000abcdef"
    (id.SpelledBy named ∧ id.SpelledBy bare ∧ ∀ other : Identifier, ¬other.SpelledBy short) ∧
      ∀ user : UserId,
        ((authorize defaultDeadline user .page .get (some named)).meet LocalCache.surroundings
          {}).Agrees
          ((authorize defaultDeadline user .page .get (some bare)).meet LocalCache.surroundings {}) ∧
        ((authorize defaultDeadline user .page .get (some short)).meet LocalCache.surroundings
          {}).RefusedFor short {} := by
  intro id named bare short
  have hreads : ResourceId.ofText named = .ok ⟨id⟩ ∧ ResourceId.ofText bare = .ok ⟨id⟩ := by
    decide +kernel
  have hnamed : id.SpelledBy named := ResourceId.ofText_eq_ok.1 hreads.1
  have hbare : id.SpelledBy bare := ResourceId.ofText_eq_ok.1 hreads.2
  have hshort : ∀ other : Identifier, ¬other.SpelledBy short := by
    intro other h
    have hread : (ResourceId.ofText short).isOk = true := by rw [h.ofText]; rfl
    revert hread
    decide +kernel
  obtain ⟨-, -, -, hagrees, hrefused⟩ := authorize_by_resource
  exact ⟨⟨hnamed, hbare, hshort⟩, fun user =>
    ⟨hagrees _ _ _ _ _ _ _ id _ _ hnamed hbare, hrefused _ _ _ _ _ _ _ _ hshort⟩⟩

end Service

end AccessControl
