import AccessControl.Proofs.CacheSoundness
import AccessControl.Proofs.VersionSnapshot

/-!
# What a check does to the engine

A check looks at the engine, and only if the store has said yes does it write there: one guarded
insertion of the fact that it was asked about.  This is shown for a check beside anybody, so that
each of its requests may find the engine in any state, its store may answer anything, and it may
stop or be given up wherever it waits.  If nobody comes between, a yes of the store makes the next
check of the same fact a hit, and a denied check goes to the store again.
-/

namespace AccessControl

/-! ## What a call does -/

/-- One thing that a call does to what it shares with others. -/
inductive Deed where
  /-- It makes a request to the engine, in the state in which others have left it. -/
  | asked (engine : Engine) (request : EngineRequest)
  /-- Its request to the store has been answered. -/
  | told (request : StoreRequest) (answer : request.Answer)
  /-- It is given up while it waits for its store. -/
  | dropped

namespace Deed

/-- Whether the engine is afterwards as it was before. -/
def Spares : Deed → Prop
  | asked engine request => (engine.answer request).2 = engine
  | _ => True

/-- Whether it only looks at the engine. -/
def Looks : Deed → Prop
  | asked _ request => request.Observes
  | _ => False

/-- The request to the store that was answered. -/
def request? : Deed → Option StoreRequest
  | told request _ => some request
  | _ => none

theorem Looks.spares {deed : Deed} (h : deed.Looks) : deed.Spares := by
  cases deed with
  | asked engine request => exact Engine.answer_of_observes h
  | told => exact False.elim h
  | dropped => exact False.elim h

end Deed

/-- What a call may do from its beginning on, whatever others do between its steps, and the result
with which it has ended.  There is none if it has not come to its end, or was given up. -/
inductive Call.Acts : {α : Type} → Call α → List Deed → Option α → Prop
  | stop {α : Type} (call : Call α) : Acts call [] none
  | done {α : Type} (result : α) : Acts (.done result) [] (some result)
  | ask {α : Type} {request : EngineRequest} {next : Except EngineError request.Reply → Call α}
      {deeds : List Deed} {ending : Option α} (engine : Engine)
      (h : Acts (next (engine.answer request).1) deeds ending) :
      Acts (.engine request next) (.asked engine request :: deeds) ending
  | hear {α : Type} {request : StoreRequest} {onUnknown : List EngineUpdate}
      {next : request.Answer → Call α} {deeds : List Deed} {ending : Option α}
      (answer : request.Answer) (h : Acts (next answer) deeds ending) :
      Acts (.store request onUnknown next) (.told request answer :: deeds) ending
  | giveUp {α : Type} {request : StoreRequest} {onUnknown : List EngineUpdate}
      {next : request.Answer → Call α} {deeds : List Deed} {ending : Option Unit}
      (h : Acts (EngineUpdate.applyAll onUnknown) deeds ending) :
      Acts (.store request onUnknown next) (.dropped :: deeds) none
  | count {α : Type} {counter : Counter} {rest : Call α} {deeds : List Deed} {ending : Option α}
      (h : Acts rest deeds ending) : Acts (.count counter rest) deeds ending

/-! ## Checks -/

/-- A check of one resource, or of every resource of a type. -/
inductive AccessCheck where
  | ofResource (check : InstanceCheck)
  | ofType (check : TypeCheck)
  deriving DecidableEq

namespace AccessCheck

/-- What the store is asked. -/
def request : AccessCheck → StoreRequest
  | ofResource check => .validateAccess check
  | ofType check => .validateAccessToType check

def subject : AccessCheck → UserId
  | ofResource check => check.user
  | ofType check => check.user

/-- The object whose fact the check may learn. -/
def object : AccessCheck → PolicyObject
  | ofResource check => .resource check.resource
  | ofType check => .type check.resourceType

def action : AccessCheck → Action
  | ofResource check => check.action
  | ofType check => check.action

/-- The check as a call to a coordinator. -/
def call : AccessCheck → Call (Except StorageError Unit)
  | ofResource check => Coordinator.validateAccess check
  | ofType check => Coordinator.validateAccessToType check

/-- The request by which a check takes its snapshot. -/
abbrev snapshot (check : AccessCheck) : EngineRequest := .version check.subject check.object

/-- The request by which a check writes down its fact, guarded by a snapshot. -/
abbrev insertion (check : AccessCheck) (seen : FactVersion) : EngineRequest :=
  .addFactIfCurrent check.subject check.object check.action seen

/-- How a check goes on when the store has answered. -/
structure Heeds (check : AccessCheck)
    (answered : Except EngineError FactVersion → check.request.Answer →
      Call (Except StorageError Unit)) : Prop where
  denied : ∀ seen error, answered seen (.error error) = .done (.error error)
  allowed : ∀ seen reply, answered seen (.ok reply) =
    Coordinator.repair check.subject check.object check.action seen

/-- The engine is asked about some object, and passes the check or leaves it to the rest. -/
def first (check : AccessCheck) (object : PolicyObject) (rest : Call (Except StorageError Unit)) :
    Call (Except StorageError Unit) :=
  .engine (.check check.subject object check.action) fun passed =>
    if Coordinator.allows passed then Coordinator.hit else rest

/-- The store is asked, after a snapshot of the pair. -/
def miss (check : AccessCheck)
    (answered : Except EngineError FactVersion → check.request.Answer →
      Call (Except StorageError Unit)) : Call (Except StorageError Unit) :=
  .count .misses (.engine check.snapshot fun seen => .store check.request [] (answered seen))

/-- A check asks the engine about its own object, and then perhaps about another, before it asks the
store. -/
theorem call_eq (check : AccessCheck) : ∃ answered rest, check.Heeds answered ∧
    check.call = check.first check.object rest ∧
    (rest = check.miss answered ∨ ∃ other, rest = check.first other (check.miss answered)) := by
  cases check with
  | ofResource check =>
    refine ⟨_, _, ?_, rfl, .inr ⟨.type check.resourceType, rfl⟩⟩
    exact ⟨fun _ _ => rfl, fun _ _ => rfl⟩
  | ofType check =>
    refine ⟨_, _, ?_, rfl, .inl rfl⟩
    exact ⟨fun _ _ => rfl, fun _ _ => rfl⟩

/-- What holds of the store's part of a check, and is kept by a question to the engine before it,
holds of the whole check. -/
theorem call_induction {check : AccessCheck} {motive : Call (Except StorageError Unit) → Prop}
    (hmiss : ∀ answered, check.Heeds answered → motive (check.miss answered))
    (hfirst : ∀ object rest, motive rest → motive (check.first object rest)) :
    motive check.call := by
  obtain ⟨answered, rest, hheeds, hcall, hrest⟩ := check.call_eq
  have hlast : motive (check.miss answered) := hmiss answered hheeds
  rw [hcall]
  refine hfirst _ _ ?_
  rcases hrest with rfl | ⟨other, rfl⟩
  · exact hlast
  · exact hfirst other _ hlast

/-! ## A check beside anybody -/

/-- What a check has done: it has left the engine alone, or it has looked at it, then taken its
snapshot, then heard a yes of the store, and at last made its insertion. -/
inductive Effect (check : AccessCheck) :
    List Deed → Option (Except StorageError Unit) → Prop
  | spared {deeds : List Deed} {ending : Option (Except StorageError Unit)}
      (h : ∀ deed ∈ deeds, deed.Spares) : Effect check deeds ending
  | repaired {before : List Deed} {ending : Option (Except StorageError Unit)}
      (found engine : Engine) (reply : check.request.Reply)
      (hlooks : ∀ deed ∈ before, deed.Looks) (hworks : found.poisoned = false)
      (hending : ending = none ∨ ending = some (.ok ())) :
      Effect check (before ++ [.asked found check.snapshot, .told check.request (.ok reply),
        .asked engine (check.insertion (found.base.version check.subject check.object))]) ending

variable {check : AccessCheck} {deeds : List Deed} {ending : Option (Except StorageError Unit)}

theorem Effect.nil : check.Effect [] ending := .spared fun _ hmem => by cases hmem

/-- A check that has not been told yes has left the engine alone. -/
theorem Effect.spares (h : check.Effect deeds ending)
    (hno : ∀ reply, .told check.request (.ok reply) ∉ deeds) : ∀ deed ∈ deeds, deed.Spares := by
  cases h with
  | spared hspares => exact hspares
  | repaired found engine reply => exact absurd (by simp) (hno reply)

/-- A check that ends with an error has left the engine alone. -/
theorem Effect.spares_of_error {error : StorageError}
    (h : check.Effect deeds (some (.error error))) : ∀ deed ∈ deeds, deed.Spares := by
  cases h with
  | spared hspares => exact hspares
  | repaired _ _ _ _ _ hending => simp at hending

/-- A check that is given up has left the engine alone. -/
theorem Effect.spares_of_dropped (h : check.Effect deeds ending) (hdropped : .dropped ∈ deeds) :
    ∀ deed ∈ deeds, deed.Spares := by
  cases h with
  | spared hspares => exact hspares
  | repaired found engine reply hlooks =>
    have hbefore : Deed.dropped ∈ _ := (List.mem_append.1 hdropped).resolve_right (by simp)
    exact False.elim (hlooks _ hbefore)

/-- To have looked at the engine before changes nothing. -/
theorem Effect.cons {deed : Deed} (hdeed : deed.Looks) (h : check.Effect deeds ending) :
    check.Effect (deed :: deeds) ending := by
  cases h with
  | spared hspares => exact .spared (List.forall_mem_cons.2 ⟨hdeed.spares, hspares⟩)
  | repaired found engine reply hlooks hworks hending =>
    have hall : ∀ looked ∈ deed :: _, looked.Looks := List.forall_mem_cons.2 ⟨hdeed, hlooks⟩
    exact .repaired found engine reply hall hworks hending

theorem acts_hit (h : Coordinator.hit.Acts deeds ending) : deeds = [] := by
  cases h with
  | stop => rfl
  | count hrest => cases hrest <;> rfl

theorem acts_count {α : Type} {counter : Counter} {result : α} {ended : Option α}
    (h : (Call.count counter (.done result)).Acts deeds ended) :
    deeds = [] ∧ (ended = none ∨ ended = some result) := by
  cases h with
  | stop => exact ⟨rfl, .inl rfl⟩
  | count hrest =>
    cases hrest with
    | stop => exact ⟨rfl, .inl rfl⟩
    | done => exact ⟨rfl, .inr rfl⟩

/-- A repair makes one insertion at most, and does not end with an error. -/
theorem acts_repair {seen : Except EngineError FactVersion}
    (h : (Coordinator.repair check.subject check.object check.action seen).Acts deeds ending) :
    deeds = [] ∨ (ending = none ∨ ending = some (.ok ())) ∧
      ∃ version engine, seen = .ok version ∧ deeds = [.asked engine (check.insertion version)] := by
  cases seen with
  | error error => exact .inl (acts_count h).1
  | ok version =>
    cases h with
    | stop => exact .inl rfl
    | ask engine hrest =>
      refine .inr ?_
      dsimp only at hrest
      split at hrest
      all_goals
        obtain ⟨rfl, hending⟩ := acts_count hrest
        exact ⟨hending, version, engine, rfl, rfl⟩

theorem acts_miss {answered} (hheeds : check.Heeds answered)
    (h : (check.miss answered).Acts deeds ending) : check.Effect deeds ending := by
  cases h with
  | stop => exact .nil
  | count h =>
  cases h with
  | stop => exact .nil
  | ask found h =>
  have hlooks : (Deed.asked found check.snapshot).Looks := trivial
  cases h with
  | stop => exact Effect.nil.cons hlooks
  | giveUp h =>
    -- a check leaves nothing to be done for the case that its answer is not heard
    cases h <;> exact Effect.cons hlooks (.spared (by simp [Deed.Spares]))
  | hear answer h =>
    cases answer with
    | error error =>
      rw [hheeds.denied] at h
      cases h <;> exact Effect.cons hlooks (.spared (by simp [Deed.Spares]))
    | ok reply =>
      rw [hheeds.allowed] at h
      rcases acts_repair h with rfl | ⟨hending, version, engine, hseen, rfl⟩
      · exact Effect.cons hlooks (.spared (by simp [Deed.Spares]))
      · have hworks : found.poisoned = false := Engine.works_of_answer hseen
        obtain rfl : found.base.version check.subject check.object = version :=
          (Engine.answer_version_iff hworks).1 hseen
        have heffect : check.Effect ([] ++ _) ending :=
          .repaired found engine reply nofun hworks hending
        exact heffect

theorem acts_first {object : PolicyObject} {rest : Call (Except StorageError Unit)}
    (hrest : ∀ {deeds}, rest.Acts deeds ending → check.Effect deeds ending)
    (h : (check.first object rest).Acts deeds ending) : check.Effect deeds ending := by
  cases h with
  | stop => exact .nil
  | ask engine h =>
    refine Effect.cons trivial ?_
    dsimp only at h
    split at h
    case isTrue =>
      rw [acts_hit h]
      exact .nil
    case isFalse => exact hrest h

/-- Whatever comes between the steps of a check, it has made no more than its one insertion. -/
theorem acts_call (h : check.call.Acts deeds ending) : check.Effect deeds ending := by
  have hcall : ∀ deeds, check.call.Acts deeds ending → check.Effect deeds ending :=
    call_induction (motive := fun call => ∀ deeds, call.Acts deeds ending →
        check.Effect deeds ending) (fun _ hheeds _ => acts_miss hheeds)
      fun _ _ hrest _ => acts_first (hrest _)
  exact hcall deeds h

end AccessCheck

/-! ## A check beside nobody -/

/-- What a store answers to each request. -/
abbrev Oracle : Type := (request : StoreRequest) → request.Answer

/-- A call that has come to its end. -/
structure Course (α : Type) where
  deeds : List Deed
  result : α
  /-- The engine afterwards. -/
  engine : Engine

namespace Course

variable {α : Type}

/-- The course with one deed before it. -/
def after (deed : Deed) (course : Course α) : Course α :=
  { course with deeds := deed :: course.deeds }

/-- The requests to the store, in order. -/
def requests (course : Course α) : List StoreRequest := course.deeds.filterMap Deed.request?

end Course

namespace Call

variable {α : Type}

/-- Runs a call to its end while nobody else uses the engine. -/
def alone (oracle : Oracle) : Call α → Engine → Course α
  | done result, found => ⟨[], result, found⟩
  | engine request next, found =>
    let (reply, left) := found.answer request
    ((next reply).alone oracle left).after (.asked found request)
  | store request _ next, found =>
    ((next (oracle request)).alone oracle found).after (.told request (oracle request))
  | count _ next, found => next.alone oracle found

/-- Runs a call again and again, each time over the engine that the last time has left. -/
def repeated (call : Call α) : List Oracle → Engine → List (Course α)
  | [], _ => []
  | oracle :: rest, found =>
    let course := call.alone oracle found
    course :: call.repeated rest course.engine

/-- What a call does alone is one of the things that it may do beside others. -/
theorem acts_alone (oracle : Oracle) (call : Call α) (engine : Engine) :
    call.Acts (call.alone oracle engine).deeds (some (call.alone oracle engine).result) := by
  induction call generalizing engine with
  | done result => exact .done result
  | engine request next ih => exact .ask engine (ih _ _)
  | store request onUnknown next ih => exact .hear (oracle request) (ih _ _)
  | count counter next ih => exact .count (ih engine)

/-- A call that has spared the engine each time leaves it as it was. -/
theorem alone_engine {oracle : Oracle} {call : Call α} {engine : Engine}
    (h : ∀ deed ∈ (call.alone oracle engine).deeds, deed.Spares) :
    (call.alone oracle engine).engine = engine := by
  induction call generalizing engine with
  | done result => rfl
  | engine request next ih =>
    obtain ⟨hfirst, hrest⟩ := List.forall_mem_cons.1 h
    have hsame : (engine.answer request).2 = engine := hfirst
    have hnext := ih _ hrest
    exact hnext.trans hsame
  | store request onUnknown next ih => exact ih _ (List.forall_mem_cons.1 h).2
  | count counter next ih => exact ih h

end Call

namespace AccessCheck

variable {check : AccessCheck} {oracle : Oracle} {engine : Engine}

/-- The engine passes the check, so that the store is not asked. -/
structure IsHit (engine : Engine) (course : Course (Except StorageError Unit)) : Prop where
  requests : course.requests = []
  result : course.result = .ok ()
  engine : course.engine = engine

/-- The store is asked for what the check asks for.  If it says yes, the fact is added. -/
structure IsMiss (check : AccessCheck) (oracle : Oracle) (engine : Engine)
    (course : Course (Except StorageError Unit)) : Prop where
  requests : course.requests = [check.request]
  denied : ∀ error, oracle check.request = .error error → course.result = .error error
  learned : ∀ reply, oracle check.request = .ok reply → engine.poisoned = false →
    course.engine.passes check.subject check.object check.action = true

theorem alone_first {object : PolicyObject} {rest : Call (Except StorageError Unit)} :
    (check.first object rest).alone oracle engine =
      ((if engine.passes check.subject object check.action then Coordinator.hit
        else rest).alone oracle engine).after
        (.asked engine (.check check.subject object check.action)) := by
  have hengine : (engine.answer (.check check.subject object check.action)).2 = engine :=
    Engine.answer_of_observes trivial
  simp only [first, Call.alone, hengine]
  rfl

/-- A fact that has just been added under the present version passes its check. -/
theorem passes_of_insertion (h : engine.poisoned = false) :
    (engine.answer (check.insertion (engine.base.version check.subject check.object))).2.passes
      check.subject check.object check.action = true := by
  have hadded : engine.base.answer
      (check.insertion (engine.base.version check.subject check.object)) =
        (true, engine.base.addFact check.subject check.object check.action) := if_pos rfl
  rw [Engine.passes_iff, Engine.answer_poisoned, Engine.answer_base h, hadded]
  exact ⟨h, .inr (FactBase.holds_addFact.2 (.inl rfl))⟩

theorem isMiss_miss {answered} (hheeds : check.Heeds answered) (oracle : Oracle)
    (engine : Engine) : check.IsMiss oracle engine ((check.miss answered).alone oracle engine) := by
  have hengine : (engine.answer check.snapshot).2 = engine := Engine.answer_of_observes trivial
  simp only [miss, Call.alone, hengine]
  cases hanswer : oracle check.request with
  | error error =>
    rw [hheeds.denied]
    constructor
    · rfl
    · intro other hother
      rw [hanswer] at hother
      cases hother
      rfl
    · intro reply hreply
      rw [hanswer] at hreply
      cases hreply
  | ok reply =>
    rw [hheeds.allowed]
    constructor
    · cases (engine.answer check.snapshot).1 with
      | error error => rfl
      | ok version =>
        dsimp only [Coordinator.repair, Call.alone]
        split <;> rfl
    · intro error herror
      rw [hanswer] at herror
      cases herror
    · intro _ _ hworks
      have hseen : (engine.answer check.snapshot).1 =
          .ok (engine.base.version check.subject check.object) :=
        (Engine.answer_version_iff hworks).2 rfl
      have hpasses : (engine.answer (check.insertion _)).2.passes check.subject check.object
          check.action = true := passes_of_insertion hworks
      rw [hseen]
      dsimp only [Coordinator.repair, Call.alone]
      split <;> exact hpasses

/-- Whether a check is a hit does not depend on the store. -/
theorem alone_cases (check : AccessCheck) (engine : Engine) :
    (∀ oracle, IsHit engine (check.call.alone oracle engine)) ∨
      ∀ oracle, check.IsMiss oracle engine (check.call.alone oracle engine) := by
  refine call_induction (motive := fun call => (∀ oracle, IsHit engine (call.alone oracle engine)) ∨
    ∀ oracle, check.IsMiss oracle engine (call.alone oracle engine)) ?_ ?_
  · intro answered hheeds
    exact .inr fun oracle => isMiss_miss hheeds oracle engine
  · intro object rest hrest
    simp only [alone_first]
    cases engine.passes check.subject object check.action with
    | true => exact .inl fun oracle => ⟨rfl, rfl, rfl⟩
    | false =>
      refine hrest.imp (fun hhit oracle => ?_) fun hmiss oracle => ?_
      · exact ⟨(hhit oracle).requests, (hhit oracle).result, (hhit oracle).engine⟩
      · exact ⟨(hmiss oracle).requests, (hmiss oracle).denied, (hmiss oracle).learned⟩

/-- An engine that passes the check for its own object makes the check a hit. -/
theorem isHit_of_passes (h : engine.passes check.subject check.object check.action = true)
    (oracle : Oracle) : IsHit engine (check.call.alone oracle engine) := by
  obtain ⟨answered, rest, -, hcall, -⟩ := check.call_eq
  rw [hcall, alone_first, if_pos h]
  exact ⟨rfl, rfl, rfl⟩

/-- A miss that is answered with a yes is followed by a hit. -/
theorem isHit_of_learned (hworks : engine.poisoned = false)
    (hasked : (check.call.alone oracle engine).requests ≠ [])
    (hresult : (check.call.alone oracle engine).result = .ok ()) (later : Oracle) :
    IsHit (check.call.alone oracle engine).engine
      (check.call.alone later (check.call.alone oracle engine).engine) := by
  rcases check.alone_cases engine with hhit | hmiss
  · exact absurd (hhit oracle).requests hasked
  · refine isHit_of_passes ?_ later
    cases hanswer : oracle check.request with
    | error error =>
      rw [(hmiss oracle).denied error hanswer] at hresult
      cases hresult
    | ok reply => exact (hmiss oracle).learned reply hanswer hworks

/-- A check that was denied has left the engine as it was. -/
theorem engine_of_denied {error : StorageError}
    (h : (check.call.alone oracle engine).result = .error error) :
    (check.call.alone oracle engine).engine = engine := by
  have hacts := Call.acts_alone oracle check.call engine
  rw [h] at hacts
  exact Call.alone_engine (acts_call hacts).spares_of_error

/-- A check that has been denied time after time finds the engine as it was at first. -/
theorem course_of_repeated {oracles : List Oracle} {before rest : List (Course _)}
    {course : Course (Except StorageError Unit)}
    (h : check.call.repeated oracles engine = before ++ course :: rest)
    (hdenied : ∀ earlier ∈ before, ∃ error, earlier.result = .error error) :
    ∃ oracle, course = check.call.alone oracle engine := by
  induction before generalizing oracles with
  | nil =>
    cases oracles with
    | nil => cases h
    | cons oracle oracles => exact ⟨oracle, (List.cons.inj h).1.symm⟩
  | cons earlier before ih =>
    cases oracles with
    | nil => cases h
    | cons oracle oracles =>
      obtain ⟨hfirst, hrest⟩ := List.cons.inj h
      obtain ⟨⟨error, herror⟩, hothers⟩ := List.forall_mem_cons.1 hdenied
      rw [← hfirst] at herror
      rw [engine_of_denied herror] at hrest
      exact ih hrest hothers

/-- A check that is repeated after nothing but denials goes to the store again. -/
theorem requests_of_denied {oracles : List Oracle} {before rest : List (Course _)}
    {course : Course (Except StorageError Unit)}
    (h : check.call.repeated oracles engine = before ++ course :: rest)
    (hsome : before ≠ [])
    (hdenied : ∀ earlier ∈ before, ∃ error, earlier.result = .error error) :
    course.requests = [check.request] := by
  obtain ⟨earlier, before, rfl⟩ := List.exists_cons_of_ne_nil hsome
  have hearlier : check.call.repeated oracles engine = [] ++ earlier :: (before ++ course :: rest) := h
  obtain ⟨first, rfl⟩ := course_of_repeated hearlier nofun
  obtain ⟨error, herror⟩ := hdenied _ List.mem_cons_self
  obtain ⟨oracle, rfl⟩ := course_of_repeated h hdenied
  rcases check.alone_cases engine with hhit | hmiss
  · rw [(hhit first).result] at herror
    cases herror
  · exact (hmiss oracle).requests

/-- A guarded insertion adds its one fact to an engine that works if the version still stands, and
does nothing else. -/
theorem answer_insertion (check : AccessCheck) (engine : Engine) (seen : FactVersion) :
    (engine.answer (check.insertion seen)).2 =
      if engine.poisoned = false ∧ engine.base.version check.subject check.object = seen then
        { engine with base := engine.base.addFact check.subject check.object check.action }
      else engine := by
  cases hpoisoned : engine.poisoned with
  | true => simp [Engine.answer_of_poisoned hpoisoned]
  | false =>
    have hguarded : engine.Guarded (engine.base.version check.subject check.object = seen)
        (engine.answer (check.insertion seen)) :=
      Engine.guarded_addFactIfCurrent hpoisoned check.action
    by_cases hcurrent : engine.base.version check.subject check.object = seen
    · simp [Engine.answer_of_works hpoisoned, FactBase.answer, hcurrent, hpoisoned]
    · simp [hguarded.refused hcurrent, hcurrent]

/-- The check has left the engine alone, then it has taken the version of its pair, then the store
has said yes, and the last deed is one insertion of its fact, which is made if the version still
stands. -/
def Learns (check : AccessCheck) (deeds : List Deed) : Prop :=
  ∃ before found engine seen reply,
    deeds = before ++ [.asked found (.version check.subject check.object),
      .told check.request (.ok reply),
      .asked engine (.addFactIfCurrent check.subject check.object check.action seen)] ∧
    (∀ deed ∈ before, deed.Spares) ∧
    found.answer (.version check.subject check.object) = (.ok seen, found) ∧
    (engine.answer (.addFactIfCurrent check.subject check.object check.action seen)).2 =
      if engine.poisoned = false ∧ engine.base.version check.subject check.object = seen then
        { engine with base := engine.base.addFact check.subject check.object check.action }
      else engine

/-- A check leaves the engine alone, or else its last deed is one insertion of the fact that it was
asked about, guarded by a version that it has taken before the store has said yes.  A check that has
heard no yes of the store, that was given up, or that ends with an error leaves the engine alone.
If nobody comes between and the engine works, a check that the store has allowed is a hit from then
on.  A check that has been denied goes to the store whenever it is repeated. -/
theorem engine_effect (check : AccessCheck) :
    (∀ deeds ending, check.call.Acts deeds ending →
      ((∀ deed ∈ deeds, deed.Spares) ∨ check.Learns deeds) ∧
      ((∀ reply, .told check.request (.ok reply) ∉ deeds) ∨ .dropped ∈ deeds ∨
        (∃ error, ending = some (.error error)) → ∀ deed ∈ deeds, deed.Spares)) ∧
    (∀ oracle engine, engine.poisoned = false →
      let course := check.call.alone oracle engine
      course.requests ≠ [] → course.result = .ok () →
        ∀ later, IsHit course.engine (check.call.alone later course.engine)) ∧
    ∀ oracles engine before course rest,
      check.call.repeated oracles engine = before ++ course :: rest → before ≠ [] →
      (∀ earlier ∈ before, ∃ error, earlier.result = .error error) →
        course.requests = [check.request] := by
  refine ⟨fun deeds ending hacts => ?_, fun oracle engine hworks hasked hresult later => ?_,
    fun oracles engine before course rest hcourses hsome hdenied => ?_⟩
  · have heffect : check.Effect deeds ending := acts_call hacts
    constructor
    · cases heffect with
      | spared hspares => exact .inl hspares
      | repaired found engine reply hlooks hworks =>
        have hversion : found.answer check.snapshot =
            (.ok (found.base.version check.subject check.object), found) :=
          Engine.answer_of_works hworks check.snapshot
        exact .inr ⟨_, found, engine, _, reply, rfl, fun deed hmem => (hlooks deed hmem).spares,
          hversion, check.answer_insertion engine _⟩
    · rintro (hno | hdropped | ⟨error, rfl⟩)
      · exact heffect.spares hno
      · exact heffect.spares_of_dropped hdropped
      · exact heffect.spares_of_error
  · exact isHit_of_learned hworks hasked hresult later
  · exact requests_of_denied hcourses hsome hdenied

/-- A store that allows the check of a resource, and nothing else. -/
def allowing : Oracle
  | .validateAccess _ => .ok ()
  | _ => .error .accessDenied

/-- A store that allows nothing. -/
def denying : Oracle := fun _ => .error .accessDenied

/-- While the store is asked, others add a fact about the type of the resource. -/
theorem fact_learned_beside_others :
    let check := AccessCheck.ofResource System.pageCheck
    let others : Engine := { base := (∅ : FactBase).addFact System.someUser (.type .page) .update }
    let deeds : List Deed := [.asked {} (.check check.subject check.object .get),
      .asked {} (.check check.subject (.type .page) .get), .asked {} check.snapshot,
      .told check.request (.ok ()), .asked others (check.insertion ⟨0, 0⟩)]
    check.call.Acts deeds (some (.ok ())) ∧ check.Learns deeds ∧
      (check.call.alone denying (check.call.alone allowing {}).engine).result = .ok () ∧
      ∃ first second, check.call.repeated [denying, allowing] {} = [first, second] ∧
        second.requests = [check.request] := by
  intro check others deeds
  have hacts : check.call.Acts deeds (some (.ok ())) :=
    .ask _ (.ask _ (.count (.ask _ (.hear _ (.ask _ (.count (.done _)))))))
  have hwrites : ¬∀ deed ∈ deeds, deed.Spares := by
    intro hspares
    have hinsertion : (others.answer (check.insertion ⟨0, 0⟩)).2 = others :=
      hspares (.asked others (check.insertion ⟨0, 0⟩)) (by simp [deeds])
    exact absurd hinsertion (by decide)
  have heffect := check.engine_effect
  refine ⟨hacts, ((heffect.1 deeds _ hacts).1).resolve_left hwrites, ?_, _, _, rfl, ?_⟩
  · exact (heffect.2.1 allowing {} rfl nofun rfl denying).result
  · refine heffect.2.2 [denying, allowing] {} [_] _ [] rfl nofun ?_
    intro earlier hmem
    obtain rfl := List.mem_singleton.1 hmem
    exact ⟨.accessDenied, rfl⟩

end AccessCheck

end AccessControl
