import AccessControl.Proofs.CacheSoundness
import AccessControl.Proofs.SubjectStep

/-!
# Users do not notice each other

From a run in which the calls of many users are interleaved, every call is erased that is neither
made for one user nor changes a policy.  What is left is a run, and at each of its moments the user
finds the engine, the store and his own calls just as he finds them beside the others.
-/

namespace AccessControl

namespace Event

/-- The name of the party that the event is about. -/
def id : Event → Nat
  | start id _ _ => id
  | openScope id _ => id
  | move id _ => id
  | discard id => id

/-- The name of the call that the event makes, if the call does not concern the user. -/
def stranger? (user : UserId) : Event → Option Nat
  | start id _ request => if request.concerns user then none else some id
  | _ => none

/-- Whether the event is left when the calls of a run that do not concern the user are erased. -/
def staysFor (user : UserId) (events : List Event) (event : Event) : Bool :=
  event.id ∉ events.filterMap (stranger? user)

/-- The event opens no transaction, and makes a call under a name that is kept just if the call
concerns the user. -/
def Fits (user : UserId) (keep : Nat → Bool) : Event → Prop
  | start id _ request => request.concerns user = keep id
  | openScope .. => False
  | _ => True

end Event

namespace System

variable {user : UserId} {keep : Nat → Bool} {alone system next : System} {event : Event}
  {events past rest : List Event} {id coordinator : Nat} {party : Party} {after other : Backend}

/-- Whether a system is to the user as another one is, and has just those of its calls that concern
him. -/
structure AlikeFor (user : UserId) (alone system : System) : Prop where
  backend : alone.backend.AlikeFor user system.backend
  parties : ∀ id, alone.parties.get? id = (system.parties.get? id).filter (Party.concerns user)

/-- The first system has come about without the calls that are not kept. -/
structure Follows (user : UserId) (keep : Nat → Bool) (alone system : System) : Prop where
  alike : alone.AlikeFor user system
  calls : ∀ id party, system.parties.get? id = some party →
    party.StaysWithin ∧ party.concerns user = keep id

/-! ## A party comes or moves -/

theorem lockedFor_eq_nil (h : ∀ id party, system.parties.get? id = some party →
    party.StaysWithin) (id : Nat) : system.lockedFor id = [] := by
  refine List.eq_nil_iff_forall_not_mem.2 fun row hrow => ?_
  obtain ⟨other, party, -, hget, hmem⟩ := mem_lockedFor.1 hrow
  obtain ⟨-⟩ := h other party hget
  cases hmem

namespace Follows

variable (h : Follows user keep alone system)

include h

theorem get?_kept (hget : system.parties.get? id = some party) (hkeep : keep id = true) :
    alone.parties.get? id = some party := by
  rw [h.alike.parties, hget, Option.filter_some_pos]
  rw [(h.calls id party hget).2, hkeep]

theorem get?_erased (hkeep : keep id = false) : alone.parties.get? id = none := by
  rw [h.alike.parties]
  cases hget : system.parties.get? id with
  | none => rfl
  | some party =>
    refine Option.filter_some_neg ?_
    rw [(h.calls id party hget).2, hkeep]

theorem lockedFor_left (id : Nat) : alone.lockedFor id = [] := by
  refine lockedFor_eq_nil (fun id party hget => ?_) id
  rw [h.alike.parties] at hget
  obtain ⟨hfound, -⟩ := Option.filter_eq_some_iff.1 hget
  exact (h.calls id party hfound).1

theorem lockedFor_right (id : Nat) : system.lockedFor id = [] :=
  lockedFor_eq_nil (fun id party hget => (h.calls id party hget).1) id

/-- A call that is kept comes or moves in both systems. -/
theorem moved (hwithin : party.StaysWithin) (hconcerns : party.concerns user = keep id)
    (hkeep : keep id = true) (halike : other.AlikeFor user after) :
    Follows user keep (alone.moved id party other) (system.moved id party after) := by
  refine ⟨⟨halike, fun found => ?_⟩, fun found party' hget => ?_⟩
  · rw [get?_moved, get?_moved]
    split
    · rw [Option.filter_some_pos]
      rw [hconcerns, hkeep]
    · exact h.alike.parties found
  · rw [get?_moved] at hget
    split at hget
    case isTrue heq =>
      obtain rfl := Option.some.inj hget
      rw [heq]
      exact ⟨hwithin, hconcerns⟩
    case isFalse => exact h.calls found party' hget

/-- A call that is erased comes or moves in one system alone. -/
theorem moved_right (hwithin : party.StaysWithin) (hconcerns : party.concerns user = keep id)
    (hkeep : keep id = false) (halike : alone.backend.AlikeFor user after) :
    Follows user keep alone (system.moved id party after) := by
  refine ⟨⟨halike, fun found => ?_⟩, fun found party' hget => ?_⟩
  · rw [get?_moved]
    split
    case isTrue heq =>
      rw [heq, h.get?_erased hkeep, Option.filter_some_neg]
      rw [hconcerns, hkeep]
    case isFalse => exact h.alike.parties found
  · rw [get?_moved] at hget
    split at hget
    case isTrue heq =>
      obtain rfl := Option.some.inj hget
      rw [heq]
      exact ⟨hwithin, hconcerns⟩
    case isFalse => exact h.calls found party' hget

/-! ## Events -/

/-- An event of a call that is kept can happen in both systems. -/
theorem step (hfits : event.Fits user keep) (hkeep : keep event.id = true)
    (hstep : system.step event = some next) :
    ∃ alone', alone.step event = some alone' ∧ Follows user keep alone' next := by
  cases event with
  | start id coordinator request =>
    obtain ⟨hfree, rfl⟩ := enter_cases hstep
    have hfree' : alone.parties.get? id = none := by
      rw [h.alike.parties, hfree]
      rfl
    refine ⟨_, ?_, h.moved (.call (Coordinator.handle_within request)) hfits hkeep
      h.alike.backend⟩
    rw [System.step, enter, hfree']
  | openScope => exact False.elim hfits
  | move id move =>
    obtain ⟨party, party', after, hget, hmove, rfl⟩ := step_move hstep
    obtain ⟨hwithin, hconcerns⟩ := h.calls id party hget
    obtain ⟨hwithin', hconcerns'⟩ :=
      hwithin.after_move h.alike.backend.trusted_right hmove
    rw [h.lockedFor_right] at hmove
    obtain ⟨other, hother, halike⟩ :=
      hwithin.move_alike (hconcerns.trans hkeep) h.alike.backend hmove
    refine ⟨_, ?_, h.moved hwithin' ((hconcerns' user).trans hconcerns) hkeep halike⟩
    rw [System.step, h.get?_kept hget hkeep, h.lockedFor_left]
    dsimp only
    rw [hother]
    rfl
  | discard id =>
    cases steps_of_step hstep with
    | discards hget => cases (h.calls id _ hget).1

/-- The user does not notice an event of a call that is erased. -/
theorem step_right (hfits : event.Fits user keep) (hkeep : keep event.id = false)
    (hstep : system.step event = some next) : Follows user keep alone next := by
  cases event with
  | start id coordinator request =>
    obtain ⟨-, rfl⟩ := enter_cases hstep
    exact h.moved_right (.call (Coordinator.handle_within request)) hfits hkeep h.alike.backend
  | openScope => exact False.elim hfits
  | move id move =>
    obtain ⟨party, party', after, hget, hmove, rfl⟩ := step_move hstep
    obtain ⟨hwithin, hconcerns⟩ := h.calls id party hget
    obtain ⟨hwithin', hconcerns'⟩ :=
      hwithin.after_move h.alike.backend.trusted_right hmove
    have hforeign : ¬party.concerns user = true := by
      rw [hconcerns]
      exact Bool.eq_false_iff.1 hkeep
    exact h.moved_right hwithin' ((hconcerns' user).trans hconcerns) hkeep
      (hwithin.alike_of_not_concerns hforeign h.alike.backend hmove)
  | discard id =>
    cases steps_of_step hstep with
    | discards hget => cases (h.calls id _ hget).1

end Follows

/-! ## Runs -/

/-- What is left of a run when calls are erased is a run, and the user does not notice. -/
theorem Follows.run (h : Follows user keep alone system)
    (hfits : ∀ event ∈ events, event.Fits user keep) (hrun : system.run events = some next) :
    ∃ alone', alone.run (events.filter fun event => keep event.id) = some alone' ∧
      Follows user keep alone' next := by
  induction events generalizing alone system with
  | nil =>
    obtain rfl := Option.some.inj hrun
    exact ⟨alone, rfl, h⟩
  | cons event rest ih =>
    obtain ⟨middle, hstep, hrest⟩ := Option.bind_eq_some_iff.1 hrun
    have hevent := hfits event List.mem_cons_self
    have hlater : ∀ later ∈ rest, later.Fits user keep := fun later hmem =>
      hfits later (List.mem_cons_of_mem event hmem)
    cases hkeep : keep event.id with
    | true =>
      obtain ⟨alone', hstep', hfollows⟩ := h.step hevent hkeep hstep
      obtain ⟨alone'', hrest', hfollows'⟩ := ih hfollows hlater hrest
      refine ⟨alone'', ?_, hfollows'⟩
      simp only [List.filter_cons, hkeep, if_true]
      rw [run_step hstep', hrest']
    | false =>
      simp only [List.filter_cons, hkeep]
      exact ih (h.step_right hevent hkeep hstep) hlater hrest

/-- A call of the user has been answered in the one system as in the other. -/
theorem Follows.answer?_eq {asked : StoreRequest} (h : Follows user keep alone system)
    (hasked : asked.concerns user = true) (id : Nat) :
    alone.answer? id asked = system.answer? id asked := by
  rw [answer?, answer?, h.alike.parties]
  cases hget : system.parties.get? id with
  | none => rfl
  | some party =>
    by_cases hconcerns : party.concerns user = true
    · rw [Option.filter_some_pos hconcerns]
    · rw [Option.filter_some_neg (Bool.eq_false_iff.2 hconcerns), Option.bind_some]
      cases (h.calls id party hget).1 with
      | @call coordinator flight hwithin =>
        cases hanswer : (Party.call coordinator flight).answer? asked with
        | none => rfl
        | some answer =>
          obtain ⟨applied, rfl⟩ := Party.answer?_call hanswer
          exact absurd hasked hconcerns

/-- A call goes on under its name with the request that it was made for. -/
theorem run_call {flight : CoordinatorFlight} (hrun : system.run events = some next)
    (hget : system.parties.get? id = some (.call coordinator flight)) :
    ∃ flight', next.parties.get? id = some (.call coordinator flight') ∧
      flight'.request = flight.request := by
  induction events generalizing system flight with
  | nil =>
    obtain rfl := Option.some.inj hrun
    exact ⟨flight, hget, rfl⟩
  | cons event rest ih =>
    obtain ⟨middle, hstep, hrest⟩ := Option.bind_eq_some_iff.1 hrun
    rcases step_party hstep hget with hstays | ⟨move, party', -, hmove, hmoved⟩ |
      ⟨-, scopeCoordinator, draft, deferred, heq⟩
    · exact ih hrest hstays
    · rcases Party.call_moves hmove with
        ⟨progress, stage', -, -, rfl⟩ | ⟨flight', -, hask, rfl⟩
      · have hlater := ih hrest hmoved
        exact hlater
      · obtain ⟨request, onUnknown, answered, -, -, rfl, -⟩ := CoordinatorFlight.ask_cases hask
        have hlater := ih hrest hmoved
        exact hlater
    · cases heq

/-- Each name is used for one call. -/
theorem run_start {request : StoreRequest} (hrun : system.run events = some next)
    (hmem : .start id coordinator request ∈ events) :
    ∃ flight, next.parties.get? id = some (.call coordinator flight) ∧
      flight.request = request := by
  obtain ⟨before, after, rfl⟩ := List.append_of_mem hmem
  rw [run_append] at hrun
  obtain ⟨moment, -, hrest⟩ := Option.bind_eq_some_iff.1 hrun
  obtain ⟨middle, hstep, hafter⟩ := Option.bind_eq_some_iff.1 hrest
  obtain ⟨-, rfl⟩ := enter_cases hstep
  exact run_call hafter get?_moved_self

/-- The names of the calls that do not concern the user are the names of no other calls. -/
theorem fits_of_run (hrun : system.run events = some next)
    (hcalls : ∀ id coordinator, .openScope id coordinator ∉ events) :
    ∀ event ∈ events, event.Fits user fun id => id ∉ events.filterMap (Event.stranger? user) := by
  intro event hmem
  cases event with
  | openScope id coordinator => exact hcalls id coordinator hmem
  | move | discard => trivial
  | start id coordinator request =>
    have hstranger : id ∈ events.filterMap (Event.stranger? user) ↔
        ¬request.concerns user = true := by
      constructor
      · intro hid
        obtain ⟨other, hother, hname⟩ := List.mem_filterMap.1 hid
        cases other with
        | start id' coordinator' request' =>
          obtain ⟨hforeign, heq⟩ := Option.ite_none_left_eq_some.1 hname
          obtain rfl := Option.some.inj heq
          -- the name is used once, so both events make the same call
          obtain ⟨flight, hget, rfl⟩ := run_start hrun hmem
          obtain ⟨flight', hget', rfl⟩ := run_start hrun hother
          cases hget.symm.trans hget'
          exact hforeign
        | _ => cases hname
      · intro hforeign
        exact List.mem_filterMap.2 ⟨_, hmem, if_neg hforeign⟩
    have hkept : request.concerns user = true ↔
        id ∉ events.filterMap (Event.stranger? user) := by
      rw [hstranger, Decidable.not_not]
    exact Bool.eq_iff_iff.2 (hkept.trans decide_eq_true_iff.symm)

/-- If the calls that do not concern a user are erased from a run, the user finds everything as it
was at each of its moments: what the engine knows of him and the counters that guard it, his rules
and his role in the store, and each of his calls with its answer. -/
theorem alike_without_strangers {store : MemoryStore} {base : FactBase} (user : UserId)
    (hrun : (opened store base).run (past ++ rest) = some system)
    (hcalls : ∀ id coordinator, .openScope id coordinator ∉ past ++ rest) :
    ∃ moment alone, (opened store base).run past = some moment ∧
      (opened store base).run (past.filter (Event.staysFor user (past ++ rest))) = some alone ∧
      alone.AlikeFor user moment ∧
      ∀ id asked, asked.concerns user = true →
        alone.answer? id asked = moment.answer? id asked := by
  have hfits : ∀ event ∈ past ++ rest, event.Fits user _ := fits_of_run hrun hcalls
  rw [run_append] at hrun
  obtain ⟨moment, hpast, -⟩ := Option.bind_eq_some_iff.1 hrun
  have hopened : Follows user (fun id => id ∉ (past ++ rest).filterMap (Event.stranger? user))
      (opened store base) (opened store base) := by
    refine ⟨⟨⟨rfl, rfl, .refl user base, fun row _ => .refl store row⟩, fun _ => rfl⟩, ?_⟩
    intro id party hget
    cases hget
  obtain ⟨alone, halone, hfollows⟩ := hopened.run
    (fun event hmem => hfits event (List.mem_append_left rest hmem)) hpast
  exact ⟨moment, alone, hpast, halone, hfollows.alike, fun id asked hasked =>
    hfollows.answer?_eq hasked id⟩

/-- Another user of the store. -/
def otherUser : UserId := ⟨.ofNat 3⟩

/-- A store in which both users are of record. -/
def sharedStore : MemoryStore :=
  { someStore with users := someStore.users.insert otherUser .user }

/-- A check of an action on every page. -/
def pageUpdateCheck : TypeCheck := ⟨someUser, .page, .update⟩

/-- Another user is promoted, and his rule is deleted, while a policy is made and a check of the
first user is on its way. -/
def checkBesidePromotion : List Event :=
  [.start 0 0 (.validateAccessToType pageUpdateCheck),
    .start 1 1 (.syncUserRole otherUser .admin),
    .start 2 0 (.putRolePolicy .user .page (.ofList [.get, .update])),
    .move 1 (.proceed .advance), .move 1 .ask, .move 0 (.proceed .advance),
    .start 3 1 (.delete otherUser someResource), .move 2 .ask, .move 3 .ask,
    .move 1 (.proceed .receive), .move 0 (.proceed .advance), .move 0 (.proceed .advance),
    .move 3 (.proceed .giveUp), .move 0 .ask, .move 1 (.proceed .advance),
    .move 3 (.proceed .advance), .move 0 (.proceed .receive), .move 0 (.proceed .advance),
    .move 0 (.proceed .advance)]

/-- What is left of the run when the calls of the other user are erased. -/
def checkBesidePolicy : List Event :=
  [.start 0 0 (.validateAccessToType pageUpdateCheck),
    .start 2 0 (.putRolePolicy .user .page (.ofList [.get, .update])),
    .move 0 (.proceed .advance), .move 2 .ask, .move 0 (.proceed .advance),
    .move 0 (.proceed .advance), .move 0 .ask, .move 0 (.proceed .receive),
    .move 0 (.proceed .advance), .move 0 (.proceed .advance)]

/-- The check is answered alike with the promotion beside it and without. -/
theorem check_answered_alike_without_promotion : ∃ system alone,
    (opened sharedStore ∅).run checkBesidePromotion = some system ∧
      (opened sharedStore ∅).run checkBesidePolicy = some alone ∧
      system.answer? 0 (.validateAccessToType pageUpdateCheck) = some (.ok ()) ∧
      alone.answer? 0 (.validateAccessToType pageUpdateCheck) = some (.ok ()) ∧
      alone.AlikeFor someUser system := by
  have hanswered : ((opened sharedStore ∅).run checkBesidePromotion).any (fun system =>
      system.answer? 0 (.validateAccessToType pageUpdateCheck) = some (.ok ())) = true := by
    decide
  obtain ⟨system, hrun, hsystem⟩ := (Option.any_eq_true ..).1 hanswered
  have hends : (opened sharedStore ∅).run (checkBesidePromotion ++ []) = some system := by
    rw [List.append_nil]
    exact hrun
  have hcalls : ∀ id coordinator, .openScope id coordinator ∉ checkBesidePromotion ++ [] := by
    simp [checkBesidePromotion]
  have hleft : checkBesidePromotion.filter
      (Event.staysFor someUser (checkBesidePromotion ++ [])) = checkBesidePolicy := rfl
  obtain ⟨moment, alone, hmoment, halone, halike, hanswers⟩ :=
    alike_without_strangers someUser hends hcalls
  obtain rfl := Option.some.inj (hrun.symm.trans hmoment)
  rw [hleft] at halone
  have hasked := of_decide_eq_true hsystem
  refine ⟨system, alone, hrun, halone, hasked, ?_, halike⟩
  rw [hanswers 0 (.validateAccessToType pageUpdateCheck) rfl, hasked]

end System

end AccessControl
