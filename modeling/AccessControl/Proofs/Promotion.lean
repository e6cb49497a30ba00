import AccessControl.Proofs.CheckAnswer
import AccessControl.Proofs.PromotionStep
import AccessControl.Proofs.Uninterrupted

/-!
# Promotions in a system

Once the store has an administrator whose role was written by a call, or loaded into the engine in
the beginning, some party is bound to promote him, or the engine has him as an administrator too.
That is lost at one kind of step alone: a request of some party records an ordinary role that the
store no longer has, or a promotion is refused because the counter of the subject has moved since.
Nothing makes up for such a step, since no check writes a role into the engine.
-/

namespace AccessControl

namespace System

variable {system initial middle next moment later : System} {event : Event}
  {events past rest : List Event} {user : UserId} {id : Nat}

/-- What an event writes into the store of record. -/
def writes (system : System) : Event → List RowWrite
  | .move id move =>
    match system.parties.get? id with
    | some party => party.writes system.backend.store move
    | none => []
  | _ => []

/-- At the event, a call to a coordinator or a commit goes on without the answer of the store. -/
def DropsAnswer (system : System) (event : Event) : Prop :=
  ∃ id move party, event = .move id move ∧ system.parties.get? id = some party ∧
    party.DropsAnswer move

/-- A run of the events comes to the event at the moment. -/
def Meets (system : System) (events : List Event) (moment : System) (event : Event) : Prop :=
  ∃ past rest, events = past ++ event :: rest ∧ system.run past = some moment

/-- At the event, the request of some party leaves the user without an administrative role. -/
def Unmakes (user : UserId) (system : System) (event : Event) : Prop :=
  ∃ id party, event = .move id (.proceed .advance) ∧ system.parties.get? id = some party ∧
    party.Unmakes user system.backend.engine.base

/-- A run of the events comes to an event that unmakes the user, and from then on to its end the
store has him as an administrator. -/
def Unmade (user : UserId) (system : System) (events : List Event) : Prop :=
  ∃ past event rest moment, events = past ++ event :: rest ∧ system.run past = some moment ∧
    moment.Unmakes user event ∧
    ∀ later, moment.Visits (event :: rest) later → later.backend.Backs (.administration user)

/-- The engine had the user as an administrator in the beginning, or his role is written in the
course of the events. -/
def Learned (user : UserId) (system : System) (events : List Event) : Prop :=
  system.backend.Holds (.administration user) ∨
    ∃ moment event, system.Meets events moment event ∧
      .role user ∈ (moment.writes event).map RowWrite.row

/-- Some party is bound to promote the user. -/
def Bound (user : UserId) (system : System) : Prop :=
  ∃ id party, system.parties.get? id = some party ∧ party.Bound user

/-- The engine answers, and every party keeps to what its calls were made for. -/
structure Faithful (user : UserId) (system : System) : Prop where
  trusted : system.backend.Trusted
  parties : ∀ id party, system.parties.get? id = some party → party.Faithful user

/-! ## Runs by their last event -/

theorem run_concat : system.run (events ++ [event]) =
    (system.run events).bind fun moment => moment.step event := by
  rw [run_append]
  refine congrArg _ (funext fun moment => ?_)
  cases hstep : moment.step event with
  | none => rw [run, hstep, Option.bind_none]
  | some next => rw [run_step hstep, run]

theorem Visits.concat (h : system.Visits (events ++ [event]) later) :
    system.Visits events later ∨ system.run (events ++ [event]) = some later := by
  obtain ⟨past, rest, heq, hpast⟩ := h
  rcases List.eq_nil_or_concat rest with rfl | ⟨rest, last, rfl⟩
  · rw [List.append_nil] at heq
    rw [heq]
    exact .inr hpast
  · rw [List.concat_eq_append, ← List.append_assoc] at heq
    exact .inl ⟨past, rest, List.append_inj_left' heq rfl, hpast⟩

theorem Meets.concat {last : Event} (h : system.Meets (events ++ [last]) moment event) :
    system.Meets events moment event ∨ event = last ∧ system.run events = some moment := by
  obtain ⟨past, rest, heq, hpast⟩ := h
  rcases List.eq_nil_or_concat rest with rfl | ⟨rest, other, rfl⟩
  · obtain ⟨rfl, hlast⟩ := List.append_inj' heq rfl
    exact .inr ⟨(List.cons.inj hlast).1.symm, hpast⟩
  · rw [List.concat_eq_append, ← List.cons_append, ← List.append_assoc] at heq
    exact .inl ⟨past, rest, List.append_inj_left' heq rfl, hpast⟩

theorem Meets.mem (h : system.Meets events moment event) : event ∈ events := by
  obtain ⟨past, rest, rfl, -⟩ := h
  exact List.mem_append_right past List.mem_cons_self

/-- An answer is dropped by a progress that fails. -/
theorem DropsAnswer.fails (h : system.DropsAnswer event) :
    ∃ id progress, event = .move id (.proceed progress) ∧ progress.fails = true := by
  obtain ⟨id, move, party, rfl, -, hdrops⟩ := h
  cases move with
  | proceed progress =>
    refine ⟨id, progress, rfl, ?_⟩
    cases party with
    | call coordinator flight => exact hdrops.2
    | scope opened =>
      obtain ⟨flight, -, -, -, hfails⟩ := hdrops
      exact hfails
  | _ => cases party <;> exact False.elim hdrops

/-- An event that unmakes the user does so for the run up to it. -/
theorem unmade_of_unmakes (hrun : system.run events = some moment)
    (hstep : moment.step event = some next) (hunmakes : moment.Unmakes user event)
    (hbefore : moment.backend.Backs (.administration user))
    (hafter : next.backend.Backs (.administration user)) :
    Unmade user system (events ++ [event]) := by
  refine ⟨events, event, [], moment, rfl, hrun, hunmakes, fun later hvisits => ?_⟩
  have hlast : moment.Visits ([] ++ [event]) later := hvisits
  rcases hlast.concat with ⟨past, rest, heq, hpast⟩ | hend
  · obtain ⟨rfl, -⟩ := List.append_eq_nil_iff.1 heq.symm
    obtain rfl := Option.some.inj hpast
    exact hbefore
  · rw [List.nil_append, run_step hstep] at hend
    obtain rfl := Option.some.inj hend
    exact hafter

theorem Unmade.append (h : Unmade user system events)
    (hrun : system.run (events ++ [event]) = some next)
    (hbacks : next.backend.Backs (.administration user)) :
    Unmade user system (events ++ [event]) := by
  obtain ⟨past, first, rest, moment, rfl, hpast, hunmakes, hsince⟩ := h
  refine ⟨past, first, rest ++ [event], moment, by simp, hpast, hunmakes, fun later hvisits => ?_⟩
  rw [← List.cons_append] at hvisits
  rcases hvisits.concat with hbefore | hend
  · exact hsince later hbefore
  · rw [List.append_assoc] at hrun
    rw [run_rest hrun hpast] at hend
    obtain rfl := Option.some.inj hend
    exact hbacks

/-! ## A step of a faithful system -/

section

variable {after : Backend} {party party' : Party} {move : Move}

theorem Faithful.moved (h : system.Faithful user) (htrusted : after.Trusted)
    (hparty : party'.Faithful user) : (system.moved id party' after).Faithful user := by
  refine ⟨htrusted, fun other found hfound => ?_⟩
  rw [get?_moved] at hfound
  split at hfound
  case isTrue =>
    obtain rfl := Option.some.inj hfound
    exact hparty
  case isFalse => exact h.parties other found hfound

/-- An event leaves a system faithful. -/
theorem Faithful.step (h : system.Faithful user) (hstep : system.step event = some next) :
    next.Faithful user := by
  have htrusted : next.backend.Trusted := (steps_of_step hstep).trusted h.trusted
  cases event with
  | start other coordinator request =>
    obtain ⟨-, rfl⟩ := enter_cases hstep
    exact h.moved htrusted (Coordinator.handle_upon request)
  | openScope other coordinator =>
    obtain ⟨-, rfl⟩ := enter_cases hstep
    refine h.moved htrusted ⟨fun flight hflight => ?_, fun hgrants => ?_⟩
    · cases hflight
    · exact absurd hgrants MemoryStore.not_backs_empty
  | move other move =>
    obtain ⟨party, party', after, hget, hmove, rfl⟩ := step_move hstep
    exact h.moved htrusted ((h.parties other party hget).moves hmove h.trusted)
  | discard other =>
    refine ⟨htrusted, fun found party hfound => ?_⟩
    cases steps_of_step hstep
    rw [Table.get?_erase] at hfound
    split at hfound
    case isTrue => cases hfound
    case isFalse => exact h.parties found party hfound

/-- The other parties stay bound when one of them moves. -/
theorem bound_moved (hget : system.parties.get? id = some party) (h : system.Bound user) :
    party.Bound user ∨ (system.moved id party' after).Bound user := by
  obtain ⟨other, found, hfound, hbound⟩ := h
  by_cases hother : other = id
  · subst hother
    obtain rfl := Option.some.inj (hget.symm.trans hfound)
    exact .inl hbound
  · refine .inr ⟨other, found, ?_, hbound⟩
    rw [get?_moved, if_neg hother, hfound]

/-- A party that moves upholds for the whole system what it upholds by itself. -/
theorem upholds_moved (hget : system.parties.get? id = some party)
    (h : party.Upholds user system.backend after party' move)
    (hbefore : system.backend.Holds (.administration user) ∨ system.Bound user) :
    (system.moved id party' after).backend.Holds (.administration user) ∨
      (system.moved id party' after).Bound user ∨ system.Unmakes user (.move id move) := by
  rcases or_assoc.2 (hbefore.imp_right (bound_moved hget)) with hmover | hothers
  · rcases h hmover with hholds | hbound | ⟨rfl, hunmakes⟩
    · exact .inl hholds
    · exact .inr (.inl ⟨id, party', get?_moved_self, hbound⟩)
    · exact .inr (.inr ⟨id, party, rfl, hget, hunmakes⟩)
  · exact .inr (.inl hothers)

end

/-- A party that comes in or goes leaves the backend alone, and takes no promotion with it. -/
theorem still_of_step (hstep : system.step event = some next)
    (hstill : ∀ id move, event ≠ .move id move) :
    next.backend = system.backend ∧ (system.Bound user → next.Bound user) := by
  refine ⟨?_, ?_⟩
  · cases steps_of_step hstep with
    | moves => exact absurd rfl (hstill _ _)
    | _ => rfl
  · rintro ⟨id, party, hget, hbound⟩
    rcases step_party hstep hget with hsame | ⟨move, -, rfl, -⟩ | ⟨-, _, _, _, rfl⟩
    · exact ⟨id, party, hsame, hbound⟩
    · exact absurd rfl (hstill id move)
    · obtain ⟨flight, hflight, -⟩ := hbound
      cases hflight

/-- What becomes of an administrator of the store at an event: it writes his role, and then some
party is bound to promote him; or it does not, and who holds the role or is bound does so on, unless
the event unmakes the user. -/
theorem Faithful.attends (h : system.Faithful user) (hstep : system.step event = some next)
    (hheard : ¬system.DropsAnswer event) (hbacks : next.backend.Backs (.administration user)) :
    .role user ∈ (system.writes event).map RowWrite.row ∧ next.Bound user ∨
      .role user ∉ (system.writes event).map RowWrite.row ∧
        system.backend.Backs (.administration user) ∧
        (system.backend.Holds (.administration user) ∨ system.Bound user →
          next.backend.Holds (.administration user) ∨ next.Bound user ∨
            system.Unmakes user event) := by
  cases event with
  | move id move =>
    obtain ⟨party, party', after, hget, hmove, rfl⟩ := step_move hstep
    have hwrites : system.writes (.move id move) = party.writes system.backend.store move := by
      simp only [writes, hget]
    have hhears : ¬party.DropsAnswer move := fun hdrops =>
      hheard ⟨id, move, party, rfl, hget, hdrops⟩
    rw [hwrites]
    rcases (h.parties id party hget).attends hmove h.trusted hhears hbacks with
      ⟨hwritten, hbound⟩ | ⟨hunwritten, hbefore, hupholds⟩
    · exact .inl ⟨hwritten, id, party', get?_moved_self, hbound⟩
    · exact .inr ⟨hunwritten, hbefore, upholds_moved hget hupholds⟩
  | _ =>
    obtain ⟨hbackend, hbound⟩ : next.backend = system.backend ∧
        (system.Bound user → next.Bound user) := still_of_step hstep (by rintro id move ⟨⟩)
    rw [hbackend] at hbacks ⊢
    exact .inr ⟨List.not_mem_nil, hbacks, Or.imp_right fun h => .inl (hbound h)⟩

/-! ## Runs of a faithful system -/

theorem Faithful.run (h : system.Faithful user) (hrun : system.run events = some next) :
    next.Faithful user := by
  induction events generalizing system with
  | nil =>
    obtain rfl := Option.some.inj hrun
    exact h
  | cons event rest ih =>
    obtain ⟨middle, hstep, hrest⟩ := Option.bind_eq_some_iff.1 hrun
    exact ih (h.step hstep) hrest

/-- After the events, an administrator of the store whose role was learned is one of the engine, or
some party is bound to promote him, or an event has unmade him. -/
def Promoted (user : UserId) (initial : System) (events : List Event) (moment : System) : Prop :=
  moment.backend.Backs (.administration user) → initial.Learned user events →
    moment.backend.Holds (.administration user) ∨ moment.Bound user ∨ Unmade user initial events

theorem promoted_nil : Promoted user initial [] initial := by
  rintro - (hheld | ⟨moment, event, ⟨past, rest, heq, -⟩, -⟩)
  · exact .inl hheld
  · simp at heq

theorem Promoted.step (h : Promoted user initial events moment) (hfaithful : moment.Faithful user)
    (hrun : initial.run events = some moment) (hstep : moment.step event = some next)
    (hheard : ¬moment.DropsAnswer event) : Promoted user initial (events ++ [event]) next := by
  intro hbacks hlearned
  rcases hfaithful.attends hstep hheard hbacks with ⟨-, hbound⟩ | ⟨hunwritten, hbefore, hupholds⟩
  · exact .inr (.inl hbound)
  · -- the last event did not write the role, so the role was learned before
    have hlearned' : initial.Learned user events := by
      refine hlearned.imp_right ?_
      rintro ⟨earlier, written, hmeets, hmem⟩
      rcases hmeets.concat with hmeets | ⟨rfl, hlast⟩
      · exact ⟨earlier, written, hmeets, hmem⟩
      · obtain rfl := Option.some.inj (hrun.symm.trans hlast)
        exact absurd hmem hunwritten
    rcases or_assoc.2 (h hbefore hlearned') with hstands | hunmade
    · refine (hupholds hstands).imp_right (Or.imp_right fun hunmakes => ?_)
      exact unmade_of_unmakes hrun hstep hunmakes hbefore hbacks
    · refine .inr (.inr (hunmade.append ?_ hbacks))
      rw [run_concat, hrun, Option.bind_some, hstep]

/-- A run that starts with a faithful system and hears its store keeps its promotions. -/
theorem Promoted.run (h : Promoted user initial events moment) (hfaithful : moment.Faithful user)
    (hpast : initial.run events = some moment) (hrun : moment.run rest = some next)
    (hheard : ∀ middle event, initial.Meets (events ++ rest) middle event →
      ¬middle.DropsAnswer event) : Promoted user initial (events ++ rest) next := by
  induction rest generalizing events moment with
  | nil =>
    obtain rfl := Option.some.inj hrun
    rwa [List.append_nil]
  | cons event rest ih =>
    obtain ⟨middle, hstep, hrest⟩ := Option.bind_eq_some_iff.1 hrun
    have hhears : ¬moment.DropsAnswer event := hheard moment event ⟨events, rest, rfl, hpast⟩
    have hmiddle : initial.run (events ++ [event]) = some middle := by
      rw [run_concat, hpast, Option.bind_some, hstep]
    rw [List.append_cons] at hheard ⊢
    exact ih (h.step hfaithful hpast hstep hhears) (hfaithful.step hstep) hmiddle hrest hheard

variable {store : MemoryStore} {base : FactBase}

theorem faithful_opened : (opened store base).Faithful user :=
  ⟨rfl, fun _ _ hget => by cases hget⟩

/-- Once no call is under way, an administrator of the store whose role was learned passes every
check through every coordinator, if no call to a coordinator and no commit went on without the answer
of the store, unless the request of some party has unmade him since. -/
theorem promotions_stand (hrun : (opened store base).run events = some system)
    (hheard : ∀ moment event, (opened store base).Meets events moment event →
      ¬moment.DropsAnswer event)
    (hidle : system.Idle) (hbacks : system.backend.Backs (.administration user))
    (hlearned : (opened store base).Learned user events) :
    (∀ (check : InstanceCheck) (reader : Nat), check.user = user →
      (system.backend.cacheOf reader).answerTo (.validateAccess check) = .ok ()) ∨
      Unmade user (opened store base) events := by
  have hpromoted : Promoted user (opened store base) ([] ++ events) system :=
    promoted_nil.run faithful_opened rfl hrun hheard
  rcases hpromoted hbacks hlearned with hheld | ⟨id, party, hget, hbound⟩ | hunmade
  · refine .inl ?_
    rintro check reader rfl
    have hend : system.Faithful check.user := faithful_opened.run hrun
    refine LocalCache.answerTo_validateAccess.2 (.inl ⟨hend.trusted, _, ?_, hheld⟩)
    simp [StoreRequest.privileges]
  · have hquiet : party.quiet = true := hidle id party hget
    rw [hbound.unquiet] at hquiet
    cases hquiet
  · exact .inr hunmade

/-- A transaction makes the user an administrator, deletes his rule, and is committed.  The deletion
moves the counter that the promotion has read. -/
def promotionBeforeDeletion : List Event :=
  [.openScope 0 0, .move 0 (.invoke (.syncUserRole someUser .admin)),
    .move 0 (.askWithin someStore), .move 0 (.proceed .receive)] ++
  List.replicate 5 (.move 0 (.proceed .advance)) ++
  [.move 0 .finish, .move 0 (.invoke (.delete someUser someResource)),
    .move 0 (.askWithin someStore), .move 0 (.proceed .receive), .move 0 (.proceed .advance),
    .move 0 .finish, .move 0 (.invoke .commit), .move 0 (.askWithin ∅), .move 0 (.proceed .receive)] ++
  List.replicate 6 (.move 0 (.proceed .advance))

theorem promotion_unmade_by_deletion : ∃ system,
    (opened someStore someBase).run promotionBeforeDeletion = some system ∧ system.Idle ∧
      Unmade someUser (opened someStore someBase) promotionBeforeDeletion := by
  have hrun : ((opened someStore someBase).run promotionBeforeDeletion).any (fun system =>
      decide system.Idle && system.backend.store.users.get? someUser == some .admin &&
        (system.backend.cacheOf 0).answerTo (.validateAccess pageCheck) == .error .accessDenied) =
      true := by decide
  obtain ⟨system, hrun, htest⟩ := (Option.any_eq_true ..).1 hrun
  simp only [Bool.and_eq_true, decide_eq_true_eq, beq_iff_eq] at htest
  obtain ⟨⟨hidle, hrole⟩, hdenied⟩ := htest
  have hheard : ∀ moment event,
      (opened someStore someBase).Meets promotionBeforeDeletion moment event →
        ¬moment.DropsAnswer event := by
    intro moment event hmeets hdrops
    obtain ⟨id, progress, rfl, hfails⟩ := hdrops.fails
    have hmem : .move id (.proceed progress) ∈ promotionBeforeDeletion := hmeets.mem
    simp only [promotionBeforeDeletion, List.mem_append, List.mem_cons, List.mem_replicate,
      Event.move.injEq, Move.proceed.injEq, reduceCtorEq, List.not_mem_nil] at hmem
    have hheeded : progress = .receive ∨ progress = .advance := by
      grind
    rcases hheeded with rfl | rfl
    · cases hfails
    · cases hfails
  have hlearned : (opened someStore someBase).Learned someUser promotionBeforeDeletion := by
    refine .inr ⟨_, .move 0 (.askWithin ∅), ⟨promotionBeforeDeletion.take 16,
      promotionBeforeDeletion.drop 17, rfl, rfl⟩, ?_⟩
    decide
  refine ⟨system, hrun, hidle, ?_⟩
  rcases promotions_stand hrun hheard hidle ⟨.admin, hrole, rfl⟩ hlearned with hpasses | hunmade
  · rw [hpasses pageCheck 0 rfl] at hdenied
    cases hdenied
  · exact hunmade

/-- The commit has been answered, no call is under way, the store has the user as an administrator,
and his check is denied. -/
theorem administrator_denied_after_commit : ∃ system,
    (opened someStore someBase).run promotionBeforeDeletion = some system ∧
      system.answer? 0 .commit = some (.ok ()) ∧ system.Idle ∧
      system.backend.store.users.get? someUser = some .admin ∧
      (system.backend.cacheOf 0).answerTo (.validateAccess pageCheck) = .error .accessDenied :=
  ⟨_, rfl, by decide, by decide, by decide, by decide⟩

end System

end AccessControl
