import AccessControl.Proofs.ScopeStep

/-!
# The invariant of the system

In a sound system the engine holds a privilege only if it is backed, or if some party covers it.
Every party is in order, and no row stands in the drafts of two parties.  Each event keeps a system
sound, and so does a run.
-/

namespace AccessControl

namespace System

variable {privilege : Privilege} {system next : System} {id other : Nat} {party : Party} {row : Row}

/-- Some party covers the privilege. -/
def Covered (privilege : Privilege) (system : System) : Prop :=
  ∃ id party, system.parties.get? id = some party ∧ party.Covers privilege

/-- A party other than the given ones covers the privilege. -/
def CoveredBesides (privilege : Privilege) (system : System) (ids : List Nat) : Prop :=
  ∃ id party, id ∉ ids ∧ system.parties.get? id = some party ∧ party.Covers privilege

/-- The system is sound for one privilege. -/
structure Sound (privilege : Privilege) (system : System) : Prop where
  trusted : system.backend.Trusted
  held : system.backend.Holds privilege →
    system.backend.Backs privilege ∨ system.Covered privilege
  inOrder : ∀ id party, system.parties.get? id = some party →
    party.InOrder privilege system.backend (system.CoveredBesides privilege [id])
  apart : ∀ id party, system.parties.get? id = some party →
    ∀ row ∈ party.rows, row ∉ system.lockedFor id

theorem mem_lockedFor : row ∈ system.lockedFor id ↔
    ∃ other party, other ≠ id ∧ system.parties.get? other = some party ∧ row ∈ party.rows := by
  simp only [lockedFor, Table.values, List.mem_flatMap, List.mem_map, Prod.exists]
  constructor
  · rintro ⟨party, ⟨other, found, hmem, rfl⟩, hrow⟩
    rw [Table.mem_rows_iff, Table.get?_erase] at hmem
    split at hmem
    · simp at hmem
    · exact ⟨other, found, ‹_›, hmem, hrow⟩
  · rintro ⟨other, party, hne, hget, hrow⟩
    refine ⟨party, ⟨other, party, ?_, rfl⟩, hrow⟩
    rw [Table.mem_rows_iff, Table.get?_erase, if_neg hne, hget]

/-- A party of the system covers the privilege, or another one does. -/
theorem covered_iff (hget : system.parties.get? id = some party) :
    system.Covered privilege ↔
      party.Covers privilege ∨ system.CoveredBesides privilege [id] := by
  constructor
  · rintro ⟨other, found, hother, hcovers⟩
    by_cases h : other = id
    · subst h
      obtain rfl := Option.some.inj (hget.symm.trans hother)
      exact .inl hcovers
    · exact .inr ⟨other, found, by simpa using h, hother, hcovers⟩
  · rintro (hcovers | ⟨other, found, -, hother, hcovers⟩)
    · exact ⟨id, party, hget, hcovers⟩
    · exact ⟨other, found, hother, hcovers⟩

theorem coveredBesides_iff (hget : system.parties.get? id = some party) (hne : id ≠ other) :
    system.CoveredBesides privilege [other] ↔
      party.Covers privilege ∨ system.CoveredBesides privilege [other, id] := by
  constructor
  · rintro ⟨third, found, hthird, hfound, hcovers⟩
    by_cases h : third = id
    · subst h
      obtain rfl := Option.some.inj (hget.symm.trans hfound)
      exact .inl hcovers
    · exact .inr ⟨third, found, by simp_all, hfound, hcovers⟩
  · rintro (hcovers | ⟨third, found, hthird, hfound, hcovers⟩)
    · exact ⟨id, party, by simpa using hne, hget, hcovers⟩
    · exact ⟨third, found, by simp_all, hfound, hcovers⟩

/-! ## A party moves -/

section

variable {after : Backend} {party' : Party}

/-- The system after one party has moved. -/
abbrev moved (system : System) (id : Nat) (party : Party) (backend : Backend) : System :=
  ⟨backend, system.parties.insert id party⟩

theorem get?_moved : (system.moved id party' after).parties.get? other =
    if other = id then some party' else system.parties.get? other :=
  Table.get?_insert

theorem get?_moved_self : (system.moved id party' after).parties.get? id = some party' := by
  rw [get?_moved, if_pos rfl]

/-- What the others cover does not depend on the party that moves. -/
theorem coveredBesides_moved {ids : List Nat} (hmem : id ∈ ids) :
    (system.moved id party' after).CoveredBesides privilege ids ↔
      system.CoveredBesides privilege ids := by
  have hne : ∀ other, other ∉ ids → other ≠ id := fun other hother heq =>
    hother (heq.symm ▸ hmem)
  constructor
  · rintro ⟨other, found, hother, hfound, hcovers⟩
    rw [get?_moved, if_neg (hne other hother)] at hfound
    exact ⟨other, found, hother, hfound, hcovers⟩
  · rintro ⟨other, found, hother, hfound, hcovers⟩
    refine ⟨other, found, hother, ?_, hcovers⟩
    rw [get?_moved, if_neg (hne other hother), hfound]

theorem lockedFor_moved :
    row ∈ (system.moved id party' after).lockedFor id ↔ row ∈ system.lockedFor id := by
  rw [mem_lockedFor, mem_lockedFor]
  constructor
  · rintro ⟨other, found, hne, hfound, hrow⟩
    rw [get?_moved, if_neg hne] at hfound
    exact ⟨other, found, hne, hfound, hrow⟩
  · rintro ⟨other, found, hne, hfound, hrow⟩
    refine ⟨other, found, hne, ?_, hrow⟩
    rw [get?_moved, if_neg hne, hfound]

/-- A system stays sound when one of its parties moves. -/
theorem Sound.moved (h : system.Sound privilege) (hget : system.parties.get? id = some party)
    (hfew : after.revocations < UInt64.size)
    (hkeeps : Party.Keeps privilege (system.lockedFor id) (system.CoveredBesides privilege [id])
      system.backend after party party') :
    (system.moved id party' after).Sound privilege := by
  have hget' : (system.moved id party' after).parties.get? id = some party' := by
    rw [get?_moved, if_pos rfl]
  refine ⟨hkeeps.trusted, ?_, fun other found hfound => ?_, fun other found hfound row hrow => ?_⟩
  · rw [covered_iff hget', coveredBesides_moved (List.mem_singleton_self id)]
    exact hkeeps.held fun hholds => (h.held hholds).imp_right (covered_iff hget).1
  · rw [get?_moved] at hfound
    split at hfound
    case isTrue heq =>
      obtain rfl := Option.some.inj hfound
      rw [heq, coveredBesides_moved (List.mem_singleton_self id)]
      exact hkeeps.inOrder
    case isFalse hne =>
      -- to another party, the mover is one of those that may cover the privilege
      refine Party.InOrder.shift ?_ hfew (fun row hrow => ?_) (h.inOrder other found hfound)
      · rw [coveredBesides_iff hget' (Ne.symm hne), coveredBesides_iff hget (Ne.symm hne),
          coveredBesides_moved (by simp)]
        exact hkeeps.shift.or_right
      · exact hkeeps.undisturbed row (mem_lockedFor.2 ⟨other, found, hne, hfound, hrow⟩)
  · rw [get?_moved] at hfound
    split at hfound
    case isTrue heq =>
      obtain rfl := Option.some.inj hfound
      rw [heq, lockedFor_moved]
      exact (hkeeps.rows row hrow).elim (h.apart id party hget row) fun hfree => hfree
    case isFalse hne =>
      rw [mem_lockedFor]
      rintro ⟨third, holder, hthird, hholder, hheld⟩
      rw [get?_moved] at hholder
      split at hholder
      case isTrue heq =>
        obtain rfl := Option.some.inj hholder
        rcases hkeeps.rows row hheld with hold | hfree
        · refine h.apart id party hget row hold (mem_lockedFor.2 ?_)
          exact ⟨other, found, hne, hfound, hrow⟩
        · exact hfree (mem_lockedFor.2 ⟨other, found, hne, hfound, hrow⟩)
      case isFalse =>
        refine h.apart other found hfound row hrow (mem_lockedFor.2 ?_)
        exact ⟨third, holder, hthird, hholder, hheld⟩

end

/-! ## A party comes or goes -/

/-- Parties that cover a privilege and are still there cover it still. -/
theorem CoveredBesides.mono {ids : List Nat}
    (hsame : ∀ other party, system.parties.get? other = some party → party.Covers privilege →
      next.parties.get? other = some party)
    (h : system.CoveredBesides privilege ids) : next.CoveredBesides privilege ids := by
  obtain ⟨other, party, hother, hget, hcovers⟩ := h
  exact ⟨other, party, hother, hsame other party hget hcovers, hcovers⟩

/-- A system stays sound when a party comes in that has written nothing and covers nothing. -/
theorem Sound.entered (h : system.Sound privilege) (hfree : system.parties.get? id = none)
    (hfew : system.backend.revocations < UInt64.size) (hrows : party.rows = [])
    (horder : ∀ others, party.InOrder privilege system.backend others) :
    (system.moved id party system.backend).Sound privilege := by
  have hsame : ∀ other found, system.parties.get? other = some found →
      (system.moved id party system.backend).parties.get? other = some found := by
    intro other found hfound
    rw [get?_moved, if_neg, hfound]
    rintro rfl
    simp [hfree] at hfound
  refine ⟨h.trusted, fun hholds => (h.held hholds).imp_right ?_, fun other found hfound => ?_,
    fun other found hfound row hrow => ?_⟩
  · rintro ⟨other, found, hfound, hcovers⟩
    exact ⟨other, found, hsame other found hfound, hcovers⟩
  · rw [get?_moved] at hfound
    split at hfound
    case isTrue =>
      obtain rfl := Option.some.inj hfound
      exact horder _
    case isFalse =>
      refine (h.inOrder other found hfound).shift (.of_imp ?_) hfew fun row _ => .refl _ row
      exact CoveredBesides.mono fun third holder hholder _ => hsame third holder hholder
  · rw [get?_moved] at hfound
    split at hfound
    case isTrue =>
      obtain rfl := Option.some.inj hfound
      simp [hrows] at hrow
    case isFalse =>
      rw [mem_lockedFor]
      rintro ⟨third, holder, hthird, hholder, hheld⟩
      rw [get?_moved] at hholder
      split at hholder
      case isTrue =>
        obtain rfl := Option.some.inj hholder
        simp [hrows] at hheld
      case isFalse =>
        exact h.apart other found hfound row hrow
          (mem_lockedFor.2 ⟨third, holder, hthird, hholder, hheld⟩)

/-- A system stays sound when a party goes that covers nothing. -/
theorem Sound.discarded (h : system.Sound privilege) (hget : system.parties.get? id = some party)
    (hfew : system.backend.revocations < UInt64.size) (hcovers : ¬party.Covers privilege) :
    Sound privilege ⟨system.backend, system.parties.erase id⟩ := by
  have hsame : ∀ other found, system.parties.get? other = some found → found.Covers privilege →
      (system.parties.erase id).get? other = some found := by
    intro other found hfound hcovered
    rw [Table.get?_erase, if_neg, hfound]
    rintro rfl
    obtain rfl := Option.some.inj (hget.symm.trans hfound)
    exact hcovers hcovered
  have hrest : ∀ other found, (system.parties.erase id).get? other = some found →
      system.parties.get? other = some found := by
    intro other found hfound
    rw [Table.get?_erase] at hfound
    split at hfound
    · simp at hfound
    · exact hfound
  refine ⟨h.trusted, fun hholds => (h.held hholds).imp_right ?_, fun other found hfound => ?_,
    fun other found hfound row hrow => ?_⟩
  · rintro ⟨other, found, hfound, hcovered⟩
    exact ⟨other, found, hsame other found hfound hcovered, hcovered⟩
  · refine (h.inOrder other found (hrest other found hfound)).shift (.of_imp ?_) hfew
      fun row _ => .refl _ row
    exact CoveredBesides.mono hsame
  · rw [mem_lockedFor]
    rintro ⟨third, holder, hthird, hholder, hheld⟩
    refine h.apart other found (hrest other found hfound) row hrow (mem_lockedFor.2 ?_)
    exact ⟨third, holder, hthird, hrest third holder hholder, hheld⟩

/-! ## Events and runs -/

/-- What the events of a system are. -/
inductive Steps (system : System) : Event → System → Prop where
  | starts {id coordinator : Nat} {request : StoreRequest}
      (hfree : system.parties.get? id = none) :
      Steps system (.start id coordinator request) (system.moved id
        (.call coordinator ⟨request, .running (Coordinator.handle request), false⟩) system.backend)
  | opens {id coordinator : Nat} (hfree : system.parties.get? id = none) :
      Steps system (.openScope id coordinator)
        (system.moved id (.scope { coordinator }) system.backend)
  | moves {id : Nat} {move : Move} {party party' : Party} {after : Backend}
      (hget : system.parties.get? id = some party)
      (hmoves : party.Moves (system.lockedFor id) system.backend party' after) :
      Steps system (.move id move) (system.moved id party' after)
  | discards {id coordinator : Nat} {draft : List RowWrite} {deferred : List EngineUpdate}
      (hget : system.parties.get? id = some (.scope ⟨coordinator, draft, deferred, none⟩)) :
      Steps system (.discard id) ⟨system.backend, system.parties.erase id⟩

theorem enter_cases (h : system.enter id party = some next) :
    system.parties.get? id = none ∧ next = system.moved id party system.backend := by
  unfold enter at h
  split at h
  case h_1 hnone => exact ⟨hnone, (Option.some.inj h).symm⟩
  case h_2 => simp at h

theorem steps_of_step {event : Event} (h : system.step event = some next) :
    system.Steps event next := by
  cases event with
  | start id coordinator request =>
    obtain ⟨hfree, rfl⟩ := enter_cases h
    exact .starts hfree
  | openScope id coordinator =>
    obtain ⟨hfree, rfl⟩ := enter_cases h
    exact .opens hfree
  | move id move =>
    simp only [step] at h
    split at h
    case h_1 party hget =>
      obtain ⟨⟨party', after⟩, hmove, rfl⟩ := Option.map_eq_some_iff.1 h
      exact .moves hget (Party.moves_of_move hmove)
    case h_2 => simp at h
  | discard id =>
    simp only [step] at h
    split at h
    case h_1 hget =>
      obtain rfl := Option.some.inj h
      exact .discards hget
    case h_2 => simp at h

/-- A system that nobody uses yet is sound if its store backs what its engine holds. -/
theorem sound_opened {store : MemoryStore} {base : FactBase}
    (h : base.Holds privilege → store.Backs privilege) :
    (opened store base).Sound privilege :=
  ⟨rfl, fun hholds => .inl (h hholds), fun _ _ hget => by simp [opened] at hget,
    fun _ _ hget => by simp [opened] at hget⟩

/-- An event keeps a system sound. -/
theorem Sound.step {event : Event} (h : system.Sound privilege)
    (hstep : system.Steps event next) (hfew : next.backend.revocations < UInt64.size) :
    next.Sound privilege := by
  cases hstep with
  | starts hfree =>
    refine h.entered hfree hfew rfl fun others => .inl ?_
    exact ⟨fun _ => False, fun _ => False.elim, Coordinator.handle_until _⟩
  | opens hfree => exact h.entered hfree hfew rfl fun others => Ledger.fresh
  | moves hget hmoves =>
    exact h.moved hget hfew (hmoves.keeps h.trusted hfew (h.apart _ _ hget) (h.inOrder _ _ hget))
  | discards hget => exact h.discarded hget hfew (by simp [Party.Covers])

/-- No event takes back that a counter has moved. -/
theorem Steps.revocations {event : Event} (h : system.Steps event next) :
    system.backend.revocations ≤ next.backend.revocations := by
  cases h with
  | moves _ hmoves => exact hmoves.revocations
  | _ => exact Nat.le_refl _

theorem run_cons {event : Event} {rest : List Event}
    (h : system.run (event :: rest) = some next) :
    ∃ middle, system.Steps event middle ∧ middle.run rest = some next := by
  obtain ⟨middle, hstep, hrest⟩ := Option.bind_eq_some_iff.1 h
  exact ⟨middle, steps_of_step hstep, hrest⟩

theorem run_revocations {events : List Event} (h : system.run events = some next) :
    system.backend.revocations ≤ next.backend.revocations := by
  induction events generalizing system with
  | nil =>
    obtain rfl := Option.some.inj h
    exact Nat.le_refl _
  | cons event rest ih =>
    obtain ⟨middle, hstep, hrest⟩ := run_cons h
    exact Nat.le_trans hstep.revocations (ih hrest)

/-- A run keeps a system sound while fewer counters are moved than a counter has values. -/
theorem Sound.run {events : List Event} (h : system.Sound privilege)
    (hrun : system.run events = some next) (hfew : next.backend.revocations < UInt64.size) :
    next.Sound privilege := by
  induction events generalizing system with
  | nil =>
    obtain rfl := Option.some.inj hrun
    exact h
  | cons event rest ih =>
    obtain ⟨middle, hstep, hrest⟩ := run_cons hrun
    have hmiddle : middle.backend.revocations < UInt64.size :=
      Nat.lt_of_le_of_lt (run_revocations hrest) hfew
    exact ih (h.step hstep hmiddle) hrest

end System

end AccessControl
