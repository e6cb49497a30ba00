import AccessControl.Cache.Local
import AccessControl.Proofs.SystemInvariant

/-!
# Calls that nobody interrupts

A call to a coordinator can be run from its beginning to its end without a step of another party.
It then ends as in a cache that one party uses alone, and leaves the same store, the same engine and
the same counters.
-/

namespace AccessControl

/-- The cache that a coordinator sees. -/
def Backend.cacheOf (backend : Backend) (coordinator : Nat) : LocalCache :=
  ⟨backend.store, backend.engine, (backend.counters.get? coordinator).getD {}⟩

theorem Backend.cacheOf_count (backend : Backend) (coordinator : Nat) (counter : Counter) :
    (backend.count coordinator counter).cacheOf coordinator =
      { backend.cacheOf coordinator with
        counters := (backend.cacheOf coordinator).counters.count counter } := by
  simp [cacheOf, count]

namespace System

variable {system next : System} {id coordinator : Nat} {request : StoreRequest} {applied : Bool}
  {party : Party} {after : Backend}

theorem notMem_lockedFor_moved (h : ∀ row, row ∉ system.lockedFor id) (row : Row) :
    row ∉ (system.moved id party after).lockedFor id := by
  rw [lockedFor_moved]
  exact h row

/-- A move that a party makes is an event of the system. -/
theorem run_move {move : Move} {events : List Event} {current : Party}
    (hget : system.parties.get? id = some current)
    (hmove : current.move (system.lockedFor id) system.backend move = some (party, after))
    (hrest : (system.moved id party after).run events = some next) :
    system.run (.move id move :: events) = some next := by
  simp only [run, step, hget, hmove, Option.map_some, Option.bind_some]
  exact hrest

/-- An uninterrupted call ends as in a cache that one party uses alone. -/
theorem run_uninterrupted (call : Call request.Answer)
    (hget : system.parties.get? id = some (.call coordinator ⟨request, .running call, applied⟩))
    (hfree : ∀ row, row ∉ system.lockedFor id) :
    ∃ events next applied', system.run events = some next ∧
      next.parties.get? id = some (.call coordinator ⟨request, .running (.done
        (LocalCache.run call (system.backend.cacheOf coordinator)).1), applied'⟩) ∧
      next.backend.cacheOf coordinator =
        (LocalCache.run call (system.backend.cacheOf coordinator)).2 := by
  induction call generalizing system applied with
  | done result => exact ⟨[], system, applied, rfl, hget, rfl⟩
  | engine asked rest ih =>
    have hnext : (system.moved id
        (.call coordinator ⟨request, .running (rest (system.backend.askEngine asked).1), applied⟩)
        (system.backend.askEngine asked).2).parties.get? id = some _ := get?_moved_self
    obtain ⟨events, final, applied', hrun, hend⟩ := ih _ hnext (notMem_lockedFor_moved hfree)
    have hadvance : (Party.call coordinator ⟨request, .running (.engine asked rest), applied⟩).move
        (system.lockedFor id) system.backend (.proceed .advance) = some (_, _) := rfl
    exact ⟨_, final, applied', run_move hget hadvance hrun, hend⟩
  | store asked onUnknown rest ih =>
    have hask : asked.isFree (system.lockedFor id) = true := by
      simp [StoreRequest.isFree, hfree]
    let applied' := (system.backend.store.writeOf asked).isSome
    let answered : Party := .call coordinator
      ⟨request, .answered asked onUnknown rest (system.backend.store.answer asked).1, applied'⟩
    let after : Backend := { system.backend with store := (system.backend.store.answer asked).2 }
    have hmoved : (system.moved id answered after).parties.get? id = some answered :=
      get?_moved_self
    have hnext : ((system.moved id answered after).moved id (.call coordinator
        ⟨request, .running (rest (system.backend.store.answer asked).1), applied'⟩)
        after).parties.get? id = some _ := get?_moved_self
    obtain ⟨events, final, ended, hrun, hend⟩ :=
      ih _ hnext (notMem_lockedFor_moved (notMem_lockedFor_moved hfree))
    have hasks : (Party.call coordinator
        ⟨request, .running (.store asked onUnknown rest), applied⟩).move (system.lockedFor id)
        system.backend .ask = some (answered, after) := by
      simp [Party.move, CoordinatorFlight.ask, hask, answered, after, applied']
    have hreceives : answered.move ((system.moved id answered after).lockedFor id) after
        (.proceed .receive) = some (_, _) := rfl
    exact ⟨_, final, ended, run_move hget hasks (run_move hmoved hreceives hrun), hend⟩
  | count counter rest ih =>
    have hnext : (system.moved id (.call coordinator ⟨request, .running rest, applied⟩)
        (system.backend.count coordinator counter)).parties.get? id = some _ := get?_moved_self
    obtain ⟨events, final, applied', hrun, hend⟩ := ih hnext (notMem_lockedFor_moved hfree)
    rw [Backend.cacheOf_count] at hend
    have hadvance : (Party.call coordinator ⟨request, .running (.count counter rest), applied⟩).move
        (system.lockedFor id) system.backend (.proceed .advance) = some (_, _) := rfl
    exact ⟨_, final, applied', run_move hget hadvance hrun, hend⟩

end System

end AccessControl
