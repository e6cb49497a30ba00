import AccessControl.Cache.Coordinator
import AccessControl.Store.Memory

/-!
# A cache over a store in memory

A store in memory, an engine and one coordinator's counters make up a cache that one party uses.
Its calls run one after another, each from its beginning to its end, so nothing comes between the
steps of a call and no call waits.
-/

namespace AccessControl

/-- A store in memory with an engine in front of it. -/
structure LocalCache where
  store : MemoryStore := ∅
  engine : Engine := {}
  counters : Counters := {}

namespace LocalCache

/-- Runs a call from its beginning to its end. -/
def run {α : Type} : Call α → LocalCache → α × LocalCache
  | .done result, cache => (result, cache)
  | .engine request next, cache =>
    let (reply, engine) := cache.engine.answer request
    run (next reply) { cache with engine }
  | .store request _ next, cache =>
    let (answer, store) := cache.store.answer request
    run (next answer) { cache with store }
  | .count counter next, cache =>
    run next { cache with counters := cache.counters.count counter }

theorem run_bind {α β : Type} (call : Call α) (next : α → Call β) (cache : LocalCache) :
    run (call.bind next) cache = run (next (run call cache).1) (run call cache).2 := by
  induction call generalizing cache with
  | done => rfl
  | engine request _ ih => exact ih _ _
  | store request _ _ ih => exact ih _ _
  | count counter _ ih => exact ih _

/-- Opens a cache over a store: a fresh engine is loaded from it. -/
def ofStore (store : MemoryStore) : Except StorageError LocalCache :=
  match run Coordinator.warmUp { store } with
  | (.ok (), cache) => .ok cache
  | (.error error, _) => .error error

end LocalCache

end AccessControl
