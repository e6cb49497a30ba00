/-!
# Counters of the read path

Counters are machine words and wrap around.
-/

namespace AccessControl

/-- What is counted about reads. -/
inductive Counter where
  /-- Answered by the engine. -/
  | hits
  /-- Left to the store. -/
  | misses
  /-- The store's yes was written into the engine. -/
  | repairs
  /-- The store's yes was older than a revocation, so it was not written into the engine. -/
  | staleRepairs
  /-- The engine failed while the store's yes was to be written into it. -/
  | repairFailures
  deriving DecidableEq, Repr

/-- The counters of one coordinator and of the scopes it opened. -/
structure Counters where
  hits : UInt64 := 0
  misses : UInt64 := 0
  repairs : UInt64 := 0
  staleRepairs : UInt64 := 0
  repairFailures : UInt64 := 0
  deriving DecidableEq, Repr

namespace Counters

instance : Inhabited Counters := ⟨{}⟩

/-- The counters after one more event. -/
def count (counters : Counters) : Counter → Counters
  | .hits => { counters with hits := counters.hits + 1 }
  | .misses => { counters with misses := counters.misses + 1 }
  | .repairs => { counters with repairs := counters.repairs + 1 }
  | .staleRepairs => { counters with staleRepairs := counters.staleRepairs + 1 }
  | .repairFailures => { counters with repairFailures := counters.repairFailures + 1 }

end Counters

end AccessControl
