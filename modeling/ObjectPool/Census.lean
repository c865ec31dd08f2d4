/-
  ObjectPool.Census

  What a pool counts: how many objects and borrowers there are at this moment
  (`Status`), and how often each thing has happened since the pool was made
  (`Counters`). Together they are the pool's `Metrics`.
-/

namespace ObjectPool

/-- How many there are of each at this moment. -/
structure Status where
  /-- Objects lent to borrowers. -/
  active : Nat
  /-- Objects waiting to be lent. -/
  idle : Nat
  /-- Borrowers waiting for an object. -/
  waiters : Nat
  /-- The most objects the pool may have. -/
  maxTotal : Nat
  deriving DecidableEq

namespace Status

/-- The counts with their names. -/
def fields (s : Status) : List (String × Nat) :=
  [("active", s.active), ("idle", s.idle), ("waiters", s.waiters), ("max_total", s.maxTotal)]

/-- The counts on one line. -/
def text (s : Status) : String :=
  "PoolStatus \x7b " ++
    String.intercalate ", " (s.fields.map fun f => f.1 ++ ": " ++ toString f.2) ++ " \x7d"

end Status

/-- How often each thing has happened in the life of a pool. -/
structure Counters where
  created : Nat := 0
  destroyed : Nat := 0
  borrowed : Nat := 0
  returned : Nat := 0
  /-- Idle objects that the eviction rule removed. -/
  evicted : Nat := 0
  /-- Lent objects taken back from borrowers that had given them up. -/
  abandoned : Nat := 0
  validationFailures : Nat := 0
  invalidReturns : Nat := 0
  /-- Borrows that ended with nothing to be had. -/
  exhausted : Nat := 0
  deriving DecidableEq

namespace Counters

/-- The counters with their names. -/
def fields (c : Counters) : List (String × Nat) :=
  [("created", c.created), ("destroyed", c.destroyed), ("borrowed", c.borrowed),
   ("returned", c.returned), ("destroyed_by_evictor", c.evicted),
   ("destroyed_by_abandonment", c.abandoned), ("validation_failures", c.validationFailures),
   ("invalid_returns", c.invalidReturns), ("exhausted_events", c.exhausted)]

end Counters

/-- All that a pool counts. -/
structure Metrics where
  counters : Counters
  status : Status
  deriving DecidableEq

namespace Metrics

/-- Everything counted, with its name. -/
def fields (m : Metrics) : List (String × Nat) := m.counters.fields ++ m.status.fields

/-- Everything counted, written out. -/
def exported (m : Metrics) : List (String × String) :=
  m.fields.map fun f => (f.1, toString f.2)

end Metrics

end ObjectPool
