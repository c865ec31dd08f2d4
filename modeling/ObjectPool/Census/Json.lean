/-
  ObjectPool.Census.Json

  Counts and errors as JSON documents, and counts read from one.
-/

import ObjectPool.Census
import ObjectPool.Fault
import ObjectPool.Json.Reader

namespace ObjectPool

/-- Named numbers as an object. -/
def Json.ofCounts (fields : List (String × Nat)) : Json :=
  Json.record (fields.map fun f => (f.1, Json.nat f.2))

namespace Status

/-- The counts as an object. -/
def json (s : Status) : Json := Json.ofCounts s.fields

/-- The counts in an object, nought where one is missing. -/
def ofJson? (j : Json) : Option Status := do
  let active ← j.fieldOr "active" Json.nat? 0
  let idle ← j.fieldOr "idle" Json.nat? 0
  let waiters ← j.fieldOr "waiters" Json.nat? 0
  let maxTotal ← j.fieldOr "max_total" Json.nat? 0
  pure { active, idle, waiters, maxTotal }

end Status

namespace Metrics

/-- The metrics as an object, the present counts in one of their own. -/
def json (m : Metrics) : Json :=
  Json.record (("status", m.status.json) :: m.counters.fields.map fun f => (f.1, Json.nat f.2))

/-- The metrics written out, as an object. -/
def exportedJson (m : Metrics) : Json :=
  Json.record (m.exported.map fun f => (f.1, Json.str f.2))

/-- The metrics in an object, nought where one is missing. -/
def ofJson? (j : Json) : Option Metrics := do
  let status ← Status.ofJson? j
  let created ← j.fieldOr "created" Json.nat? 0
  let destroyed ← j.fieldOr "destroyed" Json.nat? 0
  let borrowed ← j.fieldOr "borrowed" Json.nat? 0
  let returned ← j.fieldOr "returned" Json.nat? 0
  let evicted ← j.fieldOr "destroyed_by_evictor" Json.nat? 0
  let abandoned ← j.fieldOr "destroyed_by_abandonment" Json.nat? 0
  let validationFailures ← j.fieldOr "validation_failures" Json.nat? 0
  let invalidReturns ← j.fieldOr "invalid_returns" Json.nat? 0
  let exhausted ← j.fieldOr "exhausted_events" Json.nat? 0
  pure
    { counters :=
        { created, destroyed, borrowed, returned, evicted, abandoned, validationFailures,
          invalidReturns, exhausted }
      status }

end Metrics

namespace PoolError

/-- The error with its name and its text. -/
def json (e : PoolError) : Json :=
  Json.record [("error", .str e.kind), ("message", .str e.message)]

end PoolError

end ObjectPool
