/-
  ObjectPool.Journal

  What a pool writes into its journal: one constructor for each kind of record,
  with its level, its message and its fields in the order in which they are
  shown. Objects and pools are shown counted from one.
-/

import ObjectPool.Entry
import ObjectPool.Fault

namespace ObjectPool

/-- How much a record matters. -/
inductive Level where
  | error
  | warn
  | info
  | debug
  | trace
  deriving DecidableEq

namespace Level

/-- The level as it is shown. -/
def label : Level → String
  | error => "ERROR"
  | warn => "WARN"
  | info => "INFO"
  | debug => "DEBUG"
  | trace => "TRACE"

/-- How far down the levels it stands. -/
def depth : Level → Nat
  | error => 1
  | warn => 2
  | info => 3
  | debug => 4
  | trace => 5

end Level

/-- What is known of an object taken back from a borrower that had given it up. -/
structure Report where
  object : Nat
  borrowCount : Nat
  /-- Time since the later of the borrow and the last use. -/
  unused : Duration
  borrowedBy : Option Evidence
  lastUsedBy : Option Evidence
  deriving DecidableEq

/-- A record of the journal of a pool. -/
inductive Notice where
  | poolCreated (maxTotal maxIdle minIdle : Nat)
  | upkeepStarted (interval : Duration)
  | upkeepStopped
  | poolClosed
  | createFailed (reason : String)
  | idleUnusable (object : Nat) (error : PoolError)
  | lent (object : Nat)
  | strayReturn (object : Nat) (state : Lifecycle)
  | reclaimedDuringReturn (object : Nat)
  | unfitReturn (object : Nat)
  | passivateFailed (object : Nat) (reason : String)
  | idleCeiling (object : Nat)
  | returned (object : Nat)
  | destroyFailed (object : Nat) (reason : String)
  | foreignReturn (owner object : Nat)
  | idleTestFailed (object : Nat)
  | evicted (count : Nat)
  | reclaimed (count : Nat)
  | refillFailed (error : PoolError)
  | upkeepDone (evicted reclaimed made : Nat)
  | abandoned (report : Report)

/-- The value of a field of a record. -/
inductive Field where
  | number (n : Nat)
  | words (s : String)
  /-- The name of a pool. -/
  | pool (id : Nat)
  | evidence (e : Evidence)

namespace Notice

/-- How much the record matters. -/
def level : Notice → Level
  | poolCreated .. | upkeepStarted .. | upkeepStopped | poolClosed | idleUnusable ..
  | strayReturn .. | reclaimedDuringReturn .. | unfitReturn .. | idleTestFailed ..
  | evicted .. | reclaimed .. => .debug
  | createFailed .. | passivateFailed .. | destroyFailed .. | foreignReturn ..
  | refillFailed .. | abandoned .. => .warn
  | lent .. | idleCeiling .. | returned .. | upkeepDone .. => .trace

/-- The record's message. -/
def message : Notice → String
  | poolCreated .. => "pool created"
  | upkeepStarted .. => "maintenance task started"
  | upkeepStopped => "maintenance task stopped"
  | poolClosed => "pool closed"
  | createFailed .. => "factory failed to create object"
  | idleUnusable .. => "idle object unusable, destroying it"
  | lent .. => "object borrowed"
  | strayReturn .. => "ignored return of an object no longer borrowed from this pool"
  | reclaimedDuringReturn .. => "object reclaimed while being returned"
  | unfitReturn .. => "returned object failed validation"
  | passivateFailed .. => "factory failed to passivate object"
  | idleCeiling .. => "idle ceiling reached, destroying returned object"
  | returned .. => "object returned"
  | destroyFailed .. => "factory failed to destroy object"
  | foreignReturn .. => "rejected return of an object borrowed from another pool"
  | idleTestFailed .. => "idle object failed validation"
  | evicted .. => "evicted idle objects"
  | reclaimed .. => "reclaimed abandoned objects"
  | refillFailed .. => "failed to replenish idle objects"
  | upkeepDone .. => "maintenance cycle finished"
  | abandoned .. => "pooled object abandoned by its borrower and reclaimed"

/-- The field that names an object. -/
def objectField (id : Nat) : String × Field := ("object_id", .number (id + 1))

/-- A field that may be missing. -/
def evidenceField (name : String) : Option Evidence → List (String × Field)
  | some e => [(name, .evidence e)]
  | none => []

/-- The record's fields behind the one that names the pool. -/
def fields : Notice → List (String × Field)
  | poolCreated total idle reserve =>
    [("max_total", .number total), ("max_idle", .number idle), ("min_idle", .number reserve)]
  | upkeepStarted interval => [("interval", .words interval.text)]
  | upkeepStopped | poolClosed => []
  | createFailed reason => [("error", .words reason)]
  | idleUnusable id e => [objectField id, ("error", .words e.message)]
  | lent id | reclaimedDuringReturn id | unfitReturn id | idleCeiling id | returned id
  | idleTestFailed id => [objectField id]
  | strayReturn id s => [objectField id, ("state", .words s.label)]
  | passivateFailed id reason | destroyFailed id reason =>
    [objectField id, ("error", .words reason)]
  | foreignReturn owner id => [("owner", .pool owner), objectField id]
  | evicted n | reclaimed n => [("count", .number n)]
  | refillFailed e => [("error", .words e.message)]
  | upkeepDone out back made =>
    [("evicted", .number out), ("abandoned", .number back), ("replenished", .number made)]
  | abandoned r =>
    [objectField r.object, ("borrow_count", .number r.borrowCount),
     ("unused_for", .words r.unused.text)] ++
      evidenceField "borrowed_by" r.borrowedBy ++ evidenceField "last_used_by" r.lastUsedBy

end Notice

end ObjectPool
