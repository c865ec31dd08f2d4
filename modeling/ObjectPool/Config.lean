/-
  ObjectPool.Config

  The settings of a pool: how many objects it may have, which idle object is
  lent first, how long a borrower waits, when objects are tried out, which idle
  objects are evicted, and when a lent object counts as abandoned.

    * `Eviction.evicts` — whether an idle object has to go.
    * `Trigger` — when a borrow looks for abandoned objects first.
    * `Config.fault?` — the first contradiction in the settings, if there is one.
-/

import ObjectPool.Census
import ObjectPool.Fault

namespace ObjectPool

/-! ## Which idle object is lent first -/

/-- The order in which idle objects are lent. -/
inductive HandOut where
  /-- The one returned last goes first. -/
  | lifo
  /-- The one idle for longest goes first. -/
  | fifo
  deriving DecidableEq

namespace HandOut

/-- The order's name. -/
def name : HandOut → String
  | lifo => "Lifo"
  | fifo => "Fifo"

/-- The order of a given name. -/
def ofName? (s : String) : Option HandOut := [lifo, fifo].find? (·.name == s)

end HandOut

/-! ## Which idle objects are evicted -/

/-- The rule by which the idle sweep removes objects. -/
inductive Eviction where
  /-- None is removed. -/
  | never
  /-- Those older than `ttl`, however few remain. -/
  | timeToLive (ttl : Duration)
  /-- Those idle for longer than `timeout`, while more than the reserve remain. -/
  | idleTimeout (timeout : Duration)
  /-- Those that either rule removes. -/
  | combined (ttl timeout : Duration)
  deriving DecidableEq

/-- What the idle sweep knows of one object when it applies the rule. -/
structure Candidate where
  /-- Time since the object was made. -/
  age : Duration
  /-- Time since it was last returned. -/
  idleTime : Duration
  /-- Idle objects left at this point of the sweep, this one among them. -/
  idleCount : Nat
  /-- The reserve of idle objects to keep. -/
  minIdle : Nat

namespace Eviction

/-- Whether an object has been idle for too long and can be spared. -/
def outstayed (timeout : Duration) (c : Candidate) : Bool :=
  decide (timeout.nanos < c.idleTime.nanos) && decide (c.minIdle < c.idleCount)

/-- Whether the rule removes an object. -/
def evicts : Eviction → Candidate → Bool
  | never, _ => false
  | timeToLive ttl, c => decide (ttl.nanos < c.age.nanos)
  | idleTimeout timeout, c => outstayed timeout c
  | combined ttl timeout, c => decide (ttl.nanos < c.age.nanos) || outstayed timeout c

end Eviction

/-! ## When a lent object counts as abandoned -/

/-- Decides from the counts whether a borrow first looks for abandoned objects. -/
abbrev Trigger := Status → Bool

namespace Trigger

/-- Fewer than two idle objects and fewer than three free places. -/
def scarce : Trigger := fun s => decide (s.idle < 2) && decide (s.maxTotal < s.active + 3)

/-- At every borrow. -/
def always : Trigger := fun _ => true

/-- At no borrow. -/
def never : Trigger := fun _ => false

/-- When no object is idle. -/
def noneIdle : Trigger := fun s => decide (s.idle = 0)

/-- When as many objects are lent as the pool may have. -/
def full : Trigger := fun s => decide (s.maxTotal ≤ s.active)

/-- When a borrower is waiting. -/
def awaited : Trigger := fun s => decide (0 < s.waiters)

end Trigger

/-- Where a report on an abandoned object goes. -/
inductive Sink where
  /-- Into the pool's own journal, as a warning. -/
  | journal
  /-- To whoever uses the pool. -/
  | caller
  deriving DecidableEq

/-- When and how objects are taken back from borrowers that stopped using them. -/
structure Abandonment where
  /-- A borrow looks for abandoned objects first, if the trigger says so. -/
  onBorrow : Bool := false
  /-- Every upkeep looks for abandoned objects. -/
  onUpkeep : Bool := false
  /-- How long an object may go unused. -/
  timeout : Duration := .ofSeconds 300
  /-- Each object taken back is reported. -/
  reported : Bool := false
  /-- Reports show the whole call stack and not just the calling line. -/
  fullStack : Bool := true
  /-- Every access to an object counts as a use. -/
  tracksUse : Bool := false
  trigger : Trigger := Trigger.scarce
  sink : Sink := .journal

namespace Abandonment

/-- The settings on one line; trigger and sink have no text. -/
def text (a : Abandonment) : String :=
  "AbandonedConfig \x7b remove_on_borrow: " ++ toString a.onBorrow ++
    ", remove_on_maintenance: " ++ toString a.onUpkeep ++
    ", timeout: " ++ a.timeout.text ++
    ", log_abandoned: " ++ toString a.reported ++
    ", require_full_stack_trace: " ++ toString a.fullStack ++
    ", use_usage_tracking: " ++ toString a.tracksUse ++ ", .. \x7d"

end Abandonment

/-! ## All settings -/

/-- A contradiction in the settings. -/
inductive ConfigFault where
  | noCapacity
  | reserveAboveCeiling (minIdle maxIdle : Nat)
  | noAbandonTimeout
  deriving DecidableEq

namespace ConfigFault

/-- The contradiction in words. -/
def message : ConfigFault → String
  | noCapacity => "max_total must be greater than 0"
  | reserveAboveCeiling minIdle maxIdle =>
    "min_idle (" ++ toString minIdle ++ ") must not exceed max_idle (" ++ toString maxIdle ++ ")"
  | noAbandonTimeout => "abandoned timeout must be greater than zero"

end ConfigFault

/-- The settings of a pool, fixed when it is made. -/
structure Config where
  /-- The most objects alive at once. -/
  maxTotal : Nat := 8
  /-- The most idle objects kept after a return. -/
  maxIdle : Nat := 8
  /-- The reserve of idle objects that upkeep restores. -/
  minIdle : Nat := 0
  handOut : HandOut := .lifo
  /-- How long a borrow waits, for ever if `none`. -/
  maxWait : Option Duration := none
  /-- A borrow waits when nothing is to be had. -/
  blocks : Bool := true
  testOnCreate : Bool := false
  testOnBorrow : Bool := false
  testOnReturn : Bool := false
  /-- Idle objects that the sweep leaves are tried out. -/
  testWhileIdle : Bool := false
  eviction : Eviction := .idleTimeout (.ofSeconds 1800)
  /-- The time between two rounds of background upkeep. -/
  upkeepEvery : Option Duration := none
  abandonment : Option Abandonment := none

namespace Config

/-- The time between two rounds of upkeep, if there is background upkeep. -/
def upkeepInterval (c : Config) : Option Duration :=
  c.upkeepEvery.filter fun d => decide (d.nanos ≠ 0)

/-- The first contradiction in the settings. -/
def fault? (c : Config) : Option ConfigFault :=
  if c.maxTotal = 0 then some .noCapacity
  else if c.maxIdle < c.minIdle then some (.reserveAboveCeiling c.minIdle c.maxIdle)
  else if c.abandonment.any fun a => decide (a.timeout.nanos = 0) then some .noAbandonTimeout
  else none

/-- The error with which contradictory settings are refused. -/
def validate (c : Config) : Except PoolError Unit :=
  match c.fault? with
  | some f => .error (.invalidConfiguration f.message)
  | none => .ok ()

theorem minIdle_le_of_valid {c : Config} (h : c.fault? = none) : c.minIdle ≤ c.maxIdle := by
  unfold fault? at h
  split at h
  · simp at h
  · split at h
    · simp at h
    · omega

end Config

end ObjectPool
