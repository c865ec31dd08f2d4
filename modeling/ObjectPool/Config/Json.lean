/-
  ObjectPool.Config.Json

  The settings of a pool read from a JSON document and shown as one. A length of
  time is read as nanoseconds or as a pair of seconds and nanoseconds, and shown
  as a pair. A setting that is missing keeps its default.
-/

import ObjectPool.Config
import ObjectPool.Json.Reader

namespace ObjectPool

namespace Duration

/-- A length of time: nanoseconds, or seconds and nanoseconds. -/
def ofJson? : Json → Option Duration
  | .arr [s, n] => do
    let s ← s.nat?
    let n ← n.nat?
    if n < perSecond then pure (ofParts s n) else none
  | j => j.nat?.map Duration.mk

/-- A length of time as seconds and nanoseconds. -/
def json (d : Duration) : Json := .arr [Json.nat d.seconds, Json.nat d.beyond]

/-- A length of time that may be missing. -/
def jsonOpt : Option Duration → Json
  | some d => Duration.json d
  | none => .null

end Duration

namespace HandOut

/-- An order, read from its name or from an object whose one member has that name
    and no value. -/
def ofJson? : Json → Option HandOut
  | .str s => ofName? s
  | .obj [(k, .null)] => ofName? k
  | _ => none

/-- The order as its name. -/
def json (h : HandOut) : Json := .str h.name

end HandOut

namespace Eviction

/-- A rule: `"none"`, or an object with one of `ttl` and `idle`, or both. -/
def ofJson? (j : Json) : Option Eviction :=
  match j with
  | .str s => if s = "none" then some never else none
  | .obj _ => do
    let ttl ← j.fieldOpt "ttl" Duration.ofJson?
    let idle ← j.fieldOpt "idle" Duration.ofJson?
    match ttl, idle with
    | some t, some d => pure (combined t d)
    | some t, none => pure (timeToLive t)
    | none, some d => pure (idleTimeout d)
    | none, none => none
  | _ => none

/-- The rule as it is read. -/
def json : Eviction → Json
  | never => .str "none"
  | timeToLive t => Json.record [("ttl", Duration.json t)]
  | idleTimeout d => Json.record [("idle", Duration.json d)]
  | combined t d => Json.record [("idle", Duration.json d), ("ttl", Duration.json t)]

end Eviction

namespace Trigger

/-- The trigger of a given name. -/
def ofName? (s : String) : Option Trigger :=
  if s = "default" then some scarce
  else if s = "always" then some always
  else if s = "never" then some never
  else if s = "no_idle" then some noneIdle
  else if s = "full" then some full
  else if s = "waiters" then some awaited
  else none

end Trigger

namespace Sink

/-- The sink of a given name. -/
def ofName? (s : String) : Option Sink :=
  if s = "events" then some caller
  else if s = "tracing" then some journal
  else none

end Sink

namespace Abandonment

/-- The settings on abandoned objects, with reports going to the caller unless
    the document says otherwise. -/
def ofJson? (j : Json) : Option Abandonment := do
  let base : Abandonment := {}
  let _ ← j.obj?
  let onBorrow ← j.fieldOr "on_borrow" Json.bool? base.onBorrow
  let onUpkeep ← j.fieldOr "on_maintenance" Json.bool? base.onUpkeep
  let timeout ← j.fieldOr "timeout" Duration.ofJson? base.timeout
  let log ← j.fieldOpt "log" Json.bool?
  let (reported, fullStack) ← match log with
    | some b => (j.fieldOr "full_stack" Json.bool? true).map fun f => (b, f)
    | none => some (base.reported, base.fullStack)
  let tracksUse ← j.fieldOr "usage_tracking" Json.bool? base.tracksUse
  let trigger ← j.memberOr "trigger" (fun v => v.str?.bind Trigger.ofName?) base.trigger
  let sink ← j.memberOr "sink" (fun v => v.str?.bind Sink.ofName?) .caller
  pure { onBorrow, onUpkeep, timeout, reported, fullStack, tracksUse, trigger, sink }

/-- The settings on abandoned objects, with their own text. -/
def json (a : Abandonment) : Json :=
  Json.record
    [ ("on_borrow", .bool a.onBorrow), ("on_maintenance", .bool a.onUpkeep),
      ("timeout", Duration.json a.timeout), ("log", .bool a.reported),
      ("full_stack", .bool a.fullStack), ("usage_tracking", .bool a.tracksUse),
      ("debug", .str a.text) ]

end Abandonment

namespace Config

/-- The settings in an object. -/
def ofJson? (j : Json) : Option Config := do
  let base : Config := {}
  let _ ← j.obj?
  let maxTotal ← j.fieldOr "max_total" Json.nat? base.maxTotal
  let maxIdle ← j.fieldOr "max_idle" Json.nat? base.maxIdle
  let minIdle ← j.fieldOr "min_idle" Json.nat? base.minIdle
  let handOut ← j.memberOr "ordering" HandOut.ofJson? base.handOut
  let maxWait ← j.fieldOpt "max_wait" Duration.ofJson?
  let blocks ← j.fieldOr "block" Json.bool? base.blocks
  let testOnCreate ← j.fieldOr "test_on_create" Json.bool? base.testOnCreate
  let testOnBorrow ← j.fieldOr "test_on_borrow" Json.bool? base.testOnBorrow
  let testOnReturn ← j.fieldOr "test_on_return" Json.bool? base.testOnReturn
  let testWhileIdle ← j.fieldOr "test_while_idle" Json.bool? base.testWhileIdle
  let eviction ← j.memberOr "eviction" Eviction.ofJson? base.eviction
  let upkeepEvery ← j.fieldOpt "maintenance_interval" Duration.ofJson?
  let abandonment ← j.fieldOpt "abandoned" Abandonment.ofJson?
  pure
    { maxTotal, maxIdle, minIdle, handOut, maxWait, blocks, testOnCreate, testOnBorrow,
      testOnReturn, testWhileIdle, eviction, upkeepEvery, abandonment }

/-- The settings as an object, with the interval of upkeep that they lead to. -/
def json (c : Config) : Json :=
  Json.record
    [ ("max_total", Json.nat c.maxTotal), ("max_idle", Json.nat c.maxIdle),
      ("min_idle", Json.nat c.minIdle), ("ordering", c.handOut.json),
      ("max_wait", Duration.jsonOpt c.maxWait), ("block", .bool c.blocks),
      ("test_on_create", .bool c.testOnCreate), ("test_on_borrow", .bool c.testOnBorrow),
      ("test_on_return", .bool c.testOnReturn), ("test_while_idle", .bool c.testWhileIdle),
      ("eviction", c.eviction.json), ("maintenance_interval", Duration.jsonOpt c.upkeepEvery),
      ("effective_maintenance_interval", Duration.jsonOpt c.upkeepInterval),
      ("abandoned", (c.abandonment.map Abandonment.json).getD .null) ]

end Config

end ObjectPool
