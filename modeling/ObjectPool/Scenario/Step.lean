/-
  ObjectPool.Scenario.Step

  The steps of a scenario and how they are read. What a step does is known by its
  name; most steps work on a pool, which has a name of its own.
-/

import ObjectPool.Config.Json
import ObjectPool.Exposition.Json
import ObjectPool.Scenario.Factory

namespace ObjectPool.Scenario

/-- Why a step was not carried out. -/
inductive Refusal where
  | badRequest
  | noPool
  | noHandle
  | nameInUse
  | locked
  | notLocked
  | notInHook
  | tooBig
  deriving DecidableEq

namespace Refusal

/-- The refusal's name. -/
def label : Refusal → String
  | badRequest => "BadRequest"
  | noPool => "NoPool"
  | noHandle => "NoHandle"
  | nameInUse => "NameInUse"
  | locked => "Locked"
  | notLocked => "NotLocked"
  | notInHook => "NotInHook"
  | tooBig => "TooBig"

end Refusal

/-- A step that works on no pool, or on one that need not exist. -/
inductive Solo where
  | new (config : Config) (factory : Factory)
  | advance (amount : Duration)
  | drop (handle : String)
  | access (handle : String) (set : Option Int64) (add : Int64)
  | lock (handle : String)
  | unlock (handle : String) (add : Int64)
  | markUsed (handle : String)
  | info (handle : String)

/-- A step that works on a pool. -/
inductive Pooled where
  | borrow (name : String) (timeout : Option Duration)
  | borrowLater (name : String)
  | tryBorrow (name : String)
  | giveBack (handle : String)
  | invalidate (handle : String)
  | add
  | prepare
  | maintain
  | clear
  | close
  | dropPool
  | factory (changes : Json)
  | metrics
  | exported
  | prometheus (name : String) (tags : List Exposition.Label)
  | config
  | debug

/-- How far the clock moves at most in one step. -/
def longestAdvance : Nat := Nat.pow 2 40 * Duration.perSecond

/-- The names of the steps that work on no pool, or on one that need not exist. -/
def soloNames : List String :=
  ["new", "advance", "drop", "with", "lock", "unlock", "mark_used", "info"]

/-- The names of the steps that the factory cannot run. -/
def outerNames : List String := ["new", "borrow", "borrow_async", "lock", "unlock", "drop_pool"]

/-- A step that works on no pool, by its name. -/
def Solo.ofJson? (op : String) (j : Json) : Option Solo := do
  let handle := j.required "h" Json.str?
  match op with
  | "new" =>
    let config ← j.fieldOr "config" Config.ofJson? {}
    let factory ← j.fieldOr "factory" Factory.ofJson? {}
    pure (new config factory)
  | "advance" =>
    let d ← j.required "by" Duration.ofJson?
    if d.nanos ≤ longestAdvance then pure (advance d) else none
  | "drop" => handle.map drop
  | "with" =>
    let h ← handle
    let set ← j.fieldOpt "set" Json.int64?
    let add ← j.fieldOr "add" Json.int64? 0
    pure (access h set add)
  | "lock" => handle.map lock
  | "unlock" =>
    let h ← handle
    let add ← j.fieldOr "add" Json.int64? 0
    pure (unlock h add)
  | "mark_used" => handle.map markUsed
  | "info" => handle.map info
  | _ => none

/-- A step that works on a pool, by its name. -/
def Pooled.ofJson? (op : String) (j : Json) : Option Pooled := do
  let name := j.required "as" Json.str?
  let handle := j.required "h" Json.str?
  match op with
  | "borrow" =>
    let n ← name
    let timeout ← j.fieldOpt "timeout" Duration.ofJson?
    pure (borrow n timeout)
  | "borrow_async" => name.map borrowLater
  | "try_borrow" => name.map tryBorrow
  | "return" => handle.map giveBack
  | "invalidate" => handle.map invalidate
  | "add" => pure add
  | "prepare" => pure prepare
  | "maintain" => pure maintain
  | "clear" => pure clear
  | "close" => pure close
  | "drop_pool" => pure dropPool
  | "factory" => (Script.update {} j).map fun _ => factory j
  | "metrics" => pure metrics
  | "export" => pure exported
  | "prometheus" =>
    let n ← j.required "name" Json.str?
    let tags ← j.fieldOr "tags" Exposition.tags? []
    pure (prometheus n tags)
  | "config" => pure config
  | "debug" => pure debug
  | _ => none

end ObjectPool.Scenario
