/-
  ObjectPool.Scenario.Factory

  Factories whose behaviour is written down. A scripted factory changes the
  resources it works on by fixed amounts, refuses as many calls as it is told to,
  and runs steps of the scenario inside its calls. A plain factory makes resources
  and never refuses anything.

    * `Factory.create`, `Factory.activate`, … — one call each: the factory after
      it, its answer, and what there is to be seen of it.
    * `Factory.due` — the steps to run inside a call.
-/

import ObjectPool.Call
import ObjectPool.Json.Reader

namespace ObjectPool.Scenario

/-- What the pools of a scenario keep: resources numbered from one by their
    factory, with a value that wraps around. -/
structure Resource where
  serial : Nat
  value : Int64
  deriving DecidableEq

/-- The services of a factory. -/
inductive Moment where
  | create
  | activate
  | validate
  | passivate
  | destroy
  deriving DecidableEq

namespace Moment

/-- The service's name. -/
def label : Moment → String
  | create => "create"
  | activate => "activate"
  | validate => "validate"
  | passivate => "passivate"
  | destroy => "destroy"

/-- The service of a given name. -/
def ofLabel? (s : String) : Option Moment :=
  [create, activate, validate, passivate, destroy].find? (·.label == s)

end Moment

/-- Which resources a factory finds fit. -/
inductive Fitness where
  | always
  | never
  | odd
  | even
  | below (bound : Int64)
  deriving DecidableEq

namespace Fitness

/-- Whether a resource of a given value is fit. -/
def holds : Fitness → Int64 → Bool
  | always, _ => true
  | never, _ => false
  | odd, v => decide (v.toInt % 2 = 1)
  | even, v => decide (v.toInt % 2 = 0)
  | below bound, v => decide (v.toInt < bound.toInt)

/-- A fitness: its name, or an object with a bound. -/
def ofJson? : Json → Option Fitness
  | .str s =>
    if s = "always" then some always
    else if s = "never" then some never
    else if s = "odd" then some odd
    else if s = "even" then some even
    else none
  | j => (j.required "below" Json.int64?).map below

end Fitness

/-- A step of the scenario that a call of the factory runs, once `skip` calls of
    that service have passed. -/
structure Hook where
  moment : Moment
  step : Json
  skip : Nat

namespace Hook

/-- A hook in an object. -/
def ofJson? (j : Json) : Option Hook := do
  let moment ← j.required "at" fun v => v.str?.bind Moment.ofLabel?
  let step ← j.required "do" fun v => v.obj?.map fun _ => v
  let skip ← j.fieldOr "skip" Json.nat? 0
  pure { moment, step, skip }

end Hook

/-- What a scripted factory does. A count of refusals below nought never runs out. -/
structure Script where
  initial : Int64 := 0
  activateAdd : Int64 := 0
  passivateAdd : Int64 := 0
  fitness : Fitness := .always
  failCreate : Int := 0
  failActivate : Int := 0
  failPassivate : Int := 0
  invalid : Int := 0
  failDestroy : Bool := false
  hooks : List Hook := []

namespace Script

/-- A count of refusals. -/
def refusals? (j : Json) : Option Int := j.int64?.map (·.toInt)

/-- The script with the settings of an object in place of its own. -/
def update (s : Script) (j : Json) : Option Script := do
  let _ ← j.obj?
  let initial ← j.fieldOr "initial" Json.int64? s.initial
  let activateAdd ← j.fieldOr "activate_add" Json.int64? s.activateAdd
  let passivateAdd ← j.fieldOr "passivate_add" Json.int64? s.passivateAdd
  let fitness ← j.memberOr "valid" Fitness.ofJson? s.fitness
  let failCreate ← j.fieldOr "fail_create" refusals? s.failCreate
  let failActivate ← j.fieldOr "fail_activate" refusals? s.failActivate
  let failPassivate ← j.fieldOr "fail_passivate" refusals? s.failPassivate
  let invalid ← j.fieldOr "invalid" refusals? s.invalid
  let failDestroy ← j.memberOr "fail_destroy" Json.bool? s.failDestroy
  let hooks ← j.memberOr "hooks" (fun v => v.arr?.bind (·.mapM Hook.ofJson?)) s.hooks
  pure
    { initial, activateAdd, passivateAdd, fitness, failCreate, failActivate, failPassivate,
      invalid, failDestroy, hooks }

end Script

/-- A factory and how many resources it has made. -/
structure Factory where
  /-- What it does, or `none` for a plain factory. -/
  script : Option Script := some {}
  made : Nat := 0

namespace Factory

/-- A factory in an object. -/
def ofJson? (j : Json) : Option Factory := do
  let kind ← j.fieldOr "kind" Json.str? "scripted"
  if kind = "fn" then pure { script := none }
  else if kind = "scripted" then (Script.update {} j).map fun s => { script := some s }
  else none

/-- One refusal less, if there are any left and they can run out. -/
def spend (n : Int) : Int := if 0 < n then n - 1 else n

/-- The text of a resource in a call. -/
def shown (m : Moment) (r : Resource) : String :=
  m.label ++ " #" ++ toString r.serial ++ " v=" ++ toString r.value.toInt

/-- What is said of a refusal. -/
def failing (b : Bool) : String := if b then " fails" else ""

/-- The reason a factory gives for a refusal. -/
def refusal (m : Moment) : String := m.label ++ " refused"

/-- A call of a factory: the factory after it, the answer it will give, and what
    there is to be seen of it. -/
structure Answered where
  factory : Factory
  response : Response Resource
  seen : Option String := none

/-- A resource is made. -/
def create (f : Factory) : Answered :=
  match f.script with
  | none =>
    { factory := { f with made := f.made + 1 }, response := .created (.ok ⟨f.made + 1, 0⟩) }
  | some s =>
    if s.failCreate ≠ 0 then
      { factory := { f with script := some { s with failCreate := spend s.failCreate } }
        response := .created (.error (refusal .create))
        seen := some "create fails" }
    else
      { factory := { f with made := f.made + 1 }
        response := .created (.ok ⟨f.made + 1, s.initial⟩)
        seen := some ("create #" ++ toString (f.made + 1)) }

/-- A resource is readied for use. -/
def activate (f : Factory) (r : Resource) : Answered :=
  match f.script with
  | none => { factory := f, response := .activated r none }
  | some s =>
    let r := { r with value := r.value + s.activateAdd }
    let fails := decide (s.failActivate ≠ 0)
    { factory := { f with script := some { s with failActivate := spend s.failActivate } }
      response := .activated r (if fails then some (refusal .activate) else none)
      seen := some (shown .activate r ++ failing fails) }

/-- A resource is checked. -/
def validate (f : Factory) (r : Resource) : Answered :=
  match f.script with
  | none => { factory := f, response := .validated true }
  | some s =>
    let fit := decide (s.invalid = 0) && s.fitness.holds r.value
    { factory := { f with script := some { s with invalid := spend s.invalid } }
      response := .validated fit
      seen := some (shown .validate r ++ " " ++ toString fit) }

/-- A resource is laid to rest. -/
def passivate (f : Factory) (r : Resource) : Answered :=
  match f.script with
  | none => { factory := f, response := .passivated r none }
  | some s =>
    let r := { r with value := r.value + s.passivateAdd }
    let fails := decide (s.failPassivate ≠ 0)
    { factory := { f with script := some { s with failPassivate := spend s.failPassivate } }
      response := .passivated r (if fails then some (refusal .passivate) else none)
      seen := some (shown .passivate r ++ failing fails) }

/-- A resource is destroyed. -/
def destroy (f : Factory) (r : Resource) (mode : DestroyMode) : Answered :=
  match f.script with
  | none => { factory := f, response := .destroyed none }
  | some s =>
    { factory := f
      response := .destroyed (if s.failDestroy then some (refusal .destroy) else none)
      seen := some (shown .destroy r ++ " " ++ mode.name ++ failing s.failDestroy) }

/-- The hooks after a call of a service, and the steps that the call runs. -/
def passHooks (m : Moment) : List Hook → List Hook × List Json
  | [] => ([], [])
  | h :: rest =>
    let (hooks, steps) := passHooks m rest
    if h.moment ≠ m then (h :: hooks, steps)
    else if 0 < h.skip then ({ h with skip := h.skip - 1 } :: hooks, steps)
    else (hooks, h.step :: steps)

/-- The factory after a call of a service, and the steps that the call runs. -/
def due (f : Factory) (m : Moment) : Factory × List Json :=
  match f.script with
  | none => (f, [])
  | some s =>
    let (hooks, steps) := passHooks m s.hooks
    ({ f with script := some { s with hooks } }, steps)

end Factory

end ObjectPool.Scenario
