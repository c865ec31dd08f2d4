/-
  ObjectPool.Scenario.Perform

  One step of a scenario. A step that calls a pool leaves a call on the thread
  that carries it out, and its outcome comes when the call ends; any other step
  has its outcome at once.
-/

import ObjectPool.Exposition.Json
import ObjectPool.Scenario.Stage

namespace ObjectPool.Scenario

/-- Pools above this size are not made. -/
def largestPool : Nat := 100000

/-- The handle on one line. -/
def handleText (x : Handle) (s : Lifecycle) : String :=
  "PooledObject \x7b pool_id: " ++ toString (x.pool + 1) ++ ", object_id: " ++
    toString (x.object + 1) ++ ", state: " ++ s.name ++ " \x7d"

/-- The pool on one line. -/
def poolText (p : Nat) (s : Status) : String :=
  "GenericObjectPool \x7b id: " ++ toString (p + 1) ++ ", status: " ++ s.text ++ " \x7d"

/-- The name and the pool's name of a step. -/
def heading? (home : String) (j : Json) : Option (String × String) := do
  let op ← j.required "op" Json.str?
  let pool ← j.memberOr "pool" Json.str? home
  pure (op, pool)

namespace Stage

/-- What carrying out a step leaves behind: its outcome, or none if a call is on
    its way. -/
abbrev Carried := Stage × Option Outcome

/-- The step has its outcome. -/
def came (st : Stage) (o : Outcome) : Carried := (st, some o)

/-- The step is refused. -/
def refuse (st : Stage) (r : Refusal) : Carried := (st, some (.refused r))

/-- The step has made a call on the thread `t`. -/
def calling (st : Stage) (t : Nat) (goal : Goal) (hook : Option String) (e : Effect Resource) :
    Carried :=
  ((st.enter t (.call goal hook)).absorb t e, none)

/-- A call that begins at a point. -/
def begin (st : Stage) (t p : Nat) (goal : Goal) (hook : Option String) (point : Point Resource) :
    Carried :=
  st.calling t goal hook { world := st.world.push t ⟨p, point⟩ }

/-- A step on a handle on which nobody works. -/
def onFree (st : Stage) (name : String) (f : Nat → Handle → Carried) : Carried :=
  match st.handle? name with
  | some (h, x) => if x.guarded then st.refuse .locked else f h x
  | none => st.refuse .noHandle

/-- A step that works on no pool, or on one that need not exist. -/
def solo (st : Stage) (t : Nat) (hook : Option String) (pool : String) : Solo → Carried
  | .new config factory =>
    if (st.pool? pool).isSome then st.refuse .nameInUse
    else if largestPool < config.maxTotal then st.refuse .tooBig
    else
      match st.world.create config with
      | .error e => st.came (.failed e)
      | .ok (w, notices) =>
        let p := st.world.pools.length
        let st :=
          { st with
            world := w
            titles := st.titles ++ [pool]
            factories := st.factories ++ [factory]
            names := st.names ++ [(pool, p)]
            actors :=
              if config.upkeepInterval.isSome then st.actors ++ [Actor.idle] else st.actors }
        (st.note notices).came (.ok (Json.nat (p + 1)))
  | .advance d => { st with world := { st.world with now := st.world.now.after d } }.came .done
  | .drop name =>
    st.onFree name fun h x => (st.forget name).calling t .plain hook (st.world.letGo t h x)
  | .access name set add =>
    st.onFree name fun _ x =>
      match st.world.access x "with" fun r => { r with value := set.getD r.value + add } with
      | .error e => st.came (.failed e)
      | .ok (r, w) =>
        { st with world := w }.came (.ok (Json.record
          [("serial", Json.nat r.serial), ("value", .int r.value.toInt)]))
  | .lock name =>
    st.onFree name fun h x =>
      match st.world.lock h x "lock" with
      | .error e => st.came (.failed e)
      | .ok (r, w) => { st with world := w }.came (.ok (.int r.value.toInt))
  | .unlock name add =>
    match st.handle? name with
    | some (h, x) =>
      if x.guarded then
        match st.world.unlock h x fun r => { r with value := r.value + add } with
        | some (r, w) => { st with world := w }.came (.ok (.int r.value.toInt))
        | none => st.refuse .notLocked
      else st.refuse .notLocked
    | none => st.refuse .notLocked
  | .markUsed name =>
    match st.handle? name with
    | some (_, x) => { st with world := st.world.markUsed x "mark_used" }.came .done
    | none => st.refuse .noHandle
  | .info name =>
    match st.handle? name with
    | some (_, x) =>
      let s := st.world.stateOf x
      st.came (.ok (Json.record
        [("id", Json.nat (x.object + 1)), ("pool", .str (st.title x.pool)),
         ("state", .str s.label), ("reclaimed", .bool s.isReclaimed),
         ("debug", .str (handleText x s))]))
    | none => st.refuse .noHandle

/-- A borrow begins on a thread of its own. -/
def borrowApart (st : Stage) (p : Nat) (name : String) (b : Borrowing) : Carried :=
  if st.isTaken name then st.refuse .nameInUse
  else
    let t := st.world.threads.length
    { st with
      world := st.world.spawn.push t ⟨p, .borrow b⟩
      actors := st.actors ++ [Actor.borrowing name]
      started := some t }.came .blocked

/-- A step that works on the pool `p`, called `pool`. -/
def pooled (st : Stage) (t : Nat) (hook : Option String) (pool : String) (p : Nat)
    (q : Pool Resource) : Pooled → Carried
  | .borrow name none => st.borrowApart p name { timeout := q.config.maxWait, site := "borrow" }
  | .borrow name (some d) => st.borrowApart p name { timeout := some d, site := "borrow_timeout" }
  | .borrowLater name =>
    st.borrowApart p name { timeout := q.config.maxWait, site := "borrow_async" }
  | .tryBorrow name =>
    if st.isTaken name then st.refuse .nameInUse
    else
      st.begin t p (.tryBorrow name) hook
        (.borrow { timeout := some .zero, site := "try_borrow" })
  | .giveBack name =>
    st.onFree name fun h x => (st.forget name).calling t .plain hook (st.world.giveBack t p h x)
  | .invalidate name =>
    st.onFree name fun h x => (st.forget name).calling t .plain hook (st.world.invalidate t p h x)
  | .add => st.begin t p .plain hook .add
  | .prepare => st.begin t p .plain hook .prepare
  | .maintain => st.begin t p .plain hook .upkeep
  | .clear => st.begin t p .plain hook .clear
  | .close => st.begin t p .plain hook (.close .call)
  | .dropPool =>
    { st with names := st.names.filter fun n => n.1 ≠ pool }.calling t .plain hook
      (st.world.drop t p)
  | .factory changes =>
    match st.factories[p]? with
    | some f =>
      match f.script.bind fun s => s.update changes with
      | some s =>
        { st with factories := st.factories.set p { f with script := some s } }.came .done
      | none => st.refuse .badRequest
    | none => st.refuse .badRequest
  | .metrics => st.came (.ok q.metrics.json)
  | .exported => st.came (.ok q.metrics.exportedJson)
  | .prometheus name tags => st.came (.ok (Exposition.json q.metrics name tags))
  | .config => st.came (.ok q.config.json)
  | .debug => st.came (.ok (.str (poolText p q.status)))

/-- A step is carried out on the thread `t`. With `hook`, it is the factory of the
    pool `home` that runs it. -/
def perform (st : Stage) (t : Nat) (hook : Option String) (home : String) (j : Json) : Carried :=
  match heading? home j with
  | none => st.refuse .badRequest
  | some (op, pool) =>
    if hook.isSome && outerNames.contains op then st.refuse .notInHook
    else if soloNames.contains op then
      match Solo.ofJson? op j with
      | some s => st.solo t hook pool s
      | none => st.refuse .badRequest
    else
      match st.pool? pool with
      | none => st.refuse .noPool
      | some p =>
        match st.world.pools[p]?, Pooled.ofJson? op j with
        | some q, some s => st.pooled t hook pool p q s
        | _, _ => st.refuse .badRequest

end Stage

end ObjectPool.Scenario
