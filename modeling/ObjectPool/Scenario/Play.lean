/-
  ObjectPool.Scenario.Play

  A whole scenario from its document to its account. One thread runs at a time
  and keeps running until it can go no further; then the oldest that can go on is
  next. A step is over when no thread can go on.

    * `Stage.move` — one stretch of one thread.
    * `Stage.run` — stretches until no thread can go on.
    * `Scenario.play?` — the account of a scenario.
-/

import ObjectPool.Scenario.Perform

namespace ObjectPool.Scenario

namespace Stage

/-! ## Moves -/

/-- A call of the factory of a pool has done its work and decided its answer. -/
def called (st : Stage) (t p : Nat) (m : Moment) (standing : Standing) (a : Factory.Answered) :
    Stage :=
  let home := st.title p
  let (f, steps) := a.factory.due m
  let st := { st with factories := st.factories.set p f }
  let st := match a.seen with
    | some s => st.see ⟨home ++ "." ++ s ++ st.census home, standing⟩
    | none => st
  st.enter t (.service m.label home steps a.response)

/-- What is seen of a report. -/
def reportText (st : Stage) (p : Nat) (r : Report) : String :=
  let origin : Option Evidence → String := fun e => (e.map evidenceText).getD "none"
  let named := st.handles.filterMap fun h => st.world.handle? h.2
  let state := match named.find? fun x => decide (x.pool = p ∧ x.object = r.object) with
    | some x => (st.world.stateOf x).label
    | none => "-"
  st.title p ++ ".report id=" ++ toString (r.object + 1) ++ " count=" ++ toString r.borrowCount ++
    " unused=" ++ r.unused.text ++ " borrowed_by=" ++ origin r.borrowedBy ++
    " last_used_by=" ++ origin r.lastUsedBy ++ " state=" ++ state ++ st.census (st.title p)

/-- A call on a pool waits for the factory or for the sink of reports: the factory
    does its work, or the sink takes the report. -/
def serve (st : Stage) (t : Nat) (a : Activity Resource) : Option Stage := do
  let f ← st.factories[a.pool]?
  let q ← st.world.pools[a.pool]?
  match a.point with
  | .creating _ => pure (st.called t a.pool .create .fixed f.create)
  | .activating id _ => do
    let r ← q.slot? id
    pure (st.called t a.pool .activate .fixed (f.activate r))
  | .validating id _ => do
    let r ← q.slot? id
    pure (st.called t a.pool .validate .fixed (f.validate r))
  | .passivating id _ => do
    let r ← q.slot? id
    pure (st.called t a.pool .passivate .fixed (f.passivate r))
  | .destroying _ r mode _ =>
    let standing := match mode with
      | .abandoned => Standing.sorted (st.title a.pool) r.serial
      | .normal => .fixed
    pure (st.called t a.pool .destroy standing (f.destroy r mode))
  | .reporting r _ _ _ _ =>
    let st := st.see
      ⟨st.reportText a.pool r, .sorted (st.title a.pool) (r.object + 1)⟩
    pure (st.enter t (.service "report" (st.title a.pool) [] .reported))
  | _ => none

/-- A step that a call of the factory runs. -/
def runHook (st : Stage) (t : Nat) (label home : String) (j : Json) : Stage :=
  let op := ((j.get? "op").bind Json.str?).getD ""
  let name := label ++ ": " ++ op
  match st.perform t (some name) home j with
  | (st, some o) => st.see { text := "hook " ++ name ++ " -> " ++ o.json.text }
  | (st, none) => st

/-- One stretch of a thread, if it can go on. -/
def move (st : Stage) (t : Nat) : Option Stage :=
  match st.framesOf t with
  | .service label home (j :: steps) response :: rest =>
    let st := st.onActor t fun a =>
      { a with frames := .service label home steps response :: rest }
    some (st.runHook t label home j)
  | .service _ _ [] response :: rest =>
    (st.world.answer t response).map fun e =>
      (st.onActor t fun a => { a with frames := rest }).absorb t e
  | _ =>
    match (st.world.top? t).filter (·.point.isRequest) with
    | some a => st.serve t a
    | none => (st.world.step t).map fun e => st.absorb t e

/-- One stretch of the thread that runs, or else of the oldest that can go on. -/
def turn (st : Stage) : Option Stage :=
  match st.move st.current with
  | some st => some st
  | none =>
    (List.range st.actors.length).findSome? fun t =>
      (st.move t).map fun st => { st with current := t }

/-- Stretches until no thread can go on, `bound` of them at most. -/
def run : Nat → Stage → Stage
  | 0, st => st
  | bound + 1, st =>
    match st.turn with
    | some st => run bound st
    | none => st

/-! ## Steps -/

/-- The counts of the pools that have a name. -/
def counts (st : Stage) : Json :=
  Json.record (st.names.filterMap fun n => (st.world.pools[n.2]?).map fun q =>
    let s := q.status
    (n.1, .arr [Json.nat s.active, Json.nat s.idle, Json.nat s.waiters,
      Json.nat (if q.closed then 1 else 0)]))

/-- The outcome of a step once no thread can go on. -/
def outcome (st : Stage) (o : Option Outcome) : Outcome :=
  let own (t : Nat) := ((st.actors[t]?).bind (·.outcome)).getD .blocked
  match st.started, o with
  | some t, _ => own t
  | none, some o => o
  | none, none => own 0

/-- The borrows that ended during the step, apart from the one that it started. -/
def ended (st : Stage) : List Json :=
  st.actors.zipIdx.filterMap fun (a, t) =>
    match a.borrower, a.outcome with
    | some name, some o =>
      if a.told || decide (st.started = some t) then none
      else some (Json.record [("as", .str name), ("r", o.json)])
    | _, _ => none

/-- A member of a record that is left out if it is empty. -/
def unlessEmpty (name : String) : List Json → List (String × Json)
  | [] => []
  | js => [(name, .arr js)]

/-- A step from its beginning until no thread can go on, with its account. -/
def carryOut (st : Stage) (bound : Nat) (j : Json) : Stage × Json :=
  let st := { st with current := 0, started := none, seen := [] }
  let st := st.onActor 0 fun a => { a with outcome := none }
  let (st, o) := st.perform 0 none "p" j
  let st := st.run bound
  let events := (Sighting.arrange st.seen.reverse).map Json.str
  let account := Json.record
    ([("r", (st.outcome o).json), ("st", st.counts)] ++ unlessEmpty "ev" events ++
      unlessEmpty "done" st.ended)
  ({ st with actors := st.actors.map fun a => { a with told := a.outcome.isSome } }, account)

/-- All steps in order, with their accounts. -/
def carryOutAll (st : Stage) (bound : Nat) : List Json → Stage × List Json
  | [] => (st, [])
  | j :: rest =>
    let (st, account) := st.carryOut bound j
    let (st, accounts) := carryOutAll st bound rest
    (st, account :: accounts)

/-- How things stand after the last step. -/
def closing (st : Stage) : Json :=
  let metrics := st.names.filterMap fun n => (st.world.pools[n.2]?).map fun q =>
    (n.1, q.metrics.json)
  let handles := st.handles.filterMap fun h => (st.world.handle? h.2).map fun x =>
    (h.1, Json.arr [Json.nat (x.object + 1), .str (st.world.stateOf x).label])
  let blocked := st.actors.filterMap fun a =>
    if a.outcome.isNone then a.borrower.map Json.str else none
  Json.record
    [("metrics", Json.record metrics), ("handles", Json.record handles),
     ("blocked", .arr blocked)]

end Stage

/-! ## Scenarios -/

/-- How far down the levels records are seen, by the name of a level. -/
def depth? (s : String) : Option Nat :=
  if s = "off" then some 0
  else if s = "error" then some Level.error.depth
  else if s = "warn" then some Level.warn.depth
  else if s = "info" then some Level.info.depth
  else if s = "debug" then some Level.debug.depth
  else if s = "trace" then some Level.trace.depth
  else none

/-- A bound on the stretches of a step. A scenario of `n` values makes at most `n`
    calls and each of its pools holds at most `largestPool` objects, so a call goes
    through far fewer stretches than this. -/
def patience (n : Nat) : Nat := 1000 * (n + 1) * (n + 1) * (largestPool + 1)

/-- The account of a scenario, if its document can be read. -/
def play? (j : Json) : Option Json := do
  let steps ← j.required "steps" Json.arr?
  let observing ← j.fieldOr "observe" Json.bool? false
  let depth ← j.memberOr "log" (fun v => v.str?.bind depth?) 0
  let (st, accounts) := (Stage.start observing depth).carryOutAll (patience j.size) steps
  pure (Json.record [("steps", .arr accounts), ("end", st.closing)])

end ObjectPool.Scenario
