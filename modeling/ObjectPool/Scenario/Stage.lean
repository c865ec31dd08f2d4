/-
  ObjectPool.Scenario.Stage

  A scenario while it runs: the world, the names that the scenario gives to pools
  and handles, the factories, and for each thread what it is busy with on behalf
  of the scenario. Thread 0 carries out the steps; a borrow has a thread of its
  own.

    * `Stage.see`, `Stage.absorb` — something happens and is seen.
    * `Stage.conclude` — a call has ended, and its outcome goes where it belongs.
-/

import ObjectPool.Census.Json
import ObjectPool.Scenario.Sighting
import ObjectPool.Scenario.Step
import ObjectPool.World

namespace ObjectPool.Scenario

/-- What a step comes to. -/
inductive Outcome where
  | ok (j : Json)
  | failed (e : PoolError)
  | refused (r : Refusal)
  | blocked

namespace Outcome

/-- Nothing more to say than that it went well. -/
def done : Outcome := ok .null

/-- The outcome as a document. -/
def json : Outcome → Json
  | ok j => Json.record [("ok", j)]
  | failed e => e.json
  | refused r => Json.record [("error", .str r.label)]
  | blocked => Json.record [("blocked", .bool true)]

end Outcome

/-- What becomes of the reply of a call. -/
inductive Goal where
  /-- The object gets a name. -/
  | borrow (name : String)
  /-- The object gets a name, and a failure says nothing. -/
  | tryBorrow (name : String)
  | plain

/-- What a thread is busy with. -/
inductive Frame where
  /-- A call on a pool; `hook` names the step if the factory runs it. -/
  | call (goal : Goal) (hook : Option String)
  /-- A call of the factory of the pool `home`, which has steps to run before it answers. -/
  | service (label home : String) (steps : List Json) (response : Response Resource)

/-- A thread on behalf of the scenario. -/
structure Actor where
  /-- What it is busy with, the innermost first. -/
  frames : List Frame := []
  /-- The name for the object, if the thread borrows one. -/
  borrower : Option String := none
  outcome : Option Outcome := none
  /-- The outcome has been told. -/
  told : Bool := false

namespace Actor

/-- A thread with nothing to do. -/
def idle : Actor := {}

/-- A thread that borrows an object under a name. -/
def borrowing (name : String) : Actor :=
  { frames := [.call (.borrow name) none], borrower := some name }

end Actor

/-- A scenario while it runs. -/
structure Stage where
  world : World Resource
  /-- The names under which the pools were made, by their numbers. -/
  titles : List String := []
  factories : List Factory := []
  /-- The pools that have a name at present. -/
  names : List (String × Nat) := []
  handles : List (String × Nat) := []
  /-- One for each thread. -/
  actors : List Actor := []
  /-- The thread that runs. -/
  current : Nat := 0
  /-- The thread that the present step has started. -/
  started : Option Nat := none
  /-- What was seen during the present step, the latest first. -/
  seen : List Sighting := []
  /-- The counts of the pool are seen with every call of a factory. -/
  observing : Bool := false
  /-- How far down the levels records are seen. -/
  depth : Nat := 0

namespace Stage

/-- Before the first step. -/
def start (observing : Bool) (depth : Nat) : Stage :=
  { world := ({} : World Resource).spawn, actors := [.idle], observing, depth }

/-! ## Names -/

/-- The name under which a pool was made. -/
def title (st : Stage) (p : Nat) : String := (st.titles[p]?).getD ""

/-- The pool of a given name. -/
def pool? (st : Stage) (name : String) : Option Nat := st.names.lookup name

/-- The handle of a given name, with its number. -/
def handle? (st : Stage) (name : String) : Option (Nat × Handle) := do
  let h ← st.handles.lookup name
  let x ← st.world.handle? h
  pure (h, x)

/-- Whether a name belongs to a handle or to a borrow on its way. -/
def isTaken (st : Stage) (name : String) : Bool :=
  (st.handles.any fun h => decide (h.1 = name)) ||
    st.actors.any fun a => decide (a.borrower = some name) && a.outcome.isNone

/-- A handle's name is given up. -/
def forget (name : String) (st : Stage) : Stage :=
  { st with handles := st.handles.filter fun h => h.1 ≠ name }

/-! ## Seeing -/

/-- Something is seen. -/
def see (s : Sighting) (st : Stage) : Stage := { st with seen := s :: st.seen }

/-- What is seen of the counts of the pool that has a name at present. -/
def census (st : Stage) (name : String) : String :=
  if st.observing then
    match (st.pool? name).bind fun p => st.world.pools[p]? with
    | some q =>
      let s := q.status
      " @" ++ toString s.active ++ "/" ++ toString s.idle ++ "/" ++ toString s.waiters
    | none => " @-"
  else ""

/-- What is seen of the place a call came from. -/
def evidenceText : Evidence → String
  | .line site => site
  | .stack => "backtrace"

/-- The value of a field of a record. -/
def fieldText (st : Stage) : Field → String
  | .number n => toString n
  | .words s => s
  | .pool p => st.title p
  | .evidence e => evidenceText e

/-- Where a record belongs among what is seen. -/
def standing (st : Stage) (p : Nat) : Notice → Standing
  | .abandoned r => .sorted (st.title p) (r.object + 1)
  | .destroyFailed _ _ => .follows
  | _ => .fixed

/-- A record as it is seen. -/
def noticeText (st : Stage) (p : Nat) (n : Notice) : String :=
  "log " ++ n.level.label ++ " \"" ++ n.message ++ "\"" ++
    String.join ((("pool", Field.pool p) :: n.fields).map fun f =>
      " " ++ f.1 ++ "=" ++ st.fieldText f.2)

/-- Records are written, and seen if their level is. -/
def note (st : Stage) : List (Nat × Notice) → Stage
  | [] => st
  | (p, n) :: rest =>
    (if n.level.depth ≤ st.depth then st.see ⟨st.noticeText p n, st.standing p n⟩ else st).note rest

/-! ## Calls -/

/-- A change to what a thread is busy with. -/
def onActor (t : Nat) (f : Actor → Actor) (st : Stage) : Stage :=
  { st with actors := st.actors.modify t f }

/-- What a thread is busy with, the innermost first. -/
def framesOf (st : Stage) (t : Nat) : List Frame := ((st.actors[t]?).map (·.frames)).getD []

/-- A thread gets busy with something more. -/
def enter (t : Nat) (f : Frame) : Stage → Stage :=
  onActor t fun a => { a with frames := f :: a.frames }

/-- What a reply comes to. -/
def outcomeOf (st : Stage) (goal : Goal) (r : Reply) : Stage × Outcome :=
  let named (name : String) (id : Nat) : Stage × Outcome :=
    ({ st with handles := st.handles ++ [(name, st.world.handles.length - 1)] },
      .ok (Json.nat (id + 1)))
  match goal, r with
  | .borrow name, .lent id => named name id
  | .tryBorrow name, .lent id => named name id
  | .tryBorrow _, .failed _ => (st, .done)
  | _, .failed e => (st, .failed e)
  | _, .made n => (st, .ok (Json.nat n))
  | _, _ => (st, .done)

/-- A call on a thread has ended. -/
def conclude (st : Stage) (t : Nat) (r : Reply) : Stage :=
  match st.framesOf t with
  | .call goal hook :: rest =>
    let (st, outcome) := st.outcomeOf goal r
    let st := st.onActor t fun a => { a with frames := rest }
    match hook with
    | some label => st.see { text := "hook " ++ label ++ " -> " ++ outcome.json.text }
    | none => st.onActor t fun a => { a with outcome := some outcome }
  | _ => st

/-- The world has moved on. -/
def absorb (st : Stage) (t : Nat) (e : Effect Resource) : Stage :=
  let st := { st with world := e.world }.note e.notices
  match e.reply with
  | some r => st.conclude t r
  | none => st

end Stage

end ObjectPool.Scenario
