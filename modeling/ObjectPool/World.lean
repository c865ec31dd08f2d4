/-
  ObjectPool.World

  Pools, the objects in the hands of borrowers, and the threads that call the
  pools, on one clock. A thread is a stack of calls: a call that waits for the
  factory may have another call on top of it, which the factory makes.

  A pool lives as long as somebody refers to it: a caller, a lent object, or a
  call on its way. When the last reference goes, the pool is closed on the spot.
  A pool with background upkeep has a thread of its own for it, which refers to
  the pool only during a round.

    * `World.step` — one stretch of the call on top of a thread.
    * `World.answer` — the same, with an answer from the factory.
    * `World.giveBack`, `World.invalidate`, `World.letGo` — an object comes back.
    * `World.access`, `World.lock`, `World.unlock`, `World.markUsed` — it is used.
-/

import ObjectPool.Pool.Step

namespace ObjectPool

/-- An object in the hands of a borrower. -/
structure Handle where
  pool : Nat
  object : Nat
  /-- The borrower is working on the resource. -/
  guarded : Bool := false
  deriving DecidableEq

/-- A call on its way. -/
structure Activity (ρ : Type) where
  pool : Nat
  point : Point ρ

/-- Where the thread of the background upkeep stands. -/
inductive Phase where
  /-- It has not run yet. -/
  | fresh
  /-- It waits for its next round, for ever if there is no such point of time. -/
  | resting (wake : Option Instant)
  /-- It is in a round. -/
  | working
  | ended
  deriving DecidableEq

/-- The background upkeep of a pool. -/
structure Keeper where
  pool : Nat
  interval : Duration
  phase : Phase := .fresh
  deriving DecidableEq

/-- A thread: the calls on their way on it, the innermost first. -/
structure Thread (ρ : Type) where
  stack : List (Activity ρ) := []
  /-- Set if the thread does the background upkeep of a pool. -/
  keeper : Option Keeper := none

/-- All pools, handles and threads at a point of time, each named by its place. -/
structure World (ρ : Type) where
  now : Instant := ⟨0⟩
  pools : List (Pool ρ) := []
  /-- Every object that was ever lent, until it comes back. -/
  handles : List (Option Handle) := []
  threads : List (Thread ρ) := []

/-- What a step of the world leaves behind: the records written, each with the
    pool that wrote it, and the reply if a call has ended. -/
structure Effect (ρ : Type) where
  world : World ρ
  notices : List (Nat × Notice) := []
  reply : Option Reply := none

namespace World

variable {ρ : Type}

/-! ## Views -/

/-- The call on top of a thread. -/
def top? (w : World ρ) (t : Nat) : Option (Activity ρ) :=
  (w.threads[t]?).bind (·.stack.head?)

/-- The handle of a given number, while its object is lent. -/
def handle? (w : World ρ) (h : Nat) : Option Handle := (w.handles[h]?).join

/-- Whether the thread of a background upkeep has ended. -/
def hasEnded (w : World ρ) (t : Nat) : Bool :=
  ((w.threads[t]?).bind (·.keeper)).any fun k => decide (k.phase = .ended)

/-- How many calls on their way refer to a pool. -/
def callers (w : World ρ) (p : Nat) : Nat :=
  (w.threads.flatMap (·.stack)).countP fun a => decide (a.pool = p)

/-- How many objects in the hands of borrowers refer to a pool. -/
def holders (w : World ρ) (p : Nat) : Nat :=
  w.handles.countP fun h => h.any fun h => decide (h.pool = p)

/-- How many references to a pool there are. -/
def references (w : World ρ) (p : Nat) : Nat :=
  ((w.pools[p]?).map (·.clones)).getD 0 + w.holders p + w.callers p

/-! ## Small changes -/

/-- A change to a pool. -/
def onPool (p : Nat) (f : Pool ρ → Pool ρ) (w : World ρ) : World ρ :=
  { w with pools := w.pools.modify p f }

/-- A change to a thread. -/
def onThread (t : Nat) (f : Thread ρ → Thread ρ) (w : World ρ) : World ρ :=
  { w with threads := w.threads.modify t f }

/-- A call begins on a thread. -/
def push (t : Nat) (a : Activity ρ) : World ρ → World ρ :=
  onThread t fun th => { th with stack := a :: th.stack }

/-- The call on top of a thread is over. -/
def pop (t : Nat) : World ρ → World ρ :=
  onThread t fun th => { th with stack := th.stack.tail }

/-- The call on top of a thread stands at another point. -/
def moveTo (t : Nat) (point : Point ρ) : World ρ → World ρ :=
  onThread t fun th =>
    { th with stack := match th.stack with
        | a :: rest => { a with point } :: rest
        | [] => [] }

/-- A new thread, with nothing to do. -/
def spawn (w : World ρ) : World ρ := { w with threads := w.threads ++ [{}] }

/-- A borrower gets an object. -/
def lend (p id : Nat) (w : World ρ) : World ρ :=
  { w with handles := w.handles ++ [some { pool := p, object := id }] }

/-- The object of a handle leaves the hands of its borrower. -/
def surrender (h : Nat) (w : World ρ) : World ρ := { w with handles := w.handles.set h none }

/-! ## The life of a pool -/

/-- A thread has given up a reference to a pool; the reply it gets is `r`. If it
    was the last reference, the thread first closes the pool. -/
def forsake (w : World ρ) (t p : Nat) (r : Reply) : Effect ρ :=
  let gone := ((w.pools[p]?).map (·.gone)).getD true
  if w.references p = 0 ∧ gone = false then
    { world := (w.onPool p fun q => { q with gone := true }).push t ⟨p, .close (.release r)⟩ }
  else { world := w, reply := some r }

/-- A new pool for a caller, with a thread for its background upkeep. -/
def create (w : World ρ) (config : Config) : Except PoolError (World ρ × List (Nat × Notice)) :=
  match config.validate with
  | .error e => .error e
  | .ok () =>
    let p := w.pools.length
    let notices := [(p, .poolCreated config.maxTotal config.maxIdle config.minIdle)]
    match config.upkeepInterval with
    | none => .ok ({ w with pools := w.pools ++ [.new config] }, notices)
    | some interval =>
      .ok
        ({ w with
            pools := w.pools ++ [{ Pool.new config with keeper := some w.threads.length }]
            threads := w.threads ++ [{ keeper := some { pool := p, interval } }] },
          notices)

/-- A caller gives up its reference to a pool. -/
def drop (w : World ρ) (t p : Nat) : Effect ρ :=
  (w.onPool p fun q => { q with clones := q.clones - 1 }).forsake t p .done

/-! ## Steps -/

/-- The call on top of a thread has run for a stretch. -/
def apply (w : World ρ) (t p : Nat) (s : Stretch ρ) : Effect ρ :=
  let w := w.onPool p fun _ => s.pool
  let notices := s.notices.map fun n => (p, n)
  match s.next with
  | .go point => { world := w.moveTo t point, notices }
  | .finish r =>
    let w := w.pop t
    let w := match r with
      | .lent id => w.lend p id
      | _ => w
    { w.forsake t p r with notices }

/-- The thread of a background upkeep goes on between two rounds. -/
def keeperStep (w : World ρ) (t : Nat) (k : Keeper) : Option (Effect ρ) :=
  let stopped := ((w.pools[k.pool]?).bind (·.keeper)) ≠ some t
  let enter (phase : Phase) := w.onThread t fun th => { th with keeper := some { k with phase } }
  let rest := enter (.resting (w.now.after? k.interval))
  match k.phase with
  | .fresh => some { world := rest, notices := [(k.pool, .upkeepStarted k.interval)] }
  | .resting wake =>
    if stopped then some { world := enter .ended, notices := [(k.pool, .upkeepStopped)] }
    else if w.now.reached wake then some { world := (enter .working).push t ⟨k.pool, .upkeep⟩ }
    else none
  | .working => some { world := rest }
  | .ended => none

/-- One stretch on a thread that can go on by itself. -/
def step (w : World ρ) (t : Nat) : Option (Effect ρ) := do
  let th ← w.threads[t]?
  match th.stack with
  | a :: _ =>
    let q ← w.pools[a.pool]?
    let s ← q.advance w.now t w.hasEnded a.point
    pure (w.apply t a.pool s)
  | [] =>
    let k ← th.keeper
    w.keeperStep t k

/-- One stretch on a thread that waits for an answer. -/
def answer (w : World ρ) (t : Nat) (r : Response ρ) : Option (Effect ρ) := do
  let a ← w.top? t
  let q ← w.pools[a.pool]?
  let s ← q.respond w.now a.point r
  pure (w.apply t a.pool s)

/-! ## Objects in the hands of borrowers -/

/-- An object is returned to the pool `p`. A pool that has not lent it refuses
    it, and the object goes back to the pool that has. -/
def giveBack (w : World ρ) (t p : Nat) (h : Nat) (x : Handle) : Effect ρ :=
  let w := w.surrender h
  if x.pool = p then { world := w.push t ⟨p, .takeBack x.object none⟩ }
  else
    { world := (w.onPool p fun q => (q.refuseReturn .done).pool).push t
        ⟨x.pool, .takeBack x.object (some (.failed .invalidReturn))⟩
      notices := [(p, .foreignReturn x.pool x.object)] }

/-- An object is returned to the pool `p` to be destroyed. A pool that has not
    lent it refuses it, and the object goes back unharmed to the pool that has. -/
def invalidate (w : World ρ) (t p : Nat) (h : Nat) (x : Handle) : Effect ρ :=
  let w := w.surrender h
  if x.pool = p then { world := w.push t ⟨p, .discard x.object⟩ }
  else
    { world := (w.onPool p fun q => (q.refuseReturn .done).pool).push t
        ⟨x.pool, .takeBack x.object (some (.failed .invalidReturn))⟩ }

/-- A borrower lets an object go, which returns it without an answer. -/
def letGo (w : World ρ) (t h : Nat) (x : Handle) : Effect ρ :=
  { world := (w.surrender h).push t ⟨x.pool, .takeBack x.object (some .done)⟩ }

/-- The resource of a handle, unless the pool has taken it back. -/
def resource? (w : World ρ) (x : Handle) : Option ρ := (w.pools[x.pool]?).bind (·.slot? x.object)

/-- The state of a handle's object. -/
def stateOf (w : World ρ) (x : Handle) : Lifecycle :=
  ((w.pools[x.pool]?).map (·.stateOf x.object)).getD .invalid

/-- A borrower changes the resource of a handle, which counts as a use. -/
def access (w : World ρ) (x : Handle) (site : String) (f : ρ → ρ) :
    Except PoolError (ρ × World ρ) :=
  match w.resource? x with
  | none => .error .reclaimed
  | some r =>
    .ok (f r, w.onPool x.pool fun q => (q.trackUse w.now x.object site).letGo x.object (f r))

/-- A borrower begins to work on the resource of a handle, which counts as a use. -/
def lock (w : World ρ) (h : Nat) (x : Handle) (site : String) : Except PoolError (ρ × World ρ) :=
  match w.resource? x with
  | none => .error .reclaimed
  | some r =>
    let w := w.onPool x.pool fun q => (q.trackUse w.now x.object site).hold x.object
    .ok (r, { w with handles := w.handles.set h (some { x with guarded := true }) })

/-- A borrower changes the resource of a handle and stops working on it. -/
def unlock (w : World ρ) (h : Nat) (x : Handle) (f : ρ → ρ) : Option (ρ × World ρ) :=
  match w.resource? x with
  | none => none
  | some r =>
    let w := w.onPool x.pool (Pool.letGo x.object (f r))
    some (f r, { w with handles := w.handles.set h (some { x with guarded := false }) })

/-- A borrower notes a use without touching the resource; while somebody works on
    the resource, or once the pool has taken it back, nothing is noted. -/
def markUsed (w : World ρ) (x : Handle) (site : String) : World ρ :=
  w.onPool x.pool fun q =>
    if q.isHeld x.object = false ∧ (q.slot? x.object).isSome then
      q.trackUse w.now x.object site
    else q

end World

end ObjectPool
