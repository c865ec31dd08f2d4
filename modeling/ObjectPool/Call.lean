/-
  ObjectPool.Call

  A call on a pool as data. A call runs in stretches: between two of them it
  waits for the factory, for another thread, or simply lets others go first.
  `Point` says where a call stands between two stretches and carries all that it
  still needs; the smaller types say on whose behalf a part that several calls
  share is running, and what follows it.

    * `Reply` — how a call ends.
    * `Point` — where a call stands.
    * `Response` — what the factory or the sink of reports answers.
-/

import ObjectPool.Pool

namespace ObjectPool

/-- How a call on a pool ends. -/
inductive Reply where
  /-- With an object for the borrower. -/
  | lent (id : Nat)
  | done
  /-- With so many objects made. -/
  | made (n : Nat)
  | failed (e : PoolError)
  deriving DecidableEq

/-- Why an object is destroyed. -/
inductive DestroyMode where
  | normal
  /-- It was taken back from a borrower that had given it up. -/
  | abandoned
  deriving DecidableEq

namespace DestroyMode

/-- The mode's name. -/
def name : DestroyMode → String
  | normal => "Normal"
  | abandoned => "Abandoned"

end DestroyMode

/-- A borrow on its way. -/
structure Borrowing where
  /-- How long the borrower is willing to wait, for ever if `none`. -/
  timeout : Option Duration
  /-- Where the call came from. -/
  site : String
  /-- When the wait ends, known once the borrower starts to look. -/
  deadline : Option Instant := none
  deriving DecidableEq

/-- An object taken back from a borrower that had given it up. -/
structure Reclaimed (ρ : Type) where
  object : Nat
  resource : Option ρ
  unused : Duration

/-- On whose behalf abandoned objects are taken back. -/
inductive Sweeper where
  | borrow (b : Borrowing)
  | upkeep (evicted : Nat)

/-- On whose behalf the reserve of idle objects is filled. -/
inductive Filler where
  | prepare
  | upkeep (evicted reclaimed : Nat)

/-- On whose behalf an idle object is made. -/
inductive Stocker where
  | add
  /-- The reserve is filled, and so many were made before. -/
  | fill (f : Filler) (made : Nat)

/-- On whose behalf an object is made. -/
inductive Maker where
  | lend (b : Borrowing)
  | stock (s : Stocker)

/-- Why an object is activated: for a borrower, which may be the first it ever
    had, or to try it out while it is idle. -/
inductive Trial where
  | lend (b : Borrowing) (fresh : Bool)
  /-- `tests` are still to be tried, and so many were evicted before. -/
  | test (tests : List Nat) (evicted : Nat)

/-- Why an object is checked. -/
inductive Check where
  | trial (t : Trial)
  | stock (s : Stocker)
  /-- It was returned, and `answer` replaces the reply if the call has one of its own. -/
  | takeBack (answer : Option Reply)

/-- Why an object is passivated. -/
inductive Rest where
  | test (tests : List Nat) (evicted : Nat)
  | stock (s : Stocker)
  | takeBack (answer : Option Reply)

/-- Why a pool is closed: by a call, or because its last reference is gone. -/
inductive Closer where
  | call
  | release (answer : Reply)

/-- On whose behalf idle objects that are no longer tracked are destroyed. -/
inductive Drainer where
  | clear
  | close (c : Closer)

/-- What follows the destruction of an object. -/
inductive After (ρ : Type) where
  /-- The borrower looks again. -/
  | seek (b : Borrowing)
  /-- The call ends. -/
  | reply (r : Reply)
  /-- No idle object was made. -/
  | notStocked (s : Stocker) (e : PoolError)
  | reclaim (rest : List (Reclaimed ρ)) (count : Nat) (s : Sweeper)
  | evict (out tests : List Nat) (count : Nat)
  | drain (rest : List Nat) (d : Drainer)

/-- Where a call stands. -/
inductive Point (ρ : Type) where
  /-- A borrow begins. -/
  | borrow (b : Borrowing)
  /-- A borrower looks for an object. -/
  | seek (b : Borrowing)
  /-- A borrower is in line, or was woken. -/
  | waiting (b : Borrowing) (ticket : Nat)
  /-- An object for the idle queue is asked for. -/
  | add
  /-- The reserve is to be filled by a call of its own. -/
  | prepare
  /-- The reserve is filled, and so many were made so far. -/
  | filling (f : Filler) (made : Nat)
  /-- A round of upkeep begins. -/
  | upkeep
  /-- `out` are to be destroyed and `tests` tried; `count` are evicted in all. -/
  | evicting (out tests : List Nat) (count : Nat)
  /-- `rest` are to be destroyed; `count` are taken back in all. -/
  | reclaiming (rest : List (Reclaimed ρ)) (count : Nat) (s : Sweeper)
  /-- An object comes back; `answer` replaces the reply if the call has one of its own. -/
  | takeBack (id : Nat) (answer : Option Reply)
  /-- An object comes back to be destroyed. -/
  | discard (id : Nat)
  | clear
  | close (c : Closer)
  /-- `rest` are to be destroyed. -/
  | draining (rest : List Nat) (d : Drainer)
  /-- The end of the background upkeep is awaited. -/
  | joining (keeper : Nat) (drained : List Nat) (c : Closer)
  /-- The factory makes an object. -/
  | creating (m : Maker)
  /-- The factory readies an object for use. -/
  | activating (id : Nat) (t : Trial)
  /-- The factory checks an object. -/
  | validating (id : Nat) (c : Check)
  /-- The factory lays an object to rest. -/
  | passivating (id : Nat) (r : Rest)
  /-- The factory destroys the resource of an object. -/
  | destroying (id : Nat) (resource : ρ) (mode : DestroyMode) (k : After ρ)
  /-- The caller's sink takes a report. -/
  | reporting (report : Report) (x : Reclaimed ρ) (rest : List (Reclaimed ρ)) (count : Nat)
    (s : Sweeper)

/-- What the factory or the sink of reports answers. -/
inductive Response (ρ : Type) where
  | created (r : Except String ρ)
  /-- The resource as the service leaves it, and the reason for a refusal. -/
  | activated (r : ρ) (refusal : Option String)
  | validated (fit : Bool)
  | passivated (r : ρ) (refusal : Option String)
  | destroyed (refusal : Option String)
  | reported

/-- Where a stretch leaves a call. -/
inductive Next (ρ : Type) where
  | go (point : Point ρ)
  | finish (r : Reply)

/-- What a stretch of a call leaves behind: the pool, what it wrote into the
    journal, and where the call stands. -/
structure Stretch (ρ : Type) where
  pool : Pool ρ
  notices : List Notice := []
  next : Next ρ

namespace Stretch

variable {ρ : Type}

/-- The stretch with a record written before it. -/
def noting (n : Notice) (s : Stretch ρ) : Stretch ρ := { s with notices := n :: s.notices }

/-- The stretch with a record written before it, if a condition holds. -/
def notingIf (c : Bool) (n : Notice) (s : Stretch ρ) : Stretch ρ := if c then s.noting n else s

end Stretch

namespace Pool

variable {ρ : Type}

/-- The call goes on at a point. -/
def go (p : Pool ρ) (point : Point ρ) : Stretch ρ := { pool := p, next := .go point }

/-- The call ends. -/
def finish (p : Pool ρ) (r : Reply) : Stretch ρ := { pool := p, next := .finish r }

end Pool

end ObjectPool
