/-
  ObjectPool.Pool.Upkeep

  A round of upkeep: idle objects that have to go are evicted, those that stay
  are tried out if the settings say so, abandoned objects are taken back, and
  the reserve of idle objects is filled.

  The idle sweep looks at the idle objects from the longest idle on. Each one
  evicted makes the idle objects one fewer for the next decision.
-/

import ObjectPool.Pool.Lend
import ObjectPool.Pool.Stock

namespace ObjectPool.Pool

variable {ρ : Type}

/-! ## The idle sweep -/

/-- What the sweep decided on the idle objects it looked at. -/
structure Sorting (ρ : Type) where
  pool : Pool ρ
  /-- Those evicted, in order. -/
  out : List Nat := []
  /-- Those to be tried out, in order. -/
  tests : List Nat := []

/-- What the sweep knows of an idle object. -/
def candidate (p : Pool ρ) (now : Instant) (e : Entry ρ) (left : Nat) : Candidate :=
  { age := now.since e.createdAt, idleTime := now.since e.lastReturn, idleCount := left,
    minIdle := p.config.minIdle }

/-- The sweep over the idle objects `ids`, with `left` idle objects counted. -/
def sortIdle (now : Instant) (p : Pool ρ) (left : Nat) : List Nat → Sorting ρ
  | [] => { pool := p }
  | id :: rest =>
    match p.object? id with
    | none => sortIdle now p left rest
    | some e =>
      if id ∉ p.registry.tracked ∨ e.isIn .idle = false then sortIdle now p left rest
      else
        let q := p.setState id .evictionTest
        if p.config.eviction.evicts (p.candidate now e left) then
          let s := sortIdle now ((q.setState id .invalid).detach id) (left - 1) rest
          { s with out := id :: s.out }
        else if p.config.testWhileIdle then
          let q := (q.setState id .validation).book (Registry.removeIdle id)
          let s := sortIdle now q left rest
          { s with tests := id :: s.tests }
        else sortIdle now (q.setState id .idle) left rest

/-- The idle sweep begins, unless there is nothing for it to do. -/
def evict (p : Pool ρ) (now : Instant) : Stretch ρ :=
  if p.config.eviction = .never ∧ p.config.testWhileIdle = false then p.go (.evicting [] [] 0)
  else
    let s := p.sortIdle now p.registry.idle.length p.registry.idleOldestFirst
    s.pool.go (.evicting s.out s.tests s.out.length)

/-- A round of upkeep begins, unless the pool is closed. -/
def upkeep (p : Pool ρ) (now : Instant) : Stretch ρ :=
  if p.closed then p.finish .done else p.evict now

/-- An idle object that was tried out is found unfit. -/
def failTest (p : Pool ρ) (id : Nat) (tests : List Nat) (n : Nat) : Stretch ρ :=
  ((p.count fun c => { c with validationFailures := c.validationFailures + 1 }).destroy id
    (.evict [] tests n)).noting (.idleTestFailed id)

/-- An idle object that was tried out goes back to the idle ones. -/
def passTest (p : Pool ρ) (id : Nat) (tests : List Nat) (n : Nat) : Stretch ρ :=
  if p.closed = false ∧ p.isIn id .validation then
    ((p.setState id .idle).book (Registry.restoreIdle id)).go (.evicting [] tests n)
  else p.destroy id (.evict [] tests n)

/-- The factory has readied an idle object that is tried out, or not. -/
def activatedForTest (p : Pool ρ) (id : Nat) (tests : List Nat) (n : Nat) (r : ρ)
    (refusal : Option String) : Stretch ρ :=
  match refusal with
  | some _ => (p.letGo id r).failTest id tests n
  | none =>
    (p.modify id fun e => { e with slot := some r }).go (.validating id (.trial (.test tests n)))

/-- The factory has checked an idle object that is tried out. -/
def validatedForTest (p : Pool ρ) (id : Nat) (tests : List Nat) (n : Nat) (fit : Bool) :
    Stretch ρ :=
  if fit then p.go (.passivating id (.test tests n)) else (p.release id).failTest id tests n

/-- The factory has laid an idle object that is tried out to rest, or not. -/
def passivatedForTest (p : Pool ρ) (id : Nat) (tests : List Nat) (n : Nat) (r : ρ)
    (refusal : Option String) : Stretch ρ :=
  match refusal with
  | some _ => (p.letGo id r).failTest id tests n
  | none => (p.letGo id r).passTest id tests n

/-! ## The order of a round -/

/-- The idle sweep is over: abandoned objects are taken back if the settings say
    so, or else the reserve is filled. -/
def evicted (p : Pool ρ) (now : Instant) (n : Nat) : Stretch ρ :=
  let s := match p.config.abandonment with
    | some a => if a.onUpkeep then p.sweep now a (.upkeep n) else p.go (.filling (.upkeep n 0) 0)
    | none => p.go (.filling (.upkeep n 0) 0)
  s.notingIf (decide (0 < n)) (.evicted n)

/-- The next evicted object is destroyed, or the next idle object tried out. -/
def evictNext (p : Pool ρ) (now : Instant) (out tests : List Nat) (n : Nat) : Stretch ρ :=
  match out, tests with
  | id :: out, tests =>
    (p.count fun c => { c with evicted := c.evicted + 1 }).finishDestroy id (.evict out tests n)
  | [], id :: tests => p.activate id (.test tests n) (p.failTest id tests n)
  | [], [] => p.evicted now n

/-- All abandoned objects are destroyed. -/
def swept (p : Pool ρ) (now : Instant) (n : Nat) (s : Sweeper) : Stretch ρ :=
  let next := match s with
    | .borrow b => p.beginSeek now b
    | .upkeep out => p.go (.filling (.upkeep out n) 0)
  next.notingIf (decide (0 < n)) (.reclaimed n)

end ObjectPool.Pool
