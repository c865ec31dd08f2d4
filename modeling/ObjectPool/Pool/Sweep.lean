/-
  ObjectPool.Pool.Sweep

  How objects are taken back from borrowers that stopped using them. One pass
  over the lent objects takes each that is still allocated, that nobody works on
  and that went unused for longer than the timeout: it leaves the books with its
  slot emptied. Then each is reported and destroyed.
-/

import ObjectPool.Pool.Disposal

namespace ObjectPool.Pool

variable {ρ : Type}

/-- How long a lent object has gone unused. -/
def unusedFor (p : Pool ρ) (now : Instant) (id : Nat) : Duration :=
  match p.object? id with
  | some e => now.since e.lastActive
  | none => .zero

/-- Whether an object is taken back from its borrower. -/
def isAbandoned (p : Pool ρ) (now : Instant) (timeout : Duration) (id : Nat) : Bool :=
  decide (id ∈ p.registry.tracked) && decide (timeout.nanos < (p.unusedFor now id).nanos) &&
    !p.isHeld id && p.isIn id .allocated

/-- An object is taken back from its borrower. -/
def takeAway (id : Nat) (p : Pool ρ) : Pool ρ :=
  ((p.setState id .abandoned).emptySlot id).detach id

/-- The pass over the lent objects `ids`: the objects taken back, in that order. -/
def reclaimFrom (now : Instant) (timeout : Duration) (p : Pool ρ) :
    List Nat → Pool ρ × List (Reclaimed ρ)
  | [] => (p, [])
  | id :: rest =>
    if p.isAbandoned now timeout id then
      let (q, xs) := reclaimFrom now timeout (p.takeAway id) rest
      (q, ⟨id, p.slot? id, p.unusedFor now id⟩ :: xs)
    else reclaimFrom now timeout p rest

/-- Abandoned objects are taken back. -/
def sweep (p : Pool ρ) (now : Instant) (a : Abandonment) (s : Sweeper) : Stretch ρ :=
  let (q, xs) := p.reclaimFrom now a.timeout p.registry.active
  q.go (.reclaiming xs xs.length s)

/-- What is known of an object that was taken back. -/
def report (p : Pool ρ) (x : Reclaimed ρ) : Report :=
  let e := p.object? x.object
  { object := x.object
    borrowCount := (e.map (·.borrowCount)).getD 0
    unused := x.unused
    borrowedBy := e.bind (·.borrowedBy)
    lastUsedBy := (e.bind (·.lastUse)).bind (·.site) }

/-- An object that was taken back is destroyed. -/
def disposeReclaimed (p : Pool ρ) (x : Reclaimed ρ) (rest : List (Reclaimed ρ)) (n : Nat)
    (s : Sweeper) : Stretch ρ :=
  (p.count fun c => { c with abandoned := c.abandoned + 1 }).dispose x.object x.resource
    .abandoned (.reclaim rest n s)

/-- The next object that was taken back is reported, if reports are wanted, and
    destroyed. -/
def reclaimNext (p : Pool ρ) (x : Reclaimed ρ) (rest : List (Reclaimed ρ)) (n : Nat)
    (s : Sweeper) : Stretch ρ :=
  match p.config.abandonment with
  | some a =>
    if a.reported then
      match a.sink with
      | .journal => (p.disposeReclaimed x rest n s).noting (.abandoned (p.report x))
      | .caller => p.go (.reporting (p.report x) x rest n s)
    else p.disposeReclaimed x rest n s
  | none => p.disposeReclaimed x rest n s

end ObjectPool.Pool
