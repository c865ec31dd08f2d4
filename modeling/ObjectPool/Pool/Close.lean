/-
  ObjectPool.Pool.Close

  How the idle objects of a pool are destroyed, on request or because the pool
  is closed. Closing wakes everyone in line and ends the background upkeep; it
  waits for the upkeep's thread to end, unless it runs on that thread itself.
-/

import ObjectPool.Pool.Disposal

namespace ObjectPool

/-- How the call that closed a pool ends. -/
def Closer.reply : Closer → Reply
  | .call => .done
  | .release answer => answer

namespace Pool

variable {ρ : Type}

/-- The idle objects are destroyed. -/
def clear (p : Pool ρ) : Stretch ρ :=
  (p.book Registry.drainIdle).go (.draining p.registry.drained .clear)

/-- The pool is closed, unless it was before; `self` is the thread that closes it. -/
def close (p : Pool ρ) (self : Nat) (c : Closer) : Stretch ρ :=
  if p.closed then p.finish c.reply
  else
    let drained := p.registry.drained
    let q := { (p.book fun r => r.close.drainIdle) with keeper := none }
    match p.keeper with
    | some k =>
      if k = self then q.go (.draining drained (.close c)) else q.go (.joining k drained c)
    | none => q.go (.draining drained (.close c))

/-- The next of the idle objects is destroyed. -/
def drainNext (p : Pool ρ) (rest : List Nat) (d : Drainer) : Stretch ρ :=
  match rest with
  | id :: rest => p.finishDestroy id (.drain rest d)
  | [] =>
    match d with
    | .clear => p.finish .done
    | .close c => (p.finish c.reply).noting .poolClosed

end Pool

end ObjectPool
