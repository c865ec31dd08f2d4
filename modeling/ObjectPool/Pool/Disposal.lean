/-
  ObjectPool.Pool.Disposal

  How an object's life ends: it is taken out of the books, its slot is emptied,
  it is marked as out of circulation, and its resource goes to the factory to be
  destroyed. `resume` says where the call goes on after that.
-/

import ObjectPool.Call

namespace ObjectPool.Pool

variable {ρ : Type}

/-- The reserve is filled as far as it goes. -/
def filled (p : Pool ρ) (f : Filler) (made : Nat) : Stretch ρ :=
  match f with
  | .prepare => p.finish (.made made)
  | .upkeep out back => (p.finish .done).noting (.upkeepDone out back made)

/-- No idle object was made. -/
def notStocked (p : Pool ρ) (s : Stocker) (e : PoolError) : Stretch ρ :=
  match s with
  | .add | .fill .prepare _ => p.finish (.failed e)
  | .fill (.upkeep out back) _ =>
    ((p.finish .done).noting (.upkeepDone out back 0)).noting (.refillFailed e)

/-- The call goes on after an object was destroyed. -/
def resume (p : Pool ρ) (k : After ρ) : Stretch ρ :=
  match k with
  | .seek b => p.go (.seek b)
  | .reply r => p.finish r
  | .notStocked s e => p.notStocked s e
  | .reclaim rest n s => p.go (.reclaiming rest n s)
  | .evict out tests n => p.go (.evicting out tests n)
  | .drain rest d => p.go (.draining rest d)

/-- An object that is no longer tracked is destroyed, with `r` taken from its slot. -/
def dispose (p : Pool ρ) (id : Nat) (r : Option ρ) (mode : DestroyMode) (k : After ρ) :
    Stretch ρ :=
  match r with
  | some r => (p.retire id).go (.destroying id r mode k)
  | none => (p.retire id).resume k

/-- An object that is no longer tracked is destroyed. -/
def finishDestroy (p : Pool ρ) (id : Nat) (k : After ρ) : Stretch ρ :=
  (p.emptySlot id).dispose id (p.slot? id) .normal k

/-- An object is no longer tracked, and destroyed. -/
def destroy (p : Pool ρ) (id : Nat) (k : After ρ) : Stretch ρ := (p.detach id).finishDestroy id k

/-- The factory has destroyed a resource, or says why it has not. -/
def destroyed (p : Pool ρ) (id : Nat) (k : After ρ) (refusal : Option String) : Stretch ρ :=
  match refusal with
  | some reason => (p.resume k).noting (.destroyFailed id reason)
  | none => p.resume k

end ObjectPool.Pool
