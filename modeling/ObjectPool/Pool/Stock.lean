/-
  ObjectPool.Pool.Stock

  How idle objects are made: one on request, or as many as the reserve needs.
  A new object is checked if the settings say so and laid to rest. Then it joins
  the idle ones, unless the pool was closed or has enough idle objects by now,
  and otherwise it is destroyed.
-/

import ObjectPool.Pool.Disposal

namespace ObjectPool.Pool

variable {ρ : Type}

/-- An idle object is asked for. -/
def add (p : Pool ρ) : Stretch ρ :=
  if p.closed then p.finish (.failed .closed)
  else if p.config.maxIdle ≤ p.registry.idle.length ∨ p.registry.hasRoom = false then
    p.finish (.failed (.exhausted .zero))
  else (p.book Registry.reserve).go (.creating (.stock .add))

/-- The reserve is to be filled by a call of its own. -/
def prepare (p : Pool ρ) : Stretch ρ :=
  if p.closed then p.finish (.failed .closed) else p.go (.filling .prepare 0)

/-- One more object for the reserve, if it needs one and there is room. -/
def fill (p : Pool ρ) (f : Filler) (made : Nat) : Stretch ρ :=
  if p.closed ∨ p.config.minIdle ≤ p.registry.idle.length ∨ p.registry.hasRoom = false then
    p.filled f made
  else (p.book Registry.reserve).go (.creating (.stock (.fill f made)))

/-- A new object has joined the idle ones. -/
def stocked (p : Pool ρ) (s : Stocker) : Stretch ρ :=
  match s with
  | .add => p.finish .done
  | .fill f made => p.go (.filling f (made + 1))

/-- A new object joins the idle ones if all went well and there is still a use
    for it. -/
def settle (p : Pool ρ) (id : Nat) (s : Stocker) (fault : Option PoolError) : Stretch ρ :=
  let refusal :=
    if p.closed then some .closed
    else if p.config.maxIdle ≤ p.registry.idle.length then some (.exhausted .zero)
    else fault
  match refusal with
  | none => (p.book (Registry.registerIdle id)).stocked s
  | some e => (p.book Registry.cancelReservation).finishDestroy id (.notStocked s e)

/-- The factory has made an object for the idle queue. -/
def createdForStock (p : Pool ρ) (now : Instant) (s : Stocker) (r : ρ) : Stretch ρ :=
  let id := p.entries.length
  let q := (p.count fun c => { c with created := c.created + 1 }).enlist now r .idle
  match q.slot? id with
  | some _ =>
    let q := q.hold id
    if q.config.testOnCreate then q.go (.validating id (.stock s))
    else q.go (.passivating id (.stock s))
  | none => q.settle id s (some .reclaimed)

/-- The slot of an object that was just made is filled. -/
theorem slot?_enlist_self (p : Pool ρ) (now : Instant) (r : ρ) (s : Lifecycle) :
    (p.enlist now r s).slot? p.entries.length = some r := by
  simp [slot?, object?, enlist, Entry.fresh]

/-- A new object is checked or laid to rest, with the resource that the factory has put in it. -/
theorem createdForStock_eq (p : Pool ρ) (now : Instant) (s : Stocker) (r : ρ) :
    p.createdForStock now s r =
      let id := p.entries.length
      let q := ((p.count fun c => { c with created := c.created + 1 }).enlist now r .idle).hold id
      if q.config.testOnCreate then q.go (.validating id (.stock s))
      else q.go (.passivating id (.stock s)) := by
  have hslot := (p.count fun c => { c with created := c.created + 1 }).slot?_enlist_self now r .idle
  unfold createdForStock
  rw [count_entries] at hslot
  simp only [hslot]

/-- The factory has checked a new object. -/
def validatedForStock (p : Pool ρ) (id : Nat) (s : Stocker) (fit : Bool) : Stretch ρ :=
  if fit then p.go (.passivating id (.stock s))
  else
    ((p.release id).count fun c => { c with validationFailures := c.validationFailures + 1 }).settle
      id s (some .validationFailed)

/-- The factory has laid a new object to rest, or says why it has not. -/
def passivatedForStock (p : Pool ρ) (id : Nat) (s : Stocker) (r : ρ) (refusal : Option String) :
    Stretch ρ :=
  (p.letGo id r).settle id s (refusal.map (PoolError.factory .passivate))

/-- The factory refused to make an object: the place held for it is given up. -/
def notCreated (p : Pool ρ) (m : Maker) (reason : String) : Stretch ρ :=
  let q := p.book Registry.cancelReservation
  let e := PoolError.factory .create reason
  let s := match m with
    | .lend _ => q.finish (.failed e)
    | .stock s => q.notStocked s e
  s.noting (.createFailed reason)

end ObjectPool.Pool
