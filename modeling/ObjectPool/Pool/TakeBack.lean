/-
  ObjectPool.Pool.TakeBack

  How an object comes back from a borrower. It is checked if the settings say so
  and laid to rest, and joins the idle ones; an unfit object, one too many, and
  any object of a closed pool is destroyed. An object that the pool took away
  from its borrower before is refused. `answer` replaces the reply of a call that
  has one of its own.
-/

import ObjectPool.Pool.Disposal

namespace ObjectPool.Pool

variable {ρ : Type}

/-- The return of an object that is not lent any more is refused. -/
def refuseReturn (p : Pool ρ) (r : Reply) : Stretch ρ :=
  (p.count fun c => { c with invalidReturns := c.invalidReturns + 1 }).finish r

/-- A returned object is laid to rest. -/
def passivate (p : Pool ρ) (id : Nat) (answer : Option Reply) : Stretch ρ :=
  match p.slot? id with
  | some _ => (p.hold id).go (.passivating id (.takeBack answer))
  | none => p.destroy id (.reply (answer.getD (.failed .reclaimed)))

/-- A returned object was found unfit. -/
def unfitReturn (p : Pool ρ) (id : Nat) (answer : Option Reply) : Stretch ρ :=
  ((p.count fun c => { c with validationFailures := c.validationFailures + 1 }).destroy id
    (.reply (answer.getD .done))).noting (.unfitReturn id)

/-- The borrower's hold on an object ends. -/
def markReturned (now : Instant) (id : Nat) (p : Pool ρ) : Pool ρ :=
  (p.modify id fun e =>
    { e.become .returning with lastReturn := now, lastUse := none }).count
      fun c => { c with returned := c.returned + 1 }

/-- An object comes back. -/
def takeBack (p : Pool ρ) (now : Instant) (id : Nat) (answer : Option Reply) : Stretch ρ :=
  let refused := answer.getD (.failed .invalidReturn)
  if id ∉ p.registry.active then
    (p.refuseReturn refused).noting (.strayReturn id (p.stateOf id))
  else if p.isIn id .allocated = false then
    (p.refuseReturn refused).noting (.reclaimedDuringReturn id)
  else
    let q := p.markReturned now id
    if q.closed then q.destroy id (.reply (answer.getD (.failed .closed)))
    else if q.config.testOnReturn then
      match q.slot? id with
      | some _ => (q.hold id).go (.validating id (.takeBack answer))
      | none => q.unfitReturn id answer
    else q.passivate id answer

/-- The factory has checked a returned object. -/
def validatedReturn (p : Pool ρ) (id : Nat) (answer : Option Reply) (fit : Bool) : Stretch ρ :=
  if fit then (p.release id).passivate id answer else (p.release id).unfitReturn id answer

/-- A returned object joins the idle ones. -/
def shelve (p : Pool ρ) (id : Nat) (answer : Option Reply) : Stretch ρ :=
  let q := if p.isIn id .returning then p.setState id .idle else p
  ((q.book (Registry.checkin id)).finish (answer.getD .done)).noting (.returned id)

/-- The factory has laid a returned object to rest, or says why it has not. -/
def passivatedReturn (p : Pool ρ) (id : Nat) (answer : Option Reply) (r : ρ)
    (refusal : Option String) : Stretch ρ :=
  let p := p.letGo id r
  match refusal with
  | some reason =>
    (p.destroy id (.reply (answer.getD .done))).noting (.passivateFailed id reason)
  | none =>
    if p.closed then p.destroy id (.reply (answer.getD (.failed .closed)))
    else if p.config.maxIdle ≤ p.registry.idle.length then
      (p.destroy id (.reply (answer.getD .done))).noting (.idleCeiling id)
    else p.shelve id answer

/-- An object comes back to be destroyed. -/
def discard (p : Pool ρ) (id : Nat) : Stretch ρ :=
  if id ∉ p.registry.active then p.refuseReturn (.failed .invalidReturn)
  else if p.isIn id .allocated || p.isIn id .returning then
    (p.setState id .invalid).destroy id
      (.reply (if p.closed then .failed .closed else .done))
  else p.refuseReturn (.failed .invalidReturn)

end ObjectPool.Pool
