/-
  ObjectPool.Pool

  A pool as a value: settings, books, objects, counters and references. The
  operations here are the small changes that calls on a pool are made of; each
  happens at once.

    * `Pool.acquire` — an idle object is lent or a place is held.
    * `Pool.trackUse` — a use of a lent object is noted.
    * `Pool.detach`, `Pool.emptySlot`, `Pool.retire` — the steps of an object's end.
-/

import ObjectPool.Journal
import ObjectPool.Registry

namespace ObjectPool

/-- A pool; `ρ` is the type of resources. -/
structure Pool (ρ : Type) where
  config : Config
  registry : Registry
  /-- Every object that ever was in the pool, at the place of its number. -/
  entries : List (Entry ρ) := []
  counters : Counters := {}
  /-- The thread that does the background upkeep, until it is told to stop. -/
  keeper : Option Nat := none
  /-- References to the pool in the hands of callers. -/
  clones : Nat := 1
  /-- The last reference to the pool is gone. -/
  gone : Bool := false

namespace Pool

variable {ρ : Type}

/-- A new pool. -/
def new (config : Config) : Pool ρ :=
  { config, registry := { order := config.handOut, capacity := config.maxTotal } }

/-! ## Views -/

/-- The counts of this moment. -/
def status (p : Pool ρ) : Status := p.registry.status

/-- All that the pool counts. -/
def metrics (p : Pool ρ) : Metrics := { counters := p.counters, status := p.status }

/-- The pool is closed. -/
def closed (p : Pool ρ) : Bool := p.registry.closed

/-- The object of a given number. -/
def object? (p : Pool ρ) (id : Nat) : Option (Entry ρ) := p.entries[id]?

/-- The state of the object of a given number, which is out of circulation if
    there is no such object. -/
def stateOf (p : Pool ρ) (id : Nat) : Lifecycle :=
  match p.object? id with
  | some e => e.state
  | none => .invalid

/-- Whether an object is in a given state. -/
def isIn (p : Pool ρ) (id : Nat) (s : Lifecycle) : Bool := (p.object? id).any (·.isIn s)

/-- The resource in an object's slot. -/
def slot? (p : Pool ρ) (id : Nat) : Option ρ := (p.object? id).bind (·.slot)

/-- Whether somebody works on an object's resource. -/
def isHeld (p : Pool ρ) (id : Nat) : Bool := (p.object? id).any (·.held)

/-! ## Small changes -/

/-- A change to the books. -/
def book (f : Registry → Registry) (p : Pool ρ) : Pool ρ := { p with registry := f p.registry }

/-- A change to what is counted. -/
def count (f : Counters → Counters) (p : Pool ρ) : Pool ρ := { p with counters := f p.counters }

/-- A change to one object. -/
def modify (id : Nat) (f : Entry ρ → Entry ρ) (p : Pool ρ) : Pool ρ :=
  { p with entries := p.entries.modify id f }

/-- An object is put in a state. -/
def setState (id : Nat) (s : Lifecycle) : Pool ρ → Pool ρ := modify id (Entry.become s)

/-- Somebody begins to work on an object's resource. -/
def hold (id : Nat) : Pool ρ → Pool ρ := modify id fun e => { e with held := true }

/-- Work on an object's resource ends, and leaves `r` in the slot. -/
def letGo (id : Nat) (r : ρ) : Pool ρ → Pool ρ :=
  modify id fun e => { e with held := false, slot := some r }

/-- Work on an object's resource ends, which it has not changed. -/
def release (id : Nat) : Pool ρ → Pool ρ := modify id fun e => { e with held := false }

/-- An object's resource is taken out of its slot. -/
def emptySlot (id : Nat) : Pool ρ → Pool ρ := modify id fun e => { e with slot := none }

/-- A new object with the next number. -/
def enlist (now : Instant) (r : ρ) (s : Lifecycle) (p : Pool ρ) : Pool ρ :=
  { p with entries := p.entries ++ [Entry.fresh now r s] }

/-- An object is no longer tracked. -/
def detach (id : Nat) : Pool ρ → Pool ρ := book (Registry.detach id)

/-- An object's last use is forgotten. -/
def forgetUse (id : Nat) : Pool ρ → Pool ρ := modify id fun e => { e with lastUse := none }

/-- An object is out of circulation for good, and counted as destroyed. -/
def retire (id : Nat) (p : Pool ρ) : Pool ρ :=
  ((p.setState id .invalid).forgetUse id).count fun c => { c with destroyed := c.destroyed + 1 }

/-! ## Lending -/

/-- What a borrower is given: an idle object, or a place for a new one. -/
inductive Grant where
  | idle (id : Nat)
  | room
  deriving DecidableEq

/-- The first number of a tracked object that is still free, with those behind it. -/
def firstFree (p : Pool ρ) : List Nat → Option (Nat × List Nat)
  | [] => none
  | id :: rest =>
    if id ∈ p.registry.tracked ∧ p.isIn id .idle then some (id, rest) else p.firstFree rest

/-- An object is stamped as lent. -/
def markLent (now : Instant) (id : Nat) : Pool ρ → Pool ρ :=
  modify id fun e => (e.markBorrowed now).become .allocated

/-- An idle object is lent, or else a place is held, or else there is nothing. -/
def acquire (now : Instant) (p : Pool ρ) : Pool ρ × Option Grant :=
  match p.firstFree p.registry.idle with
  | some (id, rest) =>
    ((p.book (Registry.lend id rest)).markLent now id, some (.idle id))
  | none =>
    let p := p.book fun r => { r with idle := [] }
    if p.registry.hasRoom then (p.book Registry.reserve, some .room) else (p, none)

/-- Who borrowed an object, if abandoned objects are reported. -/
def noteBorrower (id : Nat) (site : String) (p : Pool ρ) : Pool ρ :=
  match p.config.abandonment with
  | some a =>
    if a.reported then
      p.modify id fun e => { e with borrowedBy := some (Evidence.of a.fullStack site) }
    else p
  | none => p

/-- A use of a lent object is noted, if uses are tracked. -/
def trackUse (now : Instant) (id : Nat) (site : String) (p : Pool ρ) : Pool ρ :=
  match p.config.abandonment with
  | some a =>
    if a.tracksUse then
      let evidence := if a.reported then some (Evidence.of a.fullStack site) else none
      p.modify id fun e => { e with lastUse := some ⟨now, evidence⟩ }
    else p
  | none => p

/-! ## How the small changes show in the views -/

@[simp] theorem book_registry (f : Registry → Registry) (p : Pool ρ) :
    (p.book f).registry = f p.registry := rfl

@[simp] theorem book_entries (f : Registry → Registry) (p : Pool ρ) :
    (p.book f).entries = p.entries := rfl

@[simp] theorem count_registry (f : Counters → Counters) (p : Pool ρ) :
    (p.count f).registry = p.registry := rfl

@[simp] theorem count_entries (f : Counters → Counters) (p : Pool ρ) :
    (p.count f).entries = p.entries := rfl

@[simp] theorem modify_registry (id : Nat) (f : Entry ρ → Entry ρ) (p : Pool ρ) :
    (p.modify id f).registry = p.registry := rfl

theorem object?_modify (id x : Nat) (f : Entry ρ → Entry ρ) (p : Pool ρ) :
    (p.modify id f).object? x = if id = x then (p.object? x).map f else p.object? x := by
  simp only [object?, modify, List.getElem?_modify]
  split <;> simp_all

end Pool

end ObjectPool
