/-
  ObjectPool.Entry

  What a pool keeps about one object: its state, the slot with the resource,
  the times of its life, and the evidence of who has it and who used it last.

  The slot is emptied when the object is destroyed, so a borrower that still has
  the object finds nothing there. While somebody works on the resource the slot
  is held, and nobody else gets at it.
-/

import ObjectPool.Duration
import ObjectPool.Lifecycle

namespace ObjectPool

/-- What is kept of the place a call came from. -/
inductive Evidence where
  /-- The calling line. -/
  | line (site : String)
  /-- The whole call stack. -/
  | stack
  deriving DecidableEq

namespace Evidence

/-- What is kept of a place: all of it or the line alone. -/
def of (full : Bool) (site : String) : Evidence := if full then stack else line site

end Evidence

/-- The last use of a lent object. -/
structure Use where
  time : Instant
  site : Option Evidence
  deriving DecidableEq

/-- One object with what the pool keeps about it; `ρ` is the type of resources. -/
structure Entry (ρ : Type) where
  state : Lifecycle
  /-- The states it was in before, the latest first. -/
  past : List Lifecycle := []
  /-- The resource, until it is taken out to be destroyed. -/
  slot : Option ρ
  /-- Somebody works on the resource. -/
  held : Bool := false
  createdAt : Instant
  lastBorrow : Instant
  lastReturn : Instant
  borrowCount : Nat := 0
  borrowedBy : Option Evidence := none
  lastUse : Option Use := none

namespace Entry

variable {ρ : Type}

/-- A new object. -/
def fresh (now : Instant) (resource : ρ) (state : Lifecycle) : Entry ρ :=
  { state, slot := some resource, createdAt := now, lastBorrow := now, lastReturn := now }

/-- The object moves to a state, if it is in another. -/
def become (s : Lifecycle) (e : Entry ρ) : Entry ρ :=
  if e.state = s then e else { e with state := s, past := e.state :: e.past }

/-- Stamps a borrow; who borrows is not known yet. -/
def markBorrowed (now : Instant) (e : Entry ρ) : Entry ρ :=
  { e with lastBorrow := now, borrowCount := e.borrowCount + 1, borrowedBy := none }

/-- The last sign of life from the borrower: the borrow, or a use after it. -/
def lastActive (e : Entry ρ) : Instant :=
  match e.lastUse with
  | some u => u.time.later e.lastBorrow
  | none => e.lastBorrow

/-- Whether the object is in a given state. -/
def isIn (e : Entry ρ) (s : Lifecycle) : Bool := decide (e.state = s)

@[simp] theorem become_state (s : Lifecycle) (e : Entry ρ) : (e.become s).state = s := by
  unfold become; split <;> simp_all

@[simp] theorem become_slot (s : Lifecycle) (e : Entry ρ) : (e.become s).slot = e.slot := by
  unfold become; split <;> rfl

@[simp] theorem become_held (s : Lifecycle) (e : Entry ρ) : (e.become s).held = e.held := by
  unfold become; split <;> rfl

end Entry

end ObjectPool
