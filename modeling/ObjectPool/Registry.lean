/-
  ObjectPool.Registry

  The books of a pool: which objects it tracks, which of them are idle and which
  are lent, how many are being made, who waits, and whether the pool is closed.
  Objects are numbered in the order in which they were made.

  Whatever frees an object or a place wakes the borrower that is first in line.
-/

import ObjectPool.Census
import ObjectPool.Config
import ObjectPool.WaitLine

namespace ObjectPool

/-- The books of a pool. -/
structure Registry where
  /-- The order in which idle objects are lent. -/
  order : HandOut
  /-- The most objects tracked and being made. -/
  capacity : Nat
  /-- Every object of the pool. -/
  tracked : List Nat := []
  /-- The idle objects, the next to be lent first. -/
  idle : List Nat := []
  /-- The lent objects. -/
  active : List Nat := []
  /-- Places held for objects that are being made. -/
  creating : Nat := 0
  closed : Bool := false
  line : WaitLine := {}
  deriving DecidableEq

namespace Registry

/-- A number joins a set kept as a list. -/
def adjoin (id : Nat) (s : List Nat) : List Nat := if id ∈ s then s else s ++ [id]

/-- A number leaves a set kept as a list. -/
def without (id : Nat) (s : List Nat) : List Nat := s.filter (· ≠ id)

@[simp] theorem mem_adjoin {id x : Nat} {s : List Nat} : x ∈ adjoin id s ↔ x = id ∨ x ∈ s := by
  unfold adjoin
  split
  · constructor
    · exact Or.inr
    · rintro (rfl | h) <;> assumption
  · simp [or_comm]

@[simp] theorem mem_without {id x : Nat} {s : List Nat} : x ∈ without id s ↔ x ∈ s ∧ x ≠ id := by
  simp [without]

/-! ## Counts -/

/-- Objects tracked and being made. -/
def total (r : Registry) : Nat := r.tracked.length + r.creating

/-- The counts of this moment. -/
def status (r : Registry) : Status :=
  { active := r.active.length, idle := r.idle.length, waiters := r.line.queue.length,
    maxTotal := r.capacity }

/-- The idle objects, the one idle for longest first. -/
def idleOldestFirst (r : Registry) : List Nat :=
  match r.order with
  | .lifo => r.idle.reverse
  | .fifo => r.idle

/-- Whether a borrower could have an object or a place. -/
def available (r : Registry) : Bool :=
  !r.idle.isEmpty || (!r.closed && decide (r.total < r.capacity))

/-! ## Waking -/

/-- The first in line is woken. -/
def wakeNext (r : Registry) : Registry := { r with line := r.line.wakeNext }

/-- The first in line is woken if there is something to be had. -/
def wakeIfAvailable (r : Registry) : Registry := if r.available then r.wakeNext else r

@[simp] theorem wakeNext_tracked (r : Registry) : r.wakeNext.tracked = r.tracked := rfl

@[simp] theorem wakeNext_idle (r : Registry) : r.wakeNext.idle = r.idle := rfl

@[simp] theorem wakeNext_active (r : Registry) : r.wakeNext.active = r.active := rfl

@[simp] theorem wakeNext_creating (r : Registry) : r.wakeNext.creating = r.creating := rfl

@[simp] theorem wakeNext_closed (r : Registry) : r.wakeNext.closed = r.closed := rfl

@[simp] theorem wakeNext_capacity (r : Registry) : r.wakeNext.capacity = r.capacity := rfl

@[simp] theorem wakeNext_line (r : Registry) : r.wakeNext.line = r.line.wakeNext := rfl

/-- Waking changes the line of borrowers and nothing else in the books. -/
theorem wakeIfAvailable_eq (r : Registry) :
    r.wakeIfAvailable = { r with line := r.wakeIfAvailable.line } := by
  unfold wakeIfAvailable; split <;> rfl

/-! ## Places -/

/-- Whether a place is free. -/
def hasRoom (r : Registry) : Bool := !r.closed && decide (r.total < r.capacity)

/-- A place is held for an object about to be made. -/
def reserve (r : Registry) : Registry := { r with creating := r.creating + 1 }

/-- A held place is given up. -/
def cancelReservation (r : Registry) : Registry :=
  { r with creating := r.creating - 1 }.wakeNext

/-! ## Objects -/

/-- A new object takes its place as a lent one. -/
def registerActive (id : Nat) (r : Registry) : Registry :=
  { r with
    creating := r.creating - 1, tracked := adjoin id r.tracked, active := adjoin id r.active }

/-- An object joins the idle ones. -/
def pushIdle (id : Nat) (r : Registry) : Registry :=
  { r with
    idle := match r.order with
      | .lifo => id :: r.idle
      | .fifo => r.idle ++ [id] }.wakeNext

/-- A new object takes its place as an idle one. -/
def registerIdle (id : Nat) (r : Registry) : Registry :=
  { r with creating := r.creating - 1, tracked := adjoin id r.tracked }.pushIdle id

/-- An idle object is lent, and `rest` are left in the idle queue. -/
def lend (id : Nat) (rest : List Nat) (r : Registry) : Registry :=
  { r with idle := rest, active := adjoin id r.active }

/-- A lent object becomes idle. -/
def checkin (id : Nat) (r : Registry) : Registry :=
  { r with active := without id r.active }.pushIdle id

/-- An idle object is taken out to be tried. -/
def removeIdle (id : Nat) (r : Registry) : Registry := { r with idle := without id r.idle }

/-- An object that was tried goes where it is lent last. -/
def restoreIdle (id : Nat) (r : Registry) : Registry :=
  { r with idle := r.idle ++ [id] }.wakeNext

/-- An object is no longer tracked, and its place is free. -/
def detach (id : Nat) (r : Registry) : Registry :=
  if id ∈ r.tracked then
    { r with
      tracked := without id r.tracked
      active := without id r.active
      idle := if id ∈ r.active then r.idle else without id r.idle }.wakeNext
  else r

@[simp] theorem mem_detach_tracked {id x : Nat} {r : Registry} :
    x ∈ (r.detach id).tracked ↔ x ∈ r.tracked ∧ x ≠ id := by
  unfold detach
  split
  · simp
  · rename_i h
    constructor
    · intro hx; exact ⟨hx, fun he => h (he ▸ hx)⟩
    · exact And.left

/-- The idle objects that are tracked. -/
def drained (r : Registry) : List Nat := r.idle.filter (· ∈ r.tracked)

/-- No idle object is tracked any longer. -/
def drainIdle (r : Registry) : Registry :=
  let out := r.drained
  let kept := { r with idle := [], tracked := r.tracked.filter (· ∉ out) }
  if out.isEmpty then kept else kept.wakeNext

/-- The pool is closed and everyone in line is woken. -/
def close (r : Registry) : Registry := { r with closed := true, line := r.line.wakeAll }

end Registry

end ObjectPool
