/-
  ObjectPool.WaitLine

  The line of borrowers that wait for an object. Each holds a ticket. A borrower
  that is woken leaves the line and keeps its ticket among the woken ones until
  it looks again; if it finds nothing it goes back to the front.

    * `wakeNext`, `wakeAll` — the first leaves the line woken, or everyone does.
    * `enter`, `reenter`, `leave` — a borrower begins, resumes or ends its wait.
-/

namespace ObjectPool

/-- Tickets are numbered in the order in which they are given out. -/
structure WaitLine where
  /-- Tickets in line, the next to be woken first. -/
  queue : List Nat := []
  /-- Tickets that were woken and have not looked again. -/
  woken : List Nat := []
  /-- How many tickets were given out. -/
  issued : Nat := 0
  deriving DecidableEq

namespace WaitLine

/-- The first in line is woken. -/
def wakeNext (l : WaitLine) : WaitLine :=
  match l.queue with
  | [] => l
  | t :: rest => { l with queue := rest, woken := t :: l.woken }

/-- Everyone in line is woken. -/
def wakeAll (l : WaitLine) : WaitLine :=
  { l with queue := [], woken := l.queue ++ l.woken }

/-- A new ticket goes to the end of the line. -/
def enter (l : WaitLine) : WaitLine :=
  { l with queue := l.queue ++ [l.issued], issued := l.issued + 1 }

/-- A woken ticket goes back to the front. -/
def reenter (t : Nat) (l : WaitLine) : WaitLine :=
  { l with queue := t :: l.queue, woken := l.woken.filter (· ≠ t) }

/-- A ticket is given up. -/
def leave (t : Nat) (l : WaitLine) : WaitLine :=
  { l with queue := l.queue.filter (· ≠ t), woken := l.woken.filter (· ≠ t) }

/-- Whether a ticket is first in line. -/
def isFirst (t : Nat) (l : WaitLine) : Bool := decide (l.queue.head? = some t)

/-- Whether a ticket was woken. -/
def isWoken (t : Nat) (l : WaitLine) : Bool := decide (t ∈ l.woken)

/-- Whether a ticket is in line. -/
def isQueued (t : Nat) (l : WaitLine) : Bool := decide (t ∈ l.queue)

/-! ## What each operation does to the line -/

@[simp] theorem wakeNext_issued (l : WaitLine) : l.wakeNext.issued = l.issued := by
  unfold wakeNext; split <;> rfl

theorem wakeNext_queue (l : WaitLine) : l.wakeNext.queue = l.queue.tail := by
  unfold wakeNext; split <;> simp_all

theorem wakeNext_woken (l : WaitLine) :
    l.wakeNext.woken = l.queue.head?.toList ++ l.woken := by
  unfold wakeNext; split <;> simp_all

@[simp] theorem wakeAll_queue (l : WaitLine) : l.wakeAll.queue = [] := rfl

@[simp] theorem wakeAll_woken (l : WaitLine) : l.wakeAll.woken = l.queue ++ l.woken := rfl

@[simp] theorem enter_queue (l : WaitLine) : l.enter.queue = l.queue ++ [l.issued] := rfl

@[simp] theorem enter_woken (l : WaitLine) : l.enter.woken = l.woken := rfl

@[simp] theorem mem_leave_queue {t u : Nat} {l : WaitLine} :
    u ∈ (l.leave t).queue ↔ u ∈ l.queue ∧ u ≠ t := by simp [leave]

@[simp] theorem mem_leave_woken {t u : Nat} {l : WaitLine} :
    u ∈ (l.leave t).woken ↔ u ∈ l.woken ∧ u ≠ t := by simp [leave]

end WaitLine

end ObjectPool
