/-
  ObjectPool.Pool.Lend

  How a borrower gets an object. It first takes abandoned objects back if the
  settings say so. Then it looks for an idle object or a free place; behind
  others in line, or with nothing to be had, it waits, fails or gives up.
  An idle object that turns out unusable is destroyed and the borrower looks
  again; a new object that turns out unusable is destroyed and the borrow fails.
-/

import ObjectPool.Pool.Sweep

namespace ObjectPool

/-- The borrow with the point at which its wait ends. -/
def Borrowing.start (b : Borrowing) (now : Instant) : Borrowing :=
  { b with deadline := b.timeout.bind now.after? }

namespace Pool

variable {ρ : Type}

/-- A borrower starts to look. -/
def beginSeek (p : Pool ρ) (now : Instant) (b : Borrowing) : Stretch ρ :=
  p.go (.seek (b.start now))

/-- A borrow begins. -/
def borrow (p : Pool ρ) (now : Instant) (b : Borrowing) : Stretch ρ :=
  match p.config.abandonment with
  | some a =>
    if a.onBorrow && !p.closed && a.trigger p.status then p.sweep now a (.borrow b)
    else p.beginSeek now b
  | none => p.beginSeek now b

/-! ## Looking for an object -/

/-- The borrower gives up its ticket, if it has one. -/
def leaveLine (p : Pool ρ) (ticket : Option Nat) : Pool ρ :=
  match ticket with
  | some t => p.book fun r => { r with line := r.line.leave t }
  | none => p

/-- Whether it is the borrower's turn. -/
def mayTake (p : Pool ρ) (ticket : Option Nat) : Bool :=
  match ticket with
  | some t => p.registry.line.isWoken t || p.registry.line.isFirst t
  | none => p.registry.line.queue.isEmpty

/-- Whether the borrower has been woken and left the line. -/
def outOfLine (p : Pool ρ) (ticket : Option Nat) : Bool :=
  match ticket with
  | some t => !p.registry.line.isQueued t
  | none => false

/-- Whether the borrower does not wait any longer. -/
def givesUp (p : Pool ρ) (now : Instant) (b : Borrowing) : Bool :=
  !p.config.blocks || now.reached b.deadline || b.timeout.any fun d => decide (d.nanos = 0)

/-- The borrower goes in line, or back to its place in it. -/
def standInLine (p : Pool ρ) (b : Borrowing) (ticket : Option Nat) : Stretch ρ :=
  match ticket with
  | some t =>
    (if p.registry.line.isWoken t then p.book fun r => { r with line := r.line.reenter t }
      else p).go (.waiting b t)
  | none =>
    (p.book fun r => { r with line := r.line.enter }).go (.waiting b p.registry.line.issued)

/-- The borrower gives up; if it had been woken, the next in line is woken instead. -/
def exhaust (p : Pool ρ) (b : Borrowing) (ticket : Option Nat) : Stretch ρ :=
  let q := p.leaveLine ticket
  ((if p.outOfLine ticket then q.book Registry.wakeIfAvailable else q).count
    fun c => { c with exhausted := c.exhausted + 1 }).finish
      (.failed (.exhausted (b.timeout.getD .zero)))

/-- An object is activated for a borrower or to try it out; `refused` says what
    follows if its slot is empty. -/
def activate (p : Pool ρ) (id : Nat) (t : Trial) (refused : Stretch ρ) : Stretch ρ :=
  match p.slot? id with
  | some _ => (p.hold id).go (.activating id t)
  | none => refused

/-- An object is unfit for the borrower. -/
def refuse (p : Pool ρ) (id : Nat) (b : Borrowing) (fresh : Bool) (e : PoolError) : Stretch ρ :=
  if fresh then p.destroy id (.reply (.failed e))
  else (p.destroy id (.seek b)).noting (.idleUnusable id e)

/-- A borrower looks for an object, with the ticket it has if it has been in line. -/
def seek (p : Pool ρ) (now : Instant) (b : Borrowing) (ticket : Option Nat) : Stretch ρ :=
  if p.closed then (p.leaveLine ticket).finish (.failed .closed)
  else
    let (q, grant) := if p.mayTake ticket then p.acquire now else (p, none)
    match grant with
    | some g =>
      let q := (q.leaveLine ticket).book Registry.wakeIfAvailable
      match g with
      | .idle id => q.activate id (.lend b false) (q.refuse id b false .reclaimed)
      | .room => q.go (.creating (.lend b))
    | none =>
      if q.givesUp now b then q.exhaust b ticket else q.standInLine b ticket

/-! ## Readying an object -/

/-- The borrower gets the object. -/
def handOut (p : Pool ρ) (id : Nat) (b : Borrowing) : Stretch ρ :=
  (((p.noteBorrower id b.site).count fun c => { c with borrowed := c.borrowed + 1 }).finish
    (.lent id)).noting (.lent id)

/-- Whether an object is checked before a borrower gets it. -/
def checksLent (c : Config) (fresh : Bool) : Bool :=
  if fresh then c.testOnCreate || c.testOnBorrow else c.testOnBorrow

/-- The factory has readied an object for a borrower, or says why it has not. -/
def activatedForLoan (p : Pool ρ) (id : Nat) (b : Borrowing) (fresh : Bool) (r : ρ)
    (refusal : Option String) : Stretch ρ :=
  match refusal with
  | some reason => (p.letGo id r).refuse id b fresh (.factory .activate reason)
  | none =>
    if checksLent p.config fresh then
      (p.modify id fun e => { e with slot := some r }).go
        (.validating id (.trial (.lend b fresh)))
    else (p.letGo id r).handOut id b

/-- The factory has checked an object for a borrower. -/
def validatedForLoan (p : Pool ρ) (id : Nat) (b : Borrowing) (fresh fit : Bool) : Stretch ρ :=
  if fit then (p.release id).handOut id b
  else
    ((p.release id).count fun c => { c with validationFailures := c.validationFailures + 1 }).refuse
      id b fresh .validationFailed

/-- The factory has made an object for a borrower. -/
def createdForLoan (p : Pool ρ) (now : Instant) (b : Borrowing) (r : ρ) : Stretch ρ :=
  let id := p.entries.length
  let q := (p.count fun c => { c with created := c.created + 1 }).enlist now r .allocated
  if q.closed then
    (q.book Registry.cancelReservation).finishDestroy id (.reply (.failed .closed))
  else
    let q := (q.book (Registry.registerActive id)).modify id (Entry.markBorrowed now)
    q.activate id (.lend b true) (q.refuse id b true .reclaimed)

end Pool

end ObjectPool
