/-
  ObjectPool.Pool.Step

  One stretch of a call: `advance` from a point at which the call can go on by
  itself, `respond` from a point at which it waits for the factory or for the
  sink of reports. `GoesOn` and `Answered` list what such a stretch can be.
-/

import ObjectPool.Pool.Close
import ObjectPool.Pool.TakeBack
import ObjectPool.Pool.Upkeep

namespace ObjectPool

variable {ρ : Type}

/-- Whether a call waits for the factory or for the sink of reports. -/
def Point.isRequest : Point ρ → Bool
  | .creating _ | .activating _ _ | .validating _ _ | .passivating _ _ | .destroying _ _ _ _
  | .reporting _ _ _ _ _ => true
  | _ => false

namespace Pool

/-- One stretch of a call on the thread `self`, from a point at which it can go
    on by itself. A borrower in line goes on once it is woken or its deadline is
    reached, and a call that awaits the end of a thread once `ended` says so. -/
def advance (p : Pool ρ) (now : Instant) (self : Nat) (ended : Nat → Bool) :
    Point ρ → Option (Stretch ρ)
  | .borrow b => some (p.borrow now b)
  | .seek b => some (p.seek now b none)
  | .waiting b t =>
    if p.registry.line.isWoken t || now.reached b.deadline then some (p.seek now b (some t))
    else none
  | .add => some p.add
  | .prepare => some p.prepare
  | .filling f made => some (p.fill f made)
  | .upkeep => some (p.upkeep now)
  | .evicting out tests n => some (p.evictNext now out tests n)
  | .reclaiming [] n s => some (p.swept now n s)
  | .reclaiming (x :: rest) n s => some (p.reclaimNext x rest n s)
  | .takeBack id answer => some (p.takeBack now id answer)
  | .discard id => some (p.discard id)
  | .clear => some p.clear
  | .close c => some (p.close self c)
  | .draining rest d => some (p.drainNext rest d)
  | .joining k drained c => if ended k then some (p.go (.draining drained (.close c))) else none
  | .creating _ | .activating _ _ | .validating _ _ | .passivating _ _ | .destroying _ _ _ _
  | .reporting _ _ _ _ _ => none

/-- One stretch of a call from a point at which it waits, with the answer it gets. -/
def respond (p : Pool ρ) (now : Instant) : Point ρ → Response ρ → Option (Stretch ρ)
  | .creating m, .created (.error reason) => some (p.notCreated m reason)
  | .creating (.lend b), .created (.ok r) => some (p.createdForLoan now b r)
  | .creating (.stock s), .created (.ok r) => some (p.createdForStock now s r)
  | .activating id (.lend b fresh), .activated r e => some (p.activatedForLoan id b fresh r e)
  | .activating id (.test tests n), .activated r e => some (p.activatedForTest id tests n r e)
  | .validating id (.trial (.lend b fresh)), .validated fit =>
    some (p.validatedForLoan id b fresh fit)
  | .validating id (.trial (.test tests n)), .validated fit =>
    some (p.validatedForTest id tests n fit)
  | .validating id (.stock s), .validated fit => some (p.validatedForStock id s fit)
  | .validating id (.takeBack answer), .validated fit => some (p.validatedReturn id answer fit)
  | .passivating id (.test tests n), .passivated r e => some (p.passivatedForTest id tests n r e)
  | .passivating id (.stock s), .passivated r e => some (p.passivatedForStock id s r e)
  | .passivating id (.takeBack answer), .passivated r e =>
    some (p.passivatedReturn id answer r e)
  | .destroying id _ _ k, .destroyed e => some (p.destroyed id k e)
  | .reporting _ x rest n s, .reported => some (p.disposeReclaimed x rest n s)
  | _, _ => none

/-! ## What a stretch is -/

variable {p : Pool ρ} {now : Instant} {self : Nat} {ended : Nat → Bool} {pt : Point ρ}
  {s : Stretch ρ} {r : Response ρ}

/-- The stretch of a call that goes on by itself, point by point. -/
inductive GoesOn (p : Pool ρ) (now : Instant) (self : Nat) (ended : Nat → Bool) :
    Point ρ → Stretch ρ → Prop
  | borrow (b : Borrowing) : GoesOn p now self ended (.borrow b) (p.borrow now b)
  | seek (b : Borrowing) : GoesOn p now self ended (.seek b) (p.seek now b none)
  | waiting (b : Borrowing) (t : Nat)
      (h : (p.registry.line.isWoken t || now.reached b.deadline) = true) :
      GoesOn p now self ended (.waiting b t) (p.seek now b (some t))
  | add : GoesOn p now self ended .add p.add
  | prepare : GoesOn p now self ended .prepare p.prepare
  | filling (f : Filler) (made : Nat) : GoesOn p now self ended (.filling f made) (p.fill f made)
  | upkeep : GoesOn p now self ended .upkeep (p.upkeep now)
  | evicting (out tests : List Nat) (n : Nat) :
      GoesOn p now self ended (.evicting out tests n) (p.evictNext now out tests n)
  | swept (n : Nat) (w : Sweeper) : GoesOn p now self ended (.reclaiming [] n w) (p.swept now n w)
  | reclaiming (x : Reclaimed ρ) (rest : List (Reclaimed ρ)) (n : Nat) (w : Sweeper) :
      GoesOn p now self ended (.reclaiming (x :: rest) n w) (p.reclaimNext x rest n w)
  | takeBack (id : Nat) (answer : Option Reply) :
      GoesOn p now self ended (.takeBack id answer) (p.takeBack now id answer)
  | discard (id : Nat) : GoesOn p now self ended (.discard id) (p.discard id)
  | clear : GoesOn p now self ended .clear p.clear
  | close (c : Closer) : GoesOn p now self ended (.close c) (p.close self c)
  | draining (rest : List Nat) (d : Drainer) :
      GoesOn p now self ended (.draining rest d) (p.drainNext rest d)
  | joining (k : Nat) (drained : List Nat) (c : Closer) (h : ended k = true) :
      GoesOn p now self ended (.joining k drained c) (p.go (.draining drained (.close c)))

theorem goesOn_of_advance (hs : p.advance now self ended pt = some s) :
    p.GoesOn now self ended pt s := by
  unfold advance at hs
  split at hs
  · exact Option.some.inj hs ▸ .borrow _
  · exact Option.some.inj hs ▸ .seek _
  · split at hs
    · rename_i h
      exact Option.some.inj hs ▸ .waiting _ _ h
    · exact nomatch hs
  · exact Option.some.inj hs ▸ .add
  · exact Option.some.inj hs ▸ .prepare
  · exact Option.some.inj hs ▸ .filling _ _
  · exact Option.some.inj hs ▸ .upkeep
  · exact Option.some.inj hs ▸ .evicting _ _ _
  · exact Option.some.inj hs ▸ .swept _ _
  · exact Option.some.inj hs ▸ .reclaiming _ _ _ _
  · exact Option.some.inj hs ▸ .takeBack _ _
  · exact Option.some.inj hs ▸ .discard _
  · exact Option.some.inj hs ▸ .clear
  · exact Option.some.inj hs ▸ .close _
  · exact Option.some.inj hs ▸ .draining _ _
  · split at hs
    · rename_i h
      exact Option.some.inj hs ▸ .joining _ _ _ h
    · exact nomatch hs
  all_goals exact nomatch hs

/-- The stretch of a call that gets an answer, answer by answer. -/
inductive Answered (p : Pool ρ) (now : Instant) : Point ρ → Response ρ → Stretch ρ → Prop
  | notCreated (m : Maker) (reason : String) :
      Answered p now (.creating m) (.created (.error reason)) (p.notCreated m reason)
  | createdForLoan (b : Borrowing) (v : ρ) :
      Answered p now (.creating (.lend b)) (.created (.ok v)) (p.createdForLoan now b v)
  | createdForStock (k : Stocker) (v : ρ) :
      Answered p now (.creating (.stock k)) (.created (.ok v)) (p.createdForStock now k v)
  | activatedForLoan (id : Nat) (b : Borrowing) (fresh : Bool) (v : ρ) (refusal : Option String) :
      Answered p now (.activating id (.lend b fresh)) (.activated v refusal)
        (p.activatedForLoan id b fresh v refusal)
  | activatedForTest (id : Nat) (tests : List Nat) (n : Nat) (v : ρ) (refusal : Option String) :
      Answered p now (.activating id (.test tests n)) (.activated v refusal)
        (p.activatedForTest id tests n v refusal)
  | validatedForLoan (id : Nat) (b : Borrowing) (fresh fit : Bool) :
      Answered p now (.validating id (.trial (.lend b fresh))) (.validated fit)
        (p.validatedForLoan id b fresh fit)
  | validatedForTest (id : Nat) (tests : List Nat) (n : Nat) (fit : Bool) :
      Answered p now (.validating id (.trial (.test tests n))) (.validated fit)
        (p.validatedForTest id tests n fit)
  | validatedForStock (id : Nat) (k : Stocker) (fit : Bool) :
      Answered p now (.validating id (.stock k)) (.validated fit) (p.validatedForStock id k fit)
  | validatedReturn (id : Nat) (answer : Option Reply) (fit : Bool) :
      Answered p now (.validating id (.takeBack answer)) (.validated fit)
        (p.validatedReturn id answer fit)
  | passivatedForTest (id : Nat) (tests : List Nat) (n : Nat) (v : ρ) (refusal : Option String) :
      Answered p now (.passivating id (.test tests n)) (.passivated v refusal)
        (p.passivatedForTest id tests n v refusal)
  | passivatedForStock (id : Nat) (k : Stocker) (v : ρ) (refusal : Option String) :
      Answered p now (.passivating id (.stock k)) (.passivated v refusal)
        (p.passivatedForStock id k v refusal)
  | passivatedReturn (id : Nat) (answer : Option Reply) (v : ρ) (refusal : Option String) :
      Answered p now (.passivating id (.takeBack answer)) (.passivated v refusal)
        (p.passivatedReturn id answer v refusal)
  | destroyed (id : Nat) (v : ρ) (mode : DestroyMode) (k : After ρ) (refusal : Option String) :
      Answered p now (.destroying id v mode k) (.destroyed refusal) (p.destroyed id k refusal)
  | reported (report : Report) (x : Reclaimed ρ) (rest : List (Reclaimed ρ)) (n : Nat)
      (w : Sweeper) : Answered p now (.reporting report x rest n w) .reported
        (p.disposeReclaimed x rest n w)

theorem answered_of_respond (hs : p.respond now pt r = some s) : p.Answered now pt r s := by
  unfold respond at hs
  split at hs
  · exact Option.some.inj hs ▸ .notCreated _ _
  · exact Option.some.inj hs ▸ .createdForLoan _ _
  · exact Option.some.inj hs ▸ .createdForStock _ _
  · exact Option.some.inj hs ▸ .activatedForLoan _ _ _ _ _
  · exact Option.some.inj hs ▸ .activatedForTest _ _ _ _ _
  · exact Option.some.inj hs ▸ .validatedForLoan _ _ _ _
  · exact Option.some.inj hs ▸ .validatedForTest _ _ _ _
  · exact Option.some.inj hs ▸ .validatedForStock _ _ _
  · exact Option.some.inj hs ▸ .validatedReturn _ _ _
  · exact Option.some.inj hs ▸ .passivatedForTest _ _ _ _ _
  · exact Option.some.inj hs ▸ .passivatedForStock _ _ _ _
  · exact Option.some.inj hs ▸ .passivatedReturn _ _ _ _
  · exact Option.some.inj hs ▸ .destroyed _ _ _ _ _
  · exact Option.some.inj hs ▸ .reported _ _ _ _ _
  · exact nomatch hs

end Pool

end ObjectPool
