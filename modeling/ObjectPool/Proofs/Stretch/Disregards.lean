/-
  ObjectPool.Proofs.Stretch.Disregards

  What no stretch looks at. How many returns a pool has refused is a number for others to read: a
  stretch on a pool that has refused one more return is the same stretch. And a call that brings an
  object back with an answer of its own does not look at the answer: with another one it does the
  same, stretch by stretch, until it gives it.

    * `Pool.countStray` — one more return is refused.
    * `advance_countStray`, `respond_countStray` — no stretch looks at their number.
    * `Point.retell` — a call with another answer.
    * `advance_retell`, `respond_retell` — no stretch looks at it.
-/

import ObjectPool.Proofs.Origins

namespace ObjectPool

variable {ρ : Type}

/-! ## One more return is refused -/

namespace Pool

/-- One more return is refused. -/
def countStray (p : Pool ρ) : Pool ρ := p.count Counters.refuse

/-- The same on what the idle sweep has come to. -/
def Sorting.countStray (s : Sorting ρ) : Sorting ρ := { s with pool := s.pool.countStray }

end Pool

/-- The same on what a stretch leaves behind. -/
def Stretch.countStray (s : Stretch ρ) : Stretch ρ := { s with pool := s.pool.countStray }

namespace Pool

section Strays

variable (p : Pool ρ) (now : Instant) (id n : Nat) (s : Stretch ρ) (v : ρ)
  (refusal : Option String) (b : Borrowing) (ticket : Option Nat) (fresh fit : Bool)
  (k : Stocker) (f : Filler) (answer : Option Reply) (out tests : List Nat) (w : Sweeper)

/-! ### Views

These hold by definition. They are no `rfl` lemmas, so that `simp` can rewrite the condition of an
`if` together with its instance. -/

@[simp] theorem countStray_registry : p.countStray.registry = p.registry := (rfl)

@[simp] theorem countStray_config : p.countStray.config = p.config := (rfl)

@[simp] theorem countStray_closed : p.countStray.closed = p.closed := (rfl)

@[simp] theorem countStray_keeper : p.countStray.keeper = p.keeper := (rfl)

@[simp] theorem countStray_entries : p.countStray.entries = p.entries := (rfl)

@[simp] theorem countStray_status : p.countStray.status = p.status := (rfl)

@[simp] theorem countStray_object? : p.countStray.object? id = p.object? id := (rfl)

@[simp] theorem countStray_stateOf : p.countStray.stateOf id = p.stateOf id := (rfl)

@[simp] theorem countStray_isIn (l : Lifecycle) : p.countStray.isIn id l = p.isIn id l := (rfl)

@[simp] theorem countStray_slot? : p.countStray.slot? id = p.slot? id := (rfl)

/-! ### Small changes -/

@[simp] theorem book_countStray (g : Registry → Registry) :
    p.countStray.book g = (p.book g).countStray := (rfl)

@[simp] theorem modify_countStray (g : Entry ρ → Entry ρ) :
    p.countStray.modify id g = (p.modify id g).countStray := (rfl)

@[simp] theorem setState_countStray (l : Lifecycle) :
    p.countStray.setState id l = (p.setState id l).countStray := (rfl)

@[simp] theorem hold_countStray : p.countStray.hold id = (p.hold id).countStray := (rfl)

@[simp] theorem letGo_countStray : p.countStray.letGo id v = (p.letGo id v).countStray := (rfl)

@[simp] theorem release_countStray : p.countStray.release id = (p.release id).countStray := (rfl)

@[simp] theorem emptySlot_countStray :
    p.countStray.emptySlot id = (p.emptySlot id).countStray := (rfl)

@[simp] theorem detach_countStray : p.countStray.detach id = (p.detach id).countStray := (rfl)

@[simp] theorem retire_countStray : p.countStray.retire id = (p.retire id).countStray := (rfl)

@[simp] theorem takeAway_countStray :
    p.countStray.takeAway id = (p.takeAway id).countStray := (rfl)

@[simp] theorem markReturned_countStray :
    p.countStray.markReturned now id = (p.markReturned now id).countStray := (rfl)

@[simp] theorem markLent_countStray :
    p.countStray.markLent now id = (p.markLent now id).countStray := (rfl)

@[simp] theorem enlist_countStray (l : Lifecycle) :
    p.countStray.enlist now v l = (p.enlist now v l).countStray := (rfl)

@[simp] theorem count_created_countStray :
    (p.countStray.count fun c => { c with created := c.created + 1 }) =
      (p.count fun c => { c with created := c.created + 1 }).countStray := (rfl)

@[simp] theorem count_evicted_countStray :
    (p.countStray.count fun c => { c with evicted := c.evicted + 1 }) =
      (p.count fun c => { c with evicted := c.evicted + 1 }).countStray := (rfl)

@[simp] theorem count_abandoned_countStray :
    (p.countStray.count fun c => { c with abandoned := c.abandoned + 1 }) =
      (p.count fun c => { c with abandoned := c.abandoned + 1 }).countStray := (rfl)

@[simp] theorem count_validationFailures_countStray :
    (p.countStray.count fun c => { c with validationFailures := c.validationFailures + 1 }) =
      (p.count fun c => { c with validationFailures := c.validationFailures + 1 }).countStray :=
  (rfl)

@[simp] theorem go_countStray (pt : Point ρ) : p.countStray.go pt = (p.go pt).countStray := (rfl)

@[simp] theorem finish_countStray (r : Reply) :
    p.countStray.finish r = (p.finish r).countStray := (rfl)

@[simp] theorem noting_countStray (m : Notice) :
    s.countStray.noting m = (s.noting m).countStray := (rfl)

@[simp] theorem notingIf_countStray (c : Bool) (m : Notice) :
    s.countStray.notingIf c m = (s.notingIf c m).countStray := by
  cases c <;> rfl

/-! ### The end of an object -/

@[simp] theorem filled_countStray : p.countStray.filled f n = (p.filled f n).countStray := by
  cases f <;> rfl

@[simp] theorem notStocked_countStray (e : PoolError) :
    p.countStray.notStocked k e = (p.notStocked k e).countStray := by
  cases k with
  | add => rfl
  | fill f m => cases f <;> rfl

@[simp] theorem resume_countStray (k : After ρ) :
    p.countStray.resume k = (p.resume k).countStray := by
  cases k with
  | notStocked k e => exact notStocked_countStray p k e
  | _ => rfl

@[simp] theorem dispose_countStray (v : Option ρ) (mode : DestroyMode) (k : After ρ) :
    p.countStray.dispose id v mode k = (p.dispose id v mode k).countStray := by
  cases v with
  | none => exact resume_countStray (p.retire id) k
  | some v => rfl

@[simp] theorem finishDestroy_countStray (k : After ρ) :
    p.countStray.finishDestroy id k = (p.finishDestroy id k).countStray :=
  dispose_countStray (p.emptySlot id) id _ _ k

@[simp] theorem destroy_countStray (k : After ρ) :
    p.countStray.destroy id k = (p.destroy id k).countStray :=
  finishDestroy_countStray (p.detach id) id k

theorem destroyed_countStray (k : After ρ) :
    p.countStray.destroyed id k refusal = (p.destroyed id k refusal).countStray := by
  cases refusal <;> simp [destroyed]

/-! ### Lending -/

@[simp] theorem firstFree_countStray (l : List Nat) : p.countStray.firstFree l = p.firstFree l := by
  induction l with
  | nil => rfl
  | cons id rest ih => simp [firstFree, ih]

theorem acquire_countStray :
    p.countStray.acquire now = ((p.acquire now).1.countStray, (p.acquire now).2) := by
  simp only [acquire, countStray_registry, firstFree_countStray, book_countStray,
    markLent_countStray]
  split
  · rfl
  · split <;> rfl

@[simp] theorem leaveLine_countStray :
    p.countStray.leaveLine ticket = (p.leaveLine ticket).countStray := by
  cases ticket <;> rfl

@[simp] theorem exhaust_countStray :
    p.countStray.exhaust b ticket = (p.exhaust b ticket).countStray := by
  have hout : p.countStray.outOfLine ticket = p.outOfLine ticket := (rfl)
  simp only [exhaust, leaveLine_countStray, hout]
  split <;> rfl

@[simp] theorem standInLine_countStray :
    p.countStray.standInLine b ticket = (p.standInLine b ticket).countStray := by
  cases ticket with
  | none => rfl
  | some t =>
    simp only [standInLine, countStray_registry]
    split <;> rfl

@[simp] theorem activate_countStray (t : Trial) :
    p.countStray.activate id t s.countStray = (p.activate id t s).countStray := by
  simp only [activate, countStray_slot?]
  split <;> rfl

@[simp] theorem refuse_countStray (e : PoolError) :
    p.countStray.refuse id b fresh e = (p.refuse id b fresh e).countStray := by
  cases fresh <;> simp [refuse]

theorem seek_countStray : p.countStray.seek now b ticket = (p.seek now b ticket).countStray := by
  have hmay : p.countStray.mayTake ticket = p.mayTake ticket := (rfl)
  have hgives : ∀ q : Pool ρ, q.countStray.givesUp now b = q.givesUp now b := fun _ => (rfl)
  unfold seek
  simp only [countStray_closed, leaveLine_countStray, finish_countStray, hmay, acquire_countStray]
  -- the pool is asked for an object first, if it is the borrower's turn
  cases p.mayTake ticket with
  | false => simp [hgives, apply_ite Stretch.countStray]
  | true =>
    generalize p.acquire now = taken
    obtain ⟨q, grant⟩ := taken
    cases grant with
    | none => simp [hgives, apply_ite Stretch.countStray]
    | some g => cases g <;> simp [apply_ite Stretch.countStray]

@[simp] theorem noteBorrower_countStray (site : String) :
    p.countStray.noteBorrower id site = (p.noteBorrower id site).countStray := by
  simp only [noteBorrower, countStray_config]
  split
  · split <;> rfl
  · rfl

@[simp] theorem handOut_countStray : p.countStray.handOut id b = (p.handOut id b).countStray := by
  rw [handOut, noteBorrower_countStray]
  rfl

theorem activatedForLoan_countStray : p.countStray.activatedForLoan id b fresh v refusal =
    (p.activatedForLoan id b fresh v refusal).countStray := by
  cases refusal <;> simp [activatedForLoan, apply_ite Stretch.countStray]

theorem validatedForLoan_countStray :
    p.countStray.validatedForLoan id b fresh fit =
      (p.validatedForLoan id b fresh fit).countStray := by
  simp [validatedForLoan, apply_ite Stretch.countStray]

theorem createdForLoan_countStray :
    p.countStray.createdForLoan now b v = (p.createdForLoan now b v).countStray := by
  simp [createdForLoan, apply_ite Stretch.countStray]

/-! ### Making idle objects -/

theorem add_countStray : p.countStray.add = p.add.countStray := by
  simp [add, apply_ite Stretch.countStray]

theorem prepare_countStray : p.countStray.prepare = p.prepare.countStray := by
  simp [prepare, apply_ite Stretch.countStray]

theorem fill_countStray : p.countStray.fill f n = (p.fill f n).countStray := by
  simp [fill, apply_ite Stretch.countStray]

@[simp] theorem stocked_countStray : p.countStray.stocked k = (p.stocked k).countStray := by
  cases k <;> rfl

@[simp] theorem settle_countStray (fault : Option PoolError) :
    p.countStray.settle id k fault = (p.settle id k fault).countStray := by
  simp only [settle, countStray_closed, countStray_config, countStray_registry]
  split <;> simp

theorem createdForStock_countStray :
    p.countStray.createdForStock now k v = (p.createdForStock now k v).countStray := by
  simp [createdForStock_eq, apply_ite Stretch.countStray]

theorem validatedForStock_countStray :
    p.countStray.validatedForStock id k fit = (p.validatedForStock id k fit).countStray := by
  simp [validatedForStock, apply_ite Stretch.countStray]

theorem passivatedForStock_countStray :
    p.countStray.passivatedForStock id k v refusal =
      (p.passivatedForStock id k v refusal).countStray :=
  settle_countStray (p.letGo id v) id k _

theorem notCreated_countStray (m : Maker) (reason : String) :
    p.countStray.notCreated m reason = (p.notCreated m reason).countStray := by
  cases m <;> simp [notCreated]

/-! ### Taking objects back from their borrowers -/

theorem reclaimFrom_countStray (timeout : Duration) (l : List Nat) :
    p.countStray.reclaimFrom now timeout l =
      ((p.reclaimFrom now timeout l).1.countStray, (p.reclaimFrom now timeout l).2) := by
  have hsame : ∀ (q : Pool ρ) (id : Nat),
      q.countStray.isAbandoned now timeout id = q.isAbandoned now timeout id ∧
        q.countStray.unusedFor now id = q.unusedFor now id := fun _ _ => ⟨rfl, rfl⟩
  induction l generalizing p with
  | nil => rfl
  | cons id l ih =>
    simp only [reclaimFrom, hsame, takeAway_countStray, ih, countStray_slot?]
    split <;> rfl

@[simp] theorem sweep_countStray (a : Abandonment) :
    p.countStray.sweep now a w = (p.sweep now a w).countStray := by
  simp [sweep, reclaimFrom_countStray]

@[simp] theorem disposeReclaimed_countStray (x : Reclaimed ρ) (rest : List (Reclaimed ρ)) :
    p.countStray.disposeReclaimed x rest n w = (p.disposeReclaimed x rest n w).countStray := by
  simp [disposeReclaimed]

theorem reclaimNext_countStray (x : Reclaimed ρ) (rest : List (Reclaimed ρ)) :
    p.countStray.reclaimNext x rest n w = (p.reclaimNext x rest n w).countStray := by
  have hreport : p.countStray.report x = p.report x := (rfl)
  simp only [reclaimNext, countStray_config, hreport, disposeReclaimed_countStray, go_countStray,
    noting_countStray]
  split
  · split
    · split <;> rfl
    · rfl
  · rfl

theorem swept_countStray : p.countStray.swept now n w = (p.swept now n w).countStray := by
  cases w <;> simp [swept, beginSeek]

theorem borrow_countStray : p.countStray.borrow now b = (p.borrow now b).countStray := by
  simp only [borrow, countStray_config, countStray_closed, countStray_status, sweep_countStray]
  split
  · split <;> rfl
  · rfl

/-! ### Returns -/

@[simp] theorem passivate_countStray :
    p.countStray.passivate id answer = (p.passivate id answer).countStray := by
  simp only [passivate, countStray_slot?]
  split <;> simp

@[simp] theorem unfitReturn_countStray :
    p.countStray.unfitReturn id answer = (p.unfitReturn id answer).countStray := by
  simp [unfitReturn]

theorem takeBack_countStray :
    p.countStray.takeBack now id answer = (p.takeBack now id answer).countStray := by
  have hrefuse : ∀ r, p.countStray.refuseReturn r = (p.refuseReturn r).countStray :=
    fun _ => (rfl)
  simp only [takeBack, countStray_registry, countStray_stateOf, countStray_isIn, hrefuse,
    noting_countStray, markReturned_countStray, countStray_closed, countStray_config,
    destroy_countStray, countStray_slot?, hold_countStray, go_countStray, unfitReturn_countStray,
    passivate_countStray]
  split
  · rfl
  · split
    · rfl
    · split
      · rfl
      · split
        · split <;> rfl
        · rfl

theorem validatedReturn_countStray :
    p.countStray.validatedReturn id answer fit =
      (p.validatedReturn id answer fit).countStray := by
  cases fit <;> simp [validatedReturn]

@[simp] theorem shelve_countStray :
    p.countStray.shelve id answer = (p.shelve id answer).countStray := by
  simp only [shelve, countStray_isIn]
  split <;> rfl

theorem passivatedReturn_countStray :
    p.countStray.passivatedReturn id answer v refusal =
      (p.passivatedReturn id answer v refusal).countStray := by
  cases refusal <;> simp [passivatedReturn, apply_ite Stretch.countStray]

theorem discard_countStray : p.countStray.discard id = (p.discard id).countStray := by
  have hrefuse : ∀ r, p.countStray.refuseReturn r = (p.refuseReturn r).countStray :=
    fun _ => (rfl)
  simp [discard, hrefuse, apply_ite Stretch.countStray]

/-! ### Upkeep -/

theorem sortIdle_countStray (l : List Nat) :
    sortIdle now p.countStray n l = (sortIdle now p n l).countStray := by
  have hcandidate : ∀ (q : Pool ρ) (y : Entry ρ) (m : Nat),
      q.countStray.candidate now y m = q.candidate now y m := fun _ _ _ => (rfl)
  induction l generalizing p n with
  | nil => rfl
  | cons id l ih =>
    simp only [sortIdle, countStray_object?, countStray_registry, countStray_config, hcandidate,
      setState_countStray, detach_countStray, book_countStray, ih]
    split
    · rfl
    · split
      · rfl
      · split
        · rfl
        · split <;> rfl

theorem upkeep_countStray : p.countStray.upkeep now = (p.upkeep now).countStray := by
  simp [upkeep, evict, sortIdle_countStray, Sorting.countStray, apply_ite Stretch.countStray]

@[simp] theorem failTest_countStray :
    p.countStray.failTest id tests n = (p.failTest id tests n).countStray := by
  simp [failTest]

@[simp] theorem passTest_countStray :
    p.countStray.passTest id tests n = (p.passTest id tests n).countStray := by
  simp [passTest, apply_ite Stretch.countStray]

theorem activatedForTest_countStray :
    p.countStray.activatedForTest id tests n v refusal =
      (p.activatedForTest id tests n v refusal).countStray := by
  cases refusal <;> simp [activatedForTest]

theorem validatedForTest_countStray :
    p.countStray.validatedForTest id tests n fit =
      (p.validatedForTest id tests n fit).countStray := by
  cases fit <;> simp [validatedForTest]

theorem passivatedForTest_countStray :
    p.countStray.passivatedForTest id tests n v refusal =
      (p.passivatedForTest id tests n v refusal).countStray := by
  cases refusal <;> simp [passivatedForTest]

@[simp] theorem evicted_countStray : p.countStray.evicted now n = (p.evicted now n).countStray := by
  simp only [evicted, countStray_config, sweep_countStray, go_countStray]
  split
  · split <;> exact notingIf_countStray _ _ _
  · exact notingIf_countStray _ _ _

theorem evictNext_countStray :
    p.countStray.evictNext now out tests n = (p.evictNext now out tests n).countStray := by
  cases out with
  | cons id out => simp [evictNext]
  | nil => cases tests <;> simp [evictNext]

/-! ### Closing -/

theorem close_countStray (self : Nat) (c : Closer) :
    p.countStray.close self c = (p.close self c).countStray := by
  simp only [close, countStray_closed, countStray_keeper]
  split
  · rfl
  · split
    · split <;> rfl
    · rfl

theorem drainNext_countStray (d : Drainer) :
    p.countStray.drainNext out d = (p.drainNext out d).countStray := by
  cases out with
  | nil => cases d <;> rfl
  | cons id out => exact finishDestroy_countStray p id _

/-! ### All stretches -/

/-- A call that goes on by itself does not look at the number of returns that were refused. -/
theorem advance_countStray (self : Nat) (ended : Nat → Bool) (pt : Point ρ) :
    p.countStray.advance now self ended pt =
      (p.advance now self ended pt).map Stretch.countStray := by
  cases pt with
  | borrow b => exact congrArg some (borrow_countStray p now b)
  | seek b => exact congrArg some (seek_countStray p now b none)
  | waiting b t => simp [advance, seek_countStray, apply_ite (Option.map Stretch.countStray)]
  | add => exact congrArg some (add_countStray p)
  | prepare => exact congrArg some (prepare_countStray p)
  | filling f made => exact congrArg some (fill_countStray p made f)
  | upkeep => exact congrArg some (upkeep_countStray p now)
  | evicting out tests n => exact congrArg some (evictNext_countStray p now n out tests)
  | reclaiming xs n w =>
    cases xs with
    | nil => exact congrArg some (swept_countStray p now n w)
    | cons x rest => exact congrArg some (reclaimNext_countStray p n w x rest)
  | takeBack id answer => exact congrArg some (takeBack_countStray p now id answer)
  | discard id => exact congrArg some (discard_countStray p id)
  | close c => exact congrArg some (close_countStray p self c)
  | draining rest d => exact congrArg some (drainNext_countStray p rest d)
  | joining k drained c => simp [advance, apply_ite (Option.map Stretch.countStray)]
  | _ => rfl

/-- Nor does a call that gets an answer. -/
theorem respond_countStray (pt : Point ρ) (c : Response ρ) :
    p.countStray.respond now pt c = (p.respond now pt c).map Stretch.countStray := by
  unfold respond
  split
  · exact congrArg some (notCreated_countStray p _ _)
  · exact congrArg some (createdForLoan_countStray p now _ _)
  · exact congrArg some (createdForStock_countStray p now _ _)
  · exact congrArg some (activatedForLoan_countStray p _ _ _ _ _)
  · exact congrArg some (activatedForTest_countStray p _ _ _ _ _)
  · exact congrArg some (validatedForLoan_countStray p _ _ _ _)
  · exact congrArg some (validatedForTest_countStray p _ _ _ _)
  · exact congrArg some (validatedForStock_countStray p _ _ _)
  · exact congrArg some (validatedReturn_countStray p _ _ _)
  · exact congrArg some (passivatedForTest_countStray p _ _ _ _ _)
  · exact congrArg some (passivatedForStock_countStray p _ _ _ _)
  · exact congrArg some (passivatedReturn_countStray p _ _ _ _)
  · exact congrArg some (destroyed_countStray p _ _ _)
  · exact congrArg some (disposeReclaimed_countStray p _ _ _ _)
  · rfl

end Strays

end Pool

/-! ## A call with another answer -/

/-- The call that closes a pool because its last reference is gone, with the answer `r`. -/
def Closer.retell (r : Reply) : Closer → Closer
  | .call => .call
  | .release _ => .release r

def Drainer.retell (r : Reply) : Drainer → Drainer
  | .clear => .clear
  | .close c => .close (c.retell r)

def After.retell (r : Reply) : After ρ → After ρ
  | .reply _ => .reply r
  | .drain rest d => .drain rest (d.retell r)
  | k => k

/-- A call that has its answer, with the answer `r` instead. -/
def Point.retell (r : Reply) : Point ρ → Point ρ
  | .takeBack id _ => .takeBack id (some r)
  | .validating id (.takeBack _) => .validating id (.takeBack (some r))
  | .passivating id (.takeBack _) => .passivating id (.takeBack (some r))
  | .destroying id v mode k => .destroying id v mode (k.retell r)
  | .close c => .close (c.retell r)
  | .draining rest d => .draining rest (d.retell r)
  | .joining keeper drained c => .joining keeper drained (c.retell r)
  | pt => pt

def Next.retell (r : Reply) : Next ρ → Next ρ
  | .go pt => .go (pt.retell r)
  | .finish _ => .finish r

/-- What a stretch of such a call leaves behind. -/
def Stretch.retell (r : Reply) (s : Stretch ρ) : Stretch ρ := { s with next := s.next.retell r }

@[simp] theorem Point.isRequest_retell (r : Reply) (pt : Point ρ) :
    (pt.retell r).isRequest = pt.isRequest := by
  cases pt with
  | validating id c => cases c <;> rfl
  | passivating id c => cases c <;> rfl
  | _ => rfl

namespace Pool

section Answers

variable (p : Pool ρ) (now : Instant) (id : Nat) (r r₀ : Reply) (v : ρ) (refusal : Option String)

theorem resume_retell {k : After ρ} (h : k.errand = .settled r₀) :
    p.resume (k.retell r) = (p.resume k).retell r := by
  cases k with
  | reply _ => rfl
  | drain rest d => rfl
  | seek | notStocked | evict => exact nomatch h
  | reclaim rest n w => cases w <;> exact nomatch h

theorem dispose_retell {k : After ρ} (h : k.errand = .settled r₀) (v : Option ρ)
    (mode : DestroyMode) : p.dispose id v mode (k.retell r) = (p.dispose id v mode k).retell r := by
  cases v with
  | none => exact resume_retell (p.retire id) r r₀ h
  | some v => rfl

theorem destroy_reply_retell : p.destroy id (.reply r) = (p.destroy id (.reply r₀)).retell r :=
  dispose_retell _ id r r₀ (k := .reply r₀) rfl _ _

theorem passivate_retell : p.passivate id (some r) = (p.passivate id (some r₀)).retell r := by
  unfold passivate
  split
  · rfl
  · exact destroy_reply_retell p id r r₀

theorem unfitReturn_retell : p.unfitReturn id (some r) = (p.unfitReturn id (some r₀)).retell r :=
  congrArg (Stretch.noting _) (destroy_reply_retell _ id r r₀)

theorem takeBack_retell : p.takeBack now id (some r) = (p.takeBack now id (some r₀)).retell r := by
  unfold takeBack
  dsimp only
  split
  · rfl
  · split
    · rfl
    · split
      · exact destroy_reply_retell _ id r r₀
      · split
        · split
          · rfl
          · exact unfitReturn_retell _ id r r₀
        · exact passivate_retell _ id r r₀

theorem passivatedReturn_retell : p.passivatedReturn id (some r) v refusal =
    (p.passivatedReturn id (some r₀) v refusal).retell r := by
  unfold passivatedReturn
  dsimp only
  split
  · exact congrArg (Stretch.noting _) (destroy_reply_retell _ id r r₀)
  · split
    · exact destroy_reply_retell _ id r r₀
    · split
      · exact congrArg (Stretch.noting _) (destroy_reply_retell _ id r r₀)
      · rfl

theorem close_retell (self : Nat) :
    p.close self (.release r) = (p.close self (.release r₀)).retell r := by
  unfold close
  dsimp only
  split
  · rfl
  · split
    · split <;> rfl
    · rfl

theorem drainNext_retell (rest : List Nat) : p.drainNext rest (.close (.release r)) =
    (p.drainNext rest (.close (.release r₀))).retell r := by
  cases rest with
  | nil => rfl
  | cons id rest => exact dispose_retell _ id r r₀ (k := .drain rest (.close (.release r₀))) rfl _ _

/-- A call that has its answer and goes on by itself does not look at the answer. -/
theorem advance_retell (self : Nat) (ended : Nat → Bool) {pt : Point ρ}
    (h : pt.errand = .settled r₀) : p.advance now self ended (pt.retell r) =
      (p.advance now self ended pt).map (Stretch.retell r) := by
  cases pt with
  | takeBack id answer =>
    cases answer with
    | none => exact nomatch h
    | some a => exact congrArg some (takeBack_retell p now id r a)
  | close c =>
    cases c with
    | call => exact nomatch h
    | release a => exact congrArg some (close_retell p r a self)
  | draining rest d =>
    cases d with
    | clear => exact nomatch h
    | close c =>
      cases c with
      | call => exact nomatch h
      | release a => exact congrArg some (drainNext_retell p r a rest)
  | joining keeper drained c =>
    simp only [Point.retell, advance]
    split <;> rfl
  | reclaiming xs n w => cases w <;> exact nomatch h
  | validating id c =>
    cases c with
    | takeBack answer => rfl
    | trial t => cases t <;> exact nomatch h
    | stock k => exact nomatch h
  | passivating id c => cases c <;> rfl
  | creating m => cases m <;> exact nomatch h
  | activating id t => cases t <;> exact nomatch h
  | destroying | reporting => rfl
  | _ => exact nomatch h

/-- Nor does one that gets an answer from the factory. -/
theorem respond_retell {pt : Point ρ} (h : pt.errand = .settled r₀) (c : Response ρ) :
    p.respond now (pt.retell r) c = (p.respond now pt c).map (Stretch.retell r) := by
  cases pt with
  | validating id k =>
    cases k with
    | takeBack answer =>
      cases answer with
      | none => exact nomatch h
      | some a =>
        cases c with
        | validated fit =>
          cases fit with
          | true => exact congrArg some (passivate_retell (p.release id) id r a)
          | false => exact congrArg some (unfitReturn_retell (p.release id) id r a)
        | _ => rfl
    | trial t => cases t <;> exact nomatch h
    | stock k => exact nomatch h
  | passivating id k =>
    cases k with
    | takeBack answer =>
      cases answer with
      | none => exact nomatch h
      | some a =>
        cases c with
        | passivated v refusal => exact congrArg some (passivatedReturn_retell p id r a v refusal)
        | _ => rfl
    | test | stock => exact nomatch h
  | destroying id v mode k =>
    cases c with
    | destroyed refusal =>
      cases refusal with
      | none => exact congrArg some (resume_retell p r r₀ h)
      | some reason =>
        have hresume := resume_retell p r r₀ h
        exact congrArg (fun s => some (s.noting (.destroyFailed id reason))) hresume
    | _ => rfl
  | takeBack | close | draining | joining => rfl
  | creating m => cases m <;> exact nomatch h
  | activating id t => cases t <;> exact nomatch h
  | reclaiming xs n w => cases w <;> exact nomatch h
  | reporting report x rest n w => cases w <;> exact nomatch h
  | _ => exact nomatch h

end Answers

end Pool

end ObjectPool
