/-
  ObjectPool.Proofs.Stretch.Verdicts

  Which answers of the factory a pool counts as failed checks. It counts a check that says no,
  whoever had the object checked. While an idle object is tried out it also counts the factory's
  refusal to ready it or to lay it to rest, which it counts nowhere else. A call that goes on by
  itself counts no failed check: it would if it found a slot empty that it looks into, but it never
  does.

    * `Pool.failures` — the failed checks that a pool has counted.
    * `Point.rejects`, `Point.failsTrial` — the answers that are counted.
    * `advance_failures`, `respond_failures` — what every stretch counts.
    * `Works.failures` — the same of a call in a sound world.
-/

import ObjectPool.Proofs.Stretch.Glances

namespace ObjectPool

variable {ρ : Type}

/-! ## Verdicts -/

/-- A check says no. -/
def Point.rejects : Point ρ → Response ρ → Bool
  | .validating _ _, .validated fit => !fit
  | _, _ => false

/-- An idle object that is tried out cannot be readied, or cannot be laid to rest. -/
def Point.failsTrial : Point ρ → Response ρ → Bool
  | .activating _ (.test _ _), .activated _ refusal => refusal.isSome
  | .passivating _ (.test _ _), .passivated _ refusal => refusal.isSome
  | _, _ => false

/-- How many failed checks an answer is counted as. -/
def Point.verdicts (pt : Point ρ) (r : Response ρ) : Nat :=
  (pt.rejects r).toNat + (pt.failsTrial r).toNat

namespace Pool

/-- The failed checks that a pool has counted. -/
def failures (p : Pool ρ) : Nat := p.counters.validationFailures

variable {p : Pool ρ} {now : Instant} {pt : Point ρ} {s : Stretch ρ} {id : Nat}

theorem failures_eq {q : Pool ρ} (h : q.counters = p.counters) : q.failures = p.failures :=
  congrArg Counters.validationFailures h

/-! ### The end of an object -/

theorem resume_failures (p : Pool ρ) (k : After ρ) : (p.resume k).pool.failures = p.failures := by
  cases k with
  | notStocked s e =>
    cases s with
    | add => rfl
    | fill f made => cases f <;> rfl
  | _ => rfl

theorem dispose_failures (p : Pool ρ) (id : Nat) (v : Option ρ) (mode : DestroyMode)
    (k : After ρ) : (p.dispose id v mode k).pool.failures = p.failures := by
  cases v with
  | some v => rfl
  | none => exact (p.retire id).resume_failures k

theorem finishDestroy_failures (p : Pool ρ) (id : Nat) (k : After ρ) :
    (p.finishDestroy id k).pool.failures = p.failures :=
  (p.emptySlot id).dispose_failures id _ _ k

theorem destroy_failures (p : Pool ρ) (id : Nat) (k : After ρ) :
    (p.destroy id k).pool.failures = p.failures :=
  (p.detach id).finishDestroy_failures id k

/-! ### Lending -/

theorem refuse_failures (p : Pool ρ) (id : Nat) (b : Borrowing) (fresh : Bool) (e : PoolError) :
    (p.refuse id b fresh e).pool.failures = p.failures := by
  cases fresh <;> exact p.destroy_failures id _

theorem activateForLoan_failures (p : Pool ρ) (id : Nat) (b : Borrowing) (fresh : Bool) :
    (p.activate id (.lend b fresh) (p.refuse id b fresh .reclaimed)).pool.failures =
      p.failures := by
  unfold activate
  split
  · rfl
  · exact p.refuse_failures id b fresh _

theorem seek_failures (p : Pool ρ) (now : Instant) (b : Borrowing) (ticket : Option Nat) :
    (p.seek now b ticket).pool.failures = p.failures := by
  -- a borrower that finds nothing gives up or stands in line
  have hvain : ∀ q : Pool ρ, q.counters = p.counters →
      (if q.givesUp now b then q.exhaust b ticket else
        q.standInLine b ticket).pool.failures = p.failures := by
    intro q hq
    split
    · rw [failures, exhaust_counters, hq]
      rfl
    · refine (failures_eq ?_).trans (failures_eq hq)
      cases ticket with
      | none => rfl
      | some t =>
        show (if q.registry.line.isWoken t then _ else q).counters = _
        split <;> rfl
  unfold seek
  split
  · exact failures_eq (p.leaveLine_counters ticket)
  · by_cases hm : p.mayTake ticket = true
    · rw [if_pos hm]
      have hq := p.acquire_counters now
      generalize p.acquire now = g at hq
      obtain ⟨q, g⟩ := g
      have hwake : ((q.leaveLine ticket).book Registry.wakeIfAvailable).failures = p.failures :=
        failures_eq ((q.leaveLine_counters ticket).trans hq)
      cases g with
      | none => exact hvain q hq
      | some g =>
        cases g with
        | room => exact hwake
        | idle id => exact (activateForLoan_failures _ id b false).trans hwake
    · rw [if_neg hm]
      exact hvain p rfl

theorem handOut_failures (p : Pool ρ) (id : Nat) (b : Borrowing) :
    (p.handOut id b).pool.failures = p.failures := by
  show (p.noteBorrower id b.site).counters.validationFailures = _
  rw [noteBorrower_counters]
  rfl

theorem createdForLoan_failures (p : Pool ρ) (now : Instant) (b : Borrowing) (v : ρ) :
    (p.createdForLoan now b v).pool.failures = p.failures := by
  unfold createdForLoan
  dsimp only
  split
  · exact finishDestroy_failures _ _ _
  · exact activateForLoan_failures _ _ b true

theorem activatedForLoan_failures (p : Pool ρ) (id : Nat) (b : Borrowing) (fresh : Bool) (v : ρ)
    (refusal : Option String) :
    (p.activatedForLoan id b fresh v refusal).pool.failures = p.failures := by
  unfold activatedForLoan
  split
  · exact (p.letGo id v).refuse_failures id b fresh _
  · split
    · rfl
    · exact (p.letGo id v).handOut_failures id b

/-! ### Making idle objects -/

theorem filled_failures (p : Pool ρ) (f : Filler) (made : Nat) :
    (p.filled f made).pool.failures = p.failures := by
  cases f <;> rfl

theorem fill_failures (p : Pool ρ) (f : Filler) (made : Nat) :
    (p.fill f made).pool.failures = p.failures := by
  unfold fill
  split
  · exact p.filled_failures f made
  · rfl

theorem add_failures (p : Pool ρ) : p.add.pool.failures = p.failures := by
  unfold add
  split
  · rfl
  · split <;> rfl

theorem prepare_failures (p : Pool ρ) : p.prepare.pool.failures = p.failures := by
  unfold prepare
  split <;> rfl

theorem settle_failures (p : Pool ρ) (id : Nat) (k : Stocker) (fault : Option PoolError) :
    (p.settle id k fault).pool.failures = p.failures := by
  unfold settle
  dsimp only
  split
  · cases k <;> rfl
  · exact (p.book Registry.cancelReservation).finishDestroy_failures id _

theorem createdForStock_failures (p : Pool ρ) (now : Instant) (k : Stocker) (v : ρ) :
    (p.createdForStock now k v).pool.failures = p.failures := by
  rw [createdForStock_eq]
  dsimp only
  split <;> rfl

theorem notCreated_failures (p : Pool ρ) (m : Maker) (reason : String) :
    (p.notCreated m reason).pool.failures = p.failures := by
  cases m with
  | lend b => rfl
  | stock k =>
    cases k with
    | add => rfl
    | fill f made => cases f <;> rfl

/-! ### Taking objects back -/

/-- A returned object that has its resource is not found unfit before it is checked. -/
theorem takeBack_failures (hslot : id ∈ p.registry.active → ∃ v, p.slot? id = some v)
    (now : Instant) (answer : Option Reply) :
    (p.takeBack now id answer).pool.failures = p.failures := by
  unfold takeBack
  dsimp only
  split
  · rfl
  · next hactive =>
    obtain ⟨v, hv⟩ := hslot (Decidable.not_not.mp hactive)
    have hkept : (p.markReturned now id).slot? id = some v := slot?_modify_self
      (f := fun e => { e.become .returning with lastReturn := now, lastUse := none })
      (Entry.become_slot .returning) hv
    split
    · rfl
    · split
      · exact (p.markReturned now id).destroy_failures id _
      · split
        · rw [hkept]
          rfl
        · unfold passivate
          rw [hkept]
          rfl

theorem passivate_failures (p : Pool ρ) (id : Nat) (answer : Option Reply) :
    (p.passivate id answer).pool.failures = p.failures := by
  unfold passivate
  split
  · rfl
  · exact p.destroy_failures id _

theorem passivatedReturn_failures (p : Pool ρ) (id : Nat) (answer : Option Reply) (v : ρ)
    (refusal : Option String) :
    (p.passivatedReturn id answer v refusal).pool.failures = p.failures := by
  have hdestroy : ∀ r, ((p.letGo id v).destroy id (.reply r)).pool.failures = p.failures :=
    fun r => (p.letGo id v).destroy_failures id _
  unfold passivatedReturn
  dsimp only
  split
  · exact hdestroy _
  · split
    · exact hdestroy _
    · split
      · exact hdestroy _
      · unfold shelve
        dsimp only
        split <;> rfl

theorem discard_failures (p : Pool ρ) (id : Nat) : (p.discard id).pool.failures = p.failures := by
  unfold discard
  split
  · rfl
  · split
    · exact (p.setState id .invalid).destroy_failures id _
    · rfl

/-! ### Upkeep -/

theorem borrow_failures (p : Pool ρ) (now : Instant) (b : Borrowing) :
    (p.borrow now b).pool.failures = p.failures := by
  unfold borrow
  split
  · split
    · exact failures_eq (counters_reclaimFrom _)
    · rfl
  · rfl

theorem upkeep_failures (p : Pool ρ) (now : Instant) :
    (p.upkeep now).pool.failures = p.failures := by
  unfold upkeep evict
  split
  · rfl
  · split
    · rfl
    · exact failures_eq (p.counters_sortIdle now _ _)

theorem passTest_failures (p : Pool ρ) (id : Nat) (tests : List Nat) (n : Nat) :
    (p.passTest id tests n).pool.failures = p.failures := by
  unfold passTest
  split
  · rfl
  · exact p.destroy_failures id _

/-- An idle object that fails when it is tried out counts as one failed check. -/
theorem failTest_failures (p : Pool ρ) (id : Nat) (tests : List Nat) (n : Nat) :
    (p.failTest id tests n).pool.failures = p.failures + 1 :=
  destroy_failures (p.count fun c => { c with validationFailures := c.validationFailures + 1 }) id _

theorem evictNext_failures (now : Instant) (out tests : List Nat) (n : Nat)
    (hslot : ∀ id ∈ tests, ∃ v, p.slot? id = some v) :
    (p.evictNext now out tests n).pool.failures = p.failures := by
  cases out with
  | cons id out =>
    exact finishDestroy_failures (p.count fun c => { c with evicted := c.evicted + 1 }) id _
  | nil =>
    cases tests with
    | cons id tests =>
      obtain ⟨v, hv⟩ := hslot id List.mem_cons_self
      rw [evictNext, activate, hv]
      rfl
    | nil =>
      rw [evictNext, evicted, Stretch.notingIf_pool]
      split
      · split
        · exact failures_eq (counters_reclaimFrom _)
        · rfl
      · rfl

theorem swept_failures (p : Pool ρ) (now : Instant) (n : Nat) (k : Sweeper) :
    (p.swept now n k).pool.failures = p.failures := by
  unfold swept
  rw [Stretch.notingIf_pool]
  cases k <;> rfl

theorem disposeReclaimed_failures (p : Pool ρ) (x : Reclaimed ρ) (rest : List (Reclaimed ρ))
    (n : Nat) (k : Sweeper) : (p.disposeReclaimed x rest n k).pool.failures = p.failures :=
  dispose_failures (p.count fun c => { c with abandoned := c.abandoned + 1 }) x.object _ _ _

theorem reclaimNext_failures (p : Pool ρ) (x : Reclaimed ρ) (rest : List (Reclaimed ρ)) (n : Nat)
    (k : Sweeper) : (p.reclaimNext x rest n k).pool.failures = p.failures := by
  unfold reclaimNext
  split
  · split
    · split
      · exact p.disposeReclaimed_failures x rest n k
      · rfl
    · exact p.disposeReclaimed_failures x rest n k
  · exact p.disposeReclaimed_failures x rest n k

/-! ### Closing -/

theorem close_failures (p : Pool ρ) (self : Nat) (c : Closer) :
    (p.close self c).pool.failures = p.failures := by
  unfold close
  split
  · rfl
  · dsimp only
    split
    · split <;> rfl
    · rfl

theorem drainNext_failures (p : Pool ρ) (rest : List Nat) (d : Drainer) :
    (p.drainNext rest d).pool.failures = p.failures := by
  cases rest with
  | cons id rest => exact p.finishDestroy_failures id _
  | nil => cases d <;> rfl

/-! ## Every stretch -/

/-- A call that goes on by itself counts no failed check if it finds the resources that it looks
    for. -/
theorem advance_failures {self : Nat} {ended : Nat → Bool}
    (hactive : ∀ id ∈ p.registry.active, ∃ v, p.slot? id = some v)
    (hcharge : ∀ id, (id, Custody.untried) ∈ pt.charges → ∃ v, p.slot? id = some v)
    (hs : p.advance now self ended pt = some s) : s.pool.failures = p.failures := by
  cases goesOn_of_advance hs with
  | borrow b => exact p.borrow_failures now b
  | seek b => exact p.seek_failures now b none
  | waiting b t _ => exact p.seek_failures now b (some t)
  | add => exact p.add_failures
  | prepare => exact p.prepare_failures
  | filling f made => exact p.fill_failures f made
  | upkeep => exact p.upkeep_failures now
  | evicting out tests n =>
    refine evictNext_failures now out tests n fun id hid => hcharge id ?_
    exact List.mem_append_right _ (List.mem_map.mpr ⟨id, hid, rfl⟩)
  | swept n k => exact p.swept_failures now n k
  | reclaiming x rest n k => exact p.reclaimNext_failures x rest n k
  | takeBack id answer => exact takeBack_failures (hactive id) now answer
  | discard id => exact p.discard_failures id
  | clear => rfl
  | close c => exact p.close_failures self c
  | draining rest d => exact p.drainNext_failures rest d
  | joining k drained c => rfl

/-- A call that gets an answer counts it as a failed check if it is one, or if an idle object that
    is tried out is refused. -/
theorem respond_failures {r : Response ρ} (hs : p.respond now pt r = some s) :
    s.pool.failures = p.failures + pt.verdicts r := by
  cases answered_of_respond hs with
  | notCreated m reason => exact p.notCreated_failures m reason
  | createdForLoan b v => exact p.createdForLoan_failures now b v
  | createdForStock k v => exact p.createdForStock_failures now k v
  | activatedForLoan id b fresh v refusal =>
    exact p.activatedForLoan_failures id b fresh v refusal
  | activatedForTest id tests n v refusal =>
    cases refusal with
    | some reason => exact (p.letGo id v).failTest_failures id tests n
    | none => rfl
  | validatedForLoan id b fresh fit =>
    cases fit with
    | true => exact (p.release id).handOut_failures id b
    | false => exact refuse_failures _ id b fresh .validationFailed
  | validatedForTest id tests n fit =>
    cases fit with
    | true => rfl
    | false => exact (p.release id).failTest_failures id tests n
  | validatedForStock id k fit =>
    cases fit with
    | true => rfl
    | false => exact settle_failures _ id k (some .validationFailed)
  | validatedReturn id answer fit =>
    cases fit with
    | true => exact (p.release id).passivate_failures id answer
    | false => exact destroy_failures _ id _
  | passivatedForTest id tests n v refusal =>
    cases refusal with
    | some reason => exact (p.letGo id v).failTest_failures id tests n
    | none => exact (p.letGo id v).passTest_failures id tests n
  | passivatedForStock id k v refusal => exact (p.letGo id v).settle_failures id k _
  | passivatedReturn id answer v refusal =>
    exact p.passivatedReturn_failures id answer v refusal
  | destroyed id v mode k refusal => cases refusal <;> exact p.resume_failures k
  | reported report x rest n k => exact p.disposeReclaimed_failures x rest n k

end Pool

/-- How many failed checks an event is counted as by a call at a point. -/
def Event.verdicts (e : Event ρ) (pt : Point ρ) : Nat :=
  match e with
  | .answer _ r => pt.verdicts r
  | _ => 0

/-- A call counts the answer that it gets, and nothing else. -/
theorem World.Works.failures {w : World ρ} {g : Nat → List Nat} {e : Event ρ} {f : Effect ρ}
    {t : Nat} {a : Activity ρ} {q : Pool ρ} {s : Stretch ρ} (h : w.Works e f t a q s)
    (hw : w.Sound g) : s.pool.failures = q.failures + e.verdicts a.point := by
  have hsound := (hw.pools a.pool).sound q h.pool
  rcases h.runs with ⟨rfl, hs⟩ | ⟨r, rfl, hs⟩
  · exact Pool.advance_failures (fun id hid => hsound.slot_of_active hid)
      (fun id hid => h.slot_of_charge hw hid nofun) hs
  · exact Pool.respond_failures hs

end ObjectPool
