/-
  ObjectPool.Proofs.Stretch.Counts

  What a stretch counts, and what the call is about then. A call is about a borrow, a return
  or an invalidation until it knows its reply; from then on it is settled, though it may still
  have an object to destroy or a pool to close.

    * `Point.errand` — what a call is about.
    * `Errand.Goes` — it stays so, or is settled with a reply that nobody counts.
    * `Stretch.Counts` — the counters that a stretch moves, with the reply that goes with them.
    * `advance_counts`, `respond_counts` — every stretch.
-/

import ObjectPool.Proofs.Stretch.Capture

namespace ObjectPool

variable {ρ : Type}

/-! ## What a call is about -/

/-- What a call is about. -/
inductive Errand where
  | borrow
  | giveBack
  | invalidate
  | other
  /-- The call has its reply. -/
  | settled (r : Reply)

/-- A borrow that ends with nothing to be had. -/
def Reply.isExhausted : Reply → Bool
  | .failed (.exhausted _) => true
  | _ => false

namespace Errand

/-- Whether a call may be settled with a reply that moves no counter. -/
def settles : Errand → Reply → Bool
  | .borrow, r => !r.isLoan && !r.isExhausted
  | .giveBack, r => !r.isLoan && decide (r ≠ .failed .invalidReturn)
  | .other, r => !r.isLoan
  | .invalidate, _ | .settled _, _ => false

/-- A call stays with what it is about, or is settled with a reply that moves no counter. -/
def Goes (k k' : Errand) : Prop := k' = k ∨ ∃ r, k' = .settled r ∧ k.settles r = true

theorem Goes.refl (k : Errand) : k.Goes k := .inl rfl

theorem Goes.settle {k : Errand} {r : Reply} (h : k.settles r = true) : k.Goes (.settled r) :=
  .inr ⟨r, rfl, h⟩

/-- A reply stands. -/
theorem Goes.eq_settled {k : Errand} {r : Reply} (h : (settled r).Goes k) : k = .settled r := by
  rcases h with hk | ⟨r', -, hno⟩
  · exact hk
  · cases hno

/-- A reply that moves no counter is no object. -/
theorem Goes.isLoan_eq_false {k : Errand} {r : Reply} (h : k.Goes (.settled r))
    (hk : k ≠ .settled r) : r.isLoan = false := by
  rcases h with rfl | ⟨r', hr, hs⟩
  · exact absurd rfl hk
  · obtain rfl := settled.inj hr
    cases k with
    | borrow | giveBack => exact Bool.not_eq_true' _ |>.mp (Bool.and_eq_true_iff.mp hs).1
    | other => exact Bool.not_eq_true' _ |>.mp hs
    | invalidate | settled => cases hs

/-- What a call is about to which an object comes back: it may have a reply of its own. -/
def ofAnswer : Option Reply → Errand
  | none => .giveBack
  | some r => .settled r

theorem ofAnswer_goes (answer : Option Reply) {r : Reply} (h : giveBack.settles r = true) :
    (ofAnswer answer).Goes (.settled (answer.getD r)) := by
  cases answer with
  | none => exact .settle h
  | some a => exact .refl _

end Errand

def Maker.errand : Maker → Errand
  | .lend _ => .borrow
  | .stock _ => .other

def Trial.errand : Trial → Errand
  | .lend _ _ => .borrow
  | .test _ _ => .other

def Check.errand : Check → Errand
  | .trial t => t.errand
  | .stock _ => .other
  | .takeBack answer => .ofAnswer answer

def Rest.errand : Rest → Errand
  | .test _ _ | .stock _ => .other
  | .takeBack answer => .ofAnswer answer

def Sweeper.errand : Sweeper → Errand
  | .borrow _ => .borrow
  | .upkeep _ => .other

def Closer.errand : Closer → Errand
  | .call => .other
  | .release r => .settled r

def Drainer.errand : Drainer → Errand
  | .clear => .other
  | .close c => c.errand

/-- What a call is about that goes on after the end of an object. -/
def After.errand : After ρ → Errand
  | .seek _ => .borrow
  | .reply r => .settled r
  | .notStocked _ _ | .evict _ _ _ => .other
  | .reclaim _ _ s => s.errand
  | .drain _ d => d.errand

/-- What a call is about. -/
def Point.errand : Point ρ → Errand
  | .borrow _ | .seek _ | .waiting _ _ => .borrow
  | .add | .prepare | .filling _ _ | .upkeep | .evicting _ _ _ | .clear => .other
  | .reclaiming _ _ s | .reporting _ _ _ _ s => s.errand
  | .takeBack _ answer => .ofAnswer answer
  | .discard _ => .invalidate
  | .close c | .joining _ _ c => c.errand
  | .draining _ d => d.errand
  | .creating m => m.errand
  | .activating _ t => t.errand
  | .validating _ c => c.errand
  | .passivating _ r => r.errand
  | .destroying _ _ _ k => k.errand

def Next.errand : Next ρ → Errand
  | .go pt => pt.errand
  | .finish r => .settled r

/-! ## Objects that were taken away from their borrowers -/

/-- Whether an object was taken away from its borrower and is to be destroyed. -/
def Custody.isSeized : Custody ρ → Bool
  | .seized _ => true
  | _ => false

/-- How many of some objects were taken away from their borrowers. -/
def seizedIn (l : List (Nat × Custody ρ)) : Nat := l.countP fun x => x.2.isSeized

section seizedIn

theorem seizedIn_append (l m : List (Nat × Custody ρ)) :
    seizedIn (l ++ m) = seizedIn l + seizedIn m := List.countP_append

theorem seizedIn_seizures (xs : List (Reclaimed ρ)) : seizedIn (seizures xs) = xs.length := by
  unfold seizedIn seizures
  rw [List.countP_map, List.countP_eq_length]
  exact fun _ _ => rfl

theorem seizedIn_each (ids : List Nat) {c : Custody ρ} (hc : c.isSeized = false) :
    seizedIn (each ids c) = 0 := by
  unfold seizedIn each
  rw [List.countP_map, List.countP_eq_zero]
  exact fun _ _ => by simp [hc]

theorem seizedIn_sweeping (out tests : List Nat) :
    seizedIn (sweeping (ρ := ρ) out tests) = 0 := by
  unfold sweeping
  rw [seizedIn_append, seizedIn_each _ rfl, seizedIn_each _ rfl]

end seizedIn

/-! ## What a stretch counts -/

/-- Nothing is counted but objects made, objects destroyed and failed checks. -/
structure Counters.Calm (c c' : Counters) : Prop where
  borrowed : c'.borrowed = c.borrowed
  returned : c'.returned = c.returned
  exhausted : c'.exhausted = c.exhausted
  invalidReturns : c'.invalidReturns = c.invalidReturns
  evicted : c'.evicted = c.evicted
  abandoned : c'.abandoned = c.abandoned
  destroyed : c.destroyed ≤ c'.destroyed

namespace Counters.Calm

variable {c c' c'' : Counters}

theorem refl (c : Counters) : c.Calm c := ⟨rfl, rfl, rfl, rfl, rfl, rfl, Nat.le_refl _⟩

theorem trans (h : c.Calm c') (h' : c'.Calm c'') : c.Calm c'' where
  borrowed := h'.borrowed.trans h.borrowed
  returned := h'.returned.trans h.returned
  exhausted := h'.exhausted.trans h.exhausted
  invalidReturns := h'.invalidReturns.trans h.invalidReturns
  evicted := h'.evicted.trans h.evicted
  abandoned := h'.abandoned.trans h.abandoned
  destroyed := Nat.le_trans h.destroyed h'.destroyed

theorem retire (h : c.Calm c') : c.Calm { c' with destroyed := c'.destroyed + 1 } :=
  h.trans ⟨rfl, rfl, rfl, rfl, rfl, rfl, Nat.le_succ _⟩

end Counters.Calm

/-- A stretch after which the counters are calm, the call goes on with what it is about, and it is
    left with `n` objects that were taken away from their borrowers. -/
structure Stretch.Passes (c : Counters) (k : Errand) (n : Nat) (s : Stretch ρ) : Prop where
  calm : c.Calm s.pool.counters
  goes : k.Goes s.next.errand
  seized : seizedIn s.next.charges = n

/-- What a stretch of a call at the point `pt` of the pool `p` counts, and the reply with which the
    call is settled then, if one goes with it. -/
inductive Stretch.Counts (p : Pool ρ) (now : Instant) (pt : Point ρ) (s : Stretch ρ) : Prop
  /-- Nothing of note. -/
  | passes (h : s.Passes p.counters pt.errand (seizedIn pt.charges)) (hr : pt.returns = [])
      (hp : (pt.sweeps && s.next.isPass) = false)
  | lends (id : Nat) (hk : pt.errand = .borrow) (hs : seizedIn pt.charges = 0)
      (h : { p.counters with borrowed := p.counters.borrowed + 1 }.Calm s.pool.counters)
      (ha : s.pool.registry = p.registry) (hn : s.next = .finish (.lent id))
  | exhausts (d : Duration) (hk : pt.errand = .borrow) (hs : seizedIn pt.charges = 0)
      (h : { p.counters with exhausted := p.counters.exhausted + 1 }.Calm s.pool.counters)
      (hn : s.next = .finish (.failed (.exhausted d)))
  | takesBack (id : Nat) (answer : Option Reply) (hpt : pt = .takeBack id answer)
      (hid : id ∈ p.registry.active)
      (h : s.Passes { p.counters with returned := p.counters.returned + 1 } pt.errand 0)
  | discards (id : Nat) (hpt : pt = .discard id) (hid : id ∈ p.registry.active)
      (h : p.counters.Calm s.pool.counters) (hs : seizedIn s.next.charges = 0)
      (hn : s.next.errand = .settled .done ∨ s.next.errand = .settled (.failed .closed))
  /-- An object comes back that is not lent any more. -/
  | refuses (id : Nat) (hpt : pt.returns = [id])
      (hid : id ∉ p.registry.active ∨ p.isIn id .allocated = false)
      (h : { p.counters with invalidReturns := p.counters.invalidReturns + 1 }.Calm s.pool.counters)
      (hn : s.next = .finish pt.refusal)
  | evicts (hr : pt.returns = []) (hp : (pt.sweeps && s.next.isPass) = false)
      (h : s.Passes { p.counters with
        evicted := p.counters.evicted + 1, destroyed := p.counters.destroyed + 1 } pt.errand
        (seizedIn pt.charges))
  /-- All that is overdue is taken away from its borrowers. -/
  | sweeps (a : Abandonment) (n : Nat) (w : Sweeper) (ha : p.config.abandonment = some a)
      (hpt : pt.sweeps = true) (hk : w.errand = pt.errand) (hs : seizedIn pt.charges = 0)
      (hc : s.pool.counters = p.counters)
      (hn : s.next = .go (.reclaiming (p.reclaimFrom now a.timeout p.registry.active).2 n w))
  /-- An object that was taken away is destroyed. -/
  | reclaims (n : Nat) (hr : pt.returns = []) (hp : (pt.sweeps && s.next.isPass) = false)
      (hs : seizedIn pt.charges = n + 1)
      (h : s.Passes { p.counters with
        abandoned := p.counters.abandoned + 1, destroyed := p.counters.destroyed + 1 } pt.errand n)

namespace Pool

variable {p : Pool ρ} {c : Counters} {now : Instant} {pt : Point ρ} {s : Stretch ρ} {id : Nat}
  {k : Errand}

/-! ### The end of an object -/

/-- After the end of an object a call goes on with what it was about. -/
theorem resume_passes (h : c.Calm p.counters) (k : After ρ) :
    (p.resume k).Passes c k.errand (seizedIn k.charges) := by
  cases k with
  | seek b => exact ⟨h, .refl _, rfl⟩
  | reply r => exact ⟨h, .refl _, rfl⟩
  | reclaim rest n w => exact ⟨h, .refl _, rfl⟩
  | evict out tests n => exact ⟨h, .refl _, rfl⟩
  | drain rest d => exact ⟨h, .refl _, rfl⟩
  | notStocked w e =>
    cases w with
    | add => exact ⟨h, .settle rfl, rfl⟩
    | fill f made => cases f <;> exact ⟨h, .settle rfl, rfl⟩

/-- An object is counted as destroyed. -/
theorem dispose_passes (h : c.Calm { p.counters with destroyed := p.counters.destroyed + 1 })
    (id : Nat) (v : Option ρ) (mode : DestroyMode) (k : After ρ) :
    (p.dispose id v mode k).Passes c k.errand (seizedIn k.charges) := by
  cases v with
  | some v => exact ⟨h, .refl _, rfl⟩
  | none => exact resume_passes (p := p.retire id) h k

theorem finishDestroy_passes (h : c.Calm p.counters) (id : Nat) (k : After ρ) :
    (p.finishDestroy id k).Passes c k.errand (seizedIn k.charges) :=
  dispose_passes (p := p.emptySlot id) h.retire id _ _ k

theorem destroy_passes (h : c.Calm p.counters) (id : Nat) (k : After ρ) :
    (p.destroy id k).Passes c k.errand (seizedIn k.charges) :=
  finishDestroy_passes (p := p.detach id) h id k

/-- An object is destroyed, and the call has its reply. -/
theorem destroy_settles (h : c.Calm p.counters) (id : Nat) {r : Reply}
    (hk : k.Goes (.settled r)) : (p.destroy id (.reply r)).Passes c k 0 := by
  obtain ⟨hcalm, hgoes, hseized⟩ := destroy_passes h id (.reply r)
  refine ⟨hcalm, ?_, hseized⟩
  rw [hgoes.eq_settled]
  exact hk

/-! ### Lending -/

theorem refuse_passes (h : c.Calm p.counters) (id : Nat) (b : Borrowing) (fresh : Bool)
    {e : PoolError} (he : Errand.borrow.settles (.failed e) = true) :
    (p.refuse id b fresh e).Passes c .borrow 0 := by
  cases fresh with
  | true => exact destroy_settles h id (.settle he)
  | false =>
    obtain ⟨hcalm, hgoes, hseized⟩ := destroy_passes h id (.seek b)
    exact ⟨hcalm, hgoes, hseized⟩

theorem activate_passes {t : Trial} {refused : Stretch ρ} (h : c.Calm p.counters) (id : Nat)
    (ht : t.errand = k) (hs : seizedIn (t.charges (ρ := ρ) id) = 0)
    (hr : refused.Passes c k 0) : (p.activate id t refused).Passes c k 0 := by
  unfold activate
  split
  · exact ⟨h, .inl ht, hs⟩
  · exact hr

/-- An object is readied for a borrower, or its slot is empty. -/
theorem activateForLoan_passes (h : c.Calm p.counters) (id : Nat) (b : Borrowing) (fresh : Bool) :
    (p.activate id (.lend b fresh) (p.refuse id b fresh .reclaimed)).Passes c .borrow 0 :=
  activate_passes h id rfl rfl (refuse_passes h id b fresh rfl)

theorem leaveLine_counters (p : Pool ρ) (ticket : Option Nat) :
    (p.leaveLine ticket).counters = p.counters := by
  cases ticket <;> rfl

theorem acquire_counters (p : Pool ρ) (now : Instant) :
    (p.acquire now).1.counters = p.counters := by
  unfold acquire
  split
  · rfl
  · dsimp only
    split <;> rfl

theorem standInLine_passes (h : c.Calm p.counters) (b : Borrowing) (ticket : Option Nat) :
    (p.standInLine b ticket).Passes c .borrow 0 := by
  cases ticket with
  | none => exact ⟨h, .refl _, rfl⟩
  | some t =>
    refine ⟨?_, .refl _, rfl⟩
    show c.Calm (if p.registry.line.isWoken t then _ else p).counters
    split <;> exact h

theorem exhaust_counters (p : Pool ρ) (b : Borrowing) (ticket : Option Nat) :
    (p.exhaust b ticket).pool.counters =
      { p.counters with exhausted := p.counters.exhausted + 1 } := by
  have hleave := p.leaveLine_counters ticket
  unfold exhaust
  dsimp only
  generalize p.leaveLine ticket = q at hleave
  rw [← hleave]
  split <;> rfl

/-- A borrower that looks for an object goes on, or there is nothing to be had. -/
theorem seek_counts (hk : pt.errand = .borrow) (hc : pt.charges = []) (hr : pt.returns = [])
    (hp : pt.sweeps = false) (now : Instant) (b : Borrowing) (ticket : Option Nat) :
    (p.seek now b ticket).Counts p now pt := by
  have hpass : ∀ {s : Stretch ρ}, s.Passes p.counters .borrow 0 → s.Counts p now pt := fun h =>
    .passes (by rw [hk, hc]; exact h) hr (by rw [hp]; rfl)
  have hvain : ∀ q : Pool ρ, q.counters = p.counters →
      (if q.givesUp now b then q.exhaust b ticket else q.standInLine b ticket).Counts p now pt := by
    intro q hq
    split
    · refine .exhausts _ hk (by rw [hc]; rfl) ?_ rfl
      rw [exhaust_counters, hq]
      exact .refl _
    · exact hpass (standInLine_passes (hq ▸ .refl _) b ticket)
  unfold seek
  split
  · refine hpass ⟨?_, .settle rfl, rfl⟩
    show p.counters.Calm (p.leaveLine ticket).counters
    rw [leaveLine_counters]
    exact .refl _
  · by_cases hm : p.mayTake ticket = true
    · rw [if_pos hm]
      have hq := p.acquire_counters now
      generalize p.acquire now = g at hq
      obtain ⟨q, g⟩ := g
      have hwake : p.counters.Calm
          ((q.leaveLine ticket).book Registry.wakeIfAvailable).counters := by
        show p.counters.Calm (q.leaveLine ticket).counters
        rw [leaveLine_counters, hq]
        exact .refl _
      cases g with
      | none => exact hvain q hq
      | some g =>
        cases g with
        | room => exact hpass ⟨hwake, .refl _, rfl⟩
        | idle id => exact hpass (activateForLoan_passes hwake id b false)
    · rw [if_neg hm]
      exact hvain p rfl

theorem noteBorrower_counters (p : Pool ρ) (id : Nat) (site : String) :
    (p.noteBorrower id site).counters = p.counters := by
  unfold noteBorrower
  split
  · split <;> rfl
  · rfl

theorem noteBorrower_registry (p : Pool ρ) (id : Nat) (site : String) :
    (p.noteBorrower id site).registry = p.registry := by
  unfold noteBorrower
  split
  · split <;> rfl
  · rfl

/-- The borrower gets the object. -/
theorem handOut_counts {q : Pool ρ} (hk : pt.errand = .borrow) (hs : seizedIn pt.charges = 0)
    (hq : q.counters = p.counters) (hreg : q.registry = p.registry) (now : Instant) (id : Nat)
    (b : Borrowing) : (q.handOut id b).Counts p now pt := by
  refine .lends id hk hs ?_ ((noteBorrower_registry q id b.site).trans hreg) rfl
  show Counters.Calm _ { (q.noteBorrower id b.site).counters with
    borrowed := (q.noteBorrower id b.site).counters.borrowed + 1 }
  rw [noteBorrower_counters, hq]
  exact .refl _

/-- The factory has readied an object for a borrower. -/
theorem activatedForLoan_counts (p : Pool ρ) (now : Instant) (id : Nat) (b : Borrowing)
    (fresh : Bool) (v : ρ) (refusal : Option String) :
    (p.activatedForLoan id b fresh v refusal).Counts p now (.activating id (.lend b fresh)) := by
  unfold activatedForLoan
  split
  · exact .passes (refuse_passes (p := p.letGo id v) (.refl _) id b fresh rfl) rfl rfl
  · split
    · exact .passes ⟨.refl _, .refl _, rfl⟩ rfl rfl
    · refine handOut_counts (p := p) (q := p.letGo id v) ?_ ?_ rfl rfl now id b <;> rfl

theorem validatedForLoan_counts (p : Pool ρ) (now : Instant) (id : Nat) (b : Borrowing)
    (fresh fit : Bool) : (p.validatedForLoan id b fresh fit).Counts p now
      (.validating id (.trial (.lend b fresh))) := by
  cases fit with
  | true =>
    refine handOut_counts (p := p) (q := p.release id) ?_ ?_ rfl rfl now id b <;> rfl
  | false =>
    exact .passes (refuse_passes (c := p.counters) (p := (p.release id).count _)
      ⟨rfl, rfl, rfl, rfl, rfl, rfl, Nat.le_refl _⟩ id b fresh rfl) rfl rfl

theorem createdForLoan_passes (p : Pool ρ) (now : Instant) (b : Borrowing) (v : ρ) :
    (p.createdForLoan now b v).Passes p.counters .borrow 0 := by
  have hmade : p.counters.Calm { p.counters with created := p.counters.created + 1 } :=
    ⟨rfl, rfl, rfl, rfl, rfl, rfl, Nat.le_refl _⟩
  unfold createdForLoan
  dsimp only
  split
  · obtain ⟨hcalm, hgoes, hseized⟩ := finishDestroy_passes
      (p := ((p.count fun c => { c with created := c.created + 1 }).enlist now v .allocated).book
        Registry.cancelReservation) hmade p.entries.length (.reply (.failed .closed))
    refine ⟨hcalm, ?_, hseized⟩
    rw [hgoes.eq_settled]
    exact .settle rfl
  · exact activateForLoan_passes hmade _ b true

/-! ### A pass over the lent objects -/

theorem sweep_counts {a : Abandonment} {w : Sweeper} (ha : p.config.abandonment = some a)
    (hpt : pt.sweeps = true) (hk : w.errand = pt.errand) (hs : seizedIn pt.charges = 0)
    {s : Stretch ρ} (hpool : s.pool = (p.sweep now a w).pool)
    (hn : s.next = (p.sweep now a w).next) : s.Counts p now pt := by
  refine .sweeps a _ w ha hpt hk hs ?_ hn
  rw [hpool]
  exact counters_reclaimFrom _

theorem borrow_counts (p : Pool ρ) (now : Instant) (b : Borrowing) :
    (p.borrow now b).Counts p now (.borrow b) := by
  unfold borrow
  split
  · rename_i a ha
    split
    · exact sweep_counts ha rfl rfl rfl rfl rfl
    · exact .passes ⟨.refl _, .refl _, rfl⟩ rfl rfl
  · exact .passes ⟨.refl _, .refl _, rfl⟩ rfl rfl

theorem swept_passes (p : Pool ρ) (now : Instant) (n : Nat) (w : Sweeper) :
    (p.swept now n w).Passes p.counters w.errand 0 := by
  unfold swept
  cases w <;>
  · refine ⟨?_, ?_, ?_⟩
    · rw [Stretch.notingIf_pool]
      exact .refl _
    · rw [Stretch.notingIf_next]
      exact .refl _
    · rw [Stretch.notingIf_next]
      rfl

/-- An object that was taken away from its borrower is counted, and destroyed. -/
theorem disposeReclaimed_passes (p : Pool ρ) (x : Reclaimed ρ) (rest : List (Reclaimed ρ)) (n : Nat)
    (w : Sweeper) : (p.disposeReclaimed x rest n w).Passes { p.counters with
      abandoned := p.counters.abandoned + 1, destroyed := p.counters.destroyed + 1 } w.errand
      rest.length :=
  seizedIn_seizures rest ▸ dispose_passes
    (p := p.count fun c => { c with abandoned := c.abandoned + 1 }) (.refl _) x.object x.resource
    .abandoned (.reclaim rest n w)

theorem reclaimNext_counts (p : Pool ρ) (now : Instant) (x : Reclaimed ρ)
    (rest : List (Reclaimed ρ)) (n : Nat) (w : Sweeper) :
    (p.reclaimNext x rest n w).Counts p now (.reclaiming (x :: rest) n w) := by
  have hdispose : ∀ {s : Stretch ρ}, s.pool = (p.disposeReclaimed x rest n w).pool →
      s.next = (p.disposeReclaimed x rest n w).next →
      s.Counts p now (.reclaiming (x :: rest) n w) := by
    intro s hpool hnext
    obtain ⟨hcalm, hgoes, hseized⟩ := p.disposeReclaimed_passes x rest n w
    exact .reclaims rest.length rfl rfl (seizedIn_seizures _)
      ⟨hpool ▸ hcalm, hnext ▸ hgoes, hnext ▸ hseized⟩
  unfold reclaimNext
  split
  · split
    · split
      · exact hdispose rfl rfl
      · exact .passes ⟨.refl _, .refl _, rfl⟩ rfl rfl
    · exact hdispose rfl rfl
  · exact hdispose rfl rfl

/-! ### Making idle objects -/

theorem filled_passes (p : Pool ρ) (f : Filler) (made : Nat) :
    (p.filled f made).Passes p.counters .other 0 := by
  cases f <;> exact ⟨.refl _, .settle rfl, rfl⟩

theorem fill_passes (p : Pool ρ) (f : Filler) (made : Nat) :
    (p.fill f made).Passes p.counters .other 0 := by
  unfold fill
  split
  · exact p.filled_passes f made
  · exact ⟨.refl _, .refl _, rfl⟩

theorem add_passes (p : Pool ρ) : p.add.Passes p.counters .other 0 := by
  unfold add
  split
  · exact ⟨.refl _, .settle rfl, rfl⟩
  · split
    · exact ⟨.refl _, .settle rfl, rfl⟩
    · exact ⟨.refl _, .refl _, rfl⟩

theorem prepare_passes (p : Pool ρ) : p.prepare.Passes p.counters .other 0 := by
  unfold prepare
  split
  · exact ⟨.refl _, .settle rfl, rfl⟩
  · exact ⟨.refl _, .refl _, rfl⟩

theorem settle_passes (h : c.Calm p.counters) (id : Nat) (w : Stocker) (fault : Option PoolError) :
    (p.settle id w fault).Passes c .other 0 := by
  unfold settle
  dsimp only
  split
  · cases w with
    | add => exact ⟨h, .settle rfl, rfl⟩
    | fill f made => exact ⟨h, .refl _, rfl⟩
  · exact finishDestroy_passes (p := p.book Registry.cancelReservation) h id (.notStocked w _)

theorem createdForStock_passes (p : Pool ρ) (now : Instant) (w : Stocker) (v : ρ) :
    (p.createdForStock now w v).Passes p.counters .other 0 := by
  have hmade : p.counters.Calm { p.counters with created := p.counters.created + 1 } :=
    ⟨rfl, rfl, rfl, rfl, rfl, rfl, Nat.le_refl _⟩
  rw [createdForStock_eq]
  dsimp only
  split <;> exact ⟨hmade, .refl _, rfl⟩

theorem validatedForStock_passes (p : Pool ρ) (id : Nat) (w : Stocker) (fit : Bool) :
    (p.validatedForStock id w fit).Passes p.counters .other 0 := by
  cases fit with
  | true => exact ⟨.refl _, .refl _, rfl⟩
  | false =>
    exact settle_passes (c := p.counters) (p := (p.release id).count _)
      ⟨rfl, rfl, rfl, rfl, rfl, rfl, Nat.le_refl _⟩ id w _

theorem notCreated_passes (p : Pool ρ) (m : Maker) (reason : String) :
    (p.notCreated m reason).Passes p.counters m.errand 0 := by
  cases m with
  | lend b => exact ⟨.refl _, .settle rfl, rfl⟩
  | stock w =>
    cases w with
    | add => exact ⟨.refl _, .settle rfl, rfl⟩
    | fill f made => cases f <;> exact ⟨.refl _, .settle rfl, rfl⟩

/-! ### Taking objects back -/

theorem passivate_passes (h : c.Calm p.counters) (id : Nat) (answer : Option Reply) :
    (p.passivate id answer).Passes c (.ofAnswer answer) 0 := by
  unfold passivate
  split
  · exact ⟨h, .refl _, rfl⟩
  · exact destroy_settles h id (Errand.ofAnswer_goes answer rfl)

theorem unfitReturn_passes (h : c.Calm p.counters) (id : Nat) (answer : Option Reply) :
    (p.unfitReturn id answer).Passes c (.ofAnswer answer) 0 := by
  obtain ⟨hcalm, hgoes, hseized⟩ := destroy_settles (c := c)
    (p := p.count fun c => { c with validationFailures := c.validationFailures + 1 })
    (h.trans ⟨rfl, rfl, rfl, rfl, rfl, rfl, Nat.le_refl _⟩) id
    (Errand.ofAnswer_goes answer (r := .done) rfl)
  exact ⟨hcalm, hgoes, hseized⟩

theorem takeBack_counts (p : Pool ρ) (now : Instant) (id : Nat) (answer : Option Reply) :
    (p.takeBack now id answer).Counts p now (.takeBack id answer) := by
  unfold takeBack
  dsimp only
  split
  · rename_i hout
    exact .refuses id rfl (.inl hout) (.refl _) rfl
  · rename_i hin
    have hid : id ∈ p.registry.active := Decidable.not_not.mp hin
    split
    · rename_i hstate
      exact .refuses id rfl (.inr hstate) (.refl _) rfl
    · have hmark : { p.counters with returned := p.counters.returned + 1 }.Calm
          (p.markReturned now id).counters := .refl _
      split
      · exact .takesBack id answer rfl hid
          (destroy_settles hmark id (Errand.ofAnswer_goes answer rfl))
      · split
        · split
          · exact .takesBack id answer rfl hid ⟨hmark, .refl _, rfl⟩
          · exact .takesBack id answer rfl hid (unfitReturn_passes hmark id answer)
        · exact .takesBack id answer rfl hid (passivate_passes hmark id answer)

theorem validatedReturn_passes (p : Pool ρ) (id : Nat) (answer : Option Reply) (fit : Bool) :
    (p.validatedReturn id answer fit).Passes p.counters (.ofAnswer answer) 0 := by
  cases fit with
  | true => exact passivate_passes (p := p.release id) (.refl _) id answer
  | false => exact unfitReturn_passes (p := p.release id) (.refl _) id answer

theorem shelve_passes (h : c.Calm p.counters) (id : Nat) (answer : Option Reply) :
    (p.shelve id answer).Passes c (.ofAnswer answer) 0 := by
  refine ⟨?_, Errand.ofAnswer_goes answer rfl, rfl⟩
  unfold shelve
  dsimp only
  split <;> exact h

theorem passivatedReturn_passes (p : Pool ρ) (id : Nat) (answer : Option Reply) (v : ρ)
    (refusal : Option String) :
    (p.passivatedReturn id answer v refusal).Passes p.counters (.ofAnswer answer) 0 := by
  have hgo : p.counters.Calm (p.letGo id v).counters := .refl _
  unfold passivatedReturn
  dsimp only
  split
  · obtain ⟨hcalm, hgoes, hseized⟩ := destroy_settles hgo id
      (Errand.ofAnswer_goes answer (r := .done) rfl)
    exact ⟨hcalm, hgoes, hseized⟩
  · split
    · exact destroy_settles hgo id (Errand.ofAnswer_goes answer rfl)
    · split
      · obtain ⟨hcalm, hgoes, hseized⟩ := destroy_settles hgo id
          (Errand.ofAnswer_goes answer (r := .done) rfl)
        exact ⟨hcalm, hgoes, hseized⟩
      · exact shelve_passes hgo id answer

theorem discard_counts (p : Pool ρ) (now : Instant) (id : Nat) :
    (p.discard id).Counts p now (.discard id) := by
  unfold discard
  split
  · rename_i hout
    exact .refuses id rfl (.inl hout) (.refl _) rfl
  · rename_i hin
    split
    · obtain ⟨hcalm, hgoes, hseized⟩ := destroy_passes (c := p.counters)
        (p := p.setState id .invalid) (.refl _) id
        (.reply (if p.closed then .failed .closed else .done))
      refine .discards id rfl (Decidable.not_not.mp hin) hcalm hseized ?_
      rw [hgoes.eq_settled]
      by_cases hc : p.closed = true
      · exact .inr (congrArg Errand.settled (if_pos hc))
      · exact .inl (congrArg Errand.settled (if_neg hc))
    · rename_i hstate
      exact .refuses id rfl (.inr (by simp_all)) (.refl _) rfl

/-! ### Upkeep -/

theorem counters_sortIdle (p : Pool ρ) (now : Instant) (left : Nat) (ids : List Nat) :
    (p.sortIdle now left ids).pool.counters = p.counters := by
  induction ids generalizing p left with
  | nil => rfl
  | cons id rest ih =>
    rw [sortIdle]
    cases p.object? id with
    | none => exact ih p left
    | some e =>
      dsimp only
      split
      · exact ih p left
      · split
        · exact ih _ _
        · split
          · exact ih _ left
          · exact ih _ left

theorem upkeep_passes (p : Pool ρ) (now : Instant) :
    (p.upkeep now).Passes p.counters .other 0 := by
  unfold upkeep evict
  split
  · exact ⟨.refl _, .settle rfl, rfl⟩
  · split
    · exact ⟨.refl _, .refl _, rfl⟩
    · refine ⟨?_, .refl _, seizedIn_sweeping _ _⟩
      show p.counters.Calm (p.sortIdle now _ _).pool.counters
      rw [counters_sortIdle]
      exact .refl _

theorem failTest_passes (h : c.Calm p.counters) (id : Nat) (tests : List Nat) (n : Nat) :
    (p.failTest id tests n).Passes c .other 0 := by
  obtain ⟨hcalm, hgoes, hseized⟩ := destroy_passes (c := c)
    (p := p.count fun c => { c with validationFailures := c.validationFailures + 1 })
    (h.trans ⟨rfl, rfl, rfl, rfl, rfl, rfl, Nat.le_refl _⟩) id (.evict [] tests n)
  exact ⟨hcalm, hgoes, hseized.trans (seizedIn_sweeping [] tests)⟩

theorem passTest_passes (h : c.Calm p.counters) (id : Nat) (tests : List Nat) (n : Nat) :
    (p.passTest id tests n).Passes c .other 0 := by
  unfold passTest
  split
  · exact ⟨h, .refl _, seizedIn_sweeping [] tests⟩
  · obtain ⟨hcalm, hgoes, hseized⟩ := destroy_passes h id (.evict [] tests n)
    exact ⟨hcalm, hgoes, hseized.trans (seizedIn_sweeping [] tests)⟩

/-- An object that is tried out was not taken away from a borrower. -/
theorem seizedIn_trying (id : Nat) (tests : List Nat) :
    seizedIn ((id, Custody.trying (ρ := ρ)) :: each tests .untried) = 0 := by
  show seizedIn (each [id] Custody.trying ++ each tests .untried) = 0
  rw [seizedIn_append, seizedIn_each _ rfl, seizedIn_each _ rfl]

theorem activatedForTest_passes (p : Pool ρ) (id : Nat) (tests : List Nat) (n : Nat) (v : ρ)
    (refusal : Option String) :
    (p.activatedForTest id tests n v refusal).Passes p.counters .other 0 := by
  cases refusal with
  | some reason => exact failTest_passes (p := p.letGo id v) (.refl _) id tests n
  | none => exact ⟨.refl _, .refl _, seizedIn_trying id tests⟩

theorem validatedForTest_passes (p : Pool ρ) (id : Nat) (tests : List Nat) (n : Nat)
    (fit : Bool) : (p.validatedForTest id tests n fit).Passes p.counters .other 0 := by
  cases fit with
  | true => exact ⟨.refl _, .refl _, seizedIn_trying id tests⟩
  | false => exact failTest_passes (p := p.release id) (.refl _) id tests n

theorem passivatedForTest_passes (p : Pool ρ) (id : Nat) (tests : List Nat) (n : Nat) (v : ρ)
    (refusal : Option String) :
    (p.passivatedForTest id tests n v refusal).Passes p.counters .other 0 := by
  cases refusal with
  | some reason => exact failTest_passes (p := p.letGo id v) (.refl _) id tests n
  | none => exact passTest_passes (p := p.letGo id v) (.refl _) id tests n

/-- An idle object that was evicted is counted and destroyed; once all are, lent objects that are
    overdue are taken away from their borrowers if the settings say so. -/
theorem evictNext_counts (p : Pool ρ) (now : Instant) (out tests : List Nat) (n : Nat) :
    (p.evictNext now out tests n).Counts p now (.evicting out tests n) := by
  have hnone : seizedIn (Point.evicting (ρ := ρ) out tests n).charges = 0 :=
    seizedIn_sweeping out tests
  cases out with
  | cons id out =>
    have h := dispose_passes
      (c := { p.counters with
        evicted := p.counters.evicted + 1, destroyed := p.counters.destroyed + 1 })
      (p := (p.count fun c => { c with evicted := c.evicted + 1 }).emptySlot id) (.refl _) id
      (p.slot? id) .normal (.evict out tests n)
    refine .evicts rfl rfl ⟨h.calm, h.goes, ?_⟩
    rw [hnone]
    exact h.seized.trans (seizedIn_sweeping out tests)
  | nil =>
    cases tests with
    | cons id tests =>
      refine .passes ?_ rfl rfl
      rw [hnone]
      exact activate_passes (.refl _) id rfl (seizedIn_trying id tests)
        (failTest_passes (.refl _) id tests n)
    | nil =>
      have hfill : ∀ {s : Stretch ρ}, s.pool = p → s.next = .go (.filling (.upkeep n 0) 0) →
          s.Counts p now (.evicting [] [] n) := by
        intro s hpool hnext
        refine .passes ⟨hpool ▸ .refl _, hnext ▸ .refl _, hnext ▸ rfl⟩ rfl ?_
        rw [hnext]
        rfl
      unfold evictNext evicted
      dsimp only
      split
      · rename_i a ha
        split
        · exact sweep_counts ha rfl rfl rfl (Stretch.notingIf_pool _ _ _)
            (Stretch.notingIf_next _ _ _)
        · exact hfill (Stretch.notingIf_pool _ _ _) (Stretch.notingIf_next _ _ _)
      · exact hfill (Stretch.notingIf_pool _ _ _) (Stretch.notingIf_next _ _ _)

/-! ### Closing -/

/-- A call that has closed the pool gives its reply. -/
theorem goes_reply (c : Closer) : c.errand.Goes (.settled c.reply) := by
  cases c with
  | call => exact .settle rfl
  | release r => exact .refl _

theorem close_passes (p : Pool ρ) (self : Nat) (c : Closer) :
    (p.close self c).Passes p.counters c.errand 0 := by
  unfold close
  split
  · exact ⟨.refl _, goes_reply c, rfl⟩
  · dsimp only
    split
    · split <;> exact ⟨.refl _, .refl _, seizedIn_each _ rfl⟩
    · exact ⟨.refl _, .refl _, seizedIn_each _ rfl⟩

theorem drainNext_passes (p : Pool ρ) (rest : List Nat) (d : Drainer) :
    (p.drainNext rest d).Passes p.counters d.errand 0 := by
  cases rest with
  | cons id rest =>
    obtain ⟨hcalm, hgoes, hseized⟩ := finishDestroy_passes (.refl p.counters) id (.drain rest d)
    exact ⟨hcalm, hgoes, hseized.trans (seizedIn_each rest rfl)⟩
  | nil =>
    cases d with
    | clear => exact ⟨.refl _, .settle rfl, rfl⟩
    | close c => exact ⟨.refl _, goes_reply c, rfl⟩

/-! ## Every stretch -/

theorem advance_counts {self : Nat} {ended : Nat → Bool}
    (hs : p.advance now self ended pt = some s) : s.Counts p now pt := by
  have hnone : ∀ ids : List Nat, seizedIn (each ids (Custody.drained (ρ := ρ))) = 0 :=
    fun ids => seizedIn_each ids rfl
  cases goesOn_of_advance hs with
  | borrow b => exact p.borrow_counts now b
  | seek b => exact seek_counts rfl rfl rfl rfl now b none
  | waiting b t _ => exact seek_counts rfl rfl rfl rfl now b (some t)
  | add => exact .passes p.add_passes rfl rfl
  | prepare => exact .passes p.prepare_passes rfl rfl
  | filling f made => exact .passes (p.fill_passes f made) rfl rfl
  | upkeep => exact .passes (p.upkeep_passes now) rfl rfl
  | evicting out tests n => exact p.evictNext_counts now out tests n
  | swept n w => exact .passes (p.swept_passes now n w) rfl rfl
  | reclaiming x rest n w => exact p.reclaimNext_counts now x rest n w
  | takeBack id answer => exact p.takeBack_counts now id answer
  | discard id => exact p.discard_counts now id
  | clear => exact .passes ⟨.refl _, .refl _, hnone _⟩ rfl rfl
  | close c => exact .passes (p.close_passes self c) rfl rfl
  | draining rest d => exact .passes ((hnone rest).symm ▸ p.drainNext_passes rest d) rfl rfl
  | joining k rest c _ => exact .passes ⟨.refl _, .refl _, rfl⟩ rfl rfl

theorem respond_counts {r : Response ρ} (hs : p.respond now pt r = some s) :
    s.Counts p now pt := by
  have htrying : ∀ (id : Nat) (tests : List Nat),
      seizedIn ((id, Custody.trying (ρ := ρ)) :: each tests .untried) = 0 := seizedIn_trying
  cases answered_of_respond hs with
  | notCreated m reason => exact .passes (p.notCreated_passes m reason) rfl rfl
  | createdForLoan b v => exact .passes (p.createdForLoan_passes now b v) rfl rfl
  | createdForStock k v => exact .passes (p.createdForStock_passes now k v) rfl rfl
  | activatedForLoan id b fresh v refusal =>
    exact p.activatedForLoan_counts now id b fresh v refusal
  | activatedForTest id tests n v refusal =>
    exact .passes ((htrying id tests).symm ▸ p.activatedForTest_passes id tests n v refusal) rfl rfl
  | validatedForLoan id b fresh fit => exact p.validatedForLoan_counts now id b fresh fit
  | validatedForTest id tests n fit =>
    exact .passes ((htrying id tests).symm ▸ p.validatedForTest_passes id tests n fit) rfl rfl
  | validatedForStock id k fit => exact .passes (p.validatedForStock_passes id k fit) rfl rfl
  | validatedReturn id answer fit => exact .passes (p.validatedReturn_passes id answer fit) rfl rfl
  | passivatedForTest id tests n v refusal =>
    exact .passes ((htrying id tests).symm ▸ p.passivatedForTest_passes id tests n v refusal) rfl
      rfl
  | passivatedForStock id k v refusal =>
    exact .passes (settle_passes (p := p.letGo id v) (.refl _) id k _) rfl rfl
  | passivatedReturn id answer v refusal =>
    exact .passes (p.passivatedReturn_passes id answer v refusal) rfl rfl
  | destroyed id v mode k refusal =>
    have h := resume_passes (.refl p.counters) k
    unfold destroyed
    split <;> exact .passes ⟨h.calm, h.goes, h.seized⟩ rfl rfl
  | reported report x rest n w =>
    exact .reclaims rest.length rfl rfl (seizedIn_seizures (x :: rest))
      (p.disposeReclaimed_passes x rest n w)

end Pool

end ObjectPool
