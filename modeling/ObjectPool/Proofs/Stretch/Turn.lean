/-
  ObjectPool.Proofs.Stretch.Turn

  What a stretch does to the line of borrowers and to the queue of idle objects. Most
  stretches only take from both: borrowers are woken or leave, idle objects are lent or
  destroyed. The others do one thing more: a borrower enters the line or goes back to
  it, an object joins the idle ones below the ceiling, or one that was tried out goes
  back to them.

    * `WaitLine.Thins`, `Registry.Thins` — nobody enters, and nothing joins.
    * `Stretch.Turn` — all that a stretch can do to the line and to the idle queue.
    * `advance_turn`, `respond_turn` — every stretch does one of these things.
-/

import ObjectPool.Proofs.Ledger

namespace ObjectPool

variable {ρ : Type}

/-! ## Less in line, less in the books -/

/-- Borrowers are woken or leave the line. -/
inductive WaitLine.Thins (l : WaitLine) : WaitLine → Prop
  | refl : Thins l l
  | wakeNext {m : WaitLine} (h : Thins l m) : Thins l m.wakeNext
  | wakeAll {m : WaitLine} (h : Thins l m) : Thins l m.wakeAll
  | leave {m : WaitLine} (t : Nat) (h : Thins l m) : Thins l (m.leave t)

namespace HandOut

/-- An object joins a queue where the youngest stand. -/
def push (o : HandOut) (id : Nat) (l : List Nat) : List Nat :=
  match o with
  | .lifo => id :: l
  | .fifo => l ++ [id]

variable {o : HandOut} {id x : Nat} {l : List Nat}

theorem mem_push : x ∈ o.push id l ↔ x = id ∨ x ∈ l := by
  cases o with
  | lifo => exact List.mem_cons
  | fifo => simp [push, or_comm]

theorem length_push : (o.push id l).length = l.length + 1 := by
  cases o with
  | lifo => rfl
  | fifo => exact List.length_append

end HandOut

namespace Registry

/-- The lists of the idle and of the lent objects grow no longer, and keep their order. -/
structure Shrinks (r r' : Registry) : Prop where
  order : r'.order = r.order
  idle : r'.idle.Sublist r.idle
  active : ∀ id ∈ r'.active, id ∈ r.active

/-- The lists of the books grow no longer, nor does the line. -/
structure Thins (r r' : Registry) : Prop extends r.Shrinks r' where
  line : r.line.Thins r'.line

variable {r r' r'' : Registry} {id : Nat}

theorem Shrinks.refl (r : Registry) : r.Shrinks r := ⟨rfl, .refl _, fun _ h => h⟩

theorem Thins.refl (r : Registry) : r.Thins r := ⟨.refl r, .refl⟩

theorem Thins.wakeNext (h : r.Thins r') : r.Thins r'.wakeNext :=
  { h with line := h.line.wakeNext }

theorem Thins.wakeIfAvailable (h : r.Thins r') : r.Thins r'.wakeIfAvailable := by
  unfold Registry.wakeIfAvailable
  split
  · exact h.wakeNext
  · exact h

theorem Thins.cancelReservation (h : r.Thins r') : r.Thins r'.cancelReservation :=
  wakeNext { h with }

theorem Thins.leave (h : r.Thins r') (t : Nat) :
    r.Thins { r' with line := r'.line.leave t } :=
  { h with line := h.line.leave t }

theorem Thins.removeIdle (h : r.Thins r') (id : Nat) : r.Thins (r'.removeIdle id) :=
  { h with idle := List.filter_sublist.trans h.idle }

theorem Thins.detach (h : r.Thins r') (id : Nat) : r.Thins (r'.detach id) := by
  unfold Registry.detach
  split
  · refine wakeNext { h with idle := ?_, active := fun x hx => h.active x (mem_without.mp hx).1 }
    show List.Sublist (if id ∈ r'.active then r'.idle else without id r'.idle) r.idle
    split
    · exact h.idle
    · exact List.filter_sublist.trans h.idle
  · exact h

theorem Thins.drainIdle (h : r.Thins r') : r.Thins r'.drainIdle := by
  unfold Registry.drainIdle
  dsimp only
  split
  · exact { h with idle := List.nil_sublist _ }
  · exact wakeNext { h with idle := List.nil_sublist _ }

theorem Thins.close (h : r.Thins r') : r.Thins r'.close := { h with line := h.line.wakeAll }

/-- An object that is no longer tracked is not lent either. -/
theorem mem_detach_active {x : Nat} (ht : id ∈ r.tracked) (hx : x ∈ (r.detach id).active) :
    x ∈ r.active ∧ x ≠ id := by
  rw [Registry.detach, if_pos ht] at hx
  exact mem_without.mp hx

theorem mem_idleOldestFirst : id ∈ r.idleOldestFirst ↔ id ∈ r.idle := by
  unfold Registry.idleOldestFirst
  cases r.order with
  | lifo => exact List.mem_reverse
  | fifo => rfl

theorem pushIdle_idle (id : Nat) (r : Registry) :
    (r.pushIdle id).idle = r.order.push id r.idle := rfl

theorem mem_pushIdle {x : Nat} : x ∈ (r.pushIdle id).idle ↔ x = id ∨ x ∈ r.idle :=
  HandOut.mem_push

end Registry

/-! ## All that a stretch can do -/

/-- Where the call stands once a stretch is over, unless it has ended. -/
def Next.points : Next ρ → List (Point ρ)
  | .go pt => [pt]
  | .finish _ => []

/-- The objects in the charge of a call once a stretch is over. -/
def Next.charges : Next ρ → List (Nat × Custody ρ)
  | .go pt => pt.charges
  | .finish _ => []

/-- The ticket of a borrower that waits once a stretch is over. -/
def Next.tickets : Next ρ → List Nat
  | .go pt => pt.tickets
  | .finish _ => []

/-- Whether an object is laid to rest after a trial. -/
def Rest.isTest : Rest → Bool
  | .test _ _ => true
  | _ => false

/-- Whether the factory has laid an object to rest. -/
def Response.grants : Response ρ → Bool
  | .passivated _ refusal => refusal.isNone
  | _ => false

/-- A stretch only takes from the line and from the idle queue of the books `r`, and what it
    lends is in the charge of its call. -/
structure Stretch.Thins (r : Registry) (s : Stretch ρ) : Prop where
  order : s.pool.registry.order = r.order
  idle : s.pool.registry.idle.Sublist r.idle
  active : ∀ id ∈ s.pool.registry.active, id ∈ r.active ∨ ∃ c, (id, c) ∈ s.next.charges
  line : r.line.Thins s.pool.registry.line
  tickets : s.next.tickets = []

/-- What a stretch of a call at the point `pt` does to the line and to the idle queue of the pool
    `p`; `granted` says whether the factory has just laid an object to rest. -/
inductive Stretch.Turn (p : Pool ρ) (pt : Point ρ) (granted : Bool) (s : Stretch ρ) : Prop
  | thin (h : s.Thins p.registry)
  /-- A borrower begins to wait. -/
  | enter {b : Borrowing} (hs : p.registry.Shrinks s.pool.registry) (hpt : pt.tickets = [])
      (hn : s.next = .go (.waiting b p.registry.line.issued))
      (hl : s.pool.registry.line = p.registry.line.enter)
  /-- A borrower goes on waiting, in its place or back at the front. -/
  | wait {b : Borrowing} {t : Nat} (hs : p.registry.Shrinks s.pool.registry)
      (hpt : pt.tickets = [t]) (hn : s.next = .go (.waiting b t))
      (hl : s.pool.registry.line = p.registry.line ∨
        t ∈ p.registry.line.woken ∧ s.pool.registry.line = p.registry.line.reenter t)
  /-- An object joins the idle ones, which are fewer than there may be. -/
  | join {id : Nat} {k : Rest} {r : Registry} (hpt : pt = .passivating id k)
      (hk : k.isTest = false) (hg : granted = true)
      (hroom : p.registry.idle.length < p.config.maxIdle) (hr : p.registry.Thins r)
      (hi : r.idle = p.registry.idle) (hs : s.pool.registry = r.pushIdle id)
      (ht : s.next.tickets = [])
  /-- An object that was tried out goes back to the idle ones. -/
  | restore {id n : Nat} {tests : List Nat} (hpt : pt = .passivating id (.test tests n))
      (hg : granted = true) (hs : s.pool.registry = p.registry.restoreIdle id)
      (hn : s.next = .go (.evicting [] tests n))

namespace Stretch.Turn

variable {p : Pool ρ} {pt : Point ρ} {granted : Bool} {s : Stretch ρ} {id : Nat}

theorem order (h : s.Turn p pt granted) : s.pool.registry.order = p.registry.order := by
  cases h with
  | thin h => exact h.order
  | enter hs _ _ _ | wait hs _ _ _ => exact hs.order
  | join _ _ _ _ hr _ hs _ =>
    rw [hs]
    exact hr.order
  | restore _ _ hs _ => rw [hs]; rfl

/-- What is listed as lent was so before, or is in the charge of the call. -/
theorem active (h : s.Turn p pt granted) (hid : id ∈ s.pool.registry.active) :
    id ∈ p.registry.active ∨ ∃ c, (id, c) ∈ s.next.charges := by
  cases h with
  | thin h => exact h.active id hid
  | enter hs _ _ _ | wait hs _ _ _ => exact .inl (hs.active id hid)
  | join _ _ _ _ hr _ hs _ =>
    rw [hs] at hid
    exact .inl (hr.active id hid)
  | restore _ _ hs _ =>
    rw [hs] at hid
    exact .inl hid

/-- What is idle was so before, or the factory has just laid it to rest. -/
theorem idle (h : s.Turn p pt granted) (hid : id ∈ s.pool.registry.idle) :
    id ∈ p.registry.idle ∨ (granted = true ∧ ∃ k, pt = .passivating id k) := by
  cases h with
  | thin h => exact .inl (h.idle.mem hid)
  | enter hs _ _ _ | wait hs _ _ _ => exact .inl (hs.idle.mem hid)
  | join hpt _ hg _ _ hi hs _ =>
    rw [hs] at hid
    rcases Registry.mem_pushIdle.mp hid with rfl | hid
    · exact .inr ⟨hg, _, hpt⟩
    · exact .inl (hi ▸ hid)
  | restore hpt hg hs _ =>
    rw [hs] at hid
    rcases List.mem_append.mp hid with hid | hid
    · exact .inl hid
    · obtain rfl := List.mem_singleton.mp hid
      exact .inr ⟨hg, _, hpt⟩

end Stretch.Turn

theorem Stretch.Thins.of_registry {r : Registry} {s : Stretch ρ} (h : r.Thins s.pool.registry)
    (ht : s.next.tickets = []) : s.Thins r :=
  { h with active := fun id hid => .inl (h.active id hid), tickets := ht }

/-- A record in the journal changes no books. -/
theorem Stretch.Thins.notingIf {r : Registry} {s : Stretch ρ} (h : s.Thins r) (b : Bool)
    (n : Notice) : (s.notingIf b n).Thins r := by
  unfold Stretch.notingIf
  split
  · exact { h with }
  · exact h

namespace Pool

variable {p : Pool ρ} {r : Registry} {id : Nat} {k : After ρ} {answer : Option Reply}

/-! ## The end of an object -/

theorem filled_thins (h : r.Thins p.registry) (f : Filler) (made : Nat) :
    (p.filled f made).Thins r := by
  cases f <;> exact .of_registry h rfl

theorem notStocked_thins (h : r.Thins p.registry) (s : Stocker) (e : PoolError) :
    (p.notStocked s e).Thins r := by
  rcases s with _ | ⟨_ | ⟨out, back⟩, made⟩ <;> exact .of_registry h rfl

theorem resume_thins (h : r.Thins p.registry) (k : After ρ) : (p.resume k).Thins r := by
  cases k with
  | notStocked s e => exact notStocked_thins h s e
  | seek | reply | reclaim | evict | drain => exact .of_registry h rfl

theorem dispose_thins (h : r.Thins p.registry) (v : Option ρ) (mode : DestroyMode) (k : After ρ) :
    (p.dispose id v mode k).Thins r := by
  cases v with
  | some v => exact .of_registry h rfl
  | none => exact resume_thins (p := p.retire id) h k

theorem finishDestroy_thins (h : r.Thins p.registry) (k : After ρ) :
    (p.finishDestroy id k).Thins r :=
  dispose_thins (p := p.emptySlot id) h _ _ k

theorem destroy_thins (h : r.Thins p.registry) (k : After ρ) : (p.destroy id k).Thins r :=
  finishDestroy_thins (p := p.detach id) (h.detach id) k

theorem destroyed_thins (h : r.Thins p.registry) (k : After ρ) (refusal : Option String) :
    (p.destroyed id k refusal).Thins r := by
  cases refusal <;> exact { resume_thins h k with }

theorem disposeReclaimed_thins (h : r.Thins p.registry) (x : Reclaimed ρ)
    (rest : List (Reclaimed ρ)) (n : Nat) (s : Sweeper) :
    (p.disposeReclaimed x rest n s).Thins r :=
  dispose_thins (p := p.count fun c => { c with abandoned := c.abandoned + 1 }) h _ _ _

theorem reclaimNext_thins (h : r.Thins p.registry) (x : Reclaimed ρ) (rest : List (Reclaimed ρ))
    (n : Nat) (s : Sweeper) : (p.reclaimNext x rest n s).Thins r := by
  have hdispose := disposeReclaimed_thins h x rest n s
  unfold Pool.reclaimNext
  split
  · split
    · split
      · exact { hdispose with }
      · exact .of_registry h rfl
    · exact hdispose
  · exact hdispose

theorem reclaimFrom_thins (h : r.Thins p.registry) (now : Instant) (timeout : Duration)
    (ids : List Nat) : r.Thins (p.reclaimFrom now timeout ids).1.registry := by
  -- each object taken away leaves other books to the rest of the pass
  induction ids generalizing p with
  | nil => exact h
  | cons id rest ih =>
    rw [Pool.reclaimFrom]
    split
    · exact ih (p := p.takeAway id) (h.detach id)
    · exact ih h

theorem sweep_thins (h : r.Thins p.registry) (now : Instant) (a : Abandonment) (s : Sweeper) :
    (p.sweep now a s).Thins r :=
  .of_registry (reclaimFrom_thins h now a.timeout p.registry.active) rfl

/-! ## Lending -/

theorem borrow_thins (h : r.Thins p.registry) (now : Instant) (b : Borrowing) :
    (p.borrow now b).Thins r := by
  unfold Pool.borrow
  split
  · split
    · exact sweep_thins h now _ _
    · exact .of_registry h rfl
  · exact .of_registry h rfl

theorem swept_thins (h : r.Thins p.registry) (now : Instant) (n : Nat) (s : Sweeper) :
    (p.swept now n s).Thins r := by
  unfold Pool.swept
  refine Stretch.Thins.notingIf ?_ _ _
  cases s <;> exact .of_registry h rfl

/-- A borrower may leave the line, and what there is goes to the next one. -/
theorem leaveLine_thins (h : r.Thins p.registry) (ticket : Option Nat) :
    r.Thins (p.leaveLine ticket).registry := by
  cases ticket with
  | some t => exact h.leave t
  | none => exact h

/-- Whoever takes something leaves the line, and the next in it is woken for what is left. -/
theorem leaveLine_books (p : Pool ρ) (ticket : Option Nat) :
    ∃ l, p.registry.line.Thins l ∧
      ((p.leaveLine ticket).book Registry.wakeIfAvailable).registry =
        { p.registry with line := l } := by
  have hleft : ∃ l, p.registry.line.Thins l ∧
      (p.leaveLine ticket).registry = { p.registry with line := l } := by
    cases ticket with
    | some t => exact ⟨_, .leave t .refl, rfl⟩
    | none => exact ⟨_, .refl, rfl⟩
  obtain ⟨l, hl, hbooks⟩ := hleft
  rw [book_registry, hbooks]
  unfold Registry.wakeIfAvailable
  split
  · exact ⟨_, hl.wakeNext, rfl⟩
  · exact ⟨_, hl, rfl⟩

theorem exhaust_thins (h : r.Thins p.registry) (b : Borrowing) (ticket : Option Nat) :
    (p.exhaust b ticket).Thins r := by
  have hleft := leaveLine_thins h ticket
  unfold Pool.exhaust
  dsimp only
  split
  · exact .of_registry hleft.wakeIfAvailable rfl
  · exact .of_registry hleft rfl

theorem refuse_thins (h : r.Thins p.registry) (b : Borrowing) (fresh : Bool) (e : PoolError) :
    (p.refuse id b fresh e).Thins r := by
  cases fresh with
  | true => exact destroy_thins h _
  | false => exact { destroy_thins h _ with }

/-- An object that was just listed as lent is readied for its borrower, or leaves the books. -/
theorem activateForLoan_thins {b : Borrowing} {fresh : Bool}
    (h : r.Thins { p.registry with active := r.active })
    (ha : ∀ x ∈ p.registry.active, x ∈ r.active ∨ x = id) (ht : id ∈ p.registry.tracked) :
    (p.activate id (.lend b fresh) (p.refuse id b fresh .reclaimed)).Thins r := by
  unfold Pool.activate
  split
  · refine { h with active := fun x hx => ?_, tickets := rfl }
    rcases ha x hx with hold | rfl
    · exact .inl hold
    · exact .inr ⟨_, List.mem_singleton.mpr rfl⟩
  · -- there is nothing in the slot, so that the object is destroyed
    have hgone : r.Thins (p.registry.detach id) := by
      refine { order := ?_, idle := ?_, active := fun x hx => ?_, line := ?_ }
      · rw [Registry.detach, if_pos ht]
        exact h.order
      · rw [Registry.detach, if_pos ht]
        show List.Sublist (if id ∈ p.registry.active then p.registry.idle
          else Registry.without id p.registry.idle) r.idle
        split
        · exact h.idle
        · exact List.filter_sublist.trans h.idle
      · obtain ⟨hmem, hne⟩ := Registry.mem_detach_active ht hx
        exact (ha x hmem).resolve_right hne
      · rw [Registry.detach, if_pos ht]
        exact h.line.wakeNext
    have hdestroy : ∀ k : After ρ, (p.destroy id k).Thins r :=
      fun k => finishDestroy_thins (p := p.detach id) hgone k
    cases fresh with
    | true => exact hdestroy _
    | false => exact { hdestroy (.seek b) with }

theorem firstFree_spec (p : Pool ρ) {ids rest : List Nat}
    (h : p.firstFree ids = some (id, rest)) :
    id ∈ ids ∧ id ∈ p.registry.tracked ∧ rest.Sublist ids := by
  induction ids with
  | nil => exact nomatch h
  | cons x ids ih =>
    rw [firstFree] at h
    split at h
    · rename_i hfree
      obtain ⟨rfl, rfl⟩ := Prod.mk.inj (Option.some.inj h)
      exact ⟨List.mem_cons_self .., hfree.1, List.sublist_cons_self ..⟩
    · obtain ⟨hid, ht, hrest⟩ := ih h
      exact ⟨List.mem_cons_of_mem _ hid, ht, hrest.cons x⟩

/-- What is left of the books once a borrower has taken something, or found nothing. -/
theorem acquire_cases (p : Pool ρ) (now : Instant) :
    (∃ id rest, id ∈ p.registry.idle ∧ id ∈ p.registry.tracked ∧ rest.Sublist p.registry.idle ∧
      p.acquire now = ((p.book (Registry.lend id rest)).markLent now id, some (.idle id))) ∨
    (∃ q, p.acquire now = (q, some .room) ∧ p.registry.Thins q.registry) ∨
    ∃ q, p.acquire now = (q, none) ∧ p.registry.Shrinks q.registry ∧
      q.registry.line = p.registry.line := by
  unfold Pool.acquire
  split
  · rename_i id rest hfirst
    obtain ⟨hid, ht, hrest⟩ := p.firstFree_spec hfirst
    exact .inl ⟨id, rest, hid, ht, hrest, rfl⟩
  · dsimp only
    have hempty : p.registry.Thins { p.registry with idle := [] } :=
      { Registry.Thins.refl p.registry with idle := List.nil_sublist _ }
    split
    · exact .inr (.inl ⟨_, rfl, { hempty with }⟩)
    · exact .inr (.inr ⟨_, rfl, hempty.toShrinks, rfl⟩)

/-- A borrower waits that found nothing. -/
theorem standInLine_turn {q : Pool ρ} {pt : Point ρ} {granted : Bool} {ticket : Option Nat}
    (hs : p.registry.Shrinks q.registry) (hl : q.registry.line = p.registry.line)
    (hpt : pt.tickets = ticket.toList) (b : Borrowing) :
    (q.standInLine b ticket).Turn p pt granted := by
  cases ticket with
  | none =>
    refine .enter (b := b) { hs with } hpt ?_ ?_
    · rw [← hl]
      rfl
    · rw [← hl]
      rfl
  | some t =>
    unfold Pool.standInLine
    dsimp only
    split
    · -- a borrower that was woken for nothing goes back to the front
      rename_i hw
      have hmem : t ∈ p.registry.line.woken := by
        rw [← hl]
        simpa [WaitLine.isWoken] using hw
      refine .wait (b := b) { hs with } hpt rfl (.inr ⟨hmem, ?_⟩)
      rw [← hl]
      rfl
    · exact .wait (b := b) hs hpt rfl (.inl hl)

theorem seek_turn {pt : Point ρ} {granted : Bool} (ticket : Option Nat)
    (hpt : pt.tickets = ticket.toList) (now : Instant) (b : Borrowing) :
    (p.seek now b ticket).Turn p pt granted := by
  -- whoever found nothing gives up if its time is over, and waits otherwise
  have hvain : ∀ q : Pool ρ, p.registry.Shrinks q.registry → q.registry.line = p.registry.line →
      Stretch.Turn p pt granted
        (if q.givesUp now b then q.exhaust b ticket else q.standInLine b ticket) := by
    intro q hs hl
    split
    · exact .thin (exhaust_thins { hs with line := hl ▸ .refl } b ticket)
    · exact standInLine_turn hs hl hpt b
  unfold Pool.seek
  split
  · exact .thin (.of_registry (leaveLine_thins (.refl _) ticket) rfl)
  · by_cases hm : p.mayTake ticket = true
    · rw [if_pos hm]
      rcases p.acquire_cases now with ⟨id, rest, hid, ht, hrest, hq⟩ | ⟨q, hq, hthin⟩ |
        ⟨q, hq, hs, hl⟩
      · -- an idle object is lent, and whoever is next in line is woken for what is left
        rw [hq]
        obtain ⟨l, hl, hbooks⟩ :=
          ((p.book (Registry.lend id rest)).markLent now id).leaveLine_books ticket
        refine .thin (activateForLoan_thins ?_ (fun x hx => ?_) ?_)
        · rw [hbooks]
          exact { order := rfl, idle := hrest, active := fun _ hx => hx, line := hl }
        · rw [hbooks] at hx
          exact (Registry.mem_adjoin.mp hx).symm
        · rw [hbooks]
          exact ht
      · rw [hq]
        exact .thin (.of_registry (leaveLine_thins hthin ticket).wakeIfAvailable rfl)
      · rw [hq]
        exact hvain q hs hl
    · rw [if_neg hm]
      exact hvain p (.refl _) rfl

theorem handOut_thins (h : r.Thins p.registry) (b : Borrowing) : (p.handOut id b).Thins r := by
  have hnote : r.Thins (p.noteBorrower id b.site).registry := by
    unfold noteBorrower
    split
    · split <;> exact h
    · exact h
  exact { Stretch.Thins.of_registry (s := (p.noteBorrower id b.site).finish (.lent id))
    hnote rfl with }

theorem activatedForLoan_thins (h : r.Thins p.registry) (b : Borrowing) (fresh : Bool) (v : ρ)
    (refusal : Option String) : (p.activatedForLoan id b fresh v refusal).Thins r := by
  unfold Pool.activatedForLoan
  split
  · exact refuse_thins (p := p.letGo id v) h b fresh _
  · split
    · exact .of_registry h rfl
    · exact handOut_thins (p := p.letGo id v) h b

theorem validatedForLoan_thins (h : r.Thins p.registry) (b : Borrowing) (fresh fit : Bool) :
    (p.validatedForLoan id b fresh fit).Thins r := by
  cases fit with
  | true => exact handOut_thins (p := p.release id) h b
  | false =>
    exact refuse_thins (p := (p.release id).count fun c =>
      { c with validationFailures := c.validationFailures + 1 }) h b fresh _

theorem createdForLoan_thins (p : Pool ρ) (now : Instant) (b : Borrowing) (v : ρ) :
    (p.createdForLoan now b v).Thins p.registry := by
  unfold Pool.createdForLoan
  dsimp only
  split
  · refine finishDestroy_thins (p := Pool.book Registry.cancelReservation _) ?_ _
    exact Registry.Thins.cancelReservation (.refl _)
  · refine activateForLoan_thins ?_ (fun x hx => ?_) ?_
    · exact { Registry.Thins.refl p.registry with }
    · exact (Registry.mem_adjoin.mp hx).symm
    · exact Registry.mem_adjoin.mpr (.inl rfl)

/-! ## Making idle objects -/

theorem add_thins (p : Pool ρ) : p.add.Thins p.registry := by
  unfold Pool.add
  split
  · exact .of_registry (.refl _) rfl
  · split
    · exact .of_registry (.refl _) rfl
    · exact .of_registry { Registry.Thins.refl p.registry with } rfl

theorem prepare_thins (p : Pool ρ) : p.prepare.Thins p.registry := by
  unfold Pool.prepare
  split <;> exact .of_registry (.refl _) rfl

theorem fill_thins (p : Pool ρ) (f : Filler) (made : Nat) : (p.fill f made).Thins p.registry := by
  unfold Pool.fill
  split
  · exact filled_thins (.refl _) f made
  · exact .of_registry { Registry.Thins.refl p.registry with } rfl

/-- A new object joins the idle ones if they are fewer than there may be, or is destroyed. -/
theorem settle_cases (p : Pool ρ) (id : Nat) (s : Stocker) (fault : Option PoolError) :
    (p.settle id s fault).Thins p.registry ∨
      (fault = none ∧ p.registry.idle.length < p.config.maxIdle ∧
        (p.settle id s fault).pool.registry = p.registry.registerIdle id ∧
        (p.settle id s fault).next.tickets = []) := by
  unfold Pool.settle
  dsimp only
  split
  · rename_i hnone
    split at hnone
    · exact nomatch hnone
    · split at hnone
      · exact nomatch hnone
      · rename_i hroom
        exact .inr ⟨hnone, Nat.lt_of_not_le hroom, by cases s <;> rfl, by cases s <;> rfl⟩
  · refine .inl (finishDestroy_thins (p := p.book Registry.cancelReservation) ?_ _)
    exact Registry.Thins.cancelReservation (.refl _)

theorem createdForStock_thins (p : Pool ρ) (now : Instant) (s : Stocker) (v : ρ) :
    (p.createdForStock now s v).Thins p.registry := by
  rw [Pool.createdForStock_eq]
  dsimp only
  split <;> exact .of_registry (.refl _) rfl

theorem validatedForStock_thins (p : Pool ρ) (id : Nat) (s : Stocker) (fit : Bool) :
    (p.validatedForStock id s fit).Thins p.registry := by
  cases fit with
  | true => exact .of_registry (.refl _) rfl
  | false =>
    -- an object that was found unfit does not join the idle ones
    rcases settle_cases ((p.release id).count fun c =>
      { c with validationFailures := c.validationFailures + 1 }) id s (some .validationFailed)
      with h | ⟨hnone, -⟩
    · exact h
    · exact nomatch hnone

theorem passivatedForStock_turn (p : Pool ρ) (id : Nat) (s : Stocker) (v : ρ)
    (refusal : Option String) : (p.passivatedForStock id s v refusal).Turn p
      (.passivating id (.stock s)) (Response.passivated v refusal).grants := by
  rcases settle_cases (p.letGo id v) id s (refusal.map (PoolError.factory .passivate))
    with h | ⟨hnone, hroom, hs, ht⟩
  · exact .thin h
  · obtain rfl := Option.map_eq_none_iff.mp hnone
    exact .join (r := { p.registry with
      creating := p.registry.creating - 1, tracked := Registry.adjoin id p.registry.tracked })
      rfl rfl rfl hroom { Registry.Thins.refl p.registry with } rfl hs ht

theorem notCreated_thins (h : r.Thins p.registry) (m : Maker) (reason : String) :
    (p.notCreated m reason).Thins r := by
  cases m with
  | lend b =>
    exact .of_registry (s := p.notCreated (.lend b) reason) h.cancelReservation rfl
  | stock s =>
    exact { notStocked_thins (p := p.book Registry.cancelReservation) h.cancelReservation s
      (.factory .create reason) with }

/-! ## Taking objects back -/

theorem refuseReturn_thins (h : r.Thins p.registry) (reply : Reply) :
    (p.refuseReturn reply).Thins r :=
  .of_registry h rfl

theorem passivate_thins (h : r.Thins p.registry) (answer : Option Reply) :
    (p.passivate id answer).Thins r := by
  unfold Pool.passivate
  split
  · exact .of_registry h rfl
  · exact destroy_thins h _

theorem unfitReturn_thins (h : r.Thins p.registry) (answer : Option Reply) :
    (p.unfitReturn id answer).Thins r :=
  { destroy_thins (p := p.count fun c => { c with validationFailures := c.validationFailures + 1 })
      h _ with }

theorem takeBack_thins (h : r.Thins p.registry) (now : Instant) (id : Nat) (answer : Option Reply) :
    (p.takeBack now id answer).Thins r := by
  have hmark : r.Thins (p.markReturned now id).registry := h
  unfold Pool.takeBack
  dsimp only
  split
  · exact { refuseReturn_thins h _ with }
  · split
    · exact { refuseReturn_thins h _ with }
    · split
      · exact destroy_thins hmark _
      · split
        · split
          · exact .of_registry h rfl
          · exact unfitReturn_thins hmark answer
        · exact passivate_thins hmark answer

theorem validatedReturn_thins (h : r.Thins p.registry) (id : Nat) (answer : Option Reply)
    (fit : Bool) : (p.validatedReturn id answer fit).Thins r := by
  cases fit with
  | true => exact passivate_thins (p := p.release id) h answer
  | false => exact unfitReturn_thins (p := p.release id) h answer

/-- A returned object joins the idle ones if they are fewer than there may be, or is destroyed. -/
theorem passivatedReturn_turn (p : Pool ρ) (id : Nat) (answer : Option Reply) (v : ρ)
    (refusal : Option String) : (p.passivatedReturn id answer v refusal).Turn p
      (.passivating id (.takeBack answer)) (Response.passivated v refusal).grants := by
  have hdestroy : ∀ k : After ρ, ((p.letGo id v).destroy id k).Thins p.registry :=
    fun k => destroy_thins (p := p.letGo id v) (.refl _) k
  unfold Pool.passivatedReturn
  dsimp only
  split
  · exact .thin { hdestroy _ with }
  · split
    · exact .thin (hdestroy _)
    · split
      · exact .thin { hdestroy _ with }
      · -- the object is no longer lent when it joins the idle ones
        rename_i hroom
        have hfree : p.registry.Thins
            { p.registry with active := Registry.without id p.registry.active } :=
          { Registry.Thins.refl p.registry with
            active := fun x hx => (Registry.mem_without.mp hx).1 }
        refine .join rfl rfl rfl (Nat.lt_of_not_le hroom) hfree rfl ?_ rfl
        unfold Pool.shelve
        dsimp only
        split <;> rfl

theorem discard_thins (h : r.Thins p.registry) (id : Nat) : (p.discard id).Thins r := by
  unfold Pool.discard
  split
  · exact refuseReturn_thins h _
  · split
    · exact destroy_thins (p := p.setState id .invalid) h _
    · exact refuseReturn_thins h _

/-! ## Upkeep -/

theorem sortIdle_thins (h : r.Thins p.registry) (now : Instant) (left : Nat) (ids : List Nat) :
    r.Thins (p.sortIdle now left ids).pool.registry := by
  -- an object is destroyed, tried out or left idle, and the sweep goes on with what that leaves
  induction ids generalizing p left with
  | nil => exact h
  | cons id rest ih =>
    rw [Pool.sortIdle]
    split
    · exact ih h left
    · split
      · exact ih h left
      · dsimp only
        split
        · exact ih (p := ((p.setState id .evictionTest).setState id .invalid).detach id)
            (h.detach id) _
        · split
          · exact ih (p := ((p.setState id .evictionTest).setState id .validation).book
              (Registry.removeIdle id)) (h.removeIdle id) left
          · exact ih (p := (p.setState id .evictionTest).setState id .idle) h left

theorem upkeep_thins (h : r.Thins p.registry) (now : Instant) : (p.upkeep now).Thins r := by
  unfold Pool.upkeep Pool.evict
  split
  · exact .of_registry h rfl
  · split
    · exact .of_registry h rfl
    · exact .of_registry (sortIdle_thins h now _ _) rfl

theorem failTest_thins (h : r.Thins p.registry) (tests : List Nat) (n : Nat) :
    (p.failTest id tests n).Thins r :=
  { destroy_thins (p := p.count fun c => { c with validationFailures := c.validationFailures + 1 })
      h _ with }

theorem activatedForTest_thins (h : r.Thins p.registry) (tests : List Nat) (n : Nat) (v : ρ)
    (refusal : Option String) : (p.activatedForTest id tests n v refusal).Thins r := by
  cases refusal with
  | some reason => exact failTest_thins (p := p.letGo id v) h tests n
  | none => exact .of_registry h rfl

theorem validatedForTest_thins (h : r.Thins p.registry) (tests : List Nat) (n : Nat) (fit : Bool) :
    (p.validatedForTest id tests n fit).Thins r := by
  cases fit with
  | true => exact .of_registry h rfl
  | false => exact failTest_thins (p := p.release id) h tests n

/-- An object that passed its trial goes back to the idle ones, however many they are by then. -/
theorem passivatedForTest_turn (p : Pool ρ) (id : Nat) (tests : List Nat) (n : Nat) (v : ρ)
    (refusal : Option String) : (p.passivatedForTest id tests n v refusal).Turn p
      (.passivating id (.test tests n)) (Response.passivated v refusal).grants := by
  cases refusal with
  | some reason => exact .thin (failTest_thins (p := p.letGo id v) (.refl _) tests n)
  | none =>
    unfold Pool.passivatedForTest Pool.passTest
    dsimp only
    split
    · exact .restore rfl rfl rfl rfl
    · -- the pool was closed during the trial
      exact .thin (destroy_thins (p := p.letGo id v) (.refl _) _)

theorem evicted_thins (h : r.Thins p.registry) (now : Instant) (n : Nat) :
    (p.evicted now n).Thins r := by
  unfold Pool.evicted
  refine Stretch.Thins.notingIf ?_ _ _
  split
  · split
    · exact sweep_thins h now _ _
    · exact .of_registry h rfl
  · exact .of_registry h rfl

theorem evictNext_thins (h : r.Thins p.registry) (now : Instant) (out tests : List Nat) (n : Nat) :
    (p.evictNext now out tests n).Thins r := by
  unfold Pool.evictNext
  split
  · rename_i id out
    exact finishDestroy_thins (p := p.count fun c => { c with evicted := c.evicted + 1 }) h _
  · unfold Pool.activate
    split
    · exact .of_registry h rfl
    · exact failTest_thins h _ n
  · exact evicted_thins h now n

/-! ## Closing -/

theorem close_thins (h : r.Thins p.registry) (self : Nat) (c : Closer) :
    (p.close self c).Thins r := by
  unfold Pool.close
  split
  · exact .of_registry h rfl
  · dsimp only
    split
    · split <;> exact .of_registry h.close.drainIdle rfl
    · exact .of_registry h.close.drainIdle rfl

theorem drainNext_thins (h : r.Thins p.registry) (rest : List Nat) (d : Drainer) :
    (p.drainNext rest d).Thins r := by
  cases rest with
  | cons id rest => exact finishDestroy_thins h _
  | nil =>
    cases d with
    | clear => exact .of_registry h rfl
    | close c => exact .of_registry (s := p.drainNext [] (.close c)) h rfl

/-! ## Every stretch -/

theorem advance_turn {pt : Point ρ} {s : Stretch ρ} {now : Instant} {self : Nat}
    {ended : Nat → Bool} (hs : p.advance now self ended pt = some s) : s.Turn p pt false := by
  cases goesOn_of_advance hs with
  | borrow b => exact .thin (borrow_thins (.refl _) now b)
  | seek b => exact seek_turn none rfl now b
  | waiting b t _ => exact seek_turn (some t) rfl now b
  | add => exact .thin p.add_thins
  | prepare => exact .thin p.prepare_thins
  | filling f made => exact .thin (p.fill_thins f made)
  | upkeep => exact .thin (upkeep_thins (.refl _) now)
  | evicting out tests n => exact .thin (evictNext_thins (.refl _) now out tests n)
  | swept n w => exact .thin (swept_thins (.refl _) now n w)
  | reclaiming x rest n w => exact .thin (reclaimNext_thins (.refl _) x rest n w)
  | takeBack id answer => exact .thin (takeBack_thins (.refl _) now id answer)
  | discard id => exact .thin (discard_thins (.refl _) id)
  | clear => exact .thin (.of_registry (Registry.Thins.drainIdle (.refl _)) rfl)
  | close c => exact .thin (close_thins (.refl _) self c)
  | draining rest d => exact .thin (drainNext_thins (.refl _) rest d)
  | joining k rest c _ => exact .thin (.of_registry (.refl _) rfl)

theorem respond_turn {pt : Point ρ} {s : Stretch ρ} {now : Instant} {c : Response ρ}
    (hs : p.respond now pt c = some s) : s.Turn p pt c.grants := by
  cases answered_of_respond hs with
  | notCreated m reason => exact .thin (notCreated_thins (.refl _) _ _)
  | createdForLoan b v => exact .thin (p.createdForLoan_thins now _ _)
  | createdForStock k v => exact .thin (p.createdForStock_thins now _ _)
  | activatedForLoan id b fresh v refusal => exact .thin (activatedForLoan_thins (.refl _) _ _ _ _)
  | activatedForTest id tests n v refusal => exact .thin (activatedForTest_thins (.refl _) _ _ _ _)
  | validatedForLoan id b fresh fit => exact .thin (validatedForLoan_thins (.refl _) _ _ _)
  | validatedForTest id tests n fit => exact .thin (validatedForTest_thins (.refl _) _ _ _)
  | validatedForStock id k fit => exact .thin (p.validatedForStock_thins _ _ _)
  | validatedReturn id answer fit => exact .thin (validatedReturn_thins (.refl _) _ _ _)
  | passivatedForTest id tests n v refusal => exact p.passivatedForTest_turn _ _ _ _ _
  | passivatedForStock id k v refusal => exact p.passivatedForStock_turn _ _ _ _
  | passivatedReturn id answer v refusal => exact p.passivatedReturn_turn _ _ _ _
  | destroyed id v mode k refusal => exact .thin (destroyed_thins (.refl _) _ _)
  | reported report x rest n w => exact .thin (disposeReclaimed_thins (.refl _) _ _ _ _)

end Pool

end ObjectPool
