/-
  ObjectPool.Proofs.Stretch.Lend

  The stretches of a borrow leave pool and ledger in agreement. The first of the
  idle objects is always fit to be lent (`Sound.acquire_eq`); what a borrower
  takes, it takes in its turn, and whoever it leaves behind in line is woken for
  what is left.
-/

import ObjectPool.Proofs.Stretch.Sweep

namespace ObjectPool.Pool

variable {ρ : Type} {p : Pool ρ} {ℓ : Ledger ρ} {id : Nat} {v : Position ρ}

/-! ## The line -/

/-- A borrower with or without a ticket takes something and leaves the line. -/
theorem Focus.leaveLine {ticket : Option Nat}
    (h : p.Focus { ℓ with tickets := ticket.toList ++ ℓ.tickets } id v) :
    ((p.leaveLine ticket).book Registry.wakeIfAvailable).Focus ℓ id v := by
  -- the books list the object as they did
  have hsame : v = { v with
      tracked := p.registry.tracked.count id, idle := p.registry.idle.count id,
      active := p.registry.active.count id } := by
    rw [← h.here]
    rfl
  rw [hsame]
  cases ticket with
  | none =>
    refine h.book h.books.toTidy.wakeIfAvailable ?_ ?_ (fun x _ => ?_) ?_ <;>
      rw [Registry.wakeIfAvailable_eq]
    · exact fun hc => hc
    · rfl
    · rfl
  | some t =>
    refine h.book (f := fun r => Registry.wakeIfAvailable { r with line := r.line.leave t })
      h.books.toTidy.leave.wakeIfAvailable ?_ ?_ (fun x _ => ?_) ?_ <;>
      rw [Registry.wakeIfAvailable_eq]
    · exact fun hc => hc
    · rfl
    · rfl

theorem Sound.leaveLine {ticket : Option Nat}
    (h : p.Sound { ℓ with tickets := ticket.toList ++ ℓ.tickets }) :
    ((p.leaveLine ticket).book Registry.wakeIfAvailable).Sound ℓ :=
  (h.focus 0).leaveLine.sound (h.objects 0)

/-- A change to the line alone. -/
theorem Sound.bookLine (h : p.Sound ℓ) {f : WaitLine → WaitLine} {ts : List Nat}
    (hf : Registry.Orderly { p.registry with line := f p.registry.line } ℓ.places ts) :
    (p.book fun r => { r with line := f r.line }).Sound { ℓ with tickets := ts } :=
  h.book hf rfl (fun hc => hc) fun _ => rfl

/-- A borrower leaves the line of a closed pool. -/
theorem Sound.leaveClosed {ticket : Option Nat} (hc : p.closed = true)
    (h : p.Sound { ℓ with tickets := ticket.toList ++ ℓ.tickets }) :
    (p.leaveLine ticket).Sound ℓ := by
  cases ticket with
  | none => exact h
  | some t => exact h.bookLine (h.books.leave_of_closed hc)

theorem Sound.countExhausted (h : p.Sound ℓ) (b : Borrowing) :
    ((p.count fun c => { c with exhausted := c.exhausted + 1 }).finish
      (.failed (.exhausted (b.timeout.getD .zero)))).Sound ℓ :=
  Sound.finish (h.count rfl rfl) rfl

theorem Sound.exhaust {ticket : Option Nat} (b : Borrowing)
    (h : p.Sound { ℓ with tickets := ticket.toList ++ ℓ.tickets }) :
    (p.exhaust b ticket).Sound ℓ := by
  unfold Pool.exhaust
  split
  · exact h.leaveLine.countExhausted b
  · -- a borrower still in line was not woken, and what there is stays for the others
    rename_i hout
    cases ticket with
    | none => exact Sound.countExhausted h b
    | some t =>
      have hq : t ∈ p.registry.line.queue := by simpa [outOfLine, WaitLine.isQueued] using hout
      exact (h.bookLine (h.books.leave_of_mem hq)).countExhausted b

theorem Sound.standInLine {ticket : Option Nat} (b : Borrowing)
    (h : p.Sound { ℓ with tickets := ticket.toList ++ ℓ.tickets })
    (hn : p.mayTake ticket = true → p.registry.available = false) :
    (p.standInLine b ticket).Sound ℓ := by
  cases ticket with
  -- a new ticket
  | none =>
    refine h.bookLine (h.books.enter fun hq => hn ?_)
    simp [mayTake, hq]
  | some t =>
    unfold Pool.standInLine
    dsimp only
    split
    · -- a ticket that was woken in vain goes back in line
      rename_i hw
      have ht : t ∈ p.registry.line.woken := by simpa [WaitLine.isWoken] using hw
      have hnone : p.registry.available = false := hn (by simp [mayTake, hw])
      exact h.bookLine (h.books.reenter ht hnone)
    · exact h

/-! ## Taking an idle object or a place -/

/-- No number in the idle queue is passed over: the first one is free to be lent. -/
theorem Sound.firstFree_eq (h : p.Sound ℓ) {rest : List Nat} (hi : p.registry.idle = id :: rest) :
    p.firstFree p.registry.idle = some (id, rest) := by
  obtain ⟨r, hv⟩ := h.idle_position (hi ▸ List.mem_cons_self ..)
  have hf : p.Focus ℓ id ⟨some ⟨.idle, some r, false⟩, 1, 1, 0, 0, [], []⟩ := hv ▸ h.focus id
  have htracked : id ∈ p.registry.tracked :=
    List.count_pos_iff.mp (hf.tracked.symm ▸ Nat.one_pos)
  have hidle : p.isIn id .idle = true := by
    rw [isIn_eq_shape?, hf.shape?]
    rfl
  rw [hi, firstFree, if_pos ⟨htracked, hidle⟩]

/-- What a borrower that may take something gets. -/
theorem Sound.acquire_eq (h : p.Sound ℓ) (now : Instant) :
    p.acquire now = match p.registry.idle with
      | id :: rest => ((p.book (Registry.lend id rest)).markLent now id, some (.idle id))
      | [] => if p.registry.hasRoom then (p.book Registry.reserve, some .room) else (p, none) := by
  rw [acquire]
  cases hi : p.registry.idle with
  | cons id rest =>
    have hfirst := h.firstFree_eq hi
    rw [hi] at hfirst
    rw [hfirst]
  | nil =>
    -- the scan of an empty queue leaves the pool as it is
    have hp : (p.book fun r => { r with idle := [] }) = p := by
      show { p with registry := { p.registry with idle := [] } } = p
      rw [← hi]
    rw [firstFree]
    dsimp only
    rw [hp]

/-- An idle object that is lent is not idle any longer. -/
theorem Sound.lendIdle (h : p.Sound ℓ) {rest : List Nat} (hi : p.registry.idle = id :: rest)
    (now : Instant) :
    ∃ r, ((p.book (Registry.lend id rest)).markLent now id).Focus ℓ id
      ⟨some ⟨.allocated, some r, false⟩, 1, 0, 1, 0, [], []⟩ := by
  obtain ⟨r, hv⟩ := h.idle_position (hi ▸ List.mem_cons_self ..)
  have hf : p.Focus ℓ id ⟨some ⟨.idle, some r, false⟩, 1, 1, 0, 0, [], []⟩ := hv ▸ h.focus id
  have hlent := hf.lend hi rfl rfl
  have hmark := hlent.modify (f := fun e => (e.markBorrowed now).become .allocated)
    (g := fun x => { x with state := .allocated }) fun e => shape_become _ (e.markBorrowed now)
  exact ⟨r, hmark⟩

/-! ## An object for a borrower -/

/-- The factory is asked to ready an object for a borrower. -/
theorem Focus.activateLoan {r : ρ} {g : Bool}
    (h : p.Focus ℓ id ⟨some ⟨.allocated, some r, g⟩, 1, 0, 1, 0, [], []⟩) (b : Borrowing)
    (fresh : Bool) (refused : Stretch ρ) :
    (p.activate id (.lend b fresh) refused).Sound ℓ := by
  have hslot : p.slot? id = some r := h.slot?
  rw [activate, hslot]
  exact h.hold.entrust (.lending r)

/-- An object that a borrower cannot have is destroyed. -/
theorem Focus.refuse {r : ρ}
    (h : p.Focus ℓ id ⟨some ⟨.allocated, some r, false⟩, 1, 0, 1, 0, [], []⟩) (b : Borrowing)
    (fresh : Bool) (e : PoolError) : (p.refuse id b fresh e).Sound ℓ := by
  cases fresh with
  | true => exact (h.promise rfl).destroy
  | false => exact Focus.destroy (k := .seek b) h

theorem Focus.noteBorrower (h : p.Focus ℓ id v) (site : String) :
    (p.noteBorrower id site).Focus ℓ id v := by
  unfold Pool.noteBorrower
  split
  · split
    · exact h.unseen fun _ => rfl
    · exact h
  · exact h

theorem Focus.finishLent {r : ρ}
    (h : p.Focus ℓ id ⟨some ⟨.allocated, some r, false⟩, 1, 0, 1, 0, [], []⟩) :
    (p.finish (.lent id)).Sound ℓ := by
  show p.Sound (ℓ.lend id ⟨false, p.slot? id⟩)
  rw [h.slot?]
  exact h.lendTo

/-- The borrower gets the object. -/
theorem Focus.handOut {r : ρ}
    (h : p.Focus ℓ id ⟨some ⟨.allocated, some r, false⟩, 1, 0, 1, 0, [], []⟩) (b : Borrowing) :
    (p.handOut id b).Sound ℓ :=
  Stretch.Sound.noting (Focus.finishLent ((h.noteBorrower b.site).count rfl rfl)) _

theorem Sound.activatedForLoan (h : p.Sound (ℓ.charge id .lending)) (b : Borrowing) (fresh : Bool)
    (r : ρ) (refusal : Option String) : (p.activatedForLoan id b fresh r refusal).Sound ℓ := by
  obtain ⟨v, hv, hf⟩ := h.take
  cases hv with
  | lending r₀ =>
    cases refusal with
    | some reason => exact (hf.letGo r).refuse b fresh _
    | none =>
      unfold Pool.activatedForLoan
      dsimp only
      split
      · -- the object is still to be checked, so that the call keeps it
        have hm := hf.modify (f := fun e => { e with slot := some r })
          (g := fun x => { x with slot := some r }) fun _ => rfl
        exact hm.entrust (.lending r)
      · exact (hf.letGo r).handOut b

theorem Sound.validatedForLoan (h : p.Sound (ℓ.charge id .lending)) (b : Borrowing)
    (fresh fit : Bool) : (p.validatedForLoan id b fresh fit).Sound ℓ := by
  obtain ⟨v, hv, hf⟩ := h.take
  cases hv with
  | lending r =>
    unfold Pool.validatedForLoan
    split
    · exact hf.release.handOut b
    · exact (hf.release.count rfl rfl).refuse b fresh _

theorem Sound.createdForLoan (h : p.Sound { ℓ with places := ℓ.places + 1 }) (now : Instant)
    (b : Borrowing) (r : ρ) : (p.createdForLoan now b r).Sound (ℓ.bear 1) := by
  have hnew := h.enlist now r .allocated
  unfold Pool.createdForLoan
  dsimp only
  split
  · -- the pool was closed while the factory made the object
    have hcancel := hnew.cancelReservation (n := ℓ.places) rfl
    exact Focus.finishDestroy (k := .reply (.failed .closed)) (hcancel.promise rfl) (.inl rfl)
  · have hreg := hnew.registerActive (n := ℓ.places) rfl rfl rfl
    exact (hreg.unseen (f := Entry.markBorrowed now) fun _ => rfl).activateLoan b true _

/-! ## A borrower looks for an object -/

/-- Nothing is to be had if there is neither an idle object nor a place. -/
theorem available_eq_false (hi : p.registry.idle = []) (hr : p.registry.hasRoom = false) :
    p.registry.available = false := by
  simpa [Registry.available, Registry.hasRoom, hi] using hr

theorem Sound.seekInVain {ticket : Option Nat} (now : Instant) (b : Borrowing)
    (h : p.Sound { ℓ with tickets := ticket.toList ++ ℓ.tickets })
    (hn : p.mayTake ticket = true → p.registry.available = false) :
    (if p.givesUp now b then p.exhaust b ticket else p.standInLine b ticket).Sound ℓ := by
  split
  · exact h.exhaust b
  · exact h.standInLine b hn

theorem Sound.seek (now : Instant) (b : Borrowing) (ticket : Option Nat)
    (h : p.Sound { ℓ with tickets := ticket.toList ++ ℓ.tickets }) :
    (p.seek now b ticket).Sound ℓ := by
  unfold Pool.seek
  split
  · rename_i hc
    exact h.leaveClosed hc
  · -- a borrower may take what is there, or others are before it
    by_cases hm : p.mayTake ticket = true
    · rw [if_pos hm, h.acquire_eq now]
      cases hi : p.registry.idle with
      | cons id rest =>
        obtain ⟨r, hf⟩ := h.lendIdle hi now
        exact hf.leaveLine.activateLoan b false _
      | nil =>
        dsimp only
        by_cases hr : p.registry.hasRoom = true
        · rw [if_pos hr]
          exact (h.reserve hr).leaveLine
        · rw [if_neg hr]
          exact h.seekInVain now b fun _ => available_eq_false hi (by simpa using hr)
    · rw [if_neg hm]
      exact h.seekInVain now b fun ht => absurd ht hm

theorem Sound.swept (h : p.Sound ℓ) (now : Instant) (n : Nat) (s : Sweeper) :
    (p.swept now n s).Sound ℓ := by
  refine Stretch.Sound.notingIf ?_ _ _
  cases s with
  | borrow b => exact h
  | upkeep out => exact h

theorem Sound.borrow (h : p.Sound ℓ) (now : Instant) (b : Borrowing) :
    (p.borrow now b).Sound ℓ := by
  unfold Pool.borrow
  split
  · split
    · exact h.sweep now _ _
    · exact h
  · exact h

end ObjectPool.Pool

/-! ## Where the resources go -/

namespace ObjectPool.Pool.Keeps

variable {ρ : Type} {ok : Nat → ρ → Prop} {p : Pool ρ} {id : Nat} {r : ρ}

theorem swept (h : p.Keeps ok) (now : Instant) (n : Nat) (s : Sweeper) :
    (p.swept now n s).Keeps ok := by
  unfold Pool.swept
  refine Stretch.Keeps.notingIf ?_ _ _
  cases s with
  | borrow b => exact h.go .nil
  | upkeep out => exact h.go .nil

theorem borrow (h : p.Keeps ok) (now : Instant) (b : Borrowing) : (p.borrow now b).Keeps ok := by
  unfold Pool.borrow
  split
  · split
    · exact h.sweep now _ _
    · exact h.go .nil
  · exact h.go .nil

theorem refuse (h : p.Keeps ok) (b : Borrowing) (fresh : Bool) (e : PoolError) :
    (p.refuse id b fresh e).Keeps ok := by
  unfold Pool.refuse
  split
  · exact h.destroy .nil
  · exact (h.destroy .nil).noting _

theorem activate (h : p.Keeps ok) (t : Trial) {refused : Stretch ρ} (hr : refused.Keeps ok) :
    (p.activate id t refused).Keeps ok := by
  unfold Pool.activate
  split
  · exact h.hold.go .nil
  · exact hr

theorem leaveLine (h : p.Keeps ok) (ticket : Option Nat) : (p.leaveLine ticket).Keeps ok := by
  cases ticket with
  | some t => exact h
  | none => exact h

theorem exhaust (h : p.Keeps ok) (b : Borrowing) (ticket : Option Nat) :
    (p.exhaust b ticket).Keeps ok := by
  unfold Pool.exhaust
  split
  · exact ⟨h.leaveLine ticket, .nil⟩
  · exact ⟨h.leaveLine ticket, .nil⟩

theorem standInLine (h : p.Keeps ok) (b : Borrowing) (ticket : Option Nat) :
    (p.standInLine b ticket).Keeps ok := by
  unfold Pool.standInLine
  split
  · split <;> exact ⟨h, .nil⟩
  · exact ⟨h, .nil⟩

theorem acquire (h : p.Keeps ok) (now : Instant) : (p.acquire now).1.Keeps ok := by
  unfold Pool.acquire
  split
  · rename_i id rest _
    exact (h.book (Registry.lend id rest)).markLent now
  · dsimp only
    split <;> exact h

theorem seek (h : p.Keeps ok) (now : Instant) (b : Borrowing) (ticket : Option Nat) :
    (p.seek now b ticket).Keeps ok := by
  have htaken : (if p.mayTake ticket then p.acquire now else (p, none)).1.Keeps ok := by
    split
    · exact h.acquire now
    · exact h
  unfold Pool.seek
  split
  · exact (h.leaveLine ticket).finish _
  · generalize (if p.mayTake ticket then p.acquire now else (p, none)) = taken at htaken ⊢
    obtain ⟨q, grant⟩ := taken
    have htaken : q.Keeps ok := htaken
    have hleft := (htaken.leaveLine ticket).book Registry.wakeIfAvailable
    cases grant with
    | some g =>
      cases g with
      | idle id => exact hleft.activate _ (hleft.refuse b false .reclaimed)
      | room => exact hleft.go .nil
    | none =>
      dsimp only
      split
      · exact htaken.exhaust b ticket
      · exact htaken.standInLine b ticket

theorem handOut (h : p.Keeps ok) (b : Borrowing) : (p.handOut id b).Keeps ok := by
  have hnote : (p.noteBorrower id b.site).Keeps ok := by
    unfold noteBorrower
    split
    · split
      · exact h.beside fun _ => rfl
      · exact h
    · exact h
  exact ⟨hnote, .nil⟩

theorem activatedForLoan (h : p.Keeps ok) (hr : ok id r) (b : Borrowing) (fresh : Bool)
    (refusal : Option String) : (p.activatedForLoan id b fresh r refusal).Keeps ok := by
  unfold Pool.activatedForLoan
  split
  · exact (h.letGo hr).refuse b fresh _
  · split
    · exact (h.update hr).go .nil
    · exact (h.letGo hr).handOut b

theorem validatedForLoan (h : p.Keeps ok) (b : Borrowing) (fresh fit : Bool) :
    (p.validatedForLoan id b fresh fit).Keeps ok := by
  unfold Pool.validatedForLoan
  split
  · exact h.release.handOut b
  · exact (h.release.count _).refuse b fresh .validationFailed

theorem createdForLoan (h : p.Keeps ok) (hr : ok p.entries.length r) (now : Instant)
    (b : Borrowing) : (p.createdForLoan now b r).Keeps ok := by
  have hnew := (h.count fun c => { c with created := c.created + 1 }).enlist now .allocated hr
  unfold Pool.createdForLoan
  dsimp only
  split
  · exact (hnew.book _).finishDestroy .nil
  · have hmark := (hnew.book (Registry.registerActive p.entries.length)).markBorrowed now
      p.entries.length
    exact hmark.activate _ (hmark.refuse b true .reclaimed)

end ObjectPool.Pool.Keeps
