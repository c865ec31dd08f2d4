/-
  ObjectPool.Proofs.Stretch.Reach

  What each stretch makes of the objects of its pool, and which object the call has for a
  borrower then. A call has an object for a borrower only if it had it before or picks it
  in the stretch, and it picks one only from an open pool and stamps it as it does.

    * `Point.lending`, `Next.lending` — the object that a call has for a borrower.
    * `Stretch.Reaches` — that, with the small changes that the stretch is made of.
    * `advance_reaches`, `respond_reaches` — every stretch.
-/

import ObjectPool.Proofs.Protocol.Requests
import ObjectPool.Proofs.Stretch.Changes

namespace ObjectPool

variable {ρ : Type}

/-! ## What a call has for a borrower -/

/-- The object with which a call ends, if any. -/
def Reply.loan : Reply → List Nat
  | .lent id => [id]
  | _ => []

/-- The object that a call has the factory ready for a borrower. -/
def Point.lending : Point ρ → List Nat
  | .activating id (.lend _ _) | .validating id (.trial (.lend _ _)) => [id]
  | _ => []

/-- The object that a call has for a borrower once a stretch is over. -/
def Next.lending : Next ρ → List Nat
  | .go pt => pt.lending
  | .finish r => r.loan

/-- A borrower's call picks an object of an open pool that was idle or is new, the borrow is
    stamped, and the factory is to ready the object. -/
structure Stretch.Picks (p : Pool ρ) (now : Instant) (s : Stretch ρ) (id : Nat) : Prop where
  opened : p.closed = false
  free : id ∈ p.registry.idle ∨ p.entries.length ≤ id
  stamped : ∃ e, s.pool.object? id = some e ∧ e.lastBorrow = now
  readied : ∃ pt, s.next = .go pt

/-- What a stretch of a call at the point `pt` makes of the pool `p`, and which object the call
    has for a borrower then: one that it had before, or one that it has just picked. -/
structure Stretch.Reaches (p : Pool ρ) (now : Instant) (pt : Point ρ) (s : Stretch ρ) : Prop where
  pool : p.Becomes now pt.Holds s.pool
  lending : ∀ id ∈ s.next.lending, id ∈ pt.lending ∨ .lent id ∈ pt.promises ∨ s.Picks p now id

theorem Reply.mem_loan {r : Reply} {id : Nat} : id ∈ r.loan ↔ r = .lent id := by
  cases r with
  | lent x =>
    constructor
    · intro h
      rw [List.mem_singleton.mp h]
    · intro h
      exact List.mem_singleton.mpr (Reply.lent.inj h).symm
  | done | made | failed => exact ⟨(fun h => nomatch h), fun h => nomatch h⟩

theorem mem_each {α : Type} {x : Nat} {c d : α} {ids : List Nat} (h : (x, c) ∈ each ids d) :
    c = d := by
  obtain ⟨_, -, hx⟩ := List.mem_map.mp h
  exact (Prod.mk.inj hx).2.symm

/-- What waits for the end of another object is not readied for a borrower. -/
theorem After.not_lending (k : After ρ) (id : Nat) : (id, .lending) ∉ k.charges := by
  intro h
  cases k with
  | seek | reply | notStocked => exact nomatch h
  | reclaim rest n s =>
    obtain ⟨_, -, hx⟩ := List.mem_map.mp h
    exact nomatch (Prod.mk.inj hx).2
  | evict out tests n =>
    rcases List.mem_append.mp h with h | h
    · exact nomatch mem_each h
    · exact nomatch mem_each h
  | drain rest d => exact nomatch mem_each h

/-- The object that a call has for a borrower is the one in its charge for lending. -/
theorem Point.mem_lending {pt : Point ρ} {id : Nat} :
    id ∈ pt.lending ↔ (id, .lending) ∈ pt.charges := by
  have htry : ∀ {x : Nat} {tests : List Nat},
      (id, Custody.lending (ρ := ρ)) ∉ (x, .trying) :: each tests .untried := by
    intro x tests h
    rcases List.mem_cons.mp h with h | h
    · exact nomatch (Prod.mk.inj h).2
    · exact nomatch mem_each h
  have hself : ∀ {x : Nat}, id ∈ [x] ↔ (id, Custody.lending (ρ := ρ)) ∈ [(x, .lending)] := by
    intro x
    rw [List.mem_singleton, List.mem_singleton, Prod.mk.injEq, and_iff_left rfl]
  have hother : ∀ {x : Nat} {c : Custody ρ}, c ≠ .lending → (id, Custody.lending) ∉ [(x, c)] :=
    fun hc h => hc (Prod.mk.inj (List.mem_singleton.mp h)).2.symm
  cases pt with
  | borrow | seek | waiting | add | prepare | filling | upkeep | takeBack | discard | clear | close
  | creating => exact ⟨(fun h => nomatch h), fun h => nomatch h⟩
  | evicting out tests n =>
    exact ⟨(fun h => nomatch h), fun h => absurd h (After.not_lending (.evict out tests n) id)⟩
  | reclaiming rest n s =>
    exact ⟨(fun h => nomatch h), fun h => absurd h (After.not_lending (.reclaim rest n s) id)⟩
  | reporting report x rest n s =>
    exact ⟨(fun h => nomatch h),
      fun h => absurd h (After.not_lending (.reclaim (x :: rest) n s) id)⟩
  | draining rest d =>
    exact ⟨(fun h => nomatch h), fun h => absurd h (After.not_lending (.drain rest d) id)⟩
  | joining k rest c =>
    exact ⟨(fun h => nomatch h), fun h => absurd h (After.not_lending (.drain rest .clear) id)⟩
  | destroying x r mode k =>
    exact ⟨(fun h => nomatch h), fun h => absurd h (k.not_lending id)⟩
  | activating x t =>
    cases t with
    | lend => exact hself
    | test => exact ⟨(fun h => nomatch h), fun h => absurd h htry⟩
  | validating x c =>
    rcases c with ⟨_ | _⟩ | _ | _
    · exact hself
    · exact ⟨(fun h => nomatch h), fun h => absurd h htry⟩
    · exact ⟨(fun h => nomatch h), fun h => absurd h (hother fun hc => nomatch hc)⟩
    · exact ⟨(fun h => nomatch h), fun h => absurd h (hother fun hc => nomatch hc)⟩
  | passivating x r =>
    cases r with
    | test => exact ⟨(fun h => nomatch h), fun h => absurd h htry⟩
    | stock | takeBack =>
      exact ⟨(fun h => nomatch h), fun h => absurd h (hother fun hc => nomatch hc)⟩

theorem Stretch.notingIf_pool (s : Stretch ρ) (b : Bool) (n : Notice) :
    (s.notingIf b n).pool = s.pool := by
  unfold notingIf
  split <;> rfl

/-- A stretch after which the call has nothing for a borrower. -/
theorem Stretch.Reaches.of_nil {p : Pool ρ} {now : Instant} {pt : Point ρ} {s : Stretch ρ}
    (h : p.Becomes now pt.Holds s.pool) (hn : s.next.lending = []) : s.Reaches p now pt :=
  ⟨h, fun _ hid => absurd (hn ▸ hid) List.not_mem_nil⟩

/-- A stretch after which the call has nothing for a borrower that was not promised. -/
theorem Stretch.Reaches.of_promises {p : Pool ρ} {now : Instant} {pt : Point ρ} {s : Stretch ρ}
    (h : p.Becomes now pt.Holds s.pool) (hl : ∀ id ∈ s.next.lending, .lent id ∈ pt.promises) :
    s.Reaches p now pt :=
  ⟨h, fun id hid => .inr (.inl (hl id hid))⟩

namespace Pool

variable {p₀ p : Pool ρ} {now : Instant} {own : Nat → Prop} {id : Nat} {k : After ρ}

/-! ## The end of an object -/

theorem filled_pool (p : Pool ρ) (f : Filler) (made : Nat) : (p.filled f made).pool = p := by
  cases f <;> rfl

theorem notStocked_pool (p : Pool ρ) (s : Stocker) (e : PoolError) :
    (p.notStocked s e).pool = p := by
  rcases s with _ | ⟨_ | ⟨out, back⟩, made⟩ <;> rfl

theorem resume_pool (p : Pool ρ) (k : After ρ) : (p.resume k).pool = p := by
  cases k with
  | notStocked s e => exact p.notStocked_pool s e
  | _ => rfl

theorem dispose_pool (p : Pool ρ) (id : Nat) (r : Option ρ) (mode : DestroyMode) (k : After ρ) :
    (p.dispose id r mode k).pool = p.retire id := by
  cases r with
  | some r => rfl
  | none => exact resume_pool _ k

theorem destroyed_pool (p : Pool ρ) (id : Nat) (k : After ρ) (refusal : Option String) :
    (p.destroyed id k refusal).pool = p := by
  cases refusal <;> exact p.resume_pool k

theorem filled_lending (p : Pool ρ) (f : Filler) (made : Nat) :
    (p.filled f made).next.lending = [] := by
  cases f <;> rfl

theorem notStocked_lending (p : Pool ρ) (s : Stocker) (e : PoolError) :
    (p.notStocked s e).next.lending = [] := by
  rcases s with _ | ⟨_ | ⟨out, back⟩, made⟩ <;> rfl

/-- What follows the end of an object gives a borrower nothing but what was promised. -/
theorem resume_lending (p : Pool ρ) (k : After ρ) (hid : id ∈ (p.resume k).next.lending) :
    .lent id ∈ k.promises := by
  cases k with
  | reply r => exact List.mem_singleton.mpr (Reply.mem_loan.mp hid).symm
  | notStocked s e =>
    rw [show (p.resume (.notStocked s e)).next.lending = [] from p.notStocked_lending s e] at hid
    exact nomatch hid
  | _ => exact nomatch hid

theorem dispose_lending (p : Pool ρ) {x : Nat} {r : Option ρ} {mode : DestroyMode}
    (hid : id ∈ (p.dispose x r mode k).next.lending) : .lent id ∈ k.promises := by
  cases r with
  | some r => exact nomatch hid
  | none => exact resume_lending _ k hid

namespace Becomes

theorem dispose (h : p₀.Becomes now own p) (hid : p₀.Yields own id) (r : Option ρ)
    (mode : DestroyMode) (k : After ρ) : p₀.Becomes now own (p.dispose id r mode k).pool := by
  rw [dispose_pool]
  exact h.retire hid

theorem finishDestroy (h : p₀.Becomes now own p) (hid : p₀.Yields own id) (k : After ρ) :
    p₀.Becomes now own (p.finishDestroy id k).pool :=
  (h.emptySlot hid).dispose hid _ _ k

theorem destroy (h : p₀.Becomes now own p) (hid : p₀.Yields own id) (k : After ρ) :
    p₀.Becomes now own (p.destroy id k).pool :=
  (h.detach id).finishDestroy hid k

end Becomes

/-! ## Lending -/

/-- An overdue object stays so while others are taken away from their borrowers. -/
theorem isAbandoned_of_takeAway {timeout : Duration} {x : Nat}
    (h : (p.takeAway x).isAbandoned now timeout id = true) :
    p.isAbandoned now timeout id = true := by
  have hobject := object?_takeAway p x id
  by_cases hx : x = id
  · -- the object itself is not lent any more
    rw [if_pos hx] at hobject
    obtain ⟨-, hstate⟩ := Bool.and_eq_true_iff.mp h
    unfold isIn at hstate
    rw [hobject] at hstate
    obtain ⟨y, hy, hin⟩ := (Option.any_eq_true _ _).mp hstate
    obtain ⟨e, -, rfl⟩ := Option.map_eq_some_iff.mp hy
    exact nomatch e.seized_state.symm.trans (of_decide_eq_true hin)
  · rw [if_neg hx] at hobject
    unfold isAbandoned unusedFor isHeld isIn at h ⊢
    rw [hobject] at h
    simp only [Bool.and_eq_true, decide_eq_true_eq] at h ⊢
    obtain ⟨⟨⟨ht, hlong⟩, hheld⟩, hstate⟩ := h
    exact ⟨⟨⟨(Registry.mem_detach_tracked.mp ht).1, hlong⟩, hheld⟩, hstate⟩

/-- The pass over the lent objects takes away none that is not overdue. -/
theorem Becomes.reclaimFrom (h : p₀.Becomes now own p) {timeout : Duration}
    (hdue : ∀ id, p.isAbandoned now timeout id = true → p₀.Overdue now id) (ids : List Nat) :
    p₀.Becomes now own (p.reclaimFrom now timeout ids).1 := by
  induction ids generalizing p with
  | nil => exact h
  | cons id rest ih =>
    rw [Pool.reclaimFrom]
    split
    · rename_i ha
      exact ih (.takeAway (hdue id ha) h) fun x hx => hdue x (isAbandoned_of_takeAway hx)
    · exact ih h hdue

theorem sweep_becomes {a : Abandonment} (ha : p.config.abandonment = some a) (s : Sweeper) :
    p.Becomes now own (p.sweep now a s).pool :=
  Becomes.reclaimFrom .refl (fun _ hid => ⟨a, ha, hid⟩) p.registry.active

theorem borrow_reaches (p : Pool ρ) (now : Instant) (b : Borrowing) {pt : Point ρ} :
    (p.borrow now b).Reaches p now pt := by
  unfold Pool.borrow
  split
  · rename_i a ha
    split
    · exact .of_nil (sweep_becomes ha _) rfl
    · exact .of_nil .refl rfl
  · exact .of_nil .refl rfl

theorem swept_reaches (p : Pool ρ) (now : Instant) (n : Nat) (s : Sweeper) {pt : Point ρ} :
    (p.swept now n s).Reaches p now pt := by
  unfold Pool.swept
  refine .of_nil ?_ ?_
  · rw [Stretch.notingIf_pool]
    cases s <;> exact .refl
  · rw [Stretch.notingIf_next]
    cases s <;> rfl

theorem Becomes.leaveLine (h : p₀.Becomes now own p) (ticket : Option Nat) :
    p₀.Becomes now own (p.leaveLine ticket) := by
  cases ticket with
  | some t =>
    exact .book (f := fun r => { r with line := r.line.leave t }) rfl
      (fun hc => (Registry.Fades.refl hc).leave t) h
  | none => exact h

theorem Becomes.refuse (h : p₀.Becomes now own p) (hid : p₀.Yields own id) (b : Borrowing)
    (fresh : Bool) (e : PoolError) : p₀.Becomes now own (p.refuse id b fresh e).pool := by
  cases fresh with
  | true => exact h.destroy hid _
  | false => exact h.destroy hid (.seek b)

theorem refuse_lending (p : Pool ρ) (x : Nat) (b : Borrowing) (fresh : Bool) (e : PoolError) :
    (p.refuse x b fresh e).next.lending = [] := by
  refine List.eq_nil_iff_forall_not_mem.mpr fun id hid => ?_
  cases fresh with
  | true =>
    have hmem : Reply.lent id ∈ [Reply.failed e] :=
      dispose_lending (k := .reply (.failed e)) _ hid
    cases List.mem_singleton.mp hmem
  | false => exact nomatch dispose_lending (k := .seek b) _ hid

theorem Becomes.activate (h : p₀.Becomes now own p) (hid : p₀.Yields own id) {t : Trial}
    {refused : Stretch ρ} (hr : p₀.Becomes now own refused.pool) :
    p₀.Becomes now own (p.activate id t refused).pool := by
  unfold Pool.activate
  split
  · exact h.hold hid
  · exact hr

/-- The first idle object that is free is one of the given ones, and there is such an object. -/
theorem object_of_firstFree {ids rest : List Nat} (h : p.firstFree ids = some (id, rest)) :
    id ∈ ids ∧ ∃ e, p.object? id = some e := by
  induction ids with
  | nil => exact nomatch h
  | cons x ids ih =>
    rw [firstFree] at h
    split at h
    · rename_i hfree
      obtain ⟨rfl, rfl⟩ := Prod.mk.inj (Option.some.inj h)
      obtain ⟨e, he, -⟩ := (Option.any_eq_true _ _).mp hfree.2
      exact ⟨List.mem_cons_self .., e, he⟩
    · obtain ⟨hid, he⟩ := ih h
      exact ⟨List.mem_cons_of_mem _ hid, he⟩

/-- A borrower that takes an idle object of an open pool stamps it. -/
theorem acquire_becomes (p : Pool ρ) (now : Instant) (own : Nat → Prop) (ho : p.closed = false) :
    p.Becomes now own (p.acquire now).1 ∧
    (p.acquire now).1.closed = false ∧ ∀ id, (p.acquire now).2 = some (.idle id) →
      id ∈ p.registry.idle ∧ ∃ e, (p.acquire now).1.object? id = some e ∧ e.lastBorrow = now := by
  have hempty : p.Becomes now own (p.book fun r => { r with idle := [] }) :=
    Becomes.bookOpen .refl ho rfl
  unfold Pool.acquire
  split
  · rename_i x rest hfirst
    obtain ⟨hx, e, he⟩ := object_of_firstFree hfirst
    have hstamp : ∀ e : Entry ρ, ((e.markBorrowed now).become .allocated).lastBorrow = now :=
      fun e => Entry.become_lastBorrow ..
    have hpasses : ∀ e : Entry ρ, e.Passes now ((e.markBorrowed now).become .allocated) := fun e =>
      ⟨fun hs => absurd ((Entry.become_state ..).symm.trans hs) (by decide), .inr (hstamp e),
        fun _ => .inl (hstamp e)⟩
    refine ⟨.modify (.inr (.inl hx)) hpasses (Becomes.bookOpen .refl ho rfl), ho, fun id hid => ?_⟩
    obtain rfl := Grant.idle.inj (Option.some.inj hid)
    refine ⟨hx, (e.markBorrowed now).become .allocated, ?_, ?_⟩
    · show ((p.book (Registry.lend x rest)).markLent now x).object? x = _
      rw [markLent, object?_modify, if_pos rfl, show (p.book _).object? x = _ from he]
      rfl
    · exact hstamp e
  · dsimp only
    split
    · exact ⟨hempty.bookOpen ho rfl, ho, fun id hid => nomatch Option.some.inj hid⟩
    · exact ⟨hempty, ho, fun id hid => nomatch hid⟩

/-- A borrower that found nothing gives up or waits. -/
theorem vain_reaches (h : p₀.Becomes now own p) (ho : p.closed = false) (b : Borrowing)
    (ticket : Option Nat) :
    p₀.Becomes now own (p.exhaust b ticket).pool ∧
      p₀.Becomes now own (p.standInLine b ticket).pool ∧
      (p.exhaust b ticket).next.lending = [] ∧ (p.standInLine b ticket).next.lending = [] := by
  have hleft := h.leaveLine ticket
  refine ⟨?_, ?_, rfl, ?_⟩
  · show p₀.Becomes now own (Pool.count (fun c => { c with exhausted := c.exhausted + 1 }) _)
    refine .count _ ?_
    split
    · exact .book (Registry.closed_wakeIfAvailable _)
        (fun hc => (Registry.Fades.refl hc).wakeIfAvailable) hleft
    · exact hleft
  · cases ticket with
    | none => exact h.bookOpen ho (f := fun r => { r with line := r.line.enter }) rfl
    | some t =>
      show p₀.Becomes now own (if p.registry.line.isWoken t then _ else p)
      split
      · exact h.bookOpen ho rfl
      · exact h
  · cases ticket <;> rfl

/-- An object that was just stamped is readied for its borrower, or destroyed. -/
theorem activateForLoan_reaches {pt : Point ρ} (h : p₀.Becomes now pt.Holds p)
    (hid : id ∈ p₀.registry.idle ∨ p₀.entries.length ≤ id) (ho : p₀.closed = false) {e : Entry ρ}
    (he : p.object? id = some e) (hnow : e.lastBorrow = now) (b : Borrowing) (fresh : Bool) :
    (p.activate id (.lend b fresh) (p.refuse id b fresh .reclaimed)).Reaches p₀ now pt := by
  have hyields : p₀.Yields pt.Holds id := hid.elim (fun h => .inr (.inl h)) .inl
  unfold Pool.activate
  split
  · refine ⟨h.hold hyields, fun x hx => .inr (.inr ?_)⟩
    obtain rfl := List.mem_singleton.mp hx
    refine ⟨ho, hid, ⟨{ e with held := true }, ?_, hnow⟩, _, rfl⟩
    show (p.hold x).object? x = _
    rw [hold, object?_modify, if_pos rfl, he]
    rfl
  · exact .of_nil (h.refuse hyields b fresh _) (refuse_lending ..)

/-- A borrower that looks for an object readies an idle one, has one made, or is left with
    nothing. -/
theorem seek_reaches (p : Pool ρ) (now : Instant) (b : Borrowing) (ticket : Option Nat)
    {pt : Point ρ} : (p.seek now b ticket).Reaches p now pt := by
  have hvain : ∀ q : Pool ρ, p.Becomes now pt.Holds q → q.closed = false → Stretch.Reaches p now pt
      (if q.givesUp now b then q.exhaust b ticket else q.standInLine b ticket) := by
    intro q hq ho
    obtain ⟨hgive, hstand, hn, hn'⟩ := vain_reaches hq ho b ticket
    split
    · exact .of_nil hgive hn
    · exact .of_nil hstand hn'
  unfold Pool.seek
  split
  · exact .of_nil (Becomes.leaveLine .refl ticket) rfl
  · rename_i hopen
    have hopen : p.closed = false := Bool.eq_false_iff.mpr hopen
    by_cases hm : p.mayTake ticket = true
    · rw [if_pos hm]
      obtain ⟨hq, ho, hgrant⟩ := p.acquire_becomes now pt.Holds hopen
      generalize p.acquire now = g at hq ho hgrant
      obtain ⟨q, g⟩ := g
      have hwake : p.Becomes now pt.Holds ((q.leaveLine ticket).book Registry.wakeIfAvailable) :=
        .book (Registry.closed_wakeIfAvailable _)
          (fun hc => (Registry.Fades.refl hc).wakeIfAvailable) (hq.leaveLine ticket)
      cases g with
      | none => exact hvain q hq ho
      | some g =>
        cases g with
        | room => exact .of_nil hwake rfl
        | idle id =>
          obtain ⟨hid, e, he, hnow⟩ := hgrant id rfl
          have hobject :
              ((q.leaveLine ticket).book Registry.wakeIfAvailable).object? id = some e := by
            cases ticket <;> exact he
          exact activateForLoan_reaches hwake (.inl hid) hopen hobject hnow b false
    · rw [if_neg hm]
      exact hvain p .refl hopen

/-- What a call has in its charge it may change. -/
theorem yields_of_charge {pt : Point ρ} {c : Custody ρ} (h : (id, c) ∈ pt.charges) :
    p.Yields pt.Holds id :=
  .inr (.inr (.inr ⟨c, h⟩))

theorem Becomes.handOut (h : p₀.Becomes now own p) (hid : p₀.Yields own id) (b : Borrowing) :
    p₀.Becomes now own (p.handOut id b).pool := by
  show p₀.Becomes now own (Pool.count (fun c => { c with borrowed := c.borrowed + 1 }) _)
  refine .count _ ?_
  unfold noteBorrower
  split
  · split
    · exact h.touch hid (fun _ => rfl) (fun _ => rfl) fun _ => rfl
    · exact h
  · exact h

theorem activatedForLoan_reaches (p : Pool ρ) (now : Instant) (id : Nat) (b : Borrowing)
    (fresh : Bool) (v : ρ) (refusal : Option String) :
    (p.activatedForLoan id b fresh v refusal).Reaches p now (.activating id (.lend b fresh)) := by
  have hid : p.Yields (Point.Holds (ρ := ρ) (.activating id (.lend b fresh))) id :=
    yields_of_charge (List.mem_singleton.mpr rfl)
  have hgo : p.Becomes now _ (p.letGo id v) := Becomes.letGo .refl hid v
  unfold Pool.activatedForLoan
  split
  · exact .of_nil (hgo.refuse hid b fresh _) (refuse_lending ..)
  · split
    · exact ⟨Becomes.fill .refl hid v, fun x hx => .inl hx⟩
    · exact ⟨hgo.handOut hid b, fun x hx => .inl hx⟩

theorem validatedForLoan_reaches (p : Pool ρ) (now : Instant) (id : Nat) (b : Borrowing)
    (fresh fit : Bool) :
    (p.validatedForLoan id b fresh fit).Reaches p now
      (.validating id (.trial (.lend b fresh))) := by
  have hid : p.Yields (Point.Holds (ρ := ρ) (.validating id (.trial (.lend b fresh)))) id :=
    yields_of_charge (List.mem_singleton.mpr rfl)
  have hgo : p.Becomes now _ (p.release id) := Becomes.release .refl hid
  cases fit with
  | true => exact ⟨hgo.handOut hid b, fun x hx => .inl hx⟩
  | false => exact .of_nil (Becomes.refuse (.count _ hgo) hid b fresh _) (refuse_lending ..)

theorem createdForLoan_reaches (p : Pool ρ) (now : Instant) (b : Borrowing) (v : ρ)
    {pt : Point ρ} : (p.createdForLoan now b v).Reaches p now pt := by
  have hyields : p.Yields pt.Holds p.entries.length := .inl (Nat.le_refl _)
  have hnew : p.Becomes now pt.Holds
      ((p.count fun c => { c with created := c.created + 1 }).enlist now v .allocated) :=
    .enlist v (by decide) (.count _ .refl)
  unfold Pool.createdForLoan
  dsimp only
  split
  · -- the pool was closed while the factory made the object
    refine ⟨hnew.cancelReservation.finishDestroy hyields _, fun x hx => ?_⟩
    have hmem : Reply.lent x ∈ [Reply.failed .closed] :=
      dispose_lending (k := .reply (.failed .closed)) _ hx
    cases List.mem_singleton.mp hmem
  · rename_i hopen
    have hopen : p.closed = false := Bool.eq_false_iff.mpr hopen
    have hmark : ∀ e : Entry ρ, e.Passes now (e.markBorrowed now) :=
      fun _ => ⟨fun h => h, .inr rfl, fun _ => .inl rfl⟩
    have hregister := hnew.bookOpen hopen (f := Registry.registerActive p.entries.length) rfl
    refine activateForLoan_reaches (.modify hyields hmark hregister) (.inr (Nat.le_refl _)) hopen
      (e := (Entry.fresh now v .allocated).markBorrowed now) ?_ rfl b true
    show (Pool.modify _ _ (Pool.book _ _)).object? _ = _
    rw [object?_modify, if_pos rfl]
    show Option.map _ ((p.entries ++ [Entry.fresh now v .allocated])[p.entries.length]?) = _
    rw [List.getElem?_concat_length]
    rfl

/-! ## Making idle objects -/

theorem add_reaches (p : Pool ρ) (now : Instant) {pt : Point ρ} : p.add.Reaches p now pt := by
  unfold Pool.add
  split
  · exact .of_nil .refl rfl
  · rename_i hopen
    split
    · exact .of_nil .refl rfl
    · exact .of_nil (Becomes.bookOpen .refl (Bool.eq_false_iff.mpr hopen) rfl) rfl

theorem prepare_reaches (p : Pool ρ) (now : Instant) {pt : Point ρ} :
    p.prepare.Reaches p now pt := by
  unfold Pool.prepare
  split <;> exact .of_nil .refl rfl

theorem fill_reaches (p : Pool ρ) (now : Instant) (f : Filler) (made : Nat) {pt : Point ρ} :
    (p.fill f made).Reaches p now pt := by
  unfold Pool.fill
  split
  · refine .of_nil ?_ (p.filled_lending f made)
    rw [filled_pool]
    exact .refl
  · rename_i hneeded
    have hopen : p.closed = false := Bool.eq_false_iff.mpr fun hc => hneeded (.inl hc)
    exact .of_nil (Becomes.bookOpen .refl hopen rfl) rfl

theorem notStocked_destroyed (p : Pool ρ) (id : Nat) (s : Stocker) (e : PoolError) :
    (p.finishDestroy id (.notStocked s e)).next.lending = [] :=
  List.eq_nil_iff_forall_not_mem.mpr fun _ hx => nomatch dispose_lending (k := .notStocked s e) _ hx

theorem settle_becomes (h : p₀.Becomes now own p) (hid : p₀.Yields own id) (s : Stocker)
    (fault : Option PoolError) : p₀.Becomes now own (p.settle id s fault).pool ∧
      (p.settle id s fault).next.lending = [] := by
  unfold Pool.settle
  dsimp only
  split
  · rename_i hnone
    split at hnone
    · exact nomatch hnone
    · rename_i hopen
      have hjoin := h.bookOpen (Bool.eq_false_iff.mpr hopen) (f := Registry.registerIdle id) rfl
      cases s <;> exact ⟨hjoin, rfl⟩
  · exact ⟨h.cancelReservation.finishDestroy hid _, notStocked_destroyed ..⟩

theorem createdForStock_reaches (p : Pool ρ) (now : Instant) (s : Stocker) (v : ρ)
    {pt : Point ρ} : (p.createdForStock now s v).Reaches p now pt := by
  have hid : p.Yields pt.Holds p.entries.length := .inl (Nat.le_refl _)
  have hnew : p.Becomes now pt.Holds
      ((p.count fun c => { c with created := c.created + 1 }).enlist now v .idle) :=
    .enlist v (by decide) (.count _ .refl)
  rw [Pool.createdForStock_eq]
  dsimp only
  split <;> exact .of_nil (hnew.hold hid) rfl

theorem validatedForStock_reaches (p : Pool ρ) (now : Instant) (id : Nat) (s : Stocker)
    (fit : Bool) : (p.validatedForStock id s fit).Reaches p now (.validating id (.stock s)) := by
  have hid : p.Yields (Point.Holds (ρ := ρ) (.validating id (.stock s))) id :=
    yields_of_charge (List.mem_singleton.mpr rfl)
  cases fit with
  | true => exact .of_nil .refl rfl
  | false =>
    have hgo : p.Becomes now _ (p.release id) := Becomes.release .refl hid
    obtain ⟨hpool, hn⟩ := settle_becomes
      (.count (fun c => { c with validationFailures := c.validationFailures + 1 }) hgo) hid s
      (some .validationFailed)
    exact .of_nil hpool hn

theorem passivatedForStock_reaches (p : Pool ρ) (now : Instant) (id : Nat) (s : Stocker) (v : ρ)
    (refusal : Option String) :
    (p.passivatedForStock id s v refusal).Reaches p now (.passivating id (.stock s)) := by
  have hid : p.Yields (Point.Holds (ρ := ρ) (.passivating id (.stock s))) id :=
    yields_of_charge (List.mem_singleton.mpr rfl)
  have hgo : p.Becomes now _ (p.letGo id v) := Becomes.letGo .refl hid v
  obtain ⟨hpool, hn⟩ := settle_becomes hgo hid s (refusal.map (PoolError.factory .passivate))
  exact .of_nil hpool hn

theorem notCreated_reaches (p : Pool ρ) (now : Instant) (m : Maker) (reason : String)
    {pt : Point ρ} : (p.notCreated m reason).Reaches p now pt := by
  have hcancel : p.Becomes now pt.Holds (p.book Registry.cancelReservation) :=
    Becomes.cancelReservation .refl
  cases m with
  | lend b => exact .of_nil hcancel rfl
  | stock s =>
    refine .of_nil ?_ (notStocked_lending _ s _)
    show p.Becomes now pt.Holds (Pool.notStocked _ s _).pool
    rw [notStocked_pool]
    exact hcancel

/-! ## Taking objects back -/

/-- A call that destroys an object and ends has nothing for a borrower that it was not asked to
    answer with. -/
theorem destroyed_answer (answer : Option Reply) (p : Pool ρ) {x : Nat} {r : Reply}
    (hr : r.isLoan = false) (hid : id ∈ (p.destroy x (.reply (answer.getD r))).next.lending) :
    .lent id ∈ answer.toList := by
  have hmem : Reply.lent id ∈ [answer.getD r] := dispose_lending (k := .reply (answer.getD r)) _ hid
  have heq : Reply.lent id = answer.getD r := List.mem_singleton.mp hmem
  cases answer with
  | none =>
    obtain rfl : Reply.lent id = r := heq
    exact nomatch hr
  | some a =>
    obtain rfl : Reply.lent id = a := heq
    exact List.mem_singleton.mpr rfl

/-- A return that is refused gives a borrower nothing either. -/
theorem refused_answer (answer : Option Reply) (p : Pool ρ) {r : Reply} (hr : r.isLoan = false)
    (hid : id ∈ (p.refuseReturn (answer.getD r)).next.lending) : .lent id ∈ answer.toList := by
  have heq : answer.getD r = .lent id := Reply.mem_loan.mp hid
  cases answer with
  | none =>
    obtain rfl : r = .lent id := heq
    exact nomatch hr
  | some a =>
    obtain rfl : a = .lent id := heq
    exact List.mem_singleton.mpr rfl

theorem Becomes.refuseReturn (h : p₀.Becomes now own p) (r : Reply) :
    p₀.Becomes now own (p.refuseReturn r).pool :=
  Becomes.count (fun c => { c with invalidReturns := c.invalidReturns + 1 }) h

/-- A returned object goes on to be laid to rest, or is destroyed. -/
theorem passivate_reaches (answer : Option Reply) (h : p₀.Becomes now own p)
    (hid : p₀.Yields own id) :
    p₀.Becomes now own (p.passivate id answer).pool ∧
      ∀ x ∈ (p.passivate id answer).next.lending, .lent x ∈ answer.toList := by
  unfold Pool.passivate
  split
  · exact ⟨h.hold hid, fun x hx => nomatch hx⟩
  · exact ⟨h.destroy hid _, fun x hx => destroyed_answer answer p rfl hx⟩

theorem unfitReturn_reaches (answer : Option Reply) (h : p₀.Becomes now own p)
    (hid : p₀.Yields own id) :
    p₀.Becomes now own (p.unfitReturn id answer).pool ∧
      ∀ x ∈ (p.unfitReturn id answer).next.lending, .lent x ∈ answer.toList :=
  ⟨Becomes.destroy (.count _ h) hid _, fun _ hx => destroyed_answer answer _ rfl hx⟩

theorem Becomes.markReturned (h : p₀.Becomes now own p) (hid : p₀.Yields own id) :
    p₀.Becomes now own (p.markReturned now id) := by
  have hreturned : ∀ e : Entry ρ, e.Passes now
      { e.become .returning with lastReturn := now, lastUse := none } :=
    fun e => .of_state (e.become_state .returning) (by decide) (by decide) (e.become_lastBorrow _)
  exact .count _ (.modify hid hreturned h)

theorem takeBack_reaches (p : Pool ρ) (now : Instant) (id : Nat) (answer : Option Reply) :
    (p.takeBack now id answer).Reaches p now (.takeBack id answer) := by
  have hid : p.Yields (Point.Holds (ρ := ρ) (.takeBack id answer)) id :=
    .inr (.inr (.inl (List.mem_singleton.mpr rfl)))
  have hmark : p.Becomes now _ (p.markReturned now id) := Becomes.markReturned .refl hid
  have hrefused : ∀ n : Notice, (((p.refuseReturn (answer.getD (.failed .invalidReturn))).noting
      n).Reaches p now (.takeBack id answer)) :=
    fun n => .of_promises (Becomes.refuseReturn .refl (answer.getD (.failed .invalidReturn)))
      fun x hx => refused_answer answer p (r := .failed .invalidReturn) rfl hx
  unfold Pool.takeBack
  dsimp only
  split
  · exact hrefused _
  · split
    · exact hrefused _
    · split
      · exact .of_promises (hmark.destroy hid _) fun x hx => destroyed_answer answer _ rfl hx
      · split
        · split
          · exact .of_nil (hmark.hold hid) rfl
          · obtain ⟨hpool, hlend⟩ := unfitReturn_reaches answer hmark hid
            exact .of_promises hpool hlend
        · obtain ⟨hpool, hlend⟩ := passivate_reaches answer hmark hid
          exact .of_promises hpool hlend

theorem validatedReturn_reaches (p : Pool ρ) (now : Instant) (id : Nat) (answer : Option Reply)
    (fit : Bool) :
    (p.validatedReturn id answer fit).Reaches p now (.validating id (.takeBack answer)) := by
  have hid : p.Yields (Point.Holds (ρ := ρ) (.validating id (.takeBack answer))) id :=
    yields_of_charge (List.mem_singleton.mpr rfl)
  have hgo : p.Becomes now _ (p.release id) := Becomes.release .refl hid
  cases fit with
  | true =>
    obtain ⟨hpool, hlend⟩ := passivate_reaches answer hgo hid
    exact .of_promises hpool hlend
  | false =>
    obtain ⟨hpool, hlend⟩ := unfitReturn_reaches answer hgo hid
    exact .of_promises hpool hlend

theorem passivatedReturn_reaches (p : Pool ρ) (now : Instant) (id : Nat) (answer : Option Reply)
    (v : ρ) (refusal : Option String) :
    (p.passivatedReturn id answer v refusal).Reaches p now
      (.passivating id (.takeBack answer)) := by
  have hid : p.Yields (Point.Holds (ρ := ρ) (.passivating id (.takeBack answer))) id :=
    yields_of_charge (List.mem_singleton.mpr rfl)
  have hgo : p.Becomes now _ (p.letGo id v) := Becomes.letGo .refl hid v
  unfold Pool.passivatedReturn
  dsimp only
  split
  · exact .of_promises (hgo.destroy hid _) fun x hx => destroyed_answer answer _ rfl hx
  · split
    · exact .of_promises (hgo.destroy hid _) fun x hx => destroyed_answer answer _ rfl hx
    · rename_i hopen
      split
      · exact .of_promises (hgo.destroy hid _) fun x hx => destroyed_answer answer _ rfl hx
      · -- the object joins the idle ones
        have hopen : p.closed = false := Bool.eq_false_iff.mpr hopen
        refine .of_promises ?_ fun x hx => refused_answer answer p (r := .done) rfl hx
        show p.Becomes now _ (Pool.book (Registry.checkin id) _)
        split
        · exact (hgo.setState hid (by decide) (by decide)).bookOpen hopen rfl
        · exact hgo.bookOpen hopen rfl

theorem discard_reaches (p : Pool ρ) (now : Instant) (id : Nat) :
    (p.discard id).Reaches p now (.discard id) := by
  have hid : p.Yields (Point.Holds (ρ := ρ) (.discard id)) id :=
    .inr (.inr (.inl (List.mem_singleton.mpr rfl)))
  have hnone : ∀ (q : Pool ρ) (r : Reply), r.isLoan = false →
      (q.destroy id (.reply r)).next.lending = [] :=
    fun q r hr => List.eq_nil_iff_forall_not_mem.mpr fun x hx =>
      nomatch destroyed_answer none q hr hx
  unfold Pool.discard
  split
  · exact .of_nil (Becomes.refuseReturn .refl _) rfl
  · split
    · have hset : p.Becomes now _ (p.setState id .invalid) :=
        .setState .refl hid (by decide) (by decide)
      refine .of_nil (Becomes.destroy hset hid _) (hnone _ _ ?_)
      split <;> rfl
    · exact .of_nil (Becomes.refuseReturn .refl _) rfl

/-! ## Upkeep -/

theorem Becomes.sortIdle (h : p₀.Becomes now own p) (left : Nat) {ids : List Nat}
    (hids : ∀ id ∈ ids, p₀.Yields own id) :
    p₀.Becomes now own (p.sortIdle now left ids).pool := by
  -- an object is evicted, tried out or left idle, and the sweep goes on with what that leaves
  induction ids generalizing p left with
  | nil => exact h
  | cons id rest ih =>
    have hid := hids id (List.mem_cons_self ..)
    have hrest : ∀ x ∈ rest, p₀.Yields own x := fun x hx => hids x (List.mem_cons_of_mem _ hx)
    have hlook := h.setState hid (s := .evictionTest) (by decide) (by decide)
    rw [Pool.sortIdle]
    split
    · exact ih h left hrest
    · split
      · exact ih h left hrest
      · dsimp only
        split
        · exact ih ((hlook.setState hid (by decide) (by decide)).detach id) _ hrest
        · split
          · refine ih (.book rfl (fun hc => ?_) (hlook.setState hid (by decide) (by decide)))
              left hrest
            exact { Registry.Fades.refl hc with }
          · exact ih (hlook.setState hid (by decide) (by decide)) left hrest

theorem upkeep_reaches (p : Pool ρ) (now : Instant) {pt : Point ρ} :
    (p.upkeep now).Reaches p now pt := by
  unfold Pool.upkeep Pool.evict
  split
  · exact .of_nil .refl rfl
  · split
    · exact .of_nil .refl rfl
    · exact .of_nil (Becomes.sortIdle .refl _ fun id hid =>
        .inr (.inl (Registry.mem_idleOldestFirst.mp hid))) rfl

theorem failTest_reaches (h : p₀.Becomes now own p) (hid : p₀.Yields own id) (tests : List Nat)
    (n : Nat) : p₀.Becomes now own (p.failTest id tests n).pool ∧
      (p.failTest id tests n).next.lending = [] :=
  ⟨Becomes.destroy (.count _ h) hid _, List.eq_nil_iff_forall_not_mem.mpr fun _ hx =>
    nomatch dispose_lending (k := .evict [] tests n) _ hx⟩

theorem activatedForTest_reaches (p : Pool ρ) (now : Instant) (id : Nat) (tests : List Nat)
    (n : Nat) (v : ρ) (refusal : Option String) :
    (p.activatedForTest id tests n v refusal).Reaches p now (.activating id (.test tests n)) := by
  have hid : p.Yields (Point.Holds (ρ := ρ) (.activating id (.test tests n))) id :=
    yields_of_charge (List.mem_cons_self ..)
  cases refusal with
  | some reason =>
    have hgo : p.Becomes now _ (p.letGo id v) := Becomes.letGo .refl hid v
    obtain ⟨hpool, hn⟩ := failTest_reaches hgo hid tests n
    exact .of_nil hpool hn
  | none => exact .of_nil (Becomes.fill .refl hid v) rfl

theorem validatedForTest_reaches (p : Pool ρ) (now : Instant) (id : Nat) (tests : List Nat)
    (n : Nat) (fit : Bool) : (p.validatedForTest id tests n fit).Reaches p now
      (.validating id (.trial (.test tests n))) := by
  have hid : p.Yields (Point.Holds (ρ := ρ) (.validating id (.trial (.test tests n)))) id :=
    yields_of_charge (List.mem_cons_self ..)
  cases fit with
  | true => exact .of_nil .refl rfl
  | false =>
    have hgo : p.Becomes now _ (p.release id) := Becomes.release .refl hid
    obtain ⟨hpool, hn⟩ := failTest_reaches hgo hid tests n
    exact .of_nil hpool hn

theorem passivatedForTest_reaches (p : Pool ρ) (now : Instant) (id : Nat) (tests : List Nat)
    (n : Nat) (v : ρ) (refusal : Option String) : (p.passivatedForTest id tests n v refusal).Reaches
      p now (.passivating id (.test tests n)) := by
  have hid : p.Yields (Point.Holds (ρ := ρ) (.passivating id (.test tests n))) id :=
    yields_of_charge (List.mem_cons_self ..)
  have hgo : p.Becomes now _ (p.letGo id v) := Becomes.letGo .refl hid v
  cases refusal with
  | some reason =>
    obtain ⟨hpool, hn⟩ := failTest_reaches hgo hid tests n
    exact .of_nil hpool hn
  | none =>
    unfold Pool.passivatedForTest Pool.passTest
    dsimp only
    split
    · rename_i hpass
      exact .of_nil ((hgo.setState hid (by decide) (by decide)).bookOpen hpass.1 rfl) rfl
    · -- the pool was closed during the trial
      refine .of_nil (hgo.destroy hid _) (List.eq_nil_iff_forall_not_mem.mpr fun x hx => ?_)
      exact nomatch dispose_lending (k := .evict [] tests n) _ hx

theorem evictNext_reaches (p : Pool ρ) (now : Instant) (out tests : List Nat) (n : Nat) :
    (p.evictNext now out tests n).Reaches p now (.evicting out tests n) := by
  unfold Pool.evictNext
  split
  · rename_i id out
    have hid : p.Yields (Point.Holds (ρ := ρ) (.evicting (id :: out) tests n)) id :=
      yields_of_charge (List.mem_append_left _ (List.mem_cons_self ..))
    refine .of_nil (Becomes.finishDestroy (.count _ .refl) hid _)
      (List.eq_nil_iff_forall_not_mem.mpr fun x hx => ?_)
    exact nomatch dispose_lending (k := .evict out tests n) _ hx
  · rename_i id tests
    have hid : p.Yields (Point.Holds (ρ := ρ) (.evicting [] (id :: tests) n)) id :=
      yields_of_charge (List.mem_cons_self ..)
    have hstay : p.Becomes now (Point.evicting (ρ := ρ) [] (id :: tests) n).Holds p := .refl
    obtain ⟨hpool, hn⟩ := failTest_reaches hstay hid tests n
    refine .of_nil (Becomes.activate .refl hid hpool) ?_
    unfold Pool.activate
    split
    · rfl
    · exact hn
  · unfold Pool.evicted
    dsimp only
    split
    · rename_i a ha
      split
      · refine .of_nil ?_ ?_
        · rw [Stretch.notingIf_pool]
          exact sweep_becomes ha _
        · rw [Stretch.notingIf_next]
          rfl
      · exact .of_nil (by rw [Stretch.notingIf_pool]; exact .refl)
          (by rw [Stretch.notingIf_next]; rfl)
    · exact .of_nil (by rw [Stretch.notingIf_pool]; exact .refl)
        (by rw [Stretch.notingIf_next]; rfl)

theorem reclaimNext_reaches (p : Pool ρ) (now : Instant) (x : Reclaimed ρ)
    (rest : List (Reclaimed ρ)) (n : Nat) (s : Sweeper) {pt : Point ρ}
    (hx : (x.object, .seized x.resource) ∈ pt.charges) :
    (p.disposeReclaimed x rest n s).Reaches p now pt ∧
      (p.reclaimNext x rest n s).Reaches p now pt := by
  have hid : p.Yields pt.Holds x.object := yields_of_charge hx
  have hpool : p.Becomes now pt.Holds (p.disposeReclaimed x rest n s).pool :=
    Becomes.dispose (.count _ .refl) hid _ _ _
  have hlend : (p.disposeReclaimed x rest n s).next.lending = [] :=
    List.eq_nil_iff_forall_not_mem.mpr fun _ hy =>
      nomatch dispose_lending (k := .reclaim rest n s) _ hy
  refine ⟨.of_nil hpool hlend, ?_⟩
  unfold Pool.reclaimNext
  split
  · split
    · split
      · exact .of_nil hpool hlend
      · exact .of_nil .refl rfl
    · exact .of_nil hpool hlend
  · exact .of_nil hpool hlend

/-! ## Closing -/

theorem close_reaches (p : Pool ρ) (now : Instant) (self : Nat) (c : Closer) :
    (p.close self c).Reaches p now (.close c) := by
  unfold Pool.close
  split
  · refine .of_promises .refl fun x hx => ?_
    cases c with
    | call => exact nomatch hx
    | release r => exact List.mem_singleton.mpr (Reply.mem_loan.mp hx).symm
  · rename_i hopen
    have hshut : p.Becomes now (Point.Holds (ρ := ρ) (.close c))
        { (p.book fun r => r.close.drainIdle) with keeper := none } :=
      .stop (.shut .refl)
    dsimp only
    split
    · split <;> exact .of_nil hshut rfl
    · exact .of_nil hshut rfl

theorem drainNext_reaches (p : Pool ρ) (now : Instant) (rest : List Nat) (d : Drainer) :
    (p.drainNext rest d).Reaches p now (.draining rest d) := by
  cases rest with
  | cons id rest =>
    have hid : p.Yields (Point.Holds (ρ := ρ) (.draining (id :: rest) d)) id :=
      yields_of_charge (List.mem_cons_self ..)
    exact .of_promises (Becomes.finishDestroy .refl hid _) fun x hx =>
      dispose_lending (k := .drain rest d) _ hx
  | nil =>
    cases d with
    | clear => exact .of_nil .refl rfl
    | close c =>
      refine .of_promises .refl fun x hx => ?_
      cases c with
      | call => exact nomatch hx
      | release r => exact List.mem_singleton.mpr (Reply.mem_loan.mp hx).symm

/-! ## Every stretch -/

theorem advance_reaches {pt : Point ρ} {s : Stretch ρ} {self : Nat} {ended : Nat → Bool}
    (hs : p.advance now self ended pt = some s) : s.Reaches p now pt := by
  cases goesOn_of_advance hs with
  | borrow b => exact p.borrow_reaches now b
  | seek b => exact p.seek_reaches now b none
  | waiting b t _ => exact p.seek_reaches now b (some t)
  | add => exact p.add_reaches now
  | prepare => exact p.prepare_reaches now
  | filling f made => exact p.fill_reaches now f made
  | upkeep => exact p.upkeep_reaches now
  | evicting out tests n => exact p.evictNext_reaches now out tests n
  | swept n w => exact p.swept_reaches now n w
  | reclaiming x rest n w => exact (p.reclaimNext_reaches now x rest n w (List.mem_cons_self ..)).2
  | takeBack id answer => exact p.takeBack_reaches now id answer
  | discard id => exact p.discard_reaches now id
  | clear =>
    have hfades : p.closed = true → p.registry.Fades p.registry.drainIdle :=
      fun hc => (Registry.Fades.refl hc).drainIdle
    exact .of_nil (.book (Registry.closed_drainIdle _) hfades .refl) rfl
  | close c => exact p.close_reaches now self c
  | draining rest d => exact p.drainNext_reaches now rest d
  | joining k rest c _ => exact .of_nil .refl rfl

theorem respond_reaches {pt : Point ρ} {s : Stretch ρ} {c : Response ρ}
    (hs : p.respond now pt c = some s) : s.Reaches p now pt := by
  cases answered_of_respond hs with
  | notCreated m reason => exact p.notCreated_reaches now _ _
  | createdForLoan b v => exact p.createdForLoan_reaches now _ _
  | createdForStock k v => exact p.createdForStock_reaches now _ _
  | activatedForLoan id b fresh v refusal => exact p.activatedForLoan_reaches now _ _ _ _ _
  | activatedForTest id tests n v refusal => exact p.activatedForTest_reaches now _ _ _ _ _
  | validatedForLoan id b fresh fit => exact p.validatedForLoan_reaches now _ _ _ _
  | validatedForTest id tests n fit => exact p.validatedForTest_reaches now _ _ _ _
  | validatedForStock id k fit => exact p.validatedForStock_reaches now _ _ _
  | validatedReturn id answer fit => exact p.validatedReturn_reaches now _ _ _
  | passivatedForTest id tests n v refusal => exact p.passivatedForTest_reaches now _ _ _ _ _
  | passivatedForStock id k v refusal => exact p.passivatedForStock_reaches now _ _ _ _
  | passivatedReturn id answer v refusal => exact p.passivatedReturn_reaches now _ _ _ _
  | destroyed id v mode k refusal =>
    refine .of_promises ?_ fun x hx => ?_
    · rw [destroyed_pool]
      exact .refl
    · cases refusal <;> exact resume_lending _ k hx
  | reported report x rest n w =>
    exact (p.reclaimNext_reaches now x rest n w (List.mem_cons_self ..)).1

end Pool

end ObjectPool
