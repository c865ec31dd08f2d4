/-
  ObjectPool.Proofs.Stretch.Close

  The stretches that clear or close a pool leave pool and ledger in agreement. All
  idle objects leave the books at once and go into the charge of the call, which
  then destroys one after the other; a pool that was closed stays closed.
-/

import ObjectPool.Proofs.Stretch.Disposal
import ObjectPool.Pool.Close

namespace ObjectPool.Pool

variable {ρ : Type} {p q : Pool ρ} {ℓ : Ledger ρ}

/-! ## All idle objects leave the books -/

theorem count_filter_not_mem_drained (r : Registry) (x : Nat) :
    (r.tracked.filter (· ∉ r.drained)).count x =
      if x ∈ r.drained then 0 else r.tracked.count x := by
  split
  · rename_i hx
    rw [List.count_eq_zero]
    simp [hx]
  · rename_i hx
    rw [List.count_filter (by simpa using hx)]

/-- Every idle object is tracked, so that none is left out. -/
theorem Sound.drained_eq (h : p.Sound ℓ) : p.registry.drained = p.registry.idle := by
  rw [Registry.drained, List.filter_eq_self]
  intro id hid
  obtain ⟨r, hv⟩ := h.idle_position hid
  have ht : p.registry.tracked.count id = 1 := congrArg Position.tracked hv
  simpa using List.count_pos_iff.mp (ht.symm ▸ Nat.one_pos)

/-- The idle objects leave the books, and are in the charge of the call. -/
theorem Sound.drain (h : p.Sound ℓ) (ho : q.Orderly ℓ) (hs : ∀ x, q.shape? x = p.shape? x)
    (ht : q.registry.tracked = p.registry.tracked.filter (· ∉ p.registry.drained))
    (hi : q.registry.idle = []) (ha : q.registry.active = p.registry.active) :
    q.Sound { ℓ with charges := each p.registry.drained .drained ++ ℓ.charges } := by
  refine { ho with objects := fun x => ?_ }
  -- what the books and the ledger say of an object after the drain
  have hpos : q.position
      { ℓ with charges := each p.registry.drained .drained ++ ℓ.charges } x =
      { p.position ℓ x with
        tracked := if x ∈ p.registry.idle then 0 else p.registry.tracked.count x
        idle := 0
        charges := List.replicate (p.registry.idle.count x) .drained ++ claims x ℓ.charges } := by
    rw [position, hs, ht, hi, ha, count_filter_not_mem_drained, h.drained_eq, claims_append,
      claims_each]
    rfl
  rw [hpos]
  by_cases hx : x ∈ p.registry.idle
  · -- an idle object leaves the books and enters the charge of the call
    obtain ⟨r, hv⟩ := h.idle_position hx
    have hidle : p.registry.idle.count x = 1 := congrArg Position.idle hv
    have hcharges : claims x ℓ.charges = [] := congrArg Position.charges hv
    rw [if_pos hx, hv, hidle, hcharges]
    exact .entrusted (.drained r)
  · -- any other object stands as before
    have hidle : p.registry.idle.count x = 0 := List.count_eq_zero.mpr hx
    have hsame := h.objects x
    rw [if_neg hx, hidle]
    rwa [show p.position ℓ x = { p.position ℓ x with idle := 0 } from by
      rw [← hidle]; rfl] at hsame

theorem Sound.clear (h : p.Sound ℓ) : p.clear.Sound ℓ := by
  have heq := p.registry.drainIdle_eq
  refine h.drain (h.toOrderly.book h.books.drainIdle ?_ ?_ rfl) (fun _ => rfl) ?_ ?_ ?_
  · rw [heq]
  · rw [heq]
    exact fun hc => hc
  · exact congrArg Registry.tracked heq
  · exact congrArg Registry.idle heq
  · show p.registry.drainIdle.active = p.registry.active
    rw [heq]

/-! ## A pool is closed -/

/-- The reply of a call that closes a pool is not that it has an object for the borrower. -/
theorem Orderly.closer_isLoan {c : Closer}
    (h : p.Orderly { ℓ with promises := c.promises ++ ℓ.promises }) : c.reply.isLoan = false := by
  cases c with
  | call => rfl
  | release r => exact h.promises r (List.mem_cons_self ..)

theorem Sound.closeReply {c : Closer}
    (h : p.Sound { ℓ with promises := c.promises ++ ℓ.promises }) :
    (p.finish c.reply).Sound ℓ := by
  have hrest : p.Sound ℓ :=
    { h with promises := fun r hr => h.promises r (List.mem_append_right _ hr) }
  exact hrest.finish h.closer_isLoan

/-- A pool that is being closed: nobody can open it again, and its idle objects are in
    the charge of the call. -/
theorem Sound.shut (h : p.Sound ℓ) :
    Pool.Sound { (p.book fun r => r.close.drainIdle) with keeper := none }
      { ℓ with charges := each p.registry.drained .drained ++ ℓ.charges } := by
  have heq := p.registry.close.drainIdle_eq
  -- a pool that is closed stays closed when its idle objects leave
  have ho : (p.book fun r => r.close.drainIdle).Orderly ℓ := by
    refine h.toOrderly.book h.books.close ?_ ?_ rfl
    · rw [heq]
      rfl
    · rw [heq]
      exact fun _ => rfl
  refine h.drain (q := { (p.book fun r => r.close.drainIdle) with keeper := none })
    { ho with } (fun _ => rfl) ?_ ?_ ?_
  · exact congrArg Registry.tracked heq
  · exact congrArg Registry.idle heq
  · show p.registry.close.drainIdle.active = p.registry.active
    rw [heq]
    rfl

theorem Sound.close {c : Closer} (self : Nat)
    (h : p.Sound { ℓ with promises := c.promises ++ ℓ.promises }) : (p.close self c).Sound ℓ := by
  unfold Pool.close
  split
  · exact h.closeReply
  · dsimp only
    split
    · split
      · exact h.shut
      · exact h.shut
    · exact h.shut

/-- A pool that a call has begun to close is closed. -/
theorem closed_close (p : Pool ρ) (self : Nat) (c : Closer) :
    (p.close self c).pool.closed = true := by
  have hshut : (p.registry.close.drainIdle).closed = true := by
    rw [Registry.drainIdle_eq]
    rfl
  unfold Pool.close
  split
  · rename_i hc
    exact hc
  · dsimp only
    split
    · split
      · exact hshut
      · exact hshut
    · exact hshut

/-! ## One idle object after the other -/

theorem Sound.drainNext {rest : List Nat} {d : Drainer}
    (h : p.Sound (ℓ.after (.drain rest d))) : (p.drainNext rest d).Sound ℓ := by
  cases rest with
  | nil =>
    cases d with
    | clear => exact Sound.finish h rfl
    | close c => exact (Sound.closeReply h).noting _
  | cons id rest =>
    obtain ⟨v, hv, hf⟩ := Sound.take (ℓ := ℓ.after (.drain rest d)) (c := .drained) h
    cases hv with
    | drained r => exact hf.finishDestroy (.inl rfl)

end ObjectPool.Pool

/-! ## Where the resources go -/

namespace ObjectPool.Pool.Keeps

variable {ρ : Type} {ok : Nat → ρ → Prop} {p : Pool ρ} {id : Nat} {r : ρ}

theorem close (h : p.Keeps ok) (self : Nat) (c : Closer) : (p.close self c).Keeps ok := by
  unfold Pool.close
  split
  · exact h.finish _
  · dsimp only
    split
    · split
      · exact ⟨h, .nil⟩
      · exact ⟨h, .nil⟩
    · exact ⟨h, .nil⟩

theorem drainNext (h : p.Keeps ok) (rest : List Nat) (d : Drainer) :
    (p.drainNext rest d).Keeps ok := by
  unfold Pool.drainNext
  split
  · exact h.finishDestroy .nil
  · split
    · exact h.finish _
    · exact (h.finish _).noting _

end ObjectPool.Pool.Keeps
