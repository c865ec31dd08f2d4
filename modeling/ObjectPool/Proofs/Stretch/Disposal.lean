/-
  ObjectPool.Proofs.Stretch.Disposal

  What it means that a stretch of a call leaves pool and ledger in agreement, and
  that the end of an object does: an object that left the books with its resource
  in the slot goes to the factory to be destroyed, and is listed among the graves.
-/

import ObjectPool.Proofs.Contents
import ObjectPool.Proofs.Moves

namespace ObjectPool

variable {ρ : Type}

/-- The ledger once a stretch has run, where `ℓ` is that of everybody but the call itself. -/
def Stretch.ledger (s : Stretch ρ) (ℓ : Ledger ρ) : Ledger ρ :=
  match s.next with
  | .go pt => (ℓ.bury pt).add s.pool.slot? pt
  | .finish (.lent id) => ℓ.lend id ⟨false, s.pool.slot? id⟩
  | .finish _ => ℓ

/-- A stretch leaves a pool and a ledger that agree. -/
def Stretch.Sound (s : Stretch ρ) (ℓ : Ledger ρ) : Prop := s.pool.Sound (s.ledger ℓ)

namespace Stretch

variable {s : Stretch ρ} {ℓ : Ledger ρ}

theorem Sound.noting (h : s.Sound ℓ) (n : Notice) : (s.noting n).Sound ℓ := h

theorem Sound.notingIf (h : s.Sound ℓ) (b : Bool) (n : Notice) : (s.notingIf b n).Sound ℓ := by
  unfold Stretch.notingIf
  split
  · exact h.noting n
  · exact h

end Stretch

namespace Pool

variable {p : Pool ρ} {ℓ : Ledger ρ} {id : Nat} {v : Position ρ}

/-! ## The end of a call -/

/-- A call that ends, but not with an object for a borrower, changes nothing. -/
theorem Sound.finish (h : p.Sound ℓ) {r : Reply} (hr : r.isLoan = false) :
    (p.finish r).Sound ℓ := by
  cases r with
  | lent id => exact nomatch hr
  | done | made n | failed e => exact h

/-- The reply that a call has ready is not that it has an object for the borrower. -/
theorem Sound.kept {r : Reply} (h : p.Sound (ℓ.after (.reply r))) :
    p.Sound ℓ ∧ r.isLoan = false :=
  ⟨{ h with promises := fun r hr => h.promises r (List.mem_cons_of_mem _ hr) },
    h.promises r (List.mem_cons_self ..)⟩

theorem Focus.promise (h : p.Focus ℓ id v) {r : Reply} (hr : r.isLoan = false) :
    p.Focus (ℓ.after (.reply r)) id v := by
  refine { h with promises := fun x hx => ?_ }
  rcases List.mem_cons.mp hx with rfl | hx
  · exact hr
  · exact h.promises x hx

theorem Sound.filled (h : p.Sound ℓ) (f : Filler) (made : Nat) : (p.filled f made).Sound ℓ := by
  cases f with
  | prepare => exact h
  | upkeep out back => exact h

theorem Sound.notStocked (h : p.Sound ℓ) (s : Stocker) (e : PoolError) :
    (p.notStocked s e).Sound ℓ := by
  cases s with
  | add => exact h
  | fill f made =>
    cases f with
    | prepare => exact h
    | upkeep out back => exact h

/-- The call goes on with what follows the end of an object. -/
theorem Sound.resume {k : After ρ} (h : p.Sound (ℓ.after k)) : (p.resume k).Sound ℓ := by
  cases k with
  | seek b => exact h
  | reply r =>
    obtain ⟨hp, hr⟩ := h.kept
    exact hp.finish hr
  | notStocked s e => exact Sound.notStocked h s e
  | reclaim rest n s => exact h
  | evict out tests n => exact h
  | drain rest d => exact h

theorem Sound.buried {k : After ρ} (h : p.Sound (ℓ.after k)) (refusal : Option String) :
    (p.destroyed id k refusal).Sound ℓ := by
  cases refusal with
  | none => exact h.resume
  | some reason => exact h.resume.noting _

/-! ## The end of an object -/

/-- An object that left the books goes to the factory to be destroyed. -/
theorem Focus.finishDestroy {k : After ρ} {s : Lifecycle} {r : ρ} {l : List (Loan ρ)}
    (h : p.Focus (ℓ.after k) id ⟨some ⟨s, some r, false⟩, 0, 0, 0, 0, l, []⟩) (hl : Stale l) :
    (p.finishDestroy id k).Sound ℓ := by
  have hslot : p.slot? id = some r := h.slot?
  -- the resource is in the slot, so that the factory gets it
  rw [Pool.finishDestroy, hslot]
  exact h.emptySlot.retire.sound (.dead hl)

/-- A tracked object that nobody is in charge of any more is destroyed. -/
theorem Focus.destroy {k : After ρ} {s : Lifecycle} {r : ρ} {a : Nat}
    (h : p.Focus (ℓ.after k) id ⟨some ⟨s, some r, false⟩, 1, 0, a, 0, [], []⟩) :
    (p.destroy id k).Sound ℓ :=
  (h.detach rfl (.inr rfl)).finishDestroy (.inl rfl)

/-- An object that was taken away from its borrower is destroyed. -/
theorem Sound.disposeReclaimed {x : Reclaimed ρ} {rest : List (Reclaimed ρ)} {n : Nat}
    {s : Sweeper}
    (h : p.Sound ((ℓ.after (.reclaim rest n s)).charge x.object (.seized x.resource))) :
    (p.disposeReclaimed x rest n s).Sound ℓ := by
  obtain ⟨id, resource, unused⟩ := x
  obtain ⟨v, hv, hf⟩ := h.take
  -- a charge of this kind is about an object with an empty slot
  cases hv with
  | seized r hl =>
    have hcount := hf.count (f := fun c => { c with abandoned := c.abandoned + 1 }) rfl rfl
    exact hcount.retire.sound (.dead hl)

theorem Sound.reclaimNext {x : Reclaimed ρ} {rest : List (Reclaimed ρ)} {n : Nat} {s : Sweeper}
    (h : p.Sound ((ℓ.after (.reclaim rest n s)).charge x.object (.seized x.resource))) :
    (p.reclaimNext x rest n s).Sound ℓ := by
  have hdispose := h.disposeReclaimed
  unfold Pool.reclaimNext
  split
  · split
    · split
      · exact hdispose.noting _
      · exact h
    · exact hdispose
  · exact hdispose

end Pool

end ObjectPool

/-! ## Where the resources go -/

namespace ObjectPool.Pool.Keeps

variable {ρ : Type} {ok : Nat → ρ → Prop} {p : Pool ρ} {id : Nat} {r : ρ}

theorem notStocked (h : p.Keeps ok) (s : Stocker) (e : PoolError) :
    (p.notStocked s e).Keeps ok := by
  rcases s with _ | ⟨_ | ⟨out, back⟩, made⟩
  · exact h.finish _
  · exact h.finish _
  · exact ⟨h, .nil⟩

theorem resume (h : p.Keeps ok) {k : After ρ} (hk : AllFit ok k.resources) :
    (p.resume k).Keeps ok := by
  cases k with
  | seek b => exact h.go .nil
  | reply r => exact h.finish r
  | notStocked s e => exact h.notStocked s e
  | reclaim rest n s => exact h.go hk
  | evict out tests n => exact h.go .nil
  | drain rest d => exact h.go .nil

theorem dispose (h : p.Keeps ok) {r : Option ρ} (hr : ∀ v, r = some v → ok id v)
    (mode : DestroyMode) {k : After ρ} (hk : AllFit ok k.resources) :
    (p.dispose id r mode k).Keeps ok := by
  cases r with
  | some v => exact h.retire.go (.cons (hr v rfl) hk)
  | none => exact h.retire.resume hk

/-- An object is destroyed with the resource that was in its slot. -/
theorem finishDestroy (h : p.Keeps ok) {k : After ρ} (hk : AllFit ok k.resources) :
    (p.finishDestroy id k).Keeps ok :=
  h.emptySlot.dispose (fun v hv => h id v hv) .normal hk

theorem destroy (h : p.Keeps ok) {k : After ρ} (hk : AllFit ok k.resources) :
    (p.destroy id k).Keeps ok :=
  h.detach.finishDestroy hk

theorem disposeReclaimed (h : p.Keeps ok) {x : Reclaimed ρ} {rest : List (Reclaimed ρ)}
    (hx : AllFit ok (takenBack (x :: rest))) (n : Nat) (s : Sweeper) :
    (p.disposeReclaimed x rest n s).Keeps ok := by
  refine (h.count _).dispose (fun v hv => ?_) .abandoned fun y hy => ?_
  · refine hx (x.object, v) (List.mem_append_left _ (List.mem_map.mpr ⟨v, ?_, rfl⟩))
    exact Option.mem_toList.mpr hv
  · exact hx y (List.mem_append_right _ hy)

theorem reclaimNext (h : p.Keeps ok) {x : Reclaimed ρ} {rest : List (Reclaimed ρ)}
    (hx : AllFit ok (takenBack (x :: rest))) (n : Nat) (s : Sweeper) :
    (p.reclaimNext x rest n s).Keeps ok := by
  have hdispose := h.disposeReclaimed hx n s
  unfold Pool.reclaimNext
  split
  · split
    · split
      · exact hdispose.noting _
      · exact h.go hx
    · exact hdispose
  · exact hdispose

end ObjectPool.Pool.Keeps
