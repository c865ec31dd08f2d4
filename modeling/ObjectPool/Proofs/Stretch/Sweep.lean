/-
  ObjectPool.Proofs.Stretch.Sweep

  The pass over the lent objects leaves pool and ledger in agreement: each object
  it takes back goes from its borrower into the charge of the call that sweeps,
  with its resource, and the borrower is left with nothing.
-/

import ObjectPool.Proofs.Stretch.Disposal

namespace ObjectPool.Pool

variable {ρ : Type} {p : Pool ρ} {ℓ : Ledger ρ} {id : Nat}

/-- What counts as abandoned is in the hands of a borrower that does not work on it. -/
theorem Sound.lent_of_isAbandoned (h : p.Sound ℓ) {now : Instant} {timeout : Duration}
    (ha : p.isAbandoned now timeout id = true) :
    ∃ r, p.Focus ℓ id ⟨some ⟨.allocated, some r, false⟩, 1, 0, 1, 0, [⟨false, some r⟩], []⟩ := by
  simp only [isAbandoned, isHeld_eq_shape?, isIn_eq_shape?, Bool.and_eq_true,
    Bool.not_eq_true'] at ha
  obtain ⟨⟨-, hheld⟩, hstate⟩ := ha
  have hf := h.focus id
  have hlegal := h.objects id
  have hshape := hf.shape?
  generalize p.position ℓ id = v at hf hlegal hshape
  rw [hshape] at hheld hstate
  -- only an object in a borrower's hands is allocated and not held
  cases hlegal with
  | unborn | idle | dead => exact nomatch hstate
  | lent g r =>
    obtain rfl : g = false := hheld
    exact ⟨r, hf⟩
  | entrusted he =>
    cases he with
    -- an object that is readied for a borrower is held by its call
    | lending r => exact nomatch hheld
    | _ => exact nomatch hstate

/-- An object taken back is in the charge of the call that sweeps. -/
theorem Sound.takeAway (h : p.Sound ℓ) {now : Instant} {timeout : Duration}
    (ha : p.isAbandoned now timeout id = true) :
    (p.takeAway id).Sound (ℓ.charge id (.seized (p.slot? id))) := by
  obtain ⟨r, hf⟩ := h.lent_of_isAbandoned ha
  have hslot : p.slot? id = some r := hf.slot?
  have htaken := (hf.setState .abandoned).emptySlot
  have hgone := htaken.detach rfl (.inr rfl)
  rw [hslot]
  -- the borrower still has its handle, and nothing else of the object
  exact hgone.entrust (.seized r (.inr ⟨_, rfl⟩))

/-- The whole pass, by induction on the lent objects still to be looked at. -/
theorem Sound.reclaimFrom (h : p.Sound ℓ) (now : Instant) (timeout : Duration) (ids : List Nat) :
    (p.reclaimFrom now timeout ids).1.Sound
      { ℓ with charges := seizures (p.reclaimFrom now timeout ids).2 ++ ℓ.charges } := by
  induction ids generalizing p ℓ with
  | nil => exact h
  | cons id rest ih =>
    rw [Pool.reclaimFrom]
    split
    · rename_i ha
      have hrest := ih (h.takeAway ha)
      exact hrest.of_same (.of_charges _ List.perm_middle)
    · exact ih h

theorem Sound.sweep (h : p.Sound ℓ) (now : Instant) (a : Abandonment) (s : Sweeper) :
    (p.sweep now a s).Sound ℓ :=
  h.reclaimFrom now a.timeout p.registry.active

end ObjectPool.Pool

/-! ## Where the resources go -/

namespace ObjectPool.Pool.Keeps

variable {ρ : Type} {ok : Nat → ρ → Prop} {p : Pool ρ} {id : Nat} {r : ρ}

theorem takeAway (h : p.Keeps ok) : (p.takeAway id).Keeps ok := (h.setState .abandoned).emptySlot

theorem reclaimFrom (h : p.Keeps ok) (now : Instant) (timeout : Duration) (ids : List Nat) :
    (p.reclaimFrom now timeout ids).1.Keeps ok ∧
      AllFit ok (takenBack (p.reclaimFrom now timeout ids).2) := by
  induction ids generalizing p with
  | nil => exact ⟨h, .nil⟩
  | cons id rest ih =>
    rw [Pool.reclaimFrom]
    split
    · obtain ⟨hpool, htaken⟩ := ih h.takeAway
      refine ⟨hpool, AllFit.append (fun x hx => ?_) htaken⟩
      obtain ⟨r, hr, rfl⟩ := List.mem_map.mp hx
      exact h id r (Option.mem_toList.mp hr)
    · exact ih h

theorem sweep (h : p.Keeps ok) (now : Instant) (a : Abandonment) (s : Sweeper) :
    (p.sweep now a s).Keeps ok := by
  obtain ⟨hpool, htaken⟩ := h.reclaimFrom now a.timeout p.registry.active
  exact hpool.go htaken

end ObjectPool.Pool.Keeps
