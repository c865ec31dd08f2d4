/-
  ObjectPool.Proofs.Stretch.Stock

  The stretches that make an idle object leave pool and ledger in agreement. The
  place held for the object is given up in the stretch that lists the object among
  the idle ones or sends it to be destroyed, and in no other.
-/

import ObjectPool.Proofs.Stretch.Disposal
import ObjectPool.Pool.Stock

namespace ObjectPool.Pool

variable {ρ : Type} {p : Pool ρ} {ℓ : Ledger ρ} {id : Nat}

/-! ## A place for a new object -/

theorem Sound.add (h : p.Sound ℓ) : p.add.Sound ℓ := by
  unfold Pool.add
  split
  · exact h.finish rfl
  · split
    · exact h.finish rfl
    · rename_i hroom
      have hr : p.registry.hasRoom = true := by simpa using fun hr => hroom (.inr hr)
      exact h.reserve hr

theorem Sound.prepare (h : p.Sound ℓ) : p.prepare.Sound ℓ := by
  unfold Pool.prepare
  split
  · exact h.finish rfl
  · exact h

theorem Sound.fill (h : p.Sound ℓ) (f : Filler) (made : Nat) : (p.fill f made).Sound ℓ := by
  unfold Pool.fill
  split
  · exact h.filled f made
  · rename_i hroom
    have hr : p.registry.hasRoom = true := by simpa using fun hr => hroom (.inr (.inr hr))
    exact h.reserve hr

theorem Sound.notCreated (h : p.Sound { ℓ with places := ℓ.places + 1 }) (m : Maker)
    (reason : String) : (p.notCreated m reason).Sound ℓ := by
  -- whoever the object was for, the place is given up
  have hcancel := h.cancelReservation (n := ℓ.places) rfl
  refine Stretch.Sound.noting ?_ _
  cases m with
  | lend b => exact hcancel.finish rfl
  | stock s => exact Sound.notStocked hcancel s _

/-! ## A new object -/

theorem Sound.stocked (h : p.Sound ℓ) (s : Stocker) : (p.stocked s).Sound ℓ := by
  cases s with
  | add => exact h
  | fill f made => exact h

/-- A new object joins the idle ones or is destroyed, and no place is held for it. -/
theorem Focus.settle {r : ρ}
    (h : p.Focus { ℓ with places := ℓ.places + 1 } id
      ⟨some ⟨.idle, some r, false⟩, 0, 0, 0, 0, [], []⟩)
    (s : Stocker) (fault : Option PoolError) : (p.settle id s fault).Sound ℓ := by
  unfold Pool.settle
  dsimp only
  split
  · -- the object is fit and the pool is open: the place becomes the object
    rename_i hnone
    have ho : p.closed = false := Bool.eq_false_iff.mpr fun hc => by simp [hc] at hnone
    have hidle := h.registerIdle (n := ℓ.places) rfl ho rfl rfl
    exact Sound.stocked (hidle.sound (.idle r)) s
  · -- the object goes to the factory, and the place is free again
    have hcancel := h.cancelReservation (n := ℓ.places) rfl
    exact Focus.finishDestroy (k := .notStocked s _) hcancel (.inl rfl)

theorem Sound.createdForStock (h : p.Sound { ℓ with places := ℓ.places + 1 }) (now : Instant)
    (s : Stocker) (r : ρ) : (p.createdForStock now s r).Sound (ℓ.bear 1) := by
  have henlist := h.enlist now r .idle
  have hnew := henlist.hold.entrust (.stocking r)
  rw [Pool.createdForStock_eq]
  dsimp only
  split
  · exact hnew
  · exact hnew

theorem Sound.validatedForStock
    (h : p.Sound (Ledger.charge id .stocking { ℓ with places := ℓ.places + 1 })) (s : Stocker)
    (fit : Bool) : (p.validatedForStock id s fit).Sound ℓ := by
  unfold Pool.validatedForStock
  split
  · exact h
  · obtain ⟨v, hv, hf⟩ := h.take
    cases hv with
    | stocking r => exact (hf.release.count rfl rfl).settle s _

theorem Sound.passivatedForStock
    (h : p.Sound (Ledger.charge id .stocking { ℓ with places := ℓ.places + 1 })) (s : Stocker)
    (r : ρ) (refusal : Option String) : (p.passivatedForStock id s r refusal).Sound ℓ := by
  obtain ⟨v, hv, hf⟩ := h.take
  cases hv with
  | stocking r₀ => exact (hf.letGo r).settle s _

end ObjectPool.Pool

/-! ## Where the resources go -/

namespace ObjectPool.Pool.Keeps

variable {ρ : Type} {ok : Nat → ρ → Prop} {p : Pool ρ} {id : Nat} {r : ρ}

theorem add (h : p.Keeps ok) : p.add.Keeps ok := by
  unfold Pool.add
  split
  · exact h.finish _
  · split
    · exact h.finish _
    · exact ⟨h, .nil⟩

theorem prepare (h : p.Keeps ok) : p.prepare.Keeps ok := by
  unfold Pool.prepare
  split
  · exact h.finish _
  · exact h.go .nil

theorem fill (h : p.Keeps ok) (f : Filler) (made : Nat) : (p.fill f made).Keeps ok := by
  unfold Pool.fill
  split
  · cases f with
    | prepare => exact h.finish _
    | upkeep out back => exact (h.finish _).noting _
  · exact ⟨h, .nil⟩

theorem settle (h : p.Keeps ok) (s : Stocker) (fault : Option PoolError) :
    (p.settle id s fault).Keeps ok := by
  unfold Pool.settle
  dsimp only
  split
  · cases s with
    | add => exact ⟨h, .nil⟩
    | fill f made => exact ⟨h, .nil⟩
  · exact (h.book _).finishDestroy .nil

theorem createdForStock (h : p.Keeps ok) (hr : ok p.entries.length r) (now : Instant)
    (s : Stocker) : (p.createdForStock now s r).Keeps ok := by
  have hnew := (h.count fun c => { c with created := c.created + 1 }).enlist now .idle hr
  rw [Pool.createdForStock_eq]
  dsimp only
  split
  · exact hnew.hold.go .nil
  · exact hnew.hold.go .nil

theorem validatedForStock (h : p.Keeps ok) (s : Stocker) (fit : Bool) :
    (p.validatedForStock id s fit).Keeps ok := by
  unfold Pool.validatedForStock
  split
  · exact h.go .nil
  · exact (h.release.count _).settle s _

theorem passivatedForStock (h : p.Keeps ok) (hr : ok id r) (s : Stocker)
    (refusal : Option String) : (p.passivatedForStock id s r refusal).Keeps ok :=
  (h.letGo hr).settle s _

theorem notCreated (h : p.Keeps ok) (m : Maker) (reason : String) :
    (p.notCreated m reason).Keeps ok := by
  refine Stretch.Keeps.noting ?_ _
  cases m with
  | lend b => exact ⟨h, .nil⟩
  | stock s => exact (h.book Registry.cancelReservation).notStocked s _

end ObjectPool.Pool.Keeps
