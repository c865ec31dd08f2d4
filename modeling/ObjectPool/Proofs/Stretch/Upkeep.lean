/-
  ObjectPool.Proofs.Stretch.Upkeep

  The stretches of a round of upkeep leave pool and ledger in agreement. The idle
  sweep puts each object that it does not leave idle into the charge of its call:
  to be destroyed if it was evicted, to be tried out if not. An object that was
  tried out goes back to the idle ones or is destroyed, also when the pool was
  closed meanwhile.

    * `Sound.sortIdle` — the whole sweep, by induction on the objects it looks at.
    * `mem_sortIdle` — no idle object is passed over by it.
-/

import ObjectPool.Proofs.Stretch.Lend
import ObjectPool.Proofs.Stretch.Stock
import ObjectPool.Pool.Upkeep

namespace ObjectPool.Pool

variable {ρ : Type} {p : Pool ρ} {ℓ : Ledger ρ} {id : Nat}

/-! ## The idle sweep -/

/-- A tracked object in the idle state is in the idle queue. -/
theorem Sound.idle_of_isIn (h : p.Sound ℓ) (ht : id ∈ p.registry.tracked)
    (hs : p.isIn id .idle = true) :
    ∃ r, p.Focus ℓ id ⟨some ⟨.idle, some r, false⟩, 1, 1, 0, 0, [], []⟩ := by
  have hf := h.focus id
  have hlegal := h.objects id
  have hpos : 0 < (p.position ℓ id).tracked := List.count_pos_iff.mpr ht
  have hshape := hf.shape?
  rw [isIn_eq_shape?] at hs
  generalize p.position ℓ id = v at hf hlegal hpos hshape
  rw [hshape] at hs
  -- a new object and a drained one are in the idle state too, but not tracked
  cases hlegal with
  | idle r => exact ⟨r, hf⟩
  | unborn | lent | dead => exact nomatch hs
  | entrusted he =>
    cases he with
    | stocking | drained => exact absurd hpos (Nat.lt_irrefl 0)
    | _ => exact nomatch hs

theorem isIn_of_object? {e : Entry ρ} {s : Lifecycle} (he : p.object? id = some e) :
    p.isIn id s = e.isIn s := by rw [isIn, he]; rfl

/-- The sweep, by induction on the objects still to be looked at: what it does not
    leave idle is in the charge of its call. -/
theorem Sound.sortIdle (h : p.Sound ℓ) (now : Instant) (left : Nat) (ids : List Nat) :
    (p.sortIdle now left ids).pool.Sound
      { ℓ with charges :=
          sweeping (p.sortIdle now left ids).out (p.sortIdle now left ids).tests ++
            ℓ.charges } := by
  induction ids generalizing p ℓ left with
  | nil => exact h
  | cons id rest ih =>
    rw [Pool.sortIdle]
    split
    · exact ih h left
    · rename_i e he
      split
      · exact ih h left
      · rename_i hidle
        rw [not_or, Decidable.not_not, Bool.not_eq_false] at hidle
        obtain ⟨r, hf⟩ := h.idle_of_isIn hidle.1 ((isIn_of_object? he).trans hidle.2)
        have htest := hf.setState .evictionTest
        dsimp only
        split
        · -- the object is evicted and leaves the books
          have hout := (htest.setState .invalid).detach rfl (.inl rfl)
          have hrest := ih (hout.entrust (.evicted r)) (left - 1)
          exact hrest.of_same (.of_charges _ List.perm_middle)
        · split
          · -- the object is to be tried out and leaves the queue alone
            have hkeep := (htest.setState .validation).removeIdle
            have hrest := ih (hkeep.entrust (.untried r)) left
            refine hrest.of_same (.of_charges _ ?_)
            refine List.perm_middle.trans ?_
            simp only [sweeping, each_cons, List.append_assoc, List.cons_append]
            exact List.perm_middle.symm
          · exact ih ((htest.setState .idle).sound (.idle r)) left

theorem mem_detach_idle {x : Nat} {r : Registry} (hx : x ∈ r.idle) (hne : x ≠ id) :
    x ∈ (r.detach id).idle := by
  unfold Registry.detach
  split
  · show x ∈ if id ∈ r.active then r.idle else Registry.without id r.idle
    split
    · exact hx
    · exact Registry.mem_without.mpr ⟨hx, hne⟩
  · exact hx

/-- An idle object that the sweep does not leave idle is evicted or to be tried out. -/
theorem mem_sortIdle {x : Nat} (now : Instant) (left : Nat) (ids : List Nat)
    (hx : x ∈ p.registry.idle) :
    x ∈ (p.sortIdle now left ids).out ∨ x ∈ (p.sortIdle now left ids).tests ∨
      x ∈ (p.sortIdle now left ids).pool.registry.idle := by
  induction ids generalizing p left with
  | nil => exact .inr (.inr hx)
  | cons id rest ih =>
    rw [Pool.sortIdle]
    split
    · exact ih left hx
    · split
      · exact ih left hx
      · by_cases hne : x = id
        · subst hne
          dsimp only
          split
          · exact .inl (List.mem_cons_self ..)
          · split
            · exact .inr (.inl (List.mem_cons_self ..))
            · exact ih left hx
        · dsimp only
          split
          · have hd : x ∈ (((p.setState id .evictionTest).setState id .invalid).detach
                id).registry.idle := mem_detach_idle hx hne
            rcases ih (left - 1) hd with h | h
            · exact .inl (List.mem_cons_of_mem _ h)
            · exact .inr h
          · split
            · have hd : x ∈ (((p.setState id .evictionTest).setState id .validation).book
                  (Registry.removeIdle id)).registry.idle := Registry.mem_without.mpr ⟨hx, hne⟩
              rcases ih left hd with h | h | h
              · exact .inl h
              · exact .inr (.inl (List.mem_cons_of_mem _ h))
              · exact .inr (.inr h)
            · exact ih left hx

theorem Sound.evict (h : p.Sound ℓ) (now : Instant) : (p.evict now).Sound ℓ := by
  unfold Pool.evict
  split
  · exact h
  · exact h.sortIdle now p.registry.idle.length p.registry.idleOldestFirst

theorem Sound.upkeep (h : p.Sound ℓ) (now : Instant) : (p.upkeep now).Sound ℓ := by
  unfold Pool.upkeep
  split
  · exact h.finish rfl
  · exact h.evict now

/-! ## Trying an idle object out -/

/-- An object that was tried out and found unfit is destroyed. -/
theorem Focus.failTest {tests : List Nat} {n : Nat} {r : ρ}
    (h : p.Focus (ℓ.after (.evict [] tests n)) id
      ⟨some ⟨.validation, some r, false⟩, 1, 0, 0, 0, [], []⟩) :
    (p.failTest id tests n).Sound ℓ :=
  Stretch.Sound.noting (Focus.destroy (h.count rfl rfl)) _

/-- An object that was tried out goes back to the idle ones of an open pool. -/
theorem Focus.passTest {tests : List Nat} {n : Nat} {r : ρ}
    (h : p.Focus (ℓ.after (.evict [] tests n)) id
      ⟨some ⟨.validation, some r, false⟩, 1, 0, 0, 0, [], []⟩) :
    (p.passTest id tests n).Sound ℓ := by
  unfold Pool.passTest
  split
  · rename_i hc
    have hidle := (h.setState .idle).restoreIdle hc.1 rfl
    exact hidle.sound (.idle r)
  · exact h.destroy

theorem Sound.activatedForTest {tests : List Nat} {n : Nat}
    (h : p.Sound ((ℓ.after (.evict [] tests n)).charge id .trying)) (r : ρ)
    (refusal : Option String) : (p.activatedForTest id tests n r refusal).Sound ℓ := by
  obtain ⟨v, hv, hf⟩ := h.take
  cases hv with
  | trying r₀ =>
    cases refusal with
    | some reason => exact (hf.letGo r).failTest
    | none =>
      have hm := hf.modify (f := fun e => { e with slot := some r })
        (g := fun x => { x with slot := some r }) fun _ => rfl
      exact hm.entrust (.trying r)

theorem Sound.validatedForTest {tests : List Nat} {n : Nat}
    (h : p.Sound ((ℓ.after (.evict [] tests n)).charge id .trying)) (fit : Bool) :
    (p.validatedForTest id tests n fit).Sound ℓ := by
  unfold Pool.validatedForTest
  split
  · exact h
  · obtain ⟨v, hv, hf⟩ := h.take
    cases hv with
    | trying r => exact hf.release.failTest

theorem Sound.passivatedForTest {tests : List Nat} {n : Nat}
    (h : p.Sound ((ℓ.after (.evict [] tests n)).charge id .trying)) (r : ρ)
    (refusal : Option String) : (p.passivatedForTest id tests n r refusal).Sound ℓ := by
  obtain ⟨v, hv, hf⟩ := h.take
  cases hv with
  | trying r₀ =>
    cases refusal with
    | some reason => exact (hf.letGo r).failTest
    | none => exact (hf.letGo r).passTest

/-! ## The order of a round -/

theorem Sound.evicted (h : p.Sound ℓ) (now : Instant) (n : Nat) : (p.evicted now n).Sound ℓ := by
  refine Stretch.Sound.notingIf ?_ _ _
  split
  · split
    · exact h.sweep now _ _
    · exact h
  · exact h

/-- The next evicted object goes to be destroyed, or the next idle object to be
    readied for its trial. -/
theorem Sound.evictNext {out tests : List Nat}
    (h : p.Sound { ℓ with charges := sweeping out tests ++ ℓ.charges }) (now : Instant) (n : Nat) :
    (p.evictNext now out tests n).Sound ℓ := by
  cases out with
  | cons id out =>
    obtain ⟨v, hv, hf⟩ := Sound.take (ℓ := ℓ.after (.evict out tests n)) (c := .evicted) h
    cases hv with
    | evicted r => exact (hf.count rfl rfl).finishDestroy (.inl rfl)
  | nil =>
    cases tests with
    | nil => exact Sound.evicted h now n
    | cons id tests =>
      obtain ⟨v, hv, hf⟩ := Sound.take (ℓ := ℓ.after (.evict [] tests n)) (c := .untried) h
      cases hv with
      | untried r =>
        have hslot : p.slot? id = some r := hf.slot?
        rw [Pool.evictNext, activate, hslot]
        exact hf.hold.entrust (.trying r)

end ObjectPool.Pool

/-! ## Where the resources go -/

namespace ObjectPool.Pool.Keeps

variable {ρ : Type} {ok : Nat → ρ → Prop} {p : Pool ρ} {id : Nat} {r : ρ}

theorem sortIdle (h : p.Keeps ok) (now : Instant) (left : Nat) (ids : List Nat) :
    (p.sortIdle now left ids).pool.Keeps ok := by
  induction ids generalizing p left with
  | nil => exact h
  | cons id rest ih =>
    rw [Pool.sortIdle]
    split
    · exact ih h left
    · split
      · exact ih h left
      · dsimp only
        have hlook : (p.setState id .evictionTest).Keeps ok := h.setState .evictionTest
        split
        · exact ih (hlook.setState .invalid).detach _
        · split
          · exact ih ((hlook.setState .validation).book _) _
          · exact ih (hlook.setState .idle) _

theorem evict (h : p.Keeps ok) (now : Instant) : (p.evict now).Keeps ok := by
  unfold Pool.evict
  split
  · exact h.go .nil
  · exact (h.sortIdle now _ _).go .nil

theorem upkeep (h : p.Keeps ok) (now : Instant) : (p.upkeep now).Keeps ok := by
  unfold Pool.upkeep
  split
  · exact h.finish _
  · exact h.evict now

theorem failTest (h : p.Keeps ok) (tests : List Nat) (n : Nat) : (p.failTest id tests n).Keeps ok :=
  ((h.count _).destroy .nil).noting _

theorem passTest (h : p.Keeps ok) (tests : List Nat) (n : Nat) :
    (p.passTest id tests n).Keeps ok := by
  unfold Pool.passTest
  split
  · exact ⟨h.setState .idle, .nil⟩
  · exact h.destroy .nil

theorem activatedForTest (h : p.Keeps ok) (hr : ok id r) (tests : List Nat) (n : Nat)
    (refusal : Option String) : (p.activatedForTest id tests n r refusal).Keeps ok := by
  unfold Pool.activatedForTest
  split
  · exact (h.letGo hr).failTest tests n
  · exact (h.update hr).go .nil

theorem validatedForTest (h : p.Keeps ok) (tests : List Nat) (n : Nat) (fit : Bool) :
    (p.validatedForTest id tests n fit).Keeps ok := by
  unfold Pool.validatedForTest
  split
  · exact h.go .nil
  · exact h.release.failTest tests n

theorem passivatedForTest (h : p.Keeps ok) (hr : ok id r) (tests : List Nat) (n : Nat)
    (refusal : Option String) : (p.passivatedForTest id tests n r refusal).Keeps ok := by
  unfold Pool.passivatedForTest
  split
  · exact (h.letGo hr).failTest tests n
  · exact (h.letGo hr).passTest tests n

theorem evicted (h : p.Keeps ok) (now : Instant) (n : Nat) : (p.evicted now n).Keeps ok := by
  unfold Pool.evicted
  refine Stretch.Keeps.notingIf ?_ _ _
  split
  · split
    · exact h.sweep now _ _
    · exact h.go .nil
  · exact h.go .nil

theorem evictNext (h : p.Keeps ok) (now : Instant) (out tests : List Nat) (n : Nat) :
    (p.evictNext now out tests n).Keeps ok := by
  unfold Pool.evictNext
  split
  · exact (h.count _).finishDestroy .nil
  · exact h.activate _ (h.failTest _ n)
  · exact h.evicted now n

end ObjectPool.Pool.Keeps
