/-
  ObjectPool.Proofs.Stretch.TakeBack

  The stretches in which an object comes back leave pool and ledger in agreement.
  An object that is still listed as lent is in the state in which it was lent
  (`Sound.lent_of_mem`); any other was taken back before, is gone or is about to
  go, and its return changes nothing but a count.
-/

import ObjectPool.Proofs.Stretch.Disposal
import ObjectPool.Pool.TakeBack

namespace ObjectPool

variable {ρ : Type}

/-- The ledger with a reply that a returning call has of its own. -/
def Ledger.promising (answer : Option Reply) (ℓ : Ledger ρ) : Ledger ρ :=
  { ℓ with promises := answer.toList ++ ℓ.promises }

namespace Pool

variable {p : Pool ρ} {ℓ : Ledger ρ} {id : Nat} {v : Position ρ} {answer : Option Reply}

/-! ## Replies of a call's own -/

theorem Orderly.keep (h : p.Orderly (ℓ.promising answer)) : p.Orderly ℓ :=
  { h with promises := fun r hr => h.promises r (List.mem_append_right _ hr) }

/-- The reply of a returning call is not that it has an object for the borrower. -/
theorem Orderly.answer_isLoan (h : p.Orderly (ℓ.promising answer)) {r : Reply}
    (hr : r.isLoan = false) : (answer.getD r).isLoan = false := by
  cases answer with
  | none => exact hr
  | some a => exact h.promises a (List.mem_cons_self ..)

theorem Sound.keep (h : p.Sound (ℓ.promising answer)) : p.Sound ℓ :=
  { h.toOrderly.keep with objects := h.objects }

theorem Focus.keep (h : p.Focus (ℓ.promising answer) id v) : p.Focus ℓ id v :=
  { h.toOrderly.keep with others := h.others, here := h.here }

/-- The return of an object is refused. -/
theorem Sound.refuseReturn (h : p.Sound ℓ) {r : Reply} (hr : r.isLoan = false) :
    (p.refuseReturn r).Sound ℓ :=
  Sound.finish (h.count rfl rfl) hr

/-- A returned object is destroyed, and the call ends with its own reply if it has one. -/
theorem Focus.destroyReturned {s : Lifecycle} {r : ρ}
    (h : p.Focus (ℓ.promising answer) id ⟨some ⟨s, some r, false⟩, 1, 0, 1, 0, [], []⟩)
    {reply : Reply} (hr : reply.isLoan = false) :
    (p.destroy id (.reply (answer.getD reply))).Sound ℓ :=
  (h.keep.promise (h.answer_isLoan hr)).destroy

/-! ## A returned object -/

theorem Focus.unfitReturn {s : Lifecycle} {r : ρ}
    (h : p.Focus (ℓ.promising answer) id ⟨some ⟨s, some r, false⟩, 1, 0, 1, 0, [], []⟩) :
    (p.unfitReturn id answer).Sound ℓ :=
  Stretch.Sound.noting (Focus.destroyReturned (h.count rfl rfl) rfl) _

/-- A returned object is laid to rest. -/
theorem Focus.passivate {r : ρ}
    (h : p.Focus (ℓ.promising answer) id
      ⟨some ⟨.returning, some r, false⟩, 1, 0, 1, 0, [], []⟩) :
    (p.passivate id answer).Sound ℓ := by
  have hslot : p.slot? id = some r := h.slot?
  rw [Pool.passivate, hslot]
  exact h.hold.entrust (.returning r)

theorem Sound.validatedReturn (h : p.Sound ((ℓ.promising answer).charge id .returning))
    (fit : Bool) : (p.validatedReturn id answer fit).Sound ℓ := by
  obtain ⟨v, hv, hf⟩ := h.take
  cases hv with
  | returning r =>
    unfold Pool.validatedReturn
    split
    · exact hf.release.passivate
    · exact hf.release.unfitReturn

/-- A returned object joins the idle ones. -/
theorem Focus.shelve {r : ρ}
    (h : p.Focus (ℓ.promising answer) id
      ⟨some ⟨.returning, some r, false⟩, 1, 0, 1, 0, [], []⟩)
    (ho : p.closed = false) : (p.shelve id answer).Sound ℓ := by
  -- the call that has the object finds it on its way back
  have hin : p.isIn id .returning = true := by
    rw [isIn_eq_shape?, h.shape?]
    rfl
  rw [Pool.shelve, if_pos hin]
  refine Stretch.Sound.noting ?_ _
  have hidle := (h.keep.setState .idle).checkin ho rfl
  exact Sound.finish (hidle.sound (.idle r)) (h.answer_isLoan rfl)

theorem Sound.passivatedReturn (h : p.Sound ((ℓ.promising answer).charge id .returning)) (r : ρ)
    (refusal : Option String) : (p.passivatedReturn id answer r refusal).Sound ℓ := by
  obtain ⟨v, hv, hf⟩ := h.take
  cases hv with
  | returning r₀ =>
    have hback := hf.letGo r
    cases refusal with
    | some reason => exact (Focus.destroyReturned hback rfl).noting _
    | none =>
      unfold Pool.passivatedReturn
      dsimp only
      split
      · exact Focus.destroyReturned hback rfl
      · rename_i hc
        split
        · exact (Focus.destroyReturned hback rfl).noting _
        · exact hback.shelve (by simpa using hc)

/-! ## An object comes back -/

/-- A lent object that its borrower has just given up is in the state in which it
    was lent. -/
theorem Sound.lent_of_mem {r : Option ρ} (h : p.Sound (ℓ.lend id ⟨false, r⟩))
    (ha : id ∈ p.registry.active) :
    ∃ r, p.Focus ℓ id ⟨some ⟨.allocated, some r, false⟩, 1, 0, 1, 0, [], []⟩ := by
  rcases h.recall with ⟨r', -, hf⟩ | ⟨-, hn, -⟩
  · exact ⟨r', hf⟩
  · exact absurd ha hn

/-- An object that is not listed as lent was taken back before. -/
theorem Sound.stale_of_not_mem {r : Option ρ} (h : p.Sound (ℓ.lend id ⟨false, r⟩))
    (ha : id ∉ p.registry.active) : p.Sound ℓ := by
  rcases h.recall with ⟨r', -, hf⟩ | ⟨hs, -, -⟩
  · exact absurd (List.count_pos_iff.mp (hf.active.symm ▸ Nat.one_pos)) ha
  · exact hs

/-- The borrower's hold on an object ends. -/
theorem Focus.markReturned {s : Shape ρ} (h : p.Focus ℓ id v) (hs : v.shape = some s)
    (now : Instant) :
    (p.markReturned now id).Focus ℓ id { v with shape := some { s with state := .returning } } := by
  have hm := h.modify
    (f := fun e => { e.become .returning with lastReturn := now, lastUse := none })
    (g := fun x => { x with state := .returning }) fun e => shape_become .returning e
  rw [hs] at hm
  exact hm.count rfl rfl

theorem Sound.takeBack {r : Option ρ} (h : p.Sound ((ℓ.promising answer).lend id ⟨false, r⟩))
    (now : Instant) : (p.takeBack now id answer).Sound ℓ := by
  unfold Pool.takeBack
  dsimp only
  split
  · -- the pool has taken the object back already
    rename_i ha
    have hs := h.stale_of_not_mem ha
    exact (hs.keep.refuseReturn (hs.answer_isLoan rfl)).noting _
  · rename_i ha
    obtain ⟨r, hf⟩ := h.lent_of_mem (Decidable.not_not.mp ha)
    have hin : p.isIn id .allocated = true := by
      rw [isIn_eq_shape?, hf.shape?]
      rfl
    have hback := hf.markReturned rfl now
    rw [if_neg (by simp [hin])]
    split
    · exact Focus.destroyReturned hback rfl
    · split
      · have hslot : (p.markReturned now id).slot? id = some r := hback.slot?
        rw [hslot]
        exact hback.hold.entrust (.returning r)
      · exact hback.passivate

theorem Sound.discard {r : Option ρ} (h : p.Sound (ℓ.lend id ⟨false, r⟩)) :
    (p.discard id).Sound ℓ := by
  unfold Pool.discard
  split
  · rename_i ha
    exact (h.stale_of_not_mem ha).refuseReturn rfl
  · rename_i ha
    obtain ⟨r, hf⟩ := h.lent_of_mem (Decidable.not_not.mp ha)
    have hin : p.isIn id .allocated = true := by
      rw [isIn_eq_shape?, hf.shape?]
      rfl
    rw [if_pos (by simp [hin])]
    refine ((hf.setState .invalid).promise ?_).destroy
    split <;> rfl

end Pool

end ObjectPool

/-! ## Where the resources go -/

namespace ObjectPool.Pool.Keeps

variable {ρ : Type} {ok : Nat → ρ → Prop} {p : Pool ρ} {id : Nat} {r : ρ}

theorem refuseReturn (h : p.Keeps ok) (r : Reply) : (p.refuseReturn r).Keeps ok := ⟨h, .nil⟩

theorem passivate (h : p.Keeps ok) (answer : Option Reply) : (p.passivate id answer).Keeps ok := by
  unfold Pool.passivate
  split
  · exact h.hold.go .nil
  · exact h.destroy .nil

theorem unfitReturn (h : p.Keeps ok) (answer : Option Reply) :
    (p.unfitReturn id answer).Keeps ok :=
  ((h.count _).destroy .nil).noting _

theorem takeBack (h : p.Keeps ok) (now : Instant) (answer : Option Reply) :
    (p.takeBack now id answer).Keeps ok := by
  have hmark : (p.markReturned now id).Keeps ok :=
    h.beside (f := fun e => { e.become .returning with lastReturn := now, lastUse := none })
      (Entry.become_slot .returning)
  unfold Pool.takeBack
  dsimp only
  split
  · exact (h.refuseReturn _).noting _
  · split
    · exact (h.refuseReturn _).noting _
    · split
      · exact hmark.destroy .nil
      · split
        · split
          · exact hmark.hold.go .nil
          · exact hmark.unfitReturn answer
        · exact hmark.passivate answer

theorem validatedReturn (h : p.Keeps ok) (answer : Option Reply) (fit : Bool) :
    (p.validatedReturn id answer fit).Keeps ok := by
  unfold Pool.validatedReturn
  split
  · exact h.release.passivate answer
  · exact h.release.unfitReturn answer

theorem shelve (h : p.Keeps ok) (answer : Option Reply) : (p.shelve id answer).Keeps ok := by
  have hstate : (if p.isIn id .returning then p.setState id .idle else p).Keeps ok := by
    split
    · exact h.setState .idle
    · exact h
  exact ⟨hstate, .nil⟩

theorem passivatedReturn (h : p.Keeps ok) (hr : ok id r) (answer : Option Reply)
    (refusal : Option String) : (p.passivatedReturn id answer r refusal).Keeps ok := by
  have hback := h.letGo hr
  unfold Pool.passivatedReturn
  dsimp only
  split
  · exact (hback.destroy .nil).noting _
  · split
    · exact hback.destroy .nil
    · split
      · exact (hback.destroy .nil).noting _
      · exact hback.shelve answer

theorem discard (h : p.Keeps ok) : (p.discard id).Keeps ok := by
  unfold Pool.discard
  split
  · exact h.refuseReturn _
  · split
    · exact (h.setState .invalid).destroy .nil
    · exact h.refuseReturn _

end ObjectPool.Pool.Keeps
