/-
  ObjectPool.Proofs.Stretch.Rounds

  How a round of upkeep goes on when its pool is closed. One that has not begun ends at once.
  One that is in its idle sweep does not look again: it destroys the objects that it has
  evicted, tries out those that wait for that, one after the other, and then turns to the
  objects that are lent. No other call does that.

    * `Point.concludes` — an idle sweep is over.
    * `Stretch.Sweeps` — what a stretch on a closed pool does for an idle sweep.
    * `advance_sweeps`, `respond_sweeps` — every stretch.
    * `concludes_of_pass` — which calls still go through the lent objects.
-/

import ObjectPool.Proofs.Identity
import ObjectPool.Proofs.Stretch.Capture
import ObjectPool.Proofs.Stretch.Dismissal
import ObjectPool.Proofs.Stretch.Trials

namespace ObjectPool

variable {ρ : Type}

/-- Whether nothing is left to an idle sweep, so that it is over when the call runs. -/
def Point.concludes : Point ρ → Bool
  | .evicting [] [] _ => true
  | _ => false

/-- What a stretch of a call at the point `pt` of a closed pool does for the idle sweep that the
    call may be in. -/
inductive Stretch.Sweeps (pt : Point ρ) (s : Stretch ρ) : Prop
  /-- As much is left as before, if there is a sweep. -/
  | keeps (hc : pt.concludes = false) (hn : s.next.agenda? = pt.agenda?) (hb : s.next.begun = [])
  /-- An object that was evicted goes to be destroyed. -/
  | evicts {id : Nat} {out tests : List Nat} (hpt : pt.agenda? = some ⟨id :: out, tests⟩)
      (hc : pt.concludes = false) (hn : s.next.agenda? = some ⟨out, tests⟩)
      (hb : s.next.begun = [])
  /-- The trial of an object begins. -/
  | tries {id : Nat} {tests : List Nat} (hpt : pt.agenda? = some ⟨[], id :: tests⟩)
      (hc : pt.concludes = false) (hn : s.next.agenda? = some ⟨[], tests⟩)
      (hb : s.next.begun = [id])
  | concludes (hpt : pt.agenda? = some ⟨[], []⟩) (hc : pt.concludes = true) (hn : s.next.Apart)

/-- The objects that wait for the call to try them out. -/
def Point.awaiting (pt : Point ρ) : List Nat := (pt.agenda?.map Agenda.tests).getD []

/-- The objects that wait for the call to try them out once a stretch is over. -/
def Next.awaiting (next : Next ρ) : List Nat := (next.agenda?.map Agenda.tests).getD []

namespace Stretch.Sweeps

variable {pt : Point ρ} {s : Stretch ρ}

/-- A call is in its idle sweep until that is over. -/
theorem count (h : s.Sweeps pt) :
    s.next.agenda?.isSome.toNat + pt.concludes.toNat = pt.agenda?.isSome.toNat := by
  cases h with
  | keeps hc hn _ => rw [hc, hn, Bool.toNat_false, Nat.add_zero]
  | evicts hpt hc hn _ | tries hpt hc hn _ =>
    rw [hpt, hc, hn]
    rfl
  | concludes hpt hc hn =>
    rw [hpt, hc, hn.agenda]
    rfl

/-- An object waits until its trial begins. -/
theorem awaiting (h : s.Sweeps pt) : pt.awaiting = s.next.begun ++ s.next.awaiting := by
  unfold Point.awaiting Next.awaiting
  cases h with
  | keeps _ hn hb => rw [hn, hb, List.nil_append]
  | evicts hpt _ hn hb | tries hpt _ hn hb =>
    rw [hpt, hn, hb]
    rfl
  | concludes hpt _ hn =>
    rw [hpt, hn.agenda, hn.begun]
    rfl

theorem of_apart (hc : pt.concludes = false) (hpt : pt.agenda? = none) (hn : s.next.Apart) :
    s.Sweeps pt :=
  .keeps hc (hn.agenda.trans hpt.symm) hn.begun

theorem of_follows {k : After ρ} (hc : pt.concludes = false) (hpt : pt.agenda? = k.agenda?)
    (hn : s.next.Follows k) : s.Sweeps pt :=
  .keeps hc (hn.agenda.trans hpt.symm) hn.begun

end Stretch.Sweeps

namespace Pool

variable {p : Pool ρ} {ℓ : Ledger ρ} {pt : Point ρ} {s : Stretch ρ} {now : Instant} {self id : Nat}
  {ended : Nat → Bool}

/-- An object that waits to be tried out is there. -/
theorem Sound.slot_of_untried (h : p.Sound ℓ) (hc : (id, .untried) ∈ ℓ.charges) :
    p.slot? id ≠ none := by
  obtain ⟨r, hr⟩ := (h.objects id).slot_of_charge (mem_claims.mpr hc) nofun
  rw [slot?_eq_shape?]
  exact fun hn => nomatch hn.symm.trans hr

/-- An idle sweep goes on without a look at whether the pool is closed. -/
theorem Sound.evictNext_sweeps (h : p.Sound ℓ) {out tests : List Nat} {n : Nat}
    (hpt : ∀ x ∈ (Point.evicting (ρ := ρ) out tests n).charges, x ∈ ℓ.charges) (now : Instant) :
    (p.evictNext now out tests n).Sweeps (.evicting out tests n) := by
  cases out with
  | cons id out =>
    have hnext : (p.evictNext now (id :: out) tests n).next.Follows (.evict out tests n) :=
      dispose_follows _ _ _ _ _
    exact .evicts rfl rfl hnext.agenda hnext.begun
  | nil =>
    cases tests with
    | cons id tests =>
      rcases p.tryNext_cases now id tests n with hn | ⟨hslot, -⟩
      · refine .tries rfl rfl ?_ ?_ <;> rw [hn] <;> rfl
      · refine absurd hslot (h.slot_of_untried (hpt _ ?_))
        exact List.mem_cons_self ..
    | nil => exact .concludes rfl rfl (p.evicted_apart now n)

/-- A call on a closed pool that goes on by itself. -/
theorem advance_sweeps (h : p.Sound ℓ) (hpt : ∀ x ∈ pt.charges, x ∈ ℓ.charges)
    (hc : p.closed = true) (hs : p.advance now self ended pt = some s) : s.Sweeps pt := by
  -- a borrower that looks for an object fails
  have hseek : ∀ (pt : Point ρ) (b : Borrowing) (ticket : Option Nat), pt.concludes = false →
      pt.agenda? = none → (p.seek now b ticket).Sweeps pt := by
    intro pt b ticket hconc hagenda
    unfold Pool.seek
    rw [if_pos hc]
    exact .of_apart hconc hagenda ⟨rfl, rfl, rfl⟩
  cases goesOn_of_advance hs with
  | borrow b => exact .of_apart rfl rfl (p.borrow_apart now b)
  | seek b => exact hseek _ b none rfl rfl
  | waiting b t _ => exact hseek _ b (some t) rfl rfl
  | add => exact .of_apart rfl rfl p.add_apart
  | prepare => exact .of_apart rfl rfl p.prepare_apart
  | filling f made => exact .of_apart rfl rfl (p.fill_apart f made)
  | upkeep =>
    -- a round that begins finds the pool closed
    unfold Pool.upkeep
    rw [if_pos hc]
    exact .of_apart rfl rfl ⟨rfl, rfl, rfl⟩
  | evicting out tests n => exact h.evictNext_sweeps hpt now
  | swept n w => exact .of_apart rfl rfl (p.swept_apart now n w)
  | reclaiming x rest n w => exact .of_apart rfl rfl (p.reclaimNext_apart x rest n w)
  | takeBack id answer => exact .of_apart rfl rfl (p.takeBack_apart now id answer)
  | discard id => exact .of_apart rfl rfl (p.discard_apart id)
  | clear => exact .of_apart rfl rfl ⟨rfl, rfl, rfl⟩
  | close c => exact .of_apart rfl rfl (p.close_apart self c)
  | draining rest d => exact .of_apart rfl rfl (p.drainNext_apart rest d)
  | joining k rest c _ => exact .of_apart rfl rfl ⟨rfl, rfl, rfl⟩

/-- A call that gets an answer. -/
theorem respond_sweeps {c : Response ρ} (hs : p.respond now pt c = some s) : s.Sweeps pt := by
  cases answered_of_respond hs with
  | notCreated m reason => exact .of_apart rfl rfl (p.notCreated_apart _ _)
  | createdForLoan b v => exact .of_apart rfl rfl (p.createdForLoan_apart now _ _)
  | createdForStock k v => exact .of_apart rfl rfl (p.createdForStock_apart now _ _)
  | activatedForLoan id b fresh v refusal =>
    exact .of_apart rfl rfl (p.activatedForLoan_apart _ _ _ _ _)
  | activatedForTest id tests n v refusal =>
    rcases p.activatedForTest_cases id tests n v refusal with hn | hn
    · refine .keeps rfl ?_ ?_ <;> rw [hn] <;> rfl
    · exact .of_follows rfl rfl hn
  | validatedForLoan id b fresh fit => exact .of_apart rfl rfl (p.validatedForLoan_apart _ _ _ _)
  | validatedForTest id tests n fit =>
    rcases p.validatedForTest_cases id tests n fit with hn | hn
    · refine .keeps rfl ?_ ?_ <;> rw [hn] <;> rfl
    · exact .of_follows rfl rfl hn
  | validatedForStock id k fit => exact .of_apart rfl rfl (p.validatedForStock_apart _ _ _)
  | validatedReturn id answer fit => exact .of_apart rfl rfl (p.validatedReturn_apart _ _ _)
  | passivatedForTest id tests n v refusal =>
    exact .of_follows rfl rfl (p.passivatedForTest_follows id tests n v refusal)
  | passivatedForStock id k v refusal => exact .of_apart rfl rfl (settle_apart _ _ _ _)
  | passivatedReturn id answer v refusal =>
    exact .of_apart rfl rfl (p.passivatedReturn_apart _ _ _ _)
  | destroyed id v mode k refusal => exact .of_follows rfl rfl (p.destroyed_follows id k refusal)
  | reported report x rest n w =>
    exact .of_apart rfl rfl ((dispose_follows _ _ _ _ _).apart rfl)

/-- The objects lent by a closed pool are gone through only by a round whose idle sweep is over. -/
theorem concludes_of_pass (hc : p.closed = true) (hs : p.advance now self ended pt = some s)
    (hsweeps : pt.sweeps = true) (hpass : s.next.isPass = true) : pt.concludes = true := by
  cases goesOn_of_advance hs with
  | borrow b =>
    -- a borrow does not look for abandoned objects in a closed pool
    rcases (borrow_dismisses hc now b).1.next with hn | ⟨pt', hn, hv, -⟩
    · rw [hn] at hpass
      cases hpass
    · rw [hn] at hpass
      cases pt' with
      | reclaiming => cases hv
      | _ => cases hpass
  | evicting out tests n =>
    cases out with
    | cons x out => cases hsweeps
    | nil =>
      cases tests with
      | cons x tests => cases hsweeps
      | nil => rfl
  | _ => cases hsweeps

end Pool

end ObjectPool
