/-
  ObjectPool.Proofs.Step

  Every stretch of every call leaves pool and ledger in agreement: `advance_sound`
  for a call that goes on by itself, `respond_sound` for one that gets an answer.
  Nor does any of them swap resources (`Keeps.advance`, `Keeps.respond`). One case
  for each point at which a call can stand.
-/

import ObjectPool.Proofs.Stretch.Close
import ObjectPool.Proofs.Stretch.TakeBack
import ObjectPool.Proofs.Stretch.Upkeep
import ObjectPool.Pool.Step

namespace ObjectPool

/-- How many objects an answer of the factory brings. -/
def Point.births {ρ : Type} : Point ρ → Response ρ → Nat
  | .creating _, .created (.ok _) => 1
  | _, _ => 0

namespace Pool

variable {ρ : Type} {p : Pool ρ} {ℓ : Ledger ρ} {slots : Nat → Option ρ} {pt : Point ρ}
  {s : Stretch ρ}

/-- A call that goes on by itself leaves pool and ledger in agreement. -/
theorem advance_sound {now : Instant} {self : Nat} {ended : Nat → Bool}
    (h : p.Sound (ℓ.add slots pt)) (hs : p.advance now self ended pt = some s) : s.Sound ℓ := by
  cases goesOn_of_advance hs with
  | borrow b => exact Sound.borrow h now b
  | seek b => exact Sound.seek now b none h
  | waiting b t _ => exact Sound.seek now b (some t) h
  | add => exact Sound.add h
  | prepare => exact Sound.prepare h
  | filling f made => exact Sound.fill h f made
  | upkeep => exact Sound.upkeep h now
  | evicting out tests n => exact Sound.evictNext h now n
  | swept n w => exact Sound.swept h now n w
  | reclaiming x rest n w => exact Sound.reclaimNext h
  | takeBack id answer =>
    have hback : p.Sound ((ℓ.promising answer).lend id ⟨false, slots id⟩) := h
    exact hback.takeBack now
  | discard id => exact Sound.discard h
  | clear => exact Sound.clear h
  | close c => exact Sound.close self h
  | draining rest d => exact Sound.drainNext h
  | joining k rest c _ => exact h

/-- A call that gets an answer leaves pool and ledger in agreement. -/
theorem respond_sound {now : Instant} {r : Response ρ} (h : p.Sound (ℓ.add slots pt))
    (hs : p.respond now pt r = some s) : s.Sound (ℓ.bear (pt.births r)) := by
  cases answered_of_respond hs with
  | notCreated m reason => exact Sound.notCreated h _ _
  | createdForLoan b v => exact Sound.createdForLoan h now _ _
  | createdForStock k v => exact Sound.createdForStock h now _ _
  | activatedForLoan id b fresh v refusal => exact Sound.activatedForLoan h _ _ _ _
  | activatedForTest id tests n v refusal => exact Sound.activatedForTest h _ _
  | validatedForLoan id b fresh fit => exact Sound.validatedForLoan h _ _ _
  | validatedForTest id tests n fit => exact Sound.validatedForTest h _
  | validatedForStock id k fit => exact Sound.validatedForStock h _ _
  | validatedReturn id answer fit => exact Sound.validatedReturn h _
  | passivatedForTest id tests n v refusal => exact Sound.passivatedForTest h _ _
  | passivatedForStock id k v refusal => exact Sound.passivatedForStock h _ _ _
  | passivatedReturn id answer v refusal => exact Sound.passivatedReturn h _ _
  | destroyed id v mode k refusal => exact Sound.buried h _
  | reported report x rest n w => exact Sound.disposeReclaimed h

end Pool

end ObjectPool

/-! ## Where the resources go -/

namespace ObjectPool.Pool.Keeps

variable {ρ : Type} {ok : Nat → ρ → Prop} {p : Pool ρ} {id : Nat} {r : ρ}

/-- A call that goes on by itself swaps no resources. -/
theorem advance (h : p.Keeps ok) {pt : Point ρ} (hpt : AllFit ok pt.resources) {now : Instant}
    {self : Nat} {ended : Nat → Bool} {s : Stretch ρ} (hs : p.advance now self ended pt = some s) :
    s.Keeps ok := by
  cases goesOn_of_advance hs with
  | borrow b => exact h.borrow now b
  | seek b => exact h.seek now b none
  | waiting b t _ => exact h.seek now b (some t)
  | add => exact h.add
  | prepare => exact h.prepare
  | filling f made => exact h.fill f made
  | upkeep => exact h.upkeep now
  | evicting out tests n => exact h.evictNext now out tests n
  | swept n w => exact h.swept now n w
  | reclaiming x rest n w => exact h.reclaimNext hpt n w
  | takeBack id answer => exact h.takeBack now answer
  | discard id => exact h.discard
  | clear => exact ⟨h, .nil⟩
  | close c => exact h.close self c
  | draining rest d => exact h.drainNext rest d
  | joining k rest c _ => exact h.go .nil

/-- A call that gets an answer swaps no resources. -/
theorem respond (h : p.Keeps ok) {pt : Point ρ} (hpt : AllFit ok pt.resources) {now : Instant}
    {c : Response ρ} (hc : p.Brings ok pt c) {s : Stretch ρ} (hs : p.respond now pt c = some s) :
    s.Keeps ok := by
  cases answered_of_respond hs with
  | notCreated m reason => exact h.notCreated _ _
  | createdForLoan b v => exact h.createdForLoan (hc.created _ _ rfl rfl) now _
  | createdForStock k v => exact h.createdForStock (hc.created _ _ rfl rfl) now _
  | activatedForLoan id b fresh v refusal =>
    exact h.activatedForLoan (hc.changed _ _ rfl rfl) _ _ _
  | activatedForTest id tests n v refusal =>
    exact h.activatedForTest (hc.changed _ _ rfl rfl) _ _ _
  | validatedForLoan id b fresh fit => exact h.validatedForLoan _ _ _
  | validatedForTest id tests n fit => exact h.validatedForTest _ _ _
  | validatedForStock id k fit => exact h.validatedForStock _ _
  | validatedReturn id answer fit => exact h.validatedReturn _ _
  | passivatedForTest id tests n v refusal =>
    exact h.passivatedForTest (hc.changed _ _ rfl rfl) _ _ _
  | passivatedForStock id k v refusal =>
    exact h.passivatedForStock (hc.changed _ _ rfl rfl) _ _
  | passivatedReturn id answer v refusal =>
    exact h.passivatedReturn (hc.changed _ _ rfl rfl) _ _
  | destroyed id v mode k refusal =>
    -- the objects that wait behind the destroyed one keep their resources
    have hresume := h.resume fun x hx => hpt x (List.mem_cons_of_mem _ hx)
    cases refusal with
    | some reason => exact hresume.noting _
    | none => exact hresume
  | reported report x rest n w => exact h.disposeReclaimed hpt _ _

end ObjectPool.Pool.Keeps
