/-
  ObjectPool.Proofs.Stretch.Homecoming

  How an object comes home, stretch by stretch. A call that has been given an object back marks
  it, has it checked and laid to rest, and puts it among the idle ones; at every point at which
  something speaks against that, it gives the object up to be destroyed instead.

    * `Pool.SameBut` — two pools that differ in one object alone.
    * `Stretch.Discards` — a stretch that gives an object up.
    * `Pool.BringsBack` — what a stretch can make of an object that comes back.
    * `IsTurn.bringsBack` — every turn of such a call is one of these.
-/

import ObjectPool.Proofs.Bystanders
import ObjectPool.Proofs.Stretch.Capture

namespace ObjectPool

variable {ρ : Type}

/-! ## Changes to one object -/

/-- Two pools that differ in one object alone, and in what they count. -/
structure Pool.SameBut (id : Nat) (p q : Pool ρ) : Prop where
  config : q.config = p.config
  registry : q.registry = p.registry
  others : ∀ x, x ≠ id → q.object? x = p.object? x

namespace Pool.SameBut

variable {p q : Pool ρ} {id : Nat}

theorem refl (id : Nat) (p : Pool ρ) : SameBut id p p := ⟨rfl, rfl, fun _ _ => rfl⟩

theorem modify (h : SameBut id p q) (f : Entry ρ → Entry ρ) : SameBut id p (q.modify id f) where
  config := h.config
  registry := h.registry
  others := fun x hx => by
    rw [object?_modify, if_neg (Ne.symm hx)]
    exact h.others x hx

theorem count (h : SameBut id p q) (f : Counters → Counters) : SameBut id p (q.count f) :=
  ⟨h.config, h.registry, h.others⟩

theorem closed (h : SameBut id p q) : q.closed = p.closed := congrArg Registry.closed h.registry

end Pool.SameBut

/-- The use of an object is forgotten. -/
def Pool.Forgot (p : Pool ρ) (id : Nat) : Prop := ∀ y, p.object? id = some y → y.lastUse = none

theorem Entry.become_lastUse (s : Lifecycle) (e : Entry ρ) :
    (e.become s).lastUse = e.lastUse := by
  unfold Entry.become
  split <;> rfl

/-- A change to an object that leaves its last use alone. -/
theorem Pool.Forgot.modify {p : Pool ρ} {id : Nat} (h : p.Forgot id) {f : Entry ρ → Entry ρ}
    (hf : ∀ y, (f y).lastUse = y.lastUse) : (p.modify id f).Forgot id := by
  intro y hy
  rw [object?_modify, if_pos rfl] at hy
  obtain ⟨x, hx, rfl⟩ := Option.map_eq_some_iff.mp hy
  exact (hf x).trans (h x hx)

theorem Pool.forgot_modify (p : Pool ρ) (id : Nat) {f : Entry ρ → Entry ρ}
    (hf : ∀ y, (f y).lastUse = none) : (p.modify id f).Forgot id := by
  intro y hy
  rw [object?_modify, if_pos rfl] at hy
  obtain ⟨x, -, rfl⟩ := Option.map_eq_some_iff.mp hy
  exact hf x

/-! ## An object is given up -/

/-- A stretch after which the factory destroys an object that the books list no longer, and the
    call goes on with `k`. -/
structure Stretch.Discards (p : Pool ρ) (id : Nat) (k : After ρ) (s : Stretch ρ) : Prop where
  next : ∃ v, s.next = .go (.destroying id v .normal k)
  config : s.pool.config = p.config
  registry : s.pool.registry = p.registry.detach id
  others : ∀ x, x ≠ id → s.pool.object? x = p.object? x
  forgot : s.pool.Forgot id

namespace Pool

variable {p q : Pool ρ} {id : Nat} {v : ρ}

/-- The pool once an object is given up. -/
theorem destroy_pool (p : Pool ρ) (id : Nat) (k : After ρ) :
    (p.destroy id k).pool = ((p.detach id).emptySlot id).retire id := dispose_pool ..

theorem SameBut.destroy (h : SameBut id p q) (hslot : q.slot? id = some v) (k : After ρ) :
    (q.destroy id k).Discards p id k := by
  -- an object is retired by changes to its own entry and to what is counted
  have hretired : SameBut id (q.detach id) ((q.detach id).emptySlot id |>.retire id) :=
    ((((SameBut.refl id _).modify _).modify _).modify _).count _
  refine ⟨⟨v, destroy_next hslot k⟩, ?_, ?_, fun x hx => ?_, ?_⟩
  · rw [destroy_pool]
    exact hretired.config.trans h.config
  · rw [destroy_pool]
    refine hretired.registry.trans ?_
    rw [← h.registry]
    rfl
  · rw [destroy_pool]
    exact (hretired.others x hx).trans (h.others x hx)
  · rw [destroy_pool]
    have hforgot : (((((q.detach id).emptySlot id).setState id .invalid).forgetUse id)).Forgot id :=
      forgot_modify _ id fun _ => rfl
    exact hforgot

theorem slot?_modify_self {f : Entry ρ → Entry ρ} (hf : ∀ e, (f e).slot = e.slot)
    (hslot : p.slot? id = some v) : (p.modify id f).slot? id = some v :=
  (slot?_modify_of_eq hf id id p).trans hslot

/-! ## What becomes of an object that comes back -/

/-- What a stretch of a call makes of the object `id` that the pool was given back, point by point;
    `answer` replaces the reply if the call has one of its own. -/
inductive BringsBack (p : Pool ρ) (id : Nat) (answer : Option Reply) :
    Point ρ → Option Deed → Stretch ρ → Prop
  /-- The pool had taken the object back before. -/
  | refused {s : Stretch ρ} (lost : p.isIn id .allocated = false)
      (next : s.next = .finish (answer.getD (.failed .invalidReturn))) :
      BringsBack p id answer (.takeBack id answer) none s
  | late {s : Stretch ρ} (lent : p.isIn id .allocated = true) (closed : p.closed = true)
      (gives : s.Discards p id (.reply (answer.getD (.failed .closed)))) :
      BringsBack p id answer (.takeBack id answer) none s
  | tests {s : Stretch ρ} (lent : p.isIn id .allocated = true) (isOpen : p.closed = false)
      (test : p.config.testOnReturn = true)
      (next : s.next = .go (.validating id (.takeBack answer))) (same : SameBut id p s.pool)
      (forgot : s.pool.Forgot id) : BringsBack p id answer (.takeBack id answer) none s
  | lays {s : Stretch ρ} (lent : p.isIn id .allocated = true) (isOpen : p.closed = false)
      (test : p.config.testOnReturn = false)
      (next : s.next = .go (.passivating id (.takeBack answer))) (same : SameBut id p s.pool)
      (forgot : s.pool.Forgot id) : BringsBack p id answer (.takeBack id answer) none s
  | fit {s : Stretch ρ} (next : s.next = .go (.passivating id (.takeBack answer)))
      (same : SameBut id p s.pool) (forgot : p.Forgot id → s.pool.Forgot id) :
      BringsBack p id answer (.validating id (.takeBack answer)) (some (.checked id true)) s
  | unfit {s : Stretch ρ} (gives : s.Discards p id (.reply (answer.getD .done))) :
      BringsBack p id answer (.validating id (.takeBack answer)) (some (.checked id false)) s
  | stiff {s : Stretch ρ} (reason : String)
      (gives : s.Discards p id (.reply (answer.getD .done))) :
      BringsBack p id answer (.passivating id (.takeBack answer))
        (some (.laidToRest id (some reason))) s
  /-- The pool was closed in the meantime. -/
  | shut {s : Stretch ρ} (closed : p.closed = true)
      (gives : s.Discards p id (.reply (answer.getD (.failed .closed)))) :
      BringsBack p id answer (.passivating id (.takeBack answer)) (some (.laidToRest id none)) s
  | full {s : Stretch ρ} (isOpen : p.closed = false)
      (full : p.config.maxIdle ≤ p.registry.idle.length)
      (gives : s.Discards p id (.reply (answer.getD .done))) :
      BringsBack p id answer (.passivating id (.takeBack answer)) (some (.laidToRest id none)) s
  | shelved {s : Stretch ρ} (isOpen : p.closed = false)
      (below : p.registry.idle.length < p.config.maxIdle)
      (next : s.next = .finish (answer.getD .done))
      (registry : s.pool.registry = p.registry.checkin id)
      (others : ∀ x, x ≠ id → s.pool.object? x = p.object? x)
      (forgot : p.Forgot id → s.pool.Forgot id) :
      BringsBack p id answer (.passivating id (.takeBack answer)) (some (.laidToRest id none)) s
  | gone {s : Stretch ρ} (v : ρ) (r : Reply) (next : s.next = .finish r) (same : s.pool = p) :
      BringsBack p id answer (.destroying id v .normal (.reply r))
        (some (.destroyed id .normal)) s

variable {answer : Option Reply} {now : Instant} {ℓ : Ledger ρ}

/-! ### Point by point -/

theorem bringsBack_takeBack (hlent : p.isIn id .allocated = true →
    id ∈ p.registry.active ∧ ∃ v, p.slot? id = some v) :
    p.BringsBack id answer (.takeBack id answer) none (p.takeBack now id answer) := by
  -- an object that is not lent is refused, also one that is not listed as lent
  cases hin : p.isIn id .allocated with
  | false =>
    refine .refused hin ?_
    unfold takeBack
    rw [hin]
    split
    · rfl
    · rfl
  | true =>
    -- the borrow is over, and the object is marked before the factory sees it
    obtain ⟨hactive, v, hslot⟩ := hlent hin
    have hmarked : SameBut id p (p.markReturned now id) := ((SameBut.refl id p).modify _).count _
    have hforgot : (p.markReturned now id).Forgot id := by
      have hmodified := forgot_modify p id
        (f := fun e => { e.become .returning with lastReturn := now, lastUse := none }) fun _ => rfl
      exact hmodified
    have hslot' : (p.markReturned now id).slot? id = some v := slot?_modify_self
      (f := fun e => { e.become .returning with lastReturn := now, lastUse := none })
      (Entry.become_slot .returning) hslot
    have hheld : ((p.markReturned now id).hold id).Forgot id :=
      hforgot.modify (f := fun e => { e with held := true }) fun _ => rfl
    unfold takeBack
    rw [if_neg (not_not_intro hactive), if_neg (by simp [hin])]
    dsimp only
    split
    · rename_i hclosed
      exact .late hin hclosed (hmarked.destroy hslot' _)
    · rename_i hopen
      have hopen' : p.closed = false := Bool.eq_false_iff.mpr hopen
      split
      · rename_i htest
        rw [hslot']
        exact .tests hin hopen' htest rfl (hmarked.modify _) hheld
      · rename_i htest
        unfold passivate
        rw [hslot']
        exact .lays hin hopen' (Bool.eq_false_iff.mpr htest) rfl (hmarked.modify _) hheld

theorem bringsBack_validated (hslot : p.slot? id = some v) (fit : Bool) :
    p.BringsBack id answer (.validating id (.takeBack answer)) (some (.checked id fit))
      (p.validatedReturn id answer fit) := by
  have hreleased : SameBut id p (p.release id) := (SameBut.refl id p).modify _
  have hslot' : (p.release id).slot? id = some v :=
    slot?_modify_self (f := fun e => { e with held := false }) (fun _ => rfl) hslot
  unfold validatedReturn
  -- the lock is let go first, in either case
  cases fit with
  | true =>
    rw [if_pos rfl]
    unfold passivate
    rw [hslot']
    refine .fit rfl (hreleased.modify _) fun h => ?_
    have hfree : (p.release id).Forgot id :=
      h.modify (f := fun e => { e with held := false }) fun _ => rfl
    exact hfree.modify (f := fun e => { e with held := true }) fun _ => rfl
  | false =>
    have hgives := (hreleased.count fun c => { c with
      validationFailures := c.validationFailures + 1 }).destroy hslot' (.reply (answer.getD .done))
    rw [if_neg Bool.false_ne_true]
    exact .unfit ⟨hgives.next, hgives.config, hgives.registry, hgives.others, hgives.forgot⟩

theorem bringsBack_passivated {y : Entry ρ} (hy : p.object? id = some y) (v : ρ)
    (refusal : Option String) : p.BringsBack id answer (.passivating id (.takeBack answer))
      (some (.laidToRest id refusal)) (p.passivatedReturn id answer v refusal) := by
  have hfree : SameBut id p (p.letGo id v) := (SameBut.refl id p).modify _
  have hslot : (p.letGo id v).slot? id = some v := by
    unfold slot? letGo
    rw [object?_modify, if_pos rfl, hy]
    rfl
  have hgives : ∀ k, ((p.letGo id v).destroy id k).Discards p id k := fun k => hfree.destroy hslot k
  have hnoted : ∀ {k : After ρ} {s : Stretch ρ} (n : Notice), s.Discards p id k →
      (s.noting n).Discards p id k :=
    fun n h => ⟨h.next, h.config, h.registry, h.others, h.forgot⟩
  unfold passivatedReturn
  cases refusal with
  | some reason => exact .stiff reason (hnoted _ (hgives _))
  | none =>
    dsimp only
    split
    · -- the pool may have been closed while the factory was at work
      rename_i hclosed
      exact .shut (hfree.closed.symm.trans hclosed) (hgives _)
    · rename_i hopen
      have hopen' : p.closed = false := hfree.closed.symm.trans (Bool.eq_false_iff.mpr hopen)
      split
      · rename_i hfull
        exact .full hopen' hfull (hnoted _ (hgives _))
      · rename_i hfull
        -- an object that somebody else has marked meanwhile keeps its mark
        have hshelf : SameBut id p (if (p.letGo id v).isIn id .returning then
            (p.letGo id v).setState id .idle else p.letGo id v) := by
          split
          · exact hfree.modify _
          · exact hfree
        refine .shelved hopen' (Nat.lt_of_not_le hfull) rfl ?_ hshelf.others fun h => ?_
        · exact congrArg (Registry.checkin id) hshelf.registry
        · have hlet : (p.letGo id v).Forgot id :=
            h.modify (f := fun e => { e with held := false, slot := some v }) fun _ => rfl
          show Pool.Forgot (if (p.letGo id v).isIn id .returning then
            (p.letGo id v).setState id .idle else p.letGo id v) id
          split
          · exact hlet.modify fun y => y.become_lastUse .idle
          · exact hlet

theorem bringsBack_destroyed (v : ρ) (r : Reply) (refusal : Option String) :
    p.BringsBack id answer (.destroying id v .normal (.reply r)) (some (.destroyed id .normal))
      (p.destroyed id (.reply r) refusal) := by
  refine .gone v r ?_ (p.destroyed_pool id (.reply r) refusal)
  cases refusal <;> rfl

end Pool

/-- A point at which a call brings the object `id` back. -/
inductive Point.BringsBack (id : Nat) (answer : Option Reply) : Point ρ → Prop
  | comes : BringsBack id answer (.takeBack id answer)
  | tested : BringsBack id answer (.validating id (.takeBack answer))
  | laid : BringsBack id answer (.passivating id (.takeBack answer))
  | given (v : ρ) (r : Reply) : BringsBack id answer (.destroying id v .normal (.reply r))

/-- An object that is in the charge of a call that brings it back has its resource. -/
theorem Pool.Sound.slot_of_returning {p : Pool ρ} {ℓ : Ledger ρ} {id : Nat} (h : p.Sound ℓ)
    (hc : (id, .returning) ∈ ℓ.charges) : ∃ y v, p.object? id = some y ∧ p.slot? id = some v := by
  obtain ⟨u, hhas, hv⟩ := h.position_of_charge hc
  cases hhas
  rename_i v
  have hshape : p.shape? id = some ⟨.returning, some v, true⟩ := congrArg Position.shape hv
  obtain ⟨y, hy, -⟩ := Option.map_eq_some_iff.mp hshape
  refine ⟨y, v, hy, ?_⟩
  rw [slot?_eq_shape?, hshape]
  rfl

/-- Every turn of a call that brings an object back is one of the kinds listed. -/
theorem Episode.IsTurn.bringsBack {t d id : Nat} {e : Episode ρ} {a : Activity ρ} {q : Pool ρ}
    {s : Stretch ρ} {g : Nat → List Nat} {answer : Option Reply} (h : e.IsTurn t d a q s)
    (hw : e.before.Sound g) (hpt : a.point.BringsBack id answer) :
    q.BringsBack id answer a.point e.deed? s := by
  have hsound := (hw.pools a.pool).sound q h.works.pool
  have hcharge : ∀ {pt : Point ρ}, a.point = pt → (id, .returning) ∈ pt.charges →
      ∃ y v, q.object? id = some y ∧ q.slot? id = some v := fun hpt hc =>
    hsound.slot_of_returning (h.works.charge_mem g (hpt ▸ hc))
  obtain ⟨i, pt⟩ := a
  rcases h.cases with ⟨hdeed, hs⟩ | ⟨r, -, hdeed, hs⟩
  · rw [hdeed]
    cases hpt with
    | comes =>
      cases hs
      refine Pool.bringsBack_takeBack fun hin => ?_
      -- the borrower's hold on the object is still in the ledger
      have hreturns : id ∈ (Point.takeBack (ρ := ρ) id answer).returns := List.mem_singleton.mpr rfl
      have hloan := Ledger.loan_of_returns q ((e.before.pop t).points i) (e.before.lent i) (g i)
        hreturns
      have hsound' := hsound.of_perm h.works.stretches.points (.refl _)
      have hlive : (q.stateOf id).isReclaimed = false := by
        rw [(Pool.stateOf_eq_iff (by decide)).mpr hin]
        rfl
      obtain ⟨hactive, -, hslot⟩ := hsound'.lent_of_live hloan hlive
      exact ⟨hactive, hslot⟩
    | tested | laid | given => cases hs
  · rw [hdeed]
    cases hpt with
    | comes => cases hs
    | tested =>
      cases hs with
      | validatedReturn _ _ fit =>
        obtain ⟨y, v, -, hslot⟩ := hcharge rfl (List.mem_singleton.mpr rfl)
        exact Pool.bringsBack_validated hslot fit
    | laid =>
      cases hs with
      | passivatedReturn _ _ v refusal =>
        obtain ⟨y, -, hy, -⟩ := hcharge rfl (List.mem_singleton.mpr rfl)
        exact Pool.bringsBack_passivated hy v refusal
    | given v r =>
      cases hs with
      | destroyed _ _ _ _ refusal => exact Pool.bringsBack_destroyed v r refusal

end ObjectPool
