/-
  ObjectPool.Proofs.Stretch.Weeding

  What the stretches of an idle sweep do, once it is settled which objects go and which are
  tried out. Those that go are destroyed one after the other; then each of the others is
  readied, checked and laid to rest, as far as it passes, and goes back to the end of the idle
  queue or is destroyed.

    * `Pool.Alike` — nothing has happened to the books or to the state of an object.
    * `Stretch.Rejects` — an object that was tried out is given up.
    * `Pool.Weeds` — what a stretch of the sweep does, point by point.
    * `IsTurn.weeds` — every turn of a sweep is one of these.
-/

import ObjectPool.Proofs.Stretch.Culling
import ObjectPool.Proofs.Stretch.Homecoming

namespace ObjectPool

variable {ρ : Type}

/-- Two pools with the same books, in which all objects are in the same states. -/
structure Pool.Alike (p q : Pool ρ) : Prop where
  config : q.config = p.config
  registry : q.registry = p.registry
  states : ∀ x, q.stateOf x = p.stateOf x

theorem Pool.Alike.refl (p : Pool ρ) : p.Alike p := ⟨rfl, rfl, fun _ => rfl⟩

/-- A stretch after which the factory destroys an object that was tried out and is not kept; `k` is
    1 if that was for a failure. -/
structure Stretch.Rejects (p : Pool ρ) (id : Nat) (tests : List Nat) (n k : Nat) (s : Stretch ρ) :
    Prop where
  gives : s.Discards p id (.evict [] tests n)
  state : s.pool.stateOf id = .invalid
  counters : s.pool.counters = { p.counters with
    destroyed := p.counters.destroyed + 1
    validationFailures := p.counters.validationFailures + k }

/-- A call is in an idle sweep in which `n` objects were evicted. -/
inductive Point.InSweep (n : Nat) : Point ρ → Prop
  | between (out tests : List Nat) : InSweep n (.evicting out tests n)
  | readied (id : Nat) (tests : List Nat) : InSweep n (.activating id (.test tests n))
  | checked (id : Nat) (tests : List Nat) : InSweep n (.validating id (.trial (.test tests n)))
  | rested (id : Nat) (tests : List Nat) : InSweep n (.passivating id (.test tests n))
  | given (id : Nat) (v : ρ) (out tests : List Nat) :
      InSweep n (.destroying id v .normal (.evict out tests n))

namespace Pool

variable {p q : Pool ρ} {ℓ : Ledger ρ} {id n : Nat} {v : ρ} {now : Instant} {out tests : List Nat}

/-- What a stretch of an idle sweep does, point by point. -/
inductive Weeds (p : Pool ρ) (n : Nat) : Point ρ → Option Deed → Stretch ρ → Prop
  | removes {s : Stretch ρ} (id : Nat) (v : ρ) (out tests : List Nat)
      (next : s.next = .go (.destroying id v .normal (.evict out tests n))) (same : p.Alike s.pool)
      (counters : s.pool.counters = { p.counters with
        evicted := p.counters.evicted + 1, destroyed := p.counters.destroyed + 1 }) :
      Weeds p n (.evicting (id :: out) tests n) none s
  | readies {s : Stretch ρ} (id : Nat) (tests : List Nat)
      (next : s.next = .go (.activating id (.test tests n))) (same : p.Alike s.pool)
      (counters : s.pool.counters = p.counters) :
      Weeds p n (.evicting [] (id :: tests) n) none s
  /-- The sweep is over. -/
  | ended {s : Stretch ρ} : Weeds p n (.evicting [] [] n) none s
  | ready {s : Stretch ρ} (id : Nat) (tests : List Nat)
      (next : s.next = .go (.validating id (.trial (.test tests n)))) (same : p.Alike s.pool)
      (counters : s.pool.counters = p.counters) :
      Weeds p n (.activating id (.test tests n)) (some (.readied id none)) s
  | unready {s : Stretch ρ} (id : Nat) (tests : List Nat) (reason : String)
      (rejects : s.Rejects p id tests n 1) :
      Weeds p n (.activating id (.test tests n)) (some (.readied id (some reason))) s
  | fit {s : Stretch ρ} (id : Nat) (tests : List Nat)
      (next : s.next = .go (.passivating id (.test tests n))) (same : p.Alike s.pool)
      (counters : s.pool.counters = p.counters) :
      Weeds p n (.validating id (.trial (.test tests n))) (some (.checked id true)) s
  | unfit {s : Stretch ρ} (id : Nat) (tests : List Nat) (rejects : s.Rejects p id tests n 1) :
      Weeds p n (.validating id (.trial (.test tests n))) (some (.checked id false)) s
  | stiff {s : Stretch ρ} (id : Nat) (tests : List Nat) (reason : String)
      (rejects : s.Rejects p id tests n 1) :
      Weeds p n (.passivating id (.test tests n)) (some (.laidToRest id (some reason))) s
  /-- The pool was closed in the meantime. -/
  | shut {s : Stretch ρ} (id : Nat) (tests : List Nat) (closed : p.closed = true)
      (rejects : s.Rejects p id tests n 0) :
      Weeds p n (.passivating id (.test tests n)) (some (.laidToRest id none)) s
  | kept {s : Stretch ρ} (id : Nat) (tests : List Nat) (isOpen : p.closed = false)
      (next : s.next = .go (.evicting [] tests n)) (config : s.pool.config = p.config)
      (registry : s.pool.registry = p.registry.restoreIdle id)
      (state : s.pool.stateOf id = .idle)
      (others : ∀ x, x ≠ id → s.pool.object? x = p.object? x)
      (counters : s.pool.counters = p.counters) :
      Weeds p n (.passivating id (.test tests n)) (some (.laidToRest id none)) s
  | destroyed {s : Stretch ρ} (id : Nat) (v : ρ) (out tests : List Nat)
      (next : s.next = .go (.evicting out tests n)) (same : s.pool = p) :
      Weeds p n (.destroying id v .normal (.evict out tests n)) (some (.destroyed id .normal)) s

/-! ## Point by point -/

theorem stateOf_of_object? {x : Nat} (h : q.object? x = p.object? x) :
    q.stateOf x = p.stateOf x := by
  unfold stateOf
  rw [h]

/-- A change to an object that leaves its state as it is. -/
theorem alike_modify {f : Entry ρ → Entry ρ} (hf : ∀ e, (f e).state = e.state) (p : Pool ρ)
    (id : Nat) : p.Alike (p.modify id f) where
  config := rfl
  registry := rfl
  states x := by
    unfold stateOf
    rw [object?_modify]
    by_cases hx : id = x
    · rw [if_pos hx]
      cases p.object? x with
      | none => rfl
      | some e => exact hf e
    · rw [if_neg hx]

/-- An object that is marked as out of circulation already is retired. -/
theorem stateOf_retired (h : p.stateOf id = .invalid) (x : Nat) :
    ((p.emptySlot id).retire id).stateOf x = p.stateOf x := by
  rw [stateOf_eq_shape?, shape?_retire, shape?_emptySlot]
  by_cases hx : id = x
  · subst hx
    rw [if_pos rfl, if_pos rfl, h]
    cases p.shape? id <;> rfl
  · rw [if_neg hx, if_neg hx, stateOf_eq_shape?]

/-- An object that is no longer tracked, and is marked so already, goes to be destroyed. -/
theorem weeds_removes (hslot : p.slot? id = some v) (hstate : p.stateOf id = .invalid) :
    p.Weeds n (.evicting (id :: out) tests n) none (p.evictNext now (id :: out) tests n) := by
  have hcounted : (p.count fun c => { c with evicted := c.evicted + 1 }).slot? id = some v := hslot
  show p.Weeds n _ _ ((p.count _).finishDestroy id _)
  rw [finishDestroy, hcounted]
  exact .removes id v out tests rfl
    ⟨rfl, rfl, fun x => stateOf_retired (p := p.count _) hstate x⟩ rfl

theorem weeds_readies (hslot : p.slot? id = some v) :
    p.Weeds n (.evicting [] (id :: tests) n) none (p.evictNext now [] (id :: tests) n) := by
  rw [evictNext, activate, hslot]
  exact .readies id tests rfl
    (alike_modify (f := fun e => { e with held := true }) (fun _ => rfl) p id) rfl

/-- An object that was tried out and failed is given up. -/
theorem SameBut.failTest (h : SameBut id p q) (hslot : q.slot? id = some v)
    (hcounters : q.counters = p.counters) : (q.failTest id tests n).Rejects p id tests n 1 := by
  have hgives := (h.count fun c => { c with
    validationFailures := c.validationFailures + 1 }).destroy (v := v) hslot (.evict [] tests n)
  refine ⟨⟨hgives.next, hgives.config, hgives.registry, hgives.others, hgives.forgot⟩,
    stateOf_destroy _ id _, ?_⟩
  show ((q.count _).destroy id _).pool.counters = _
  rw [destroy_pool, ← hcounters]
  rfl

theorem weeds_activated {y : Entry ρ} (hy : p.object? id = some y) (v : ρ)
    (refusal : Option String) : p.Weeds n (.activating id (.test tests n))
      (some (.readied id refusal)) (p.activatedForTest id tests n v refusal) := by
  cases refusal with
  | none => exact .ready id tests rfl (alike_modify (f := fun e => { e with slot := some v })
      (fun _ => rfl) p id) rfl
  | some reason =>
    have hslot : (p.letGo id v).slot? id = some v := by
      unfold slot? letGo
      rw [object?_modify, if_pos rfl, hy]
      rfl
    have hfree : SameBut id p (p.letGo id v) := (SameBut.refl id p).modify _
    exact .unready id tests reason (hfree.failTest hslot rfl)

theorem weeds_validated (hslot : p.slot? id = some v) (fit : Bool) :
    p.Weeds n (.validating id (.trial (.test tests n))) (some (.checked id fit))
      (p.validatedForTest id tests n fit) := by
  cases fit with
  | true => exact .fit id tests rfl (.refl p) rfl
  | false =>
    have hslot' : (p.release id).slot? id = some v :=
      slot?_modify_self (f := fun e => { e with held := false }) (fun _ => rfl) hslot
    have hfree : SameBut id p (p.release id) := (SameBut.refl id p).modify _
    exact .unfit id tests (hfree.failTest hslot' rfl)

theorem weeds_passivated (hin : p.isIn id .validation = true) (v : ρ) (refusal : Option String) :
    p.Weeds n (.passivating id (.test tests n)) (some (.laidToRest id refusal))
      (p.passivatedForTest id tests n v refusal) := by
  obtain ⟨y, hy, hstate⟩ := (Option.any_eq_true _ _).mp hin
  have hfree : SameBut id p (p.letGo id v) := (SameBut.refl id p).modify _
  have hobject : (p.letGo id v).object? id = some { y with held := false, slot := some v } := by
    unfold letGo
    rw [object?_modify, if_pos rfl, hy]
    rfl
  have hslot : (p.letGo id v).slot? id = some v := by
    unfold slot?
    rw [hobject]
    rfl
  cases refusal with
  | some reason => exact .stiff id tests reason (hfree.failTest hslot rfl)
  | none =>
    have hin' : (p.letGo id v).isIn id .validation = true := by
      unfold isIn
      rw [hobject]
      exact hstate
    show p.Weeds n _ _ ((p.letGo id v).passTest id tests n)
    unfold passTest
    cases hclosed : p.closed with
    | true =>
      -- the pool may have been closed while the factory was at work
      rw [if_neg fun h => absurd (h.1.symm.trans hclosed) Bool.false_ne_true]
      refine .shut id tests hclosed ⟨hfree.destroy hslot _, stateOf_destroy _ id _, ?_⟩
      rw [destroy_pool]
      rfl
    | false =>
      rw [if_pos ⟨hclosed, hin'⟩]
      refine .kept id tests hclosed rfl rfl rfl ?_ (fun x hx => ?_) rfl
      · show ((p.letGo id v).setState id .idle).stateOf id = .idle
        unfold stateOf setState
        rw [object?_modify, if_pos rfl, hobject]
        exact Entry.become_state ..
      · exact (hfree.modify (Entry.become .idle)).others x hx

theorem weeds_destroyed (v : ρ) (refusal : Option String) :
    p.Weeds n (.destroying id v .normal (.evict out tests n)) (some (.destroyed id .normal))
      (p.destroyed id (.evict out tests n) refusal) := by
  refine .destroyed id v out tests ?_ (p.destroyed_pool id (.evict out tests n) refusal)
  cases refusal <;> rfl

end Pool

/-- Every turn of a call in an idle sweep is one of the kinds listed. -/
theorem Episode.IsTurn.weeds {t d n : Nat} {e : Episode ρ} {a : Activity ρ} {q : Pool ρ}
    {s : Stretch ρ} {g : Nat → List Nat} (h : e.IsTurn t d a q s) (hw : e.before.Sound g)
    (hpt : a.point.InSweep n) : q.Weeds n a.point e.deed? s := by
  have hsound := (hw.pools a.pool).sound q h.works.pool
  have hshape : ∀ (id : Nat) (c : Custody ρ), (id, c) ∈ a.point.charges →
      ∃ x, c.Has x ∧ q.shape? id = x.shape := fun _ _ hc => by
    obtain ⟨x, hhas, hv⟩ := hsound.position_of_charge (h.works.charge_mem g hc)
    exact ⟨x, hhas, congrArg Position.shape hv⟩
  obtain ⟨i, pt⟩ := a
  rcases h.cases with ⟨hdeed, hs⟩ | ⟨r, -, hdeed, hs⟩
  · rw [hdeed]
    cases hpt with
    | between out tests =>
      cases hs
      cases out with
      | cons id out =>
        obtain ⟨x, hhas, hx⟩ := hshape id .evicted (List.mem_cons_self ..)
        cases hhas with
        | evicted v =>
          refine Pool.weeds_removes (v := v) ?_ ?_
          · rw [Pool.slot?_eq_shape?, hx]; rfl
          · rw [Pool.stateOf_eq_shape?, hx]; rfl
      | nil =>
        cases tests with
        | nil => exact .ended
        | cons id tests =>
          obtain ⟨x, hhas, hx⟩ := hshape id .untried (List.mem_cons_self ..)
          cases hhas with
          | untried v =>
            refine Pool.weeds_readies (v := v) ?_
            rw [Pool.slot?_eq_shape?, hx]; rfl
    | readied | checked | rested | given => cases hs
  · rw [hdeed]
    cases hpt with
    | between => cases hs
    | readied id tests =>
      cases hs with
      | activatedForTest _ _ _ v refusal =>
        obtain ⟨x, hhas, hx⟩ := hshape id .trying (List.mem_cons_self ..)
        cases hhas with
        | trying u =>
          obtain ⟨y, hy, -⟩ := Option.map_eq_some_iff.mp hx
          exact Pool.weeds_activated hy v refusal
    | checked id tests =>
      cases hs with
      | validatedForTest _ _ _ fit =>
        obtain ⟨x, hhas, hx⟩ := hshape id .trying (List.mem_cons_self ..)
        cases hhas with
        | trying u =>
          refine Pool.weeds_validated (v := u) ?_ fit
          rw [Pool.slot?_eq_shape?, hx]; rfl
    | rested id tests =>
      cases hs with
      | passivatedForTest _ _ _ v refusal =>
        obtain ⟨x, hhas, hx⟩ := hshape id .trying (List.mem_cons_self ..)
        cases hhas with
        | trying u =>
          refine Pool.weeds_passivated ?_ v refusal
          rw [Pool.isIn_eq_shape?, hx]; rfl
    | given id v out tests =>
      cases hs with
      | destroyed _ _ _ _ refusal => exact Pool.weeds_destroyed v refusal

end ObjectPool
