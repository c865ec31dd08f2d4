/-
  ObjectPool.Proofs.Stretch.Sifting

  How far an idle sweep has come. A sieve says which objects have gone, which are still to go,
  which were tried out with which verdict, and which are still to be tried. It fixes where the
  call can stand and what the factory has done for it, and, on a pool that nobody else calls,
  the books, the states of all objects and the counters.

    * `Verdict`, `Sieve` — how trials come out, and how far a sweep has come.
    * `SiftStage` — where the call stands then.
    * `Stretch.Sifts`, `SiftStage.turn` — what a turn makes of it.
    * `Pool.Sifted` — the pool, if nobody else calls it.
-/

import ObjectPool.Proofs.Stretch.Weeding
import ObjectPool.Proofs.Onward

namespace ObjectPool

variable {ρ : Type}

/-- How the trial of an idle object comes out. -/
inductive Verdict where
  /-- The factory could not ready it. -/
  | unready (reason : String)
  /-- The factory found it unfit. -/
  | unfit
  /-- The factory could not lay it to rest. -/
  | stiff (reason : String)
  /-- It passed, but the pool was closed in the meantime. -/
  | shut
  | kept
  deriving DecidableEq

namespace Verdict

/-- What the factory does in the trial of an object. -/
def findings (id : Nat) : Verdict → List Deed
  | unready reason => [.readied id (some reason)]
  | unfit => [.readied id none, .checked id false]
  | stiff reason => [.readied id none, .checked id true, .laidToRest id (some reason)]
  | shut | kept => [.readied id none, .checked id true, .laidToRest id none]

/-- What the factory does for an object that is tried out. -/
def deeds (id : Nat) (v : Verdict) : List Deed :=
  v.findings id ++ if v = kept then [] else [.destroyed id .normal]

/-- How many failures are counted. -/
def failures : Verdict → Nat
  | unready _ | unfit | stiff _ => 1
  | shut | kept => 0

end Verdict

/-- How far an idle sweep has come. -/
structure Sieve where
  /-- Evicted, and destroyed or on their way to be. -/
  removed : List Nat := []
  /-- Evicted, and still to be destroyed. -/
  out : List Nat
  /-- Tried out. -/
  tried : List (Nat × Verdict) := []
  /-- Under trial, or still to be tried out. -/
  tests : List Nat

namespace Sieve

/-- What the factory has done, once the last object it has to destroy is destroyed. -/
def deeds (σ : Sieve) : List Deed :=
  σ.removed.map (Deed.destroyed · .normal) ++ σ.tried.flatMap fun x => x.2.deeds x.1

/-- Those that were tried out and kept. -/
def kept (σ : Sieve) : List Nat := (σ.tried.filter fun x => decide (x.2 = .kept)).map Prod.fst

/-- Those that were tried out and not kept. -/
def failed (σ : Sieve) : List Nat := (σ.tried.filter fun x => decide (x.2 ≠ .kept)).map Prod.fst

/-- How many of those that were tried out have failed. -/
def failures (σ : Sieve) : Nat := (σ.tried.map fun x => x.2.failures).sum

/-- Those that were evicted first are destroyed before any other is tried out. -/
def InOrder (σ : Sieve) : Prop := σ.out = [] ∨ σ.tried = []

/-- One more object goes. -/
def remove (σ : Sieve) (id : Nat) (out : List Nat) : Sieve :=
  { σ with removed := σ.removed ++ [id], out }

/-- One more object was tried out. -/
def judge (σ : Sieve) (id : Nat) (v : Verdict) (tests : List Nat) : Sieve :=
  { σ with tried := σ.tried ++ [(id, v)], tests }

variable {σ : Sieve} {id : Nat} {out tests : List Nat} {v : Verdict}

theorem deeds_remove (h : σ.tried = []) :
    (σ.remove id out).deeds = σ.deeds ++ [.destroyed id .normal] := by
  unfold deeds remove
  rw [h, List.map_append, List.flatMap_nil, List.append_nil, List.append_nil]
  rfl

theorem deeds_judge : (σ.judge id v tests).deeds = σ.deeds ++ v.deeds id := by
  unfold deeds judge
  rw [List.flatMap_append, List.append_assoc, List.flatMap_singleton]

theorem kept_judge :
    (σ.judge id v tests).kept = σ.kept ++ if v = .kept then [id] else [] := by
  unfold kept judge
  rw [List.filter_append, List.map_append]
  by_cases hv : v = .kept <;> simp [hv]

theorem failed_judge :
    (σ.judge id v tests).failed = σ.failed ++ if v = .kept then [] else [id] := by
  unfold failed judge
  rw [List.filter_append, List.map_append]
  by_cases hv : v = .kept <;> simp [hv]

theorem failures_judge : (σ.judge id v tests).failures = σ.failures + v.failures := by
  unfold failures judge
  rw [List.map_append, List.sum_append]
  rfl

theorem mem_tried_of_kept {x : Nat} (h : x ∈ σ.kept) : x ∈ σ.tried.map Prod.fst := by
  obtain ⟨y, hy, rfl⟩ := List.mem_map.mp h
  exact List.mem_map_of_mem (List.mem_filter.mp hy).1

theorem mem_tried_of_failed {x : Nat} (h : x ∈ σ.failed) : x ∈ σ.tried.map Prod.fst := by
  obtain ⟨y, hy, rfl⟩ := List.mem_map.mp h
  exact List.mem_map_of_mem (List.mem_filter.mp hy).1

end Sieve

/-! ## Where the call stands -/

/-- Where a call in an idle sweep stands that has come so far, with the deeds of the factory since
    the sweep began; `n` objects were evicted in all. -/
inductive SiftStage (n : Nat) (σ : Sieve) : Point ρ → List Deed → Prop
  | between (inOrder : σ.InOrder) : SiftStage n σ (.evicting σ.out σ.tests n) σ.deeds
  | given (inOrder : σ.InOrder) (id : Nat) (v : ρ) (ds : List Deed)
      (last : ds ++ [.destroyed id .normal] = σ.deeds) :
      SiftStage n σ (.destroying id v .normal (.evict σ.out σ.tests n)) ds
  | readied (id : Nat) (tests : List Nat) (out : σ.out = []) (next : σ.tests = id :: tests) :
      SiftStage n σ (.activating id (.test tests n)) σ.deeds
  | checked (id : Nat) (tests : List Nat) (out : σ.out = []) (next : σ.tests = id :: tests) :
      SiftStage n σ (.validating id (.trial (.test tests n))) (σ.deeds ++ [.readied id none])
  | rested (id : Nat) (tests : List Nat) (out : σ.out = []) (next : σ.tests = id :: tests) :
      SiftStage n σ (.passivating id (.test tests n))
        (σ.deeds ++ [.readied id none, .checked id true])

/-- How many turns are left to an idle sweep at most. -/
def Point.sweepLeft : Point ρ → Nat
  | .evicting out tests _ => 2 * out.length + 5 * tests.length
  | .destroying _ _ _ (.evict out tests _) => 2 * out.length + 5 * tests.length + 1
  | .activating _ (.test tests _) => 5 * tests.length + 4
  | .validating _ (.trial (.test tests _)) => 5 * tests.length + 3
  | .passivating _ (.test tests _) => 5 * tests.length + 2
  | _ => 0

/-- What a turn of an idle sweep makes of it, and of the pool `p`. -/
inductive Stretch.Sifts (p : Pool ρ) (σ : Sieve) (s : Stretch ρ) : Sieve → Prop
  /-- The books stay as they are. -/
  | rests (same : p.Alike s.pool) (counters : s.pool.counters = p.counters) : Sifts p σ s σ
  | removes (id : Nat) (out : List Nat) (next : σ.out = id :: out) (buried : s.buried = [id])
      (same : p.Alike s.pool) (counters : s.pool.counters = { p.counters with
        evicted := p.counters.evicted + 1, destroyed := p.counters.destroyed + 1 }) :
      Sifts p σ s (σ.remove id out)
  | rejects (id : Nat) (tests : List Nat) (v : Verdict) (n : Nat) (next : σ.tests = id :: tests)
      (unkept : v ≠ .kept) (shut : v = .shut → p.closed = true) (buried : s.buried = [id])
      (rejects : s.Rejects p id tests n v.failures) : Sifts p σ s (σ.judge id v tests)
  | keeps (id : Nat) (tests : List Nat) (next : σ.tests = id :: tests) (isOpen : p.closed = false)
      (config : s.pool.config = p.config)
      (registry : s.pool.registry = p.registry.restoreIdle id)
      (state : s.pool.stateOf id = .idle)
      (others : ∀ x, x ≠ id → s.pool.object? x = p.object? x)
      (counters : s.pool.counters = p.counters) : Sifts p σ s (σ.judge id .kept tests)

section Turns

variable {n : Nat} {σ : Sieve} {pt : Point ρ} {ds : List Deed} {deed : Option Deed} {p : Pool ρ}
  {s : Stretch ρ}

theorem SiftStage.inSweep (h : SiftStage n σ pt ds) : pt.InSweep n := by
  cases h with
  | between => exact .between ..
  | given => exact .given ..
  | readied => exact .readied ..
  | checked => exact .checked ..
  | rested => exact .rested ..

/-- A call in an idle sweep that waits for nobody can go on. -/
theorem SiftStage.goesOn (h : SiftStage n σ pt ds) (hreq : pt.isRequest = false) (p : Pool ρ)
    (now : Instant) (t : Nat) (ended : Nat → Bool) : (p.advance now t ended pt).isSome = true := by
  cases h with
  | between => rfl
  | given | readied | checked | rested => exact nomatch hreq

theorem Stretch.Rejects.buried {id k : Nat} {tests : List Nat} (h : s.Rejects p id tests n k) :
    s.buried = [id] ∧ ∃ v, s.next = .go (.destroying id v .normal (.evict [] tests n)) := by
  obtain ⟨v, hnext⟩ := h.gives.next
  refine ⟨?_, v, hnext⟩
  unfold Stretch.buried
  rw [hnext]
  rfl

/-- A turn of the sweep, after which it has come further, or which it has already ended before. -/
theorem SiftStage.turn (h : SiftStage n σ pt ds) (hs : p.Weeds n pt deed s) :
    pt = .evicting [] [] n ∨ ∃ σ' pt', s.next = .go pt' ∧
      SiftStage n σ' pt' (ds ++ deed.toList) ∧ pt'.sweepLeft < pt.sweepLeft ∧ s.Sifts p σ σ' := by
  -- a verdict on the object under trial
  have hreject : ∀ {id : Nat} {tests : List Nat} {v : Verdict}, σ.out = [] →
      σ.tests = id :: tests → v ≠ .kept → (v = .shut → p.closed = true) →
      s.Rejects p id tests n v.failures →
      ds ++ deed.toList = σ.deeds ++ v.findings id → 5 * tests.length + 1 < pt.sweepLeft →
      ∃ σ' pt', s.next = .go pt' ∧ SiftStage n σ' pt' (ds ++ deed.toList) ∧
        pt'.sweepLeft < pt.sweepLeft ∧ s.Sifts p σ σ' := by
    intro id tests v hout hnext hv hshut hrej hds hleft
    obtain ⟨hburied, x, hgo⟩ := hrej.buried
    refine ⟨σ.judge id v tests, _, hgo, ?_, ?_, .rejects id tests v n hnext hv hshut hburied hrej⟩
    · have hout' : (σ.judge id v tests).out = [] := hout
      rw [← hout']
      refine .given (.inl hout') id x _ ?_
      rw [hds, Sieve.deeds_judge, Verdict.deeds, if_neg hv, List.append_assoc]
    · show 2 * 0 + 5 * tests.length + 1 < _
      omega
  cases h with
  | between horder =>
    generalize hout : σ.out = out, htests : σ.tests = tests at hs ⊢
    cases hs with
    | ended => exact .inl rfl
    | removes id v out _ hnext hsame hcounters =>
      have htried : σ.tried = [] := by
        rcases horder with hnone | htried
        · exact nomatch hnone.symm.trans hout
        · exact htried
      refine .inr ⟨σ.remove id out, _, hnext, ?_, ?_, .removes id out hout ?_ hsame hcounters⟩
      · subst htests
        refine .given (σ := σ.remove id out) (.inr htried) id v _ ?_
        rw [Sieve.deeds_remove htried, Option.toList_none, List.append_nil]
      · simp only [Point.sweepLeft, List.length_cons]
        omega
      · unfold Stretch.buried
        rw [hnext]
        rfl
    | readies id tests hnext hsame hcounters =>
      refine .inr ⟨σ, _, hnext, ?_, ?_, .rests hsame hcounters⟩
      · rw [Option.toList_none, List.append_nil]
        exact .readied id tests hout htests
      · simp only [Point.sweepLeft, List.length_cons]
        omega
  | given horder id v _ hlast =>
    generalize hout : σ.out = out, htests : σ.tests = tests at hs ⊢
    cases hs with
    | destroyed _ _ _ _ hnext hsame =>
      subst hout htests
      refine .inr ⟨σ, _, hnext, ?_, Nat.lt_succ_self _, .rests ?_ (congrArg Pool.counters hsame)⟩
      · rw [Option.toList_some, hlast]
        exact .between horder
      · exact hsame ▸ .refl p
  | readied id tests hout htests =>
    cases hs with
    | ready _ _ hnext hsame hcounters =>
      exact .inr ⟨σ, _, hnext, .checked id tests hout htests, Nat.lt_succ_self _,
        .rests hsame hcounters⟩
    | unready _ _ reason hrej =>
      exact .inr (hreject hout htests (v := .unready reason) nofun nofun hrej rfl
        (Nat.add_lt_add_left (by decide) _))
  | checked id tests hout htests =>
    cases hs with
    | fit _ _ hnext hsame hcounters =>
      refine .inr ⟨σ, _, hnext, ?_, Nat.lt_succ_self _, .rests hsame hcounters⟩
      rw [List.append_assoc]
      exact .rested id tests hout htests
    | unfit _ _ hrej =>
      exact .inr (hreject hout htests (v := .unfit) nofun nofun hrej (List.append_assoc ..)
        (Nat.add_lt_add_left (by decide) _))
  | rested id tests hout htests =>
    cases hs with
    | stiff _ _ reason hrej =>
      exact .inr (hreject hout htests (v := .stiff reason) nofun nofun hrej
        (List.append_assoc ..) (Nat.add_lt_add_left (by decide) _))
    | shut _ _ hclosed hrej =>
      exact .inr (hreject hout htests (v := .shut) nofun (fun _ => hclosed) hrej
        (List.append_assoc ..) (Nat.add_lt_add_left (by decide) _))
    | kept _ _ hopen hnext hconfig hregistry hstate hothers hcounters =>
      refine .inr ⟨σ.judge id .kept tests, _, hnext, ?_, ?_,
        .keeps id tests htests hopen hconfig hregistry hstate hothers hcounters⟩
      · have hdeeds : σ.deeds ++ [Deed.readied id none, .checked id true] ++
            (some (Deed.laidToRest id none)).toList = (σ.judge id .kept tests).deeds := by
          rw [Sieve.deeds_judge, List.append_assoc]
          rfl
        rw [hdeeds]
        have hstage : SiftStage n (σ.judge id .kept tests)
            (.evicting (ρ := ρ) (σ.judge id .kept tests).out tests n) _ := .between (.inl hout)
        rwa [show (σ.judge id .kept tests).out = [] from hout] at hstage
      · simp only [Point.sweepLeft, List.length_nil]
        omega

end Turns

/-! ## The pool, if nobody else calls it -/

/-- The pool `p` has become the pool `q` in an idle sweep that has come so far, with the objects
    `out` to be evicted and the objects `tests` to be tried out, and nobody else has called it. -/
structure Pool.Sifted (p q : Pool ρ) (out tests : List Nat) (σ : Sieve) : Prop where
  config : q.config = p.config
  closed : q.registry.closed = p.registry.closed
  active : q.registry.active = p.registry.active
  creating : q.registry.creating = p.registry.creating
  tracked : q.registry.tracked =
    p.registry.tracked.filter fun x => decide (x ∉ out ∧ x ∉ σ.failed)
  /-- Those that were not looked at or left are idle as before, and those that were kept after a
      trial have joined them at the end. -/
  idle : q.registry.idle =
    (p.registry.idle.filter fun x => decide (x ∉ out ∧ x ∉ tests)) ++ σ.kept
  states : ∀ x, q.stateOf x = if x ∈ out ∨ x ∈ σ.failed then .invalid
    else if x ∈ σ.tests then .validation else p.stateOf x
  /-- Returns that belong to other pools may have been refused meanwhile. -/
  counters : ∃ k, q.counters = { p.counters with
    evicted := p.counters.evicted + σ.removed.length
    destroyed := p.counters.destroyed + (σ.removed.length + σ.failed.length)
    validationFailures := p.counters.validationFailures + σ.failures
    invalidReturns := k }

namespace Pool

variable {p q q' : Pool ρ} {out tests : List Nat} {σ σ' : Sieve} {s : Stretch ρ}

/-- The sweep has decided what to do. -/
theorem Culled.sifted (h : p.Culled q out tests) : p.Sifted q out tests { out, tests } where
  config := h.config
  closed := h.closed
  active := h.active
  creating := h.creating
  tracked := h.tracked.trans (List.filter_congr fun x _ => by simp [Sieve.failed])
  idle := h.idle.trans (List.append_nil _).symm
  states x := (h.states x).trans (by simp [Sieve.failed])
  counters := ⟨p.counters.invalidReturns, h.counters⟩

/-- A pool whose books and states have not changed. -/
theorem Sifted.of_same (h : p.Sifted q out tests σ) (hconfig : q'.config = q.config)
    (hregistry : q'.registry = q.registry) (hstates : ∀ x, q'.stateOf x = q.stateOf x)
    (hcounters : ∃ k, q'.counters = { q.counters with invalidReturns := k }) :
    p.Sifted q' out tests σ where
  config := hconfig.trans h.config
  closed := hregistry ▸ h.closed
  active := hregistry ▸ h.active
  creating := hregistry ▸ h.creating
  tracked := hregistry ▸ h.tracked
  idle := hregistry ▸ h.idle
  states x := (hstates x).trans (h.states x)
  counters := by
    obtain ⟨k, hk⟩ := h.counters
    obtain ⟨k', hk'⟩ := hcounters
    exact ⟨k', by rw [hk', hk]⟩

/-- What a turn of the sweep makes of the pool. -/
theorem Sifted.next (h : p.Sifted q out tests σ) (hp : p.Sweepable tests)
    (hout : ∀ x ∈ tests, x ∉ out) (hall : σ.tried.map Prod.fst ++ σ.tests = tests)
    (hs : s.Sifts q σ σ') : p.Sifted s.pool out tests σ' := by
  -- the object under trial was tried by nobody before
  have hfresh : ∀ {id rest}, σ.tests = id :: rest → id ∈ tests ∧ id ∉ σ.failed ∧ id ∉ σ.kept ∧
      id ∉ rest := by
    intro id rest hnext
    have hmem : id ∈ tests := by
      rw [← hall, hnext]
      exact List.mem_append_right _ (.head _)
    have hnodup := hall ▸ hp.nodup
    rw [hnext] at hnodup
    obtain ⟨-, hrest, hapart⟩ := List.nodup_append.mp hnodup
    have htried : id ∉ σ.tried.map Prod.fst := fun hin => hapart id hin id (.head _) rfl
    exact ⟨hmem, fun hf => htried (Sieve.mem_tried_of_failed hf),
      fun hk => htried (Sieve.mem_tried_of_kept hk), (List.nodup_cons.mp hrest).1⟩
  obtain ⟨k, hk⟩ := h.counters
  cases hs with
  | rests same counters =>
    exact h.of_same same.config same.registry same.states ⟨q.counters.invalidReturns, counters⟩
  | removes id out' next _ same counters =>
    refine ⟨same.config.trans h.config, same.registry ▸ h.closed, same.registry ▸ h.active,
      same.registry ▸ h.creating, same.registry ▸ h.tracked, same.registry ▸ h.idle,
      fun x => (same.states x).trans (h.states x), k, ?_⟩
    rw [counters, hk]
    simp only [Sieve.remove, Sieve.failed, Sieve.failures, List.length_append,
      List.length_singleton, Counters.mk.injEq, true_and, and_true]
    omega
  | rejects id rest v n next unkept shut _ rejects =>
    obtain ⟨hmem, hfailed, hkept, hrest⟩ := hfresh next
    have hin : id ∈ q.registry.tracked := by
      rw [h.tracked]
      exact List.mem_filter.mpr ⟨hp.tracked id hmem, decide_eq_true ⟨hout id hmem, hfailed⟩⟩
    have hactive : id ∉ q.registry.active := h.active ▸ hp.unlent id hmem
    have hidle : id ∉ q.registry.idle := by
      rw [h.idle, List.mem_append, not_or]
      exact ⟨fun hi => (of_decide_eq_true (List.mem_filter.mp hi).2).2 hmem, hkept⟩
    have hsame : ∀ {l : List Nat}, id ∉ l → Registry.without id l = l := fun hl =>
      List.filter_eq_self.mpr fun x hx => decide_eq_true fun he => hl (he ▸ hx)
    have hbooks : s.pool.registry = { q.registry with
        tracked := Registry.without id q.registry.tracked }.wakeNext := by
      rw [rejects.gives.registry, Registry.detach, if_pos hin, if_neg hactive, hsame hactive,
        hsame hidle]
    refine ⟨rejects.gives.config.trans h.config, by rw [hbooks]; exact h.closed,
      by rw [hbooks]; exact h.active, by rw [hbooks]; exact h.creating, ?_, ?_, fun x => ?_, k, ?_⟩
    · rw [hbooks, Sieve.failed_judge, if_neg unkept]
      show Registry.without id q.registry.tracked = _
      rw [h.tracked, Registry.without, List.filter_filter]
      refine List.filter_congr fun x _ => ?_
      rw [← Bool.decide_and, decide_eq_decide, List.mem_append, List.mem_singleton]
      tauto
    · rw [hbooks, Sieve.kept_judge, if_neg unkept, List.append_nil]
      exact h.idle
    · rw [Sieve.failed_judge, if_neg unkept]
      by_cases hx : x = id
      · subst hx
        rw [rejects.state, if_pos (.inr (List.mem_append_right _ (.head _)))]
      · rw [stateOf_of_object? (rejects.gives.others x hx), h.states x, next,
          show (σ.judge id v rest).tests = rest from rfl]
        simp only [List.mem_append, List.mem_cons, List.not_mem_nil, hx, or_false, false_or]
    · rw [rejects.counters, hk, Sieve.failed_judge, if_neg unkept, Sieve.failures_judge]
      simp only [Sieve.judge, List.length_append, List.length_singleton, Counters.mk.injEq,
        true_and, and_true]
      omega
  | keeps id rest next isOpen config registry state others counters =>
    obtain ⟨hmem, hfailed, -, hrest⟩ := hfresh next
    refine ⟨config.trans h.config, by rw [registry]; exact h.closed,
      by rw [registry]; exact h.active, by rw [registry]; exact h.creating, ?_, ?_, fun x => ?_,
      k, ?_⟩
    · rw [registry, Sieve.failed_judge, if_pos rfl, List.append_nil]
      exact h.tracked
    · rw [registry, Sieve.kept_judge, if_pos rfl]
      show q.registry.idle ++ [id] = _
      rw [h.idle, List.append_assoc]
    · rw [Sieve.failed_judge, if_pos rfl, List.append_nil]
      by_cases hx : x = id
      · subst hx
        rw [state, if_neg (not_or.mpr ⟨hout x hmem, hfailed⟩)]
        rw [show (σ.judge x .kept rest).tests = rest from rfl, if_neg hrest]
        exact ((stateOf_eq_iff (by decide)).mpr (hp.state x hmem)).symm
      · rw [stateOf_of_object? (others x hx), h.states x, next,
          show (σ.judge id .kept rest).tests = rest from rfl]
        simp only [List.mem_cons, hx, false_or]
    · rw [counters, hk, Sieve.failed_judge, if_pos rfl, Sieve.failures_judge, List.append_nil]
      rfl

end Pool

end ObjectPool
