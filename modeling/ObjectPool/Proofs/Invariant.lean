/-
  ObjectPool.Proofs.Invariant

  Every event leaves a sound world sound (`react_sound`), and so every world that
  can be reached is sound (`Run.sound`): its pools agree with their calls, their
  handles and the record of what was destroyed. One case for each kind of event.
-/

import ObjectPool.Proofs.Handles

namespace ObjectPool

variable {ρ : Type}

/-- A new pool agrees with having neither calls nor handles. -/
theorem Pool.sound_new (c : Config) (keeper : Option Nat) :
    Pool.Sound (ρ := ρ) { Pool.new c with keeper } (.of { Pool.new c with keeper } [] [] []) where
  books :=
    { creating := rfl, within := Nat.zero_le _, shut := fun _ => rfl,
      line := ⟨.refl _, .nil, fun _ h => nomatch h⟩, awake := fun _ _ h => absurd rfl h }
  capacity := rfl
  created := rfl
  born := rfl
  destroyed := rfl
  promises := fun _ h => nomatch h
  charter := rfl
  closed := fun h => h
  objects := fun _ => .unborn

namespace World

variable {w : World ρ} {g : Nat → List Nat} {t p n : Nat} {f : Effect ρ} {a : Activity ρ}

/-! ## Which object an episode sees off -/

theorem top?_moveTo (ht : w.top? t = some a) (pt : Point ρ) :
    (w.moveTo t pt).top? t = some { a with point := pt } := by
  obtain ⟨th, rest, hth, hs⟩ := top?_eq_some ht
  show ((w.threads.modify t _)[t]?).bind _ = _
  rw [List.getElem?_modify, hth]
  simp [hs]

theorem top?_push (ht : w.Open t) (a : Activity ρ) : (w.push t a).top? t = some a := by
  obtain ⟨th, hth, -⟩ := ht
  show ((w.threads.modify t _)[t]?).bind _ = _
  rw [List.getElem?_modify, hth]
  simp

/-- A thread that has given up a reference to a pool asks the factory for nothing. -/
theorem forsake_request (ht : w.Open t) (r : Reply) :
    (if (w.forsake t p r).reply.isNone then
      ((w.forsake t p r).world.top? t).filter fun a => a.point.isRequest else none) = none := by
  rcases forsake_cases w t p r with ⟨q, -, -, hlast⟩ | ⟨-, hmore⟩
  · rw [hlast, top?_push (w := w.markGone p) ht]
    rfl
  · rw [hmore]
    rfl

/-- The episode of a stretch sees off the object whose resource the stretch passed to
    the factory to be destroyed. -/
theorem buried_apply {e : Event ρ} {s : Stretch ρ} (he : Episode.thread? ⟨w, e, f⟩ = some t)
    (hn : w.Nested) (ht : w.top? t = some a) (hf : f = w.apply t a.pool s) (i : Nat) :
    Episode.buried i ⟨w, e, f⟩ = if i = a.pool then s.buried else [] := by
  have hrequest : Episode.request? ⟨w, e, f⟩ =
      if f.reply.isNone then (f.world.top? t).filter fun a => a.point.isRequest else none := by
    rw [Episode.request?, he]
    rfl
  rw [Episode.buried, Episode.burial, hrequest, Stretch.buried]
  subst hf
  cases hs : s.next with
  | go pt =>
    have hreply : (w.apply t a.pool s).reply = none := by rw [apply_go hs]
    have htop : (w.apply t a.pool s).world.top? t = some { a with point := pt } := by
      rw [apply_go hs]
      exact top?_moveTo (w := w.onPool a.pool fun _ => s.pool) ht pt
    rw [hreply, htop]
    by_cases hi : i = a.pool
    · subst hi
      cases pt <;> simp [Option.filter, Point.isRequest, Point.buried]
    · cases pt <;> simp [Option.filter, Point.isRequest, Ne.symm hi, hi]
  | finish r =>
    -- a call that has ended asks the factory for nothing
    have hopen := hn.open_pop ht
    rw [apply_finish hs, forsake_request
      (w := ((w.onPool a.pool fun _ => s.pool).pop t).handOver a.pool r) hopen]
    exact (ite_self _).symm

/-- An event that is not a stretch sees no object off. -/
theorem buried_eq_nil {e : Event ρ} (he : Episode.thread? ⟨w, e, f⟩ = none) (i : Nat) :
    Episode.buried i ⟨w, e, f⟩ = [] := by
  rw [Episode.buried, Episode.burial, Episode.request?, he]
  simp

/-! ## Threads that go on -/

theorem step_cases (h : w.step t = some f) :
    (∃ a q s, w.Stretches t a q s 0 ∧ f = w.apply t a.pool s) ∨
    (∃ th k, w.threads[t]? = some th ∧ th.stack = [] ∧ w.keeperStep t k = some f) := by
  refine (step_runs h).imp_left ?_
  rintro ⟨a, q, s, ha, hq, hadv, hf⟩
  refine ⟨a, q, s, ⟨ha, hq, fun ℓ hℓ => Pool.advance_sound hℓ hadv, fun c hpt => ?_⟩, hf⟩
  rw [hpt] at hadv
  obtain rfl := Option.some.inj hadv
  exact q.closed_close t c

theorem answer_cases {r : Response ρ} (h : w.answer t r = some f) :
    ∃ a q s, w.Stretches t a q s (a.point.births r) ∧ f = w.apply t a.pool s := by
  obtain ⟨a, q, s, ha, hq, hs, hf⟩ := answer_runs h
  refine ⟨a, q, s, ⟨ha, hq, fun ℓ hℓ => Pool.respond_sound hℓ hs, fun c hpt => ?_⟩, hf⟩
  rw [hpt] at hs
  exact nomatch hs

/-- A change to a thread that leaves its calls alone. -/
theorem Sound.onThread (h : w.Sound g) {u : Thread ρ → Thread ρ}
    (hu : ∀ th, (u th).stack = th.stack) : (w.onThread t u).Sound g := by
  refine h.of_same (fun i => ⟨rfl, points_onThread hu i, .refl _⟩) ?_
  exact h.nested.onThread fun th hth a ha => h.nested th (List.mem_of_getElem? hth) a (hu th ▸ ha)

theorem open_onThread {th : Thread ρ} (hth : w.threads[t]? = some th) (hs : th.stack = [])
    {u : Thread ρ → Thread ρ} (hu : ∀ th, (u th).stack = th.stack) : (w.onThread t u).Open t := by
  refine ⟨u th, ?_, fun a ha => ?_⟩
  · show (w.threads.modify t u)[t]? = _
    rw [List.getElem?_modify, hth]
    simp
  · rw [hu, hs] at ha
    exact nomatch ha

/-- The thread of a background upkeep goes on between two rounds, or begins one. -/
theorem Sound.keeperStep (h : w.Sound g) {th : Thread ρ} {k : Keeper}
    (hth : w.threads[t]? = some th) (hs : th.stack = []) (hk : w.keeperStep t k = some f) :
    f.world.Sound g := by
  have hmark : ∀ phase, (w.enter t k phase).Sound g := fun phase => h.onThread fun _ => rfl
  rcases (keeperStep_cases hk).2 with ⟨phase, hf⟩ | ⟨q, hq, hf⟩
  · rw [hf]
    exact hmark phase
  · rw [hf]
    exact (hmark .working).begin (open_onThread hth hs fun _ => rfl) hq .maintain

/-- A thread between two rounds of upkeep asks the factory for nothing. -/
theorem keeperStep_top {th : Thread ρ} {k : Keeper} (hth : w.threads[t]? = some th)
    (hs : th.stack = []) (hk : w.keeperStep t k = some f) :
    (f.world.top? t).filter (fun a => a.point.isRequest) = none := by
  rcases (keeperStep_cases hk).2 with ⟨phase, hf⟩ | ⟨q, -, hf⟩
  · have hrest : (w.enter t k phase).top? t = none := by
      show ((w.threads.modify t _)[t]?).bind _ = _
      rw [List.getElem?_modify, hth]
      simp [hs]
    rw [hf, hrest, Option.filter_none]
  · have hopen : (w.enter t k .working).Open t := open_onThread hth hs fun _ => rfl
    rw [hf, top?_push hopen]
    rfl

theorem buried_keeperStep {th : Thread ρ} {k : Keeper} (hth : w.threads[t]? = some th)
    (hs : th.stack = []) (hk : w.keeperStep t k = some f) (i : Nat) :
    Episode.buried i ⟨w, .step t, f⟩ = [] := by
  have hnone : Episode.request? ⟨w, .step t, f⟩ = none := by
    show (if f.reply.isNone then (f.world.top? t).filter _ else none) = none
    rw [keeperStep_top hth hs hk, ite_self]
  rw [Episode.buried, Episode.burial, hnone]
  rfl

/-! ## A new pool -/

/-- New threads have nothing to do. -/
theorem activities_append {ths : List (Thread ρ)} (hths : ∀ th ∈ ths, th.stack = []) :
    (w.threads ++ ths).flatMap (·.stack) = w.activities := by
  rw [List.flatMap_append, List.flatMap_eq_nil_iff.mpr hths, List.append_nil]
  rfl

theorem Nested.append (h : w.Nested) {ths : List (Thread ρ)} (hths : ∀ th ∈ ths, th.stack = []) :
    ∀ th ∈ w.threads ++ ths, ∀ a ∈ th.stack.tail, a.point.isRequest = true := by
  intro th hth a ha
  rcases List.mem_append.mp hth with hth | hth
  · exact h th hth a ha
  · rw [hths th hth] at ha
    exact nomatch ha

theorem Sound.spawn (h : w.Sound g) : w.spawn.Sound g := by
  have hidle : ∀ th ∈ [({} : Thread ρ)], th.stack = [] := fun th hth => by
    rw [List.mem_singleton.mp hth]
  refine h.of_same (fun i => ⟨rfl, ?_, .refl _⟩) (h.nested.append hidle)
  exact .of_eq (congrArg (pointsOf i) (activities_append hidle)).symm

/-- A new pool, with threads that have nothing to do. -/
theorem Sound.addPool (h : w.Sound g) {q : Pool ρ} (hq : q.Sound (.of q [] [] []))
    (hclones : 0 < q.clones) (hgone : q.gone = false) (ths : List (Thread ρ))
    (hths : ∀ th ∈ ths, th.stack = []) :
    Sound { w with pools := w.pools ++ [q], threads := w.threads ++ ths } g := by
  have hpoints : ∀ i,
      World.points { w with pools := w.pools ++ [q], threads := w.threads ++ ths } i =
        w.points i := fun i => congrArg (pointsOf i) (activities_append hths)
  have hsame : ∀ i, i ≠ w.pools.length →
      w.SameAt { w with pools := w.pools ++ [q], threads := w.threads ++ ths } i := by
    intro i hi
    refine ⟨?_, .of_eq (hpoints i).symm, .refl _⟩
    show (w.pools ++ [q])[i]? = w.pools[i]?
    rw [List.getElem?_append]
    split
    · rfl
    · rw [List.getElem?_eq_none_iff.mpr (by simp; omega), List.getElem?_eq_none_iff.mpr (by omega)]
  have hself : (w.pools ++ [q])[w.pools.length]? = some q := by simp
  obtain ⟨hp, hl, hg⟩ := (h.pools w.pools.length).housed
    (List.getElem?_eq_none_iff.mpr (Nat.le_refl _))
  refine h.of_others (fun _ _ => rfl) hsame ?_ ?_ (h.nested.append hths)
  · rw [hg]
    refine .intro hself hq ?_ ?_ fun hc => nomatch hgone.symm.trans hc
    · rw [hpoints, hp]
    · exact .of_eq hl.symm
  · -- a new pool has a reference
    intro q' hq' hr
    obtain rfl := Option.some.inj (hself.symm.trans hq')
    rw [references_eq, hself] at hr
    simp only [Option.map_some, Option.getD_some] at hr
    omega

theorem Sound.create (h : w.Sound g) {c : Config} {w' : World ρ} {notices : List (Nat × Notice)}
    (hw : w.create c = .ok (w', notices)) : w'.Sound g := by
  obtain ⟨keeper, ths, hths, rfl⟩ := create_cases hw
  exact h.addPool (Pool.sound_new c keeper) Nat.one_pos rfl ths hths

/-! ## Every event -/

/-- A caller gives up a reference to a pool. -/
theorem Sound.drop (h : w.Sound g) (ht : w.Open t) (p : Nat) : (w.drop t p).world.Sound g := by
  have hsame : ∀ i, i ≠ p →
      w.SameAt (w.onPool p fun q => { q with clones := q.clones - 1 }) i := by
    intro i hi
    exact sameAt_onPool hi _
  refine forsake_sound (soundAt_of_others h.pools (fun _ _ => rfl) hsame ?_) h.nested
    (fun i hi => (h.kept i).of_same (hsame i hi)) ht fun hloan => nomatch hloan
  exact (h.pools p).onPool (fun _ hq => hq.of_references rfl rfl rfl rfl) (fun _ => rfl)
    fun _ => rfl

/-- A stretch of a call that goes on by itself or gets an answer. -/
theorem Sound.stretch (h : w.Sound g) {e : Event ρ} {q : Pool ρ} {s : Stretch ρ}
    (he : Episode.thread? ⟨w, e, f⟩ = some t) (hs : w.Stretches t a q s n)
    (hf : f = w.apply t a.pool s) :
    f.world.Sound fun i => Episode.buried i ⟨w, e, f⟩ ++ g i := by
  have happly := h.apply hs
  have hg : (fun i => Episode.buried i ⟨w, e, f⟩ ++ g i) =
      fun i => if i = a.pool then s.buried ++ g i else g i := by
    funext i
    rw [buried_apply he h.nested hs.top hf i]
    split
    · rfl
    · rfl
  rw [hg, hf]
  exact happly

theorem Sound.step (h : w.Sound g) (hr : w.step t = some f) :
    f.world.Sound fun i => Episode.buried i ⟨w, .step t, f⟩ ++ g i := by
  rcases step_cases hr with ⟨a, q, s, hs, hf⟩ | ⟨th, k, hth, hidle, hk⟩
  · exact h.stretch rfl hs hf
  · simp only [buried_keeperStep hth hidle hk, List.nil_append]
    exact h.keeperStep hth hidle hk

theorem Sound.answer (h : w.Sound g) {r : Response ρ} (hr : w.answer t r = some f) :
    f.world.Sound fun i => Episode.buried i ⟨w, .answer t r, f⟩ ++ g i := by
  obtain ⟨a, q, s, hs, hf⟩ := answer_cases hr
  exact h.stretch rfl hs hf

/-- An event of the callers leaves a sound world sound. -/
theorem Sound.call (h : w.Sound g) {e : Event ρ} (hc : w.Called e f) : f.world.Sound g := by
  have hfree : ∀ t, w.isFree t = true → w.Open t := fun t ht => h.nested.open_of_isFree ht
  cases hc with
  | tick _ => exact h.of_same (fun i => ⟨rfl, .refl _, .refl _⟩) h.nested
  | spawn => exact h.spawn
  | create hw => exact h.create hw
  | notCreated _ => exact h
  | clone _ _ =>
    exact h.onPool (fun _ hq => hq.of_references rfl rfl rfl rfl) (fun _ => rfl) (fun _ => rfl)
      fun _ => Nat.le_succ _
  | drop _ _ ht => exact h.drop (hfree _ ht) _
  | begin hq _ ht => exact h.begin (hfree _ ht) hq _
  | giveBack _ _ ht hx hg => exact h.partsWith hx hg (hfree _ ht) (giveBack_parts ..)
  | invalidate _ _ ht hx hg => exact h.partsWith hx hg (hfree _ ht) (invalidate_parts ..)
  | letGo ht hx hg => exact h.partsWith hx hg (hfree _ ht) (letGo_parts ..)
  | access hx hg hr => exact h.access hx hg hr _ _
  | noAccess _ _ => exact h
  | lock hx _ hr => exact h.lock hx hr _
  | noLock _ _ => exact h
  | unlock hx _ hr => exact h.unlock hx hr _
  | markUsed hx => exact h.markUsed hx _

theorem Called.thread? {e : Event ρ} (hc : w.Called e f) : Episode.thread? ⟨w, e, f⟩ = none := by
  cases hc <;> rfl

/-- Every event leaves a sound world sound. -/
theorem react_sound (h : w.Sound g) {e : Event ρ} (hr : w.react e = some f) :
    f.world.Sound fun i => Episode.buried i ⟨w, e, f⟩ ++ g i := by
  rcases react_cases hr with hc | ⟨t, rfl, hs⟩ | ⟨t, r, rfl, hs⟩
  · simp only [buried_eq_nil hc.thread?, List.nil_append]
    exact h.call hc
  · exact h.step hs
  · exact h.answer hs

end World

/-- Every world that can be reached is sound. -/
theorem Run.sound {es : List (Episode ρ)} {w : World ρ} (h : Run es w) : w.Sound (graves es) := by
  induction h with
  | start =>
    refine ⟨fun i => ⟨?_, fun _ => ⟨rfl, rfl, rfl⟩, ?_⟩, ?_, ?_⟩
    · exact fun p hp => nomatch hp
    · exact fun p hp => nomatch hp
    · exact fun i p hp => nomatch hp
    · exact fun th hth => nomatch hth
  | next run react ih => exact World.react_sound ih react

end ObjectPool
