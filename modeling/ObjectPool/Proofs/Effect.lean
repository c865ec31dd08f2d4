/-
  ObjectPool.Proofs.Effect

  What the steps of a world are made of. Each is read off its definition once, as
  a few small changes to pools, threads and handles, so that nothing later has to
  look into the definitions again.

    * `step_runs`, `answer_runs` — a thread goes on for a stretch.
    * `apply_go`, `apply_finish`, `forsake_cases` — what a stretch leaves behind.
    * `World.PartsWith` — a handle leaves its borrower's hands.
    * `create_cases`, `keeperStep_cases` — a new pool, and its background upkeep.
-/

import ObjectPool.World

namespace ObjectPool

variable {ρ : Type}

/-- The handles of a pool once a call of it has ended with a reply. -/
def Reply.handles (p : Nat) : Reply → List Handle
  | .lent id => [{ pool := p, object := id }]
  | _ => []

/-- A call that takes an object back, to be kept or to be destroyed; its own reply is
    not that it has an object for the borrower. -/
inductive Point.TakesBack (id : Nat) : Point ρ → Prop
  | keep {answer : Option Reply} (h : ∀ x, answer ≠ some (.lent x)) :
      TakesBack id (.takeBack id answer)
  | discard : TakesBack id (.discard id)

namespace World

variable {w w' : World ρ} {t p n : Nat} {f : Effect ρ} {a : Activity ρ} {x : Handle}
  {s : Stretch ρ}

/-! ## A thread goes on -/

/-- A thread goes on with the call on top of it, or between two rounds of upkeep. -/
theorem step_runs (h : w.step t = some f) :
    (∃ a q s, w.top? t = some a ∧ w.pools[a.pool]? = some q ∧
      q.advance w.now t w.hasEnded a.point = some s ∧ f = w.apply t a.pool s) ∨
    (∃ th k, w.threads[t]? = some th ∧ th.stack = [] ∧ w.keeperStep t k = some f) := by
  simp only [World.step, Option.bind_eq_bind, Option.bind_eq_some_iff] at h
  obtain ⟨th, hth, h⟩ := h
  cases hs : th.stack with
  | cons a rest =>
    simp only [hs, Option.bind_eq_some_iff] at h
    obtain ⟨q, hq, s, hadv, hf⟩ := h
    refine .inl ⟨a, q, s, ?_, hq, hadv, (Option.some.inj hf).symm⟩
    rw [top?, hth, Option.bind_some, hs]
    rfl
  | nil =>
    simp only [hs, Option.bind_eq_some_iff] at h
    obtain ⟨k, -, hk⟩ := h
    exact .inr ⟨th, k, hth, hs, hk⟩

/-- The call on top of a thread gets an answer. -/
theorem answer_runs {c : Response ρ} (h : w.answer t c = some f) :
    ∃ a q s, w.top? t = some a ∧ w.pools[a.pool]? = some q ∧
      q.respond w.now a.point c = some s ∧ f = w.apply t a.pool s := by
  simp only [World.answer, Option.bind_eq_bind, Option.bind_eq_some_iff] at h
  obtain ⟨a, ha, q, hq, s, hs, hf⟩ := h
  exact ⟨a, q, s, ha, hq, hs, (Option.some.inj hf).symm⟩

/-! ## What a stretch leaves behind -/

/-- The borrower has the object with which a call on the pool `p` has ended, if any. -/
def handOver (p : Nat) (r : Reply) (w : World ρ) : World ρ :=
  { w with handles := w.handles ++ (r.handles p).map some }

/-- The last reference to a pool is gone. -/
def markGone (p : Nat) (w : World ρ) : World ρ := w.onPool p fun q => { q with gone := true }

theorem apply_go {pt : Point ρ} (hn : s.next = .go pt) :
    w.apply t p s =
      { world := (w.onPool p fun _ => s.pool).moveTo t pt
        notices := s.notices.map fun n => (p, n) } := by
  rw [World.apply, hn]

theorem apply_finish {r : Reply} (hn : s.next = .finish r) :
    w.apply t p s =
      { (((w.onPool p fun _ => s.pool).pop t).handOver p r).forsake t p r with
        notices := s.notices.map fun n => (p, n) } := by
  unfold World.apply
  rw [hn]
  cases r with
  | lent id => rfl
  | done | made n | failed e =>
    simp only [handOver, Reply.handles, List.map_nil, List.append_nil]

/-- A thread that gives up a reference to a pool closes the pool if it was the last, and is
    done otherwise. -/
theorem forsake_cases (w : World ρ) (t p : Nat) (r : Reply) :
    (∃ q, w.pools[p]? = some q ∧ w.references p = 0 ∧
      w.forsake t p r = { world := (w.markGone p).push t ⟨p, .close (.release r)⟩ }) ∨
    ((∀ q, w.pools[p]? = some q → w.references p = 0 → q.gone = true) ∧
      w.forsake t p r = { world := w, reply := some r }) := by
  unfold forsake
  dsimp only
  split
  · rename_i hlast
    -- the pool is there, for one that is not counts as gone
    obtain ⟨hrefs, hgone⟩ := hlast
    cases hq : w.pools[p]? with
    | none =>
      rw [hq] at hgone
      exact nomatch hgone
    | some q => exact .inl ⟨q, rfl, hrefs, rfl⟩
  · rename_i hlast
    refine .inr ⟨fun q hq hrefs => ?_, rfl⟩
    rw [hq] at hlast
    exact Bool.not_eq_false _ ▸ fun hg => hlast ⟨hrefs, hg⟩

/-! ## Handles that leave their borrowers' hands -/

/-- The handle `n` leaves its borrower's hands on a thread, and a call has the object. If the
    borrower has turned to another pool, that one refuses the object. -/
inductive PartsWith (w : World ρ) (t n : Nat) (x : Handle) : World ρ → Prop
  | own {pt : Point ρ} (hpt : pt.TakesBack x.object) :
      PartsWith w t n x ((w.surrender n).push t ⟨x.pool, pt⟩)
  | foreign {pt : Point ρ} (p : Nat) (hpt : pt.TakesBack x.object) :
      PartsWith w t n x
        (((w.surrender n).onPool p fun q => (q.refuseReturn .done).pool).push t ⟨x.pool, pt⟩)

theorem giveBack_parts (w : World ρ) (t p n : Nat) (x : Handle) :
    w.PartsWith t n x (w.giveBack t p n x).world := by
  unfold World.giveBack
  dsimp only
  split
  · rename_i hp
    subst hp
    exact .own (.keep fun _ ho => nomatch ho)
  · exact .foreign p (.keep fun _ ho => nomatch Option.some.inj ho)

theorem invalidate_parts (w : World ρ) (t p n : Nat) (x : Handle) :
    w.PartsWith t n x (w.invalidate t p n x).world := by
  unfold World.invalidate
  dsimp only
  split
  · rename_i hp
    subst hp
    exact .own .discard
  · exact .foreign p (.keep fun _ ho => nomatch Option.some.inj ho)

theorem letGo_parts (w : World ρ) (t n : Nat) (x : Handle) :
    w.PartsWith t n x (w.letGo t n x).world :=
  .own (.keep fun _ ho => nomatch Option.some.inj ho)

/-! ## A new pool and its upkeep -/

/-- A pool that a caller makes is a new one, with a thread for its upkeep if it needs one. -/
theorem create_cases {c : Config} {notices : List (Nat × Notice)}
    (h : w.create c = .ok (w', notices)) :
    ∃ keeper ths, (∀ th ∈ ths, th.stack = []) ∧
      w' = { w with
        pools := w.pools ++ [{ Pool.new c with keeper }]
        threads := w.threads ++ ths } := by
  unfold World.create at h
  dsimp only at h
  split at h
  · exact nomatch h
  · split at h
    · obtain ⟨rfl, -⟩ := Prod.mk.inj (Except.ok.inj h)
      refine ⟨none, [], (fun th hth => nomatch hth), ?_⟩
      rw [List.append_nil]
      rfl
    · rename_i interval _
      obtain ⟨rfl, -⟩ := Prod.mk.inj (Except.ok.inj h)
      refine ⟨_, [{ keeper := some { pool := w.pools.length, interval } }], fun th hth => ?_, rfl⟩
      rw [List.mem_singleton.mp hth]

/-- A pool is made with valid settings only. -/
theorem fault?_of_create {c : Config} {notices : List (Nat × Notice)}
    (h : w.create c = .ok (w', notices)) : c.fault? = none := by
  unfold World.create at h
  split at h
  · exact nomatch h
  · rename_i hvalid
    unfold Config.validate at hvalid
    split at hvalid
    · exact nomatch hvalid
    · assumption

/-- The thread of a background upkeep comes to a phase. -/
def enter (t : Nat) (k : Keeper) (phase : Phase) : World ρ → World ρ :=
  onThread t fun th => { th with keeper := some { k with phase } }

/-- The thread of a background upkeep comes to another phase, and begins a round of upkeep if its
    pool is there. -/
theorem keeperStep_cases {k : Keeper} (h : w.keeperStep t k = some f) : f.reply = none ∧
    ((∃ phase, f.world = w.enter t k phase) ∨
      ∃ q, w.pools[k.pool]? = some q ∧
        f.world = (w.enter t k .working).push t ⟨k.pool, .upkeep⟩) := by
  unfold World.keeperStep at h
  dsimp only at h
  split at h
  · obtain rfl := Option.some.inj h
    exact ⟨rfl, .inl ⟨_, rfl⟩⟩
  · split at h
    · obtain rfl := Option.some.inj h
      exact ⟨rfl, .inl ⟨_, rfl⟩⟩
    · rename_i hstopped
      split at h
      · obtain rfl := Option.some.inj h
        -- the upkeep has not been told to stop, so that its pool is there
        cases hq : w.pools[k.pool]? with
        | none => simp [hq] at hstopped
        | some q => exact ⟨rfl, .inr ⟨q, rfl, rfl⟩⟩
      · exact nomatch h
  · obtain rfl := Option.some.inj h
    exact ⟨rfl, .inl ⟨_, rfl⟩⟩
  · exact nomatch h

end World

end ObjectPool
