/-
  ObjectPool.Proofs.Stretch.Tidying

  How a round of upkeep comes to fill the reserve, and after how many turns at most. First it goes
  through the idle objects, then through those that it has taken from their borrowers; an open pool
  stays open. Every step on an object's way out, and of its trial, takes a turn, so the objects that
  are idle or lent when the round begins bound the number of its turns.

    * `Point.Tidies` — a round that does not fill the reserve yet, and how many turns it has left.
    * `Stretch.Tidies`, `IsTurn.tidies` — every turn of it on an open pool.
-/

import ObjectPool.Proofs.Seizures
import ObjectPool.Proofs.Stretch.Quests
import ObjectPool.Proofs.Stretch.Sifting

namespace ObjectPool

variable {ρ : Type}

/-- A round of upkeep of the pool `p` that has not begun to fill the reserve, and looks at it after
    `m` turns at the latest. -/
inductive Point.Tidies (p : Pool ρ) : Nat → Point ρ → Prop
  | begins : Tidies p (5 * p.registry.idle.length + 3 * p.registry.active.length + 3) .upkeep
  | sorts {pt : Point ρ} (n : Nat) (h : pt.InSweep n) :
      Tidies p (pt.sweepLeft + 3 * p.registry.active.length + 2) pt
  | clears {pt : Point ρ} (n : Nat) (h : pt.Sweeping (.upkeep n)) : Tidies p (pt.ahead + 1) pt

/-- A stretch of such a round on an open pool, which looks at the reserve before `m` more turns are
    over. -/
structure Stretch.Tidies (m : Nat) (s : Stretch ρ) : Prop where
  next : ∃ pt, s.next = .go pt ∧
    ((∃ out back, pt = .filling (.upkeep out back) 0) ∨ ∃ k < m, pt.Tidies s.pool k)
  isOpen : s.pool.closed = false

theorem Registry.length_active_detach_le (id : Nat) (r : Registry) :
    (r.detach id).active.length ≤ r.active.length := by
  unfold detach
  split
  · exact List.length_filter_le ..
  · exact Nat.le_refl _

/-- A sweep stands somewhere on its way. -/
theorem Point.InSweep.siftStage {pt : Point ρ} {n : Nat} (h : pt.InSweep n) :
    ∃ σ ds, SiftStage n σ pt ds := by
  cases h with
  | between out tests => exact ⟨{ out, tests }, _, .between (.inr rfl)⟩
  | readied id tests => exact ⟨{ out := [], tests := id :: tests }, _, .readied id tests rfl rfl⟩
  | checked id tests => exact ⟨{ out := [], tests := id :: tests }, _, .checked id tests rfl rfl⟩
  | rested id tests => exact ⟨{ out := [], tests := id :: tests }, _, .rested id tests rfl rfl⟩
  | given id v out tests =>
    exact ⟨{ removed := [id], out, tests }, _, .given (.inr rfl) id v [] rfl⟩

/-- A turn of a sweep leaves the pool open, and lends nothing. -/
theorem Stretch.Sifts.spares {p : Pool ρ} {σ σ' : Sieve} {s : Stretch ρ} (h : s.Sifts p σ σ') :
    s.pool.closed = p.closed ∧ s.pool.registry.active.length ≤ p.registry.active.length := by
  have hsame : s.pool.registry = p.registry →
      s.pool.closed = p.closed ∧ s.pool.registry.active.length ≤ p.registry.active.length :=
    fun hreg => ⟨congrArg Registry.closed hreg, Nat.le_of_eq (hreg ▸ rfl)⟩
  cases h with
  | rests same | removes _ _ _ _ same => exact hsame same.registry
  | rejects id _ _ _ _ _ _ _ rejects =>
    rw [Pool.closed, rejects.gives.registry]
    exact ⟨Registry.closed_detach .., Registry.length_active_detach_le ..⟩
  | keeps id _ _ _ _ registry =>
    rw [Pool.closed, registry]
    exact ⟨rfl, Nat.le_refl _⟩

namespace Pool

variable {p : Pool ρ} {s : Stretch ρ} {n m : Nat}

/-- The round is about to look at the reserve. -/
theorem tidies_fill (hopen : p.closed = false) (m n k : Nat) :
    (p.go (.filling (.upkeep n k) 0)).Tidies m :=
  ⟨⟨_, rfl, .inl ⟨n, k, rfl⟩⟩, hopen⟩

/-- A pass over lent objects leaves the pool open, and takes no more than it looks at. -/
theorem reclaimFrom_spares (p : Pool ρ) (now : Instant) (timeout : Duration) (ids : List Nat) :
    (p.reclaimFrom now timeout ids).1.closed = p.closed ∧
      (p.reclaimFrom now timeout ids).2.length ≤ ids.length := by
  -- each object taken away leaves other books to the rest of the pass
  induction ids generalizing p with
  | nil => exact ⟨rfl, Nat.le_refl _⟩
  | cons id rest ih =>
    rw [reclaimFrom]
    split
    · obtain ⟨hclosed, hle⟩ := ih (p.takeAway id)
      exact ⟨hclosed.trans (Registry.closed_detach ..), Nat.succ_le_succ hle⟩
    · obtain ⟨hclosed, hle⟩ := ih p
      exact ⟨hclosed, Nat.le_succ_of_le hle⟩

/-- The idle sweep is over. -/
theorem evicted_tidies (hopen : p.closed = false) (now : Instant) (n : Nat) :
    (p.evicted now n).Tidies (3 * p.registry.active.length + 2) := by
  have hnoted : ∀ {s : Stretch ρ} (c : Bool), s.Tidies (3 * p.registry.active.length + 2) →
      (s.notingIf c (.evicted n)).Tidies (3 * p.registry.active.length + 2) := by
    intro s c hs
    refine ⟨?_, (s.notingIf_pool c _).symm ▸ hs.isOpen⟩
    rw [s.notingIf_next, s.notingIf_pool]
    exact hs.next
  unfold evicted
  refine hnoted _ ?_
  split
  · split
    · rename_i a _ _
      obtain ⟨hclosed, hle⟩ := p.reclaimFrom_spares now a.timeout p.registry.active
      refine ⟨⟨_, rfl, .inr ⟨_, ?_, .clears n (.next _ _)⟩⟩, hclosed.trans hopen⟩
      rw [Point.ahead]
      omega
    · exact tidies_fill hopen ..
  · exact tidies_fill hopen ..

/-- A stretch of an idle sweep that is not over. -/
theorem Weeds.tidies {pt : Point ρ} {deed : Option Deed} (h : p.Weeds n pt deed s)
    (hpt : pt.InSweep n) (hopen : p.closed = false) :
    pt = .evicting [] [] n ∨ s.Tidies (pt.sweepLeft + 3 * p.registry.active.length + 2) := by
  obtain ⟨σ, ds, hstage⟩ := hpt.siftStage
  refine (hstage.turn h).imp_right fun ⟨σ', pt', hnext, hstage', hlt, hsifts⟩ => ?_
  obtain ⟨hclosed, hactive⟩ := hsifts.spares
  refine ⟨⟨pt', hnext, .inr ⟨_, ?_, .sorts n hstage'.inSweep⟩⟩, hclosed.trans hopen⟩
  omega

/-- An object that was taken from its borrower goes to the factory. -/
theorem tidies_of_destroys {c k : Nat} {x : Reclaimed ρ} {v : ρ} {rest : List (Reclaimed ρ)}
    (h : s.Destroys c x v (.reclaim rest m (.upkeep n))) (hopen : s.pool.closed = false)
    (hk : 3 * rest.length + 2 < k) : s.Tidies k :=
  ⟨⟨_, h.next, .inr ⟨_, hk, .clears n (.given x.object v rest m)⟩⟩, hopen⟩

/-- An object that was taken from its borrower has its resource, which goes to the factory. -/
theorem reclaimNext_tidies {x : Reclaimed ρ} {v : ρ} (hv : x.resource = some v)
    (hopen : p.closed = false) (rest : List (Reclaimed ρ)) (m n : Nat) :
    (p.reclaimNext x rest m (.upkeep n)).Tidies (3 * (x :: rest).length + 1) := by
  have hclosed : (p.reclaimNext x rest m (.upkeep n)).pool.closed = false := by
    rw [closed, reclaimNext_registry]
    exact hopen
  have hbound : 3 * rest.length + 3 < 3 * (x :: rest).length + 1 := by
    rw [List.length_cons]
    omega
  rcases (reclaimNext_shows hv p rest m (.upkeep n)).2 with hd | ⟨-, hgo⟩
  · exact tidies_of_destroys hd hclosed (Nat.lt_of_succ_lt hbound)
  · exact ⟨⟨_, congrArg Stretch.next hgo, .inr ⟨_, hbound, .clears n (.tells _ x rest m)⟩⟩,
      hclosed⟩

/-- So it does once it has been reported. -/
theorem disposeReclaimed_tidies {x : Reclaimed ρ} {v : ρ} (hv : x.resource = some v)
    (hopen : p.closed = false) (rest : List (Reclaimed ρ)) (m n : Nat) :
    (p.disposeReclaimed x rest m (.upkeep n)).Tidies (3 * rest.length + 3) := by
  obtain ⟨hd, -⟩ := disposeReclaimed_shows hv p rest m (.upkeep n)
  refine tidies_of_destroys hd ?_ (Nat.lt_succ_self _)
  rw [closed, disposeReclaimed_registry]
  exact hopen

/-- When the factory has destroyed it, the others follow. -/
theorem destroyed_tidies (hopen : p.closed = false) (id : Nat) (rest : List (Reclaimed ρ))
    (m n : Nat) (refusal : Option String) :
    (p.destroyed id (.reclaim rest m (.upkeep n)) refusal).Tidies (3 * rest.length + 2) := by
  have hnext : (p.destroyed id (.reclaim rest m (.upkeep n)) refusal).next =
      .go (.reclaiming rest m (.upkeep n)) := by cases refusal <;> rfl
  refine ⟨⟨_, hnext, .inr ⟨_, Nat.lt_succ_self _, .clears n (.next rest m)⟩⟩, ?_⟩
  rw [destroyed_pool]
  exact hopen

/-- A round begins: it takes each idle object out of the pool or tries it out, or neither. -/
theorem Sweepable.evict_tidies (h : p.Sweepable p.registry.idle) (hopen : p.closed = false)
    (now : Instant) : (p.evict now).Tidies
      (5 * p.registry.idle.length + 3 * p.registry.active.length + 3) := by
  obtain ⟨q, hevict, hculled⟩ := h.evict now
  have hsub : (p.culled now p.registry.idle.length p.registry.idleOldestFirst).Sublist
      p.registry.idleOldestFirst := Eviction.culls_sublist ..
  have hleft := hculled.length_left h.nodup hsub
  have hout := hsub.length_le
  rw [(idleOldestFirst_perm p.registry).length_eq] at hout
  rw [hevict]
  refine ⟨⟨_, rfl, .inr ⟨_, ?_, .sorts _ (.between _ _)⟩⟩, hculled.closed.trans hopen⟩
  show _ + 3 * q.registry.active.length + 2 < _
  rw [Point.sweepLeft, hculled.active]
  omega

end Pool

/-- Every turn of such a round on an open pool takes it nearer to the reserve. -/
theorem Episode.IsTurn.tidies {t d m : Nat} {e : Episode ρ} {a : Activity ρ} {q : Pool ρ}
    {s : Stretch ρ} {g : Nat → List Nat} (h : e.IsTurn t d a q s) (hw : e.before.Sound g)
    (hpt : a.point.Tidies q m) (hopen : q.closed = false) : s.Tidies m := by
  have hcases := h.cases
  have hseized : ∀ id r, (id, .seized r) ∈ a.point.charges → ∃ v, r = some v :=
    fun _ _ => h.works.resource_of_seized hw
  have hweeds := fun {n : Nat} (hsweep : a.point.InSweep n) => h.weeds hw hsweep
  have hagrees := (hw.pools a.pool).agrees h.works.pool
  obtain ⟨i, pt⟩ := a
  cases hpt with
  | begins =>
    have hs : s = q.evict e.before.now := by
      rcases hcases with ⟨-, hs⟩ | ⟨r, -, -, hs⟩
      · cases hs
        exact if_neg (Bool.eq_false_iff.mp hopen)
      · cases hs
    exact hs ▸ hagrees.sweepable.evict_tidies hopen e.before.now
  | sorts n hsweep =>
    rcases (hweeds hsweep).tidies hsweep hopen with rfl | htidies
    · rcases hcases with ⟨-, hs⟩ | ⟨r, -, -, hs⟩
      · cases hs
        have htidies := Pool.evicted_tidies hopen e.before.now n
        rwa [← Nat.zero_add (3 * _)] at htidies
      · cases hs
    · exact htidies
  | clears n hsweep =>
    cases hsweep with
    | next xs m =>
      rcases hcases with ⟨-, hs⟩ | ⟨r, -, -, hs⟩
      · cases hs with
        | swept =>
          rw [Pool.swept_eq]
          exact ⟨⟨_, rfl, .inl ⟨n, m, rfl⟩⟩, hopen⟩
        | reclaiming x rest =>
          obtain ⟨v, hv⟩ := hseized x.object x.resource (List.mem_cons_self ..)
          exact Pool.reclaimNext_tidies hv hopen rest m n
      · cases hs
    | tells r x rest m =>
      rcases hcases with ⟨-, hs⟩ | ⟨c, -, -, hs⟩
      · cases hs
      · cases hs
        obtain ⟨v, hv⟩ := hseized x.object x.resource (List.mem_cons_self ..)
        exact Pool.disposeReclaimed_tidies hv hopen rest m n
    | given id v rest m =>
      rcases hcases with ⟨-, hs⟩ | ⟨c, -, -, hs⟩
      · cases hs
      · cases hs with
        | destroyed _ _ _ _ refusal => exact Pool.destroyed_tidies hopen id rest m n refusal

end ObjectPool
