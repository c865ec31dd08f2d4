/-
  ObjectPool.Proofs.World

  When a world is sound: each of its pools agrees with the ledger of its calls and
  handles, and a pool is gone as soon as nobody refers to it. The statements here
  are about what happens to a world: a call runs for a stretch or begins, a handle
  leaves its borrower's hands or is used, a pool loses its last reference.

    * `World.SoundAt`, `World.KeptAt`, `World.Sound` — the invariant, pool by pool.
    * `Sound.apply` — a stretch of a call.
    * `SoundAt.of_same` — the pools that something does not concern.
-/

import ObjectPool.Proofs.Effect
import ObjectPool.Proofs.Run
import ObjectPool.Proofs.Views

namespace ObjectPool

variable {ρ : Type}

/-! ## The ledger after a stretch -/

/-- The object whose resource a stretch passes to the factory to be destroyed. -/
def Stretch.buried (s : Stretch ρ) : List Nat :=
  match s.next with
  | .go pt => pt.buried
  | .finish _ => []

namespace Stretch.Sound

variable {s : Stretch ρ} {ℓ : Ledger ρ} {q : Pool ρ} {pts : List (Point ρ)} {hs : List Handle}
  {gs : List Nat} {n : Nat}

/-- A stretch leaves the settings and the references of its pool alone. -/
theorem charter_eq (h : s.Sound ℓ) : s.pool.charter = ℓ.charter := by
  obtain ⟨pool, notices, next⟩ := s
  rcases next with pt | (id | _ | n | e) <;> exact h.charter

/-- A stretch opens no pool. -/
theorem closed_of_closed (h : s.Sound ℓ) (hc : ℓ.closed = true) : s.pool.closed = true := by
  obtain ⟨pool, notices, next⟩ := s
  rcases next with pt | (id | _ | n | e) <;> exact h.closed hc

/-- A stretch adds the objects that the factory has made and no others. -/
theorem born_eq (h : s.Sound ℓ) : s.pool.entries.length = ℓ.born := by
  obtain ⟨pool, notices, next⟩ := s
  rcases next with pt | (id | _ | n | e) <;> exact h.born

/-- The ledger of a pool once a call on it has come to a point. -/
theorem go {pt : Point ρ} (h : s.Sound ((Ledger.of q pts hs gs).bear n)) (hn : s.next = .go pt) :
    s.pool.Sound (.of s.pool (pt :: pts) hs (s.buried ++ gs)) := by
  obtain ⟨pool, notices, next⟩ := s
  obtain rfl : next = .go pt := hn
  have hrenew := Pool.Sound.renew h
  have heq : ((((Ledger.of q pts hs gs).bear n).bury pt).add pool.slot? pt).renew pool =
      ((Ledger.of pool pts hs gs).bury pt).add pool.slot? pt := by
    rw [Ledger.renew_add]
    exact congrArg (fun m => Ledger.add pool.slot? pt (Ledger.bury pt m)) Ledger.renew_of
  rw [Ledger.of_cons]
  exact heq ▸ hrenew

/-- The ledger of a pool once a call on it has ended. -/
theorem finish {r : Reply} (h : s.Sound ((Ledger.of q pts hs gs).bear n))
    (hn : s.next = .finish r) (p : Nat) : s.pool.Sound (.of s.pool pts (r.handles p ++ hs) gs) := by
  obtain ⟨pool, notices, next⟩ := s
  obtain rfl : next = .finish r := hn
  have hrenew := Pool.Sound.renew h
  cases r with
  | lent id =>
    refine Pool.Sound.of_same ?_ (Ledger.of_lend { pool := p, object := id })
    have heq : (((Ledger.of q pts hs gs).bear n).lend id ⟨false, pool.slot? id⟩).renew pool =
        (Ledger.of pool pts hs gs).lend id ⟨false, pool.slot? id⟩ :=
      congrArg (Ledger.lend id ⟨false, pool.slot? id⟩) Ledger.renew_of
    exact heq ▸ hrenew
  | done | made n | failed e => exact Ledger.renew_of (p := q) ▸ hrenew

end Stretch.Sound

namespace World

/-- The pool `i` agrees with its calls and its handles, and `gs` are its graves. A pool
    that is gone was closed, or a call that closes it is on its way. -/
structure SoundAt (w : World ρ) (i : Nat) (gs : List Nat) : Prop where
  sound : ∀ p, w.pools[i]? = some p → p.Sound (.of p (w.points i) (w.lent i) gs)
  housed : w.pools[i]? = none → w.points i = [] ∧ w.lent i = [] ∧ gs = []
  shutting : ∀ p, w.pools[i]? = some p → p.gone = true →
    p.closed = true ∨ ∃ c, Point.close c ∈ w.points i

/-- The pool `i` is gone if nobody refers to it. -/
def KeptAt (w : World ρ) (i : Nat) : Prop :=
  ∀ p, w.pools[i]? = some p → w.references i = 0 → p.gone = true

/-- A call below another one on its thread waits for an answer. -/
def Nested (w : World ρ) : Prop :=
  ∀ th ∈ w.threads, ∀ a ∈ th.stack.tail, a.point.isRequest = true

/-- Every pool agrees with its calls and handles; `g` are the graves of each pool. -/
structure Sound (w : World ρ) (g : Nat → List Nat) : Prop where
  pools : ∀ i, w.SoundAt i (g i)
  kept : ∀ i, w.KeptAt i
  nested : w.Nested

/-- Nothing that concerns the pool `i` is different in two worlds. -/
structure SameAt (w w' : World ρ) (i : Nat) : Prop where
  pool : w'.pools[i]? = w.pools[i]?
  points : (w.points i).Perm (w'.points i)
  lent : (w.lent i).Perm (w'.lent i)

variable {w w' : World ρ} {g g' : Nat → List Nat} {gs : List Nat} {i t p n : Nat} {q : Pool ρ}
  {a : Activity ρ}

theorem SoundAt.of_same (h : w.SoundAt i gs) (hs : w.SameAt w' i) : w'.SoundAt i gs := by
  refine ⟨fun p hp => ?_, fun hn => ?_, fun p hp hg => ?_⟩
  · exact (h.sound p (hs.pool ▸ hp)).of_perm hs.points hs.lent
  · obtain ⟨hpoints, hlent, hgs⟩ := h.housed (hs.pool ▸ hn)
    exact ⟨List.nil_perm.mp (hpoints ▸ hs.points), List.nil_perm.mp (hlent ▸ hs.lent), hgs⟩
  · rcases h.shutting p (hs.pool ▸ hp) hg with hc | ⟨c, hc⟩
    · exact .inl hc
    · exact .inr ⟨c, hs.points.mem_iff.mp hc⟩

theorem references_eq (w : World ρ) (i : Nat) : w.references i =
    ((w.pools[i]?).map (·.clones)).getD 0 + (w.lent i).length + (w.points i).length := by
  rw [references, holders_eq, callers_eq]

theorem KeptAt.of_same (h : w.KeptAt i) (hs : w.SameAt w' i) : w'.KeptAt i := by
  intro p hp hr
  rw [references_eq, hs.pool, ← hs.points.length_eq, ← hs.lent.length_eq, ← references_eq] at hr
  exact h p (hs.pool ▸ hp) hr

/-- Something that concerns no pool at all. -/
theorem Sound.of_same (h : w.Sound g) (hs : ∀ i, w.SameAt w' i) (hn : w'.Nested) : w'.Sound g :=
  ⟨fun i => (h.pools i).of_same (hs i), fun i => (h.kept i).of_same (hs i), hn⟩

/-- Something that concerns the pool `p` alone leaves the others in agreement. -/
theorem soundAt_of_others (h : ∀ i, w.SoundAt i (g i)) (hg : ∀ i, i ≠ p → g' i = g i)
    (hs : ∀ i, i ≠ p → w.SameAt w' i) (hp : w'.SoundAt p (g' p)) : ∀ i, w'.SoundAt i (g' i) := by
  intro i
  by_cases hi : i = p
  · rw [hi]
    exact hp
  · rw [hg i hi]
    exact (h i).of_same (hs i hi)

/-- Something that concerns the pool `p` alone. -/
theorem Sound.of_others (h : w.Sound g) (hg : ∀ i, i ≠ p → g' i = g i)
    (hs : ∀ i, i ≠ p → w.SameAt w' i) (hp : w'.SoundAt p (g' p)) (hk : w'.KeptAt p)
    (hn : w'.Nested) : w'.Sound g' := by
  refine ⟨soundAt_of_others h.pools hg hs hp, fun i => ?_, hn⟩
  by_cases hi : i = p
  · rw [hi]
    exact hk
  · exact (h.kept i).of_same (hs i hi)

/-- The invariant for a pool that is there, from what is known of it. -/
theorem SoundAt.intro {pts : List (Point ρ)} {hs : List Handle} (hq : w.pools[i]? = some q)
    (h : q.Sound (.of q pts hs gs)) (hp : pts.Perm (w.points i)) (hh : hs.Perm (w.lent i))
    (hg : q.gone = true → q.closed = true ∨ ∃ c, Point.close c ∈ w.points i) :
    w.SoundAt i gs := by
  refine ⟨fun p hp' => ?_, fun hn => ?_, fun p hp' => ?_⟩
  · obtain rfl := Option.some.inj (hq.symm.trans hp')
    exact h.of_perm hp hh
  · exact nomatch hq.symm.trans hn
  · obtain rfl := Option.some.inj (hq.symm.trans hp')
    exact hg

/-! ## Pools and threads -/

theorem pools_onPool_self (hq : w.pools[p]? = some q) (f : Pool ρ → Pool ρ) :
    (w.onPool p f).pools[p]? = some (f q) := by
  show (w.pools.modify p f)[p]? = _
  rw [List.getElem?_modify, hq]
  simp

theorem pools_onPool_of_ne (hi : i ≠ p) (f : Pool ρ → Pool ρ) :
    (w.onPool p f).pools[i]? = w.pools[i]? := by
  show (w.pools.modify p f)[i]? = _
  rw [List.getElem?_modify]
  simp [Ne.symm hi]

theorem Nested.onThread (h : w.Nested) {f : Thread ρ → Thread ρ}
    (hf : ∀ th, w.threads[t]? = some th → ∀ a ∈ (f th).stack.tail, a.point.isRequest = true) :
    (w.onThread t f).Nested := by
  intro th hth a ha
  obtain ⟨u, hu⟩ := List.mem_iff_getElem?.mp hth
  rw [show (w.onThread t f).threads = w.threads.modify t f from rfl, List.getElem?_modify] at hu
  obtain ⟨th', hth', rfl⟩ := Option.map_eq_some_iff.mp hu
  by_cases htu : t = u
  · subst htu
    rw [if_pos rfl] at ha
    exact hf th' hth' a ha
  · rw [if_neg htu] at ha
    exact h th' (List.mem_iff_getElem?.mpr ⟨u, hth'⟩) a ha

/-- A thread on which a call can begin: every call on it waits for an answer. -/
def Open (w : World ρ) (t : Nat) : Prop :=
  ∃ th, w.threads[t]? = some th ∧ ∀ a ∈ th.stack, a.point.isRequest = true

theorem Nested.open_of_isFree (h : w.Nested) (hf : w.isFree t = true) : w.Open t := by
  obtain ⟨th, hth, hfree⟩ := (Option.any_eq_true _ _).mp hf
  refine ⟨th, hth, ?_⟩
  have hnest := h th (List.mem_of_getElem? hth)
  -- the call on top waits for an answer, and those below it by nesting
  cases hs : th.stack with
  | nil => exact fun a ha => nomatch ha
  | cons a rest =>
    rw [hs] at hfree hnest
    intro b hb
    rcases List.mem_cons.mp hb with rfl | hb
    · exact hfree
    · exact hnest b hb

theorem Nested.push (h : w.Nested) (ht : w.Open t) (a : Activity ρ) : (w.push t a).Nested := by
  obtain ⟨th, hth, hall⟩ := ht
  refine h.onThread fun th' hth' => ?_
  obtain rfl := Option.some.inj (hth.symm.trans hth')
  exact hall

/-- What lies below the call on top of a thread waits for an answer. -/
theorem Nested.open_pop (h : w.Nested) (ht : w.top? t = some a) : (w.pop t).Open t := by
  obtain ⟨th, rest, hth, hs⟩ := top?_eq_some ht
  refine ⟨{ th with stack := th.stack.tail }, ?_, h th (List.mem_of_getElem? hth)⟩
  show (w.threads.modify t _)[t]? = _
  rw [List.getElem?_modify, hth]
  simp

theorem Nested.pop (h : w.Nested) : (w.pop t).Nested :=
  h.onThread fun th hth a ha => h th (List.mem_of_getElem? hth) a (List.mem_of_mem_tail ha)

theorem Nested.moveTo (h : w.Nested) (pt : Point ρ) : (w.moveTo t pt).Nested := by
  refine h.onThread fun th hth a ha => h th (List.mem_of_getElem? hth) a ?_
  cases hs : th.stack with
  | nil =>
    rw [hs] at ha
    exact nomatch ha
  | cons b rest =>
    rw [hs] at ha
    exact ha

/-- A call that begins on a pool concerns no other one. -/
theorem sameAt_push (ht : w.Open t) (hi : i ≠ a.pool) : w.SameAt (w.push t a) i := by
  obtain ⟨th, hth, -⟩ := ht
  refine ⟨rfl, ?_, .refl _⟩
  have hp := (points_push hth a i).symm
  rwa [Activity.pointOn_of_ne hi] at hp

theorem points_push_self (ht : w.Open t) (a : Activity ρ) :
    (a.point :: w.points a.pool).Perm ((w.push t a).points a.pool) := by
  obtain ⟨th, hth, -⟩ := ht
  have hp := (points_push hth a a.pool).symm
  rwa [Activity.pointOn_self] at hp

/-- A pool with a call on its way is referred to. -/
theorem kept_push (ht : w.Open t) (a : Activity ρ) : (w.push t a).KeptAt a.pool := by
  intro q _ hr
  have hlen := (points_push_self ht a).length_eq
  rw [references_eq, ← hlen, List.length_cons] at hr
  omega

/-! ## The last reference to a pool -/

/-- A pool that is gone agrees with its calls and handles as before, and with the call that
    closes it. -/
theorem SoundAt.closing (h : w.SoundAt i gs) (hq : w.pools[i]? = some q) {r : Reply}
    (hr : r.isLoan = false) : Pool.Sound { q with gone := true }
      (.of { q with gone := true } (.close (.release r) :: w.points i) (w.lent i) gs) := by
  have hgone := (h.sound q hq).of_references (q := { q with gone := true }) rfl rfl rfl rfl
  rw [Ledger.of_cons]
  refine { hgone with promises := fun x hx => ?_ }
  rcases List.mem_cons.mp hx with rfl | hx
  · exact hr
  · exact hgone.promises x hx

/-- A thread has given up a reference to the pool `p`, which may have been the last. -/
theorem forsake_sound {r : Reply} (hp : ∀ i, w.SoundAt i (g i)) (hn : w.Nested)
    (hk : ∀ i, i ≠ p → w.KeptAt i) (ht : w.Open t)
    (hr : r.isLoan = true → w.references p ≠ 0) : (w.forsake t p r).world.Sound g := by
  rcases forsake_cases w t p r with ⟨q, hq, hrefs, hlast⟩ | ⟨hkept, hmore⟩
  · -- the pool is marked as gone, and the call that closes it begins
    rw [hlast]
    have hloan : r.isLoan = false := Bool.eq_false_iff.mpr fun h => hr h hrefs
    have hself := pools_onPool_self hq fun q => { q with gone := true }
    have hpush := points_push_self (w := w.markGone p) ht ⟨p, .close (.release r)⟩
    have hother : ∀ i, i ≠ p → w.SameAt ((w.markGone p).push t ⟨p, .close (.release r)⟩) i := by
      intro i hi
      have hs := sameAt_push (w := w.markGone p) (a := ⟨p, .close (.release r)⟩) ht hi
      exact ⟨pools_onPool_of_ne hi _, hs.points, hs.lent⟩
    refine ⟨soundAt_of_others hp (fun _ _ => rfl) hother ?_, fun i => ?_, Nested.push hn ht _⟩
    · refine .intro hself ((hp p).closing hq hloan) hpush (.refl _) fun _ => .inr ⟨.release r, ?_⟩
      exact hpush.mem_iff.mp (List.mem_cons_self ..)
    · by_cases hi : i = p
      · subst hi
        exact kept_push (w := w.markGone i) ht ⟨i, .close (.release r)⟩
      · exact (hk i hi).of_same (hother i hi)
  · rw [hmore]
    refine ⟨hp, fun i => ?_, hn⟩
    by_cases hi : i = p
    · subst hi
      exact hkept
    · exact hk i hi

/-! ## A call runs for a stretch -/

theorem lent_handOver (w : World ρ) (p : Nat) (r : Reply) :
    (r.handles p ++ w.lent p).Perm ((w.handOver p r).lent p) := by
  have hnew : handlesOf p ((r.handles p).map some) = r.handles p := by
    cases r with
    | lent id =>
      exact (handlesOf_cons_some ..).trans (by simp [Handle.on, handlesOf, Reply.handles])
    | done | made n | failed e => rfl
  have hall : (w.handOver p r).lent p = w.lent p ++ r.handles p := by
    rw [← hnew]
    exact handlesOf_append ..
  rw [hall]
  exact List.perm_append_comm

theorem lent_handOver_of_ne (w : World ρ) (r : Reply) (hi : i ≠ p) :
    (w.handOver p r).lent i = w.lent i := by
  have hnew : handlesOf i ((r.handles p).map some) = [] := by
    cases r with
    | lent id => exact (handlesOf_cons_some ..).trans (by simp [Handle.on, handlesOf, Ne.symm hi])
    | done | made n | failed e => rfl
  have hall : (w.handOver p r).lent i = w.lent i ++ handlesOf i ((r.handles p).map some) :=
    handlesOf_append ..
  rw [hall, hnew, List.append_nil]

/-- The call `a` on top of the thread `t` runs for the stretch `s` on its pool `q`, after an
    answer that brings `n` objects if it waits for one. -/
structure Stretches (w : World ρ) (t : Nat) (a : Activity ρ) (q : Pool ρ) (s : Stretch ρ)
    (n : Nat) : Prop where
  top : w.top? t = some a
  pool : w.pools[a.pool]? = some q
  sound : ∀ ℓ : Ledger ρ, q.Sound (ℓ.add q.slot? a.point) → s.Sound (ℓ.bear n)
  closes : ∀ c, a.point = .close c → s.pool.closed = true

/-- The call that runs is one of the calls on its pool. -/
theorem Stretches.points {s : Stretch ρ} (hs : w.Stretches t a q s n) :
    (w.points a.pool).Perm (a.point :: (w.pop t).points a.pool) := by
  have hp := points_pop hs.top a.pool
  rwa [Activity.pointOn_self] at hp

/-- The stretch agrees with the ledger of all other calls and of the handles. -/
theorem Stretches.rest {s : Stretch ρ} (hs : w.Stretches t a q s n) (h : w.Sound g) :
    s.Sound ((Ledger.of q ((w.pop t).points a.pool) (w.lent a.pool) (g a.pool)).bear n) := by
  have hold := ((h.pools a.pool).sound q hs.pool).of_perm hs.points (.refl _)
  rw [Ledger.of_cons] at hold
  exact hs.sound _ hold

/-- The world once a call has run for a stretch. -/
theorem Sound.apply (h : w.Sound g) {s : Stretch ρ} (hs : w.Stretches t a q s n) :
    (w.apply t a.pool s).world.Sound fun i => if i = a.pool then s.buried ++ g i else g i := by
  have hpop := hs.points
  have hstretch := hs.rest h
  have hother : ∀ i, i ≠ a.pool → (w.points i).Perm ((w.pop t).points i) := by
    intro i hi
    have hp := points_pop hs.top i
    rwa [Activity.pointOn_of_ne hi] at hp
  have hself := pools_onPool_self hs.pool fun _ => s.pool
  have hgraves : ∀ i, i ≠ a.pool → (if i = a.pool then s.buried ++ g i else g i) = g i :=
    fun i hi => if_neg hi
  -- a pool that is gone stays closed, or the call that closes it has just done so
  have hshut : s.pool.gone = true →
      s.pool.closed = true ∨ ∃ c, Point.close c ∈ (w.pop t).points a.pool := by
    intro hg
    have hgone : q.gone = true := (congrArg Charter.gone hstretch.charter_eq).symm.trans hg
    rcases (h.pools a.pool).shutting q hs.pool hgone with hclosed | ⟨c, hmem⟩
    · exact .inl (hstretch.closed_of_closed hclosed)
    · rcases List.mem_cons.mp (hpop.mem_iff.mp hmem) with hpt | hmem
      · exact .inl (hs.closes c hpt.symm)
      · exact .inr ⟨c, hmem⟩
  cases hn : s.next with
  | go pt =>
    -- the call goes on at another point
    have hmove := points_moveTo (w := w.onPool a.pool fun _ => s.pool) hs.top pt
    have hhere : (pt :: (w.pop t).points a.pool).Perm
        (((w.onPool a.pool fun _ => s.pool).moveTo t pt).points a.pool) := by
      have hp := (hmove a.pool).symm
      rwa [show Activity.pointOn a.pool { a with point := pt } = [pt] from if_pos rfl] at hp
    have hsame : ∀ i, i ≠ a.pool →
        w.SameAt ((w.onPool a.pool fun _ => s.pool).moveTo t pt) i := by
      intro i hi
      have hp := (hmove i).symm
      rw [show Activity.pointOn i { a with point := pt } = [] from if_neg (Ne.symm hi)] at hp
      exact ⟨pools_onPool_of_ne hi _, (hother i hi).trans hp, .refl _⟩
    rw [apply_go hn]
    refine h.of_others hgraves hsame ?_ ?_ (h.nested.moveTo pt)
    · rw [if_pos rfl]
      refine .intro hself (hstretch.go hn) hhere (.refl _) fun hg => ?_
      rcases hshut hg with hclosed | ⟨c, hmem⟩
      · exact .inl hclosed
      · exact .inr ⟨c, hhere.mem_iff.mp (List.mem_cons_of_mem _ hmem)⟩
    · intro q' _ hr
      rw [references_eq, ← hhere.length_eq, List.length_cons] at hr
      omega
  | finish r =>
    rw [apply_finish hn]
    -- the call ends, and its thread gives up the reference to the pool
    have hopen : (w.pop t).Open t := h.nested.open_pop hs.top
    have hsame : ∀ i, i ≠ a.pool →
        w.SameAt (((w.onPool a.pool fun _ => s.pool).pop t).handOver a.pool r) i := by
      intro i hi
      refine ⟨pools_onPool_of_ne hi _, hother i hi, ?_⟩
      rw [lent_handOver_of_ne _ _ hi]
      exact .refl _
    have hlent := lent_handOver ((w.onPool a.pool fun _ => s.pool).pop t) a.pool r
    refine forsake_sound (soundAt_of_others h.pools hgraves hsame ?_) h.nested.pop
      (fun i hi => (h.kept i).of_same (hsame i hi)) hopen fun hloan hrefs => ?_
    · rw [if_pos rfl, show s.buried = [] by rw [Stretch.buried, hn]]
      exact .intro hself (hstretch.finish hn a.pool) (.refl _) hlent hshut
    · -- a borrower that has just got an object refers to the pool
      cases r with
      | lent id =>
        rw [references_eq, ← hlent.length_eq] at hrefs
        simp [Reply.handles] at hrefs
      | done | made n | failed e => cases hloan

end World

end ObjectPool
