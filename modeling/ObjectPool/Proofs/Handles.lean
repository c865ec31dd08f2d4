/-
  ObjectPool.Proofs.Handles

  What borrowers do with their handles leaves a world sound. A handle that leaves
  its borrower's hands becomes the business of a call; one that is used stays, and
  its object is in the state in which it was lent, for otherwise the slot is empty
  and the borrower gets nothing.
-/

import ObjectPool.Proofs.World

namespace ObjectPool

variable {ρ : Type}

namespace Pool

variable {p q : Pool ρ} {pts : List (Point ρ)} {hs : List Handle} {gs : List Nat} {x : Handle}
  {id : Nat} {v : Position ρ} {ℓ : Ledger ρ}

/-- A call that begins owes nobody anything yet. -/
theorem Sound.opening (h : q.Sound (.of q pts hs gs)) (o : Opening) :
    q.Sound (.of q (o.point :: pts) hs gs) := by
  rw [Ledger.of_cons]
  cases o <;> exact h

/-- A handle leaves its borrower's hands, and a call has the object. -/
theorem Sound.handBack (h : q.Sound (.of q pts (x :: hs) gs)) (hx : x.guarded = false)
    {pt : Point ρ} (hpt : pt.TakesBack x.object) : q.Sound (.of q (pt :: pts) hs gs) := by
  have hlend := h.of_same (Ledger.of_lend x).symm
  rw [hx] at hlend
  rw [Ledger.of_cons]
  cases hpt with
  | discard => exact hlend
  | @keep answer hr =>
    refine { hlend with promises := fun r hmem => ?_ }
    rcases List.mem_append.mp hmem with hmem | hmem
    · cases r with
      | lent id => exact absurd (Option.mem_toList.mp hmem) (hr id)
      | done | made n | failed e => rfl
    · exact h.promises r hmem

/-- An object with a resource in its slot is lent to the borrower with its handle. -/
theorem Sound.borrowed (h : q.Sound (.of q pts (x :: hs) gs)) {r : ρ}
    (hr : q.slot? x.object = some r) :
    q.Focus (.of q pts hs gs) x.object
      ⟨some ⟨.allocated, some r, x.guarded⟩, 1, 0, 1, 0, [], []⟩ := by
  have hlend := h.of_same (Ledger.of_lend x).symm
  rcases hlend.recall with ⟨r', hr', hf⟩ | ⟨-, -, hnone⟩
  · obtain rfl := Option.some.inj (hr.symm.trans hr')
    exact hf
  · exact nomatch hr.symm.trans hnone

/-- A borrower goes on with its handle. -/
theorem Focus.handle {r : ρ} {b : Bool} (h : p.Focus (.of q pts hs gs) x.object
      ⟨some ⟨.allocated, some r, b⟩, 1, 0, 1, 0, [], []⟩) :
    p.Sound (.of p pts ({ x with guarded := b } :: hs) gs) := by
  refine Sound.of_same ?_ (Ledger.of_lend { x with guarded := b })
  -- the loan says what is in the slot, as every handle does
  have hrenew := h.lendTo.renew
  have heq : ((Ledger.of q pts hs gs).lend x.object ⟨b, some r⟩).renew p =
      (Ledger.of p pts hs gs).lend x.object ⟨b, p.slot? x.object⟩ :=
    congrArg (Ledger.lend x.object ⟨b, p.slot? x.object⟩) Ledger.renew_of
  exact heq ▸ hrenew

theorem Focus.trackUse (h : p.Focus ℓ id v) (now : Instant) (site : String) :
    (p.trackUse now id site).Focus ℓ id v := by
  unfold Pool.trackUse
  split
  · split
    · exact h.unseen fun _ => rfl
    · exact h
  · exact h

theorem trackUse_charter (p : Pool ρ) (now : Instant) (id : Nat) (site : String) :
    (p.trackUse now id site).charter = p.charter := by
  unfold Pool.trackUse
  split
  · split <;> rfl
  · rfl

theorem trackUse_closed (p : Pool ρ) (now : Instant) (id : Nat) (site : String) :
    (p.trackUse now id site).closed = p.closed := by
  unfold Pool.trackUse
  split
  · split <;> rfl
  · rfl

end Pool

namespace World

variable {w w' : World ρ} {g : Nat → List Nat} {gs : List Nat} {i t p n : Nat} {q : Pool ρ}
  {a : Activity ρ} {x : Handle}

/-! ## A change to a pool -/

/-- A change to the pool `p` after which it agrees with its calls and handles as before. -/
theorem SoundAt.onPool (h : w.SoundAt p gs) {f : Pool ρ → Pool ρ}
    (hf : ∀ q, q.Sound (.of q (w.points p) (w.lent p) gs) →
      (f q).Sound (.of (f q) (w.points p) (w.lent p) gs))
    (hgone : ∀ q, (f q).gone = q.gone) (hclosed : ∀ q, (f q).closed = q.closed) :
    (w.onPool p f).SoundAt p gs := by
  cases hq : w.pools[p]? with
  | none =>
    refine h.of_same ⟨?_, .refl _, .refl _⟩
    show (w.pools.modify p f)[p]? = _
    rw [List.getElem?_modify, hq]
    rfl
  | some q =>
    refine .intro (pools_onPool_self hq f) (hf q (h.sound q hq)) (.refl _) (.refl _) ?_
    rw [hgone, hclosed]
    exact h.shutting q hq

theorem sameAt_onPool (hi : i ≠ p) (f : Pool ρ → Pool ρ) : w.SameAt (w.onPool p f) i :=
  ⟨pools_onPool_of_ne hi f, .refl _, .refl _⟩

/-- A change to the pool `p` that takes no reference away. -/
theorem Sound.onPool (h : w.Sound g) {f : Pool ρ → Pool ρ}
    (hf : ∀ q, q.Sound (.of q (w.points p) (w.lent p) (g p)) →
      (f q).Sound (.of (f q) (w.points p) (w.lent p) (g p)))
    (hgone : ∀ q, (f q).gone = q.gone) (hclosed : ∀ q, (f q).closed = q.closed)
    (hclones : ∀ q, q.clones ≤ (f q).clones) : (w.onPool p f).Sound g := by
  refine h.of_others (fun _ _ => rfl) (fun i hi => sameAt_onPool hi f)
    ((h.pools p).onPool hf hgone hclosed) ?_ h.nested
  intro q' hq' hr
  cases hq : w.pools[p]? with
  | none =>
    have hnone : (w.onPool p f).pools[p]? = none := by
      show (w.pools.modify p f)[p]? = _
      rw [List.getElem?_modify, hq]
      rfl
    exact nomatch hnone.symm.trans hq'
  | some q =>
    have hself := pools_onPool_self hq f
    obtain rfl := Option.some.inj (hself.symm.trans hq')
    rw [hgone]
    refine h.kept p q hq ?_
    -- the pool has no fewer references than before
    have hle := hclones q
    rw [references_eq, hself] at hr
    rw [references_eq, hq]
    simp only [Option.map_some, Option.getD_some] at hr ⊢
    have hlent : (w.onPool p f).lent p = w.lent p := rfl
    have hpoints : (w.onPool p f).points p = w.points p := rfl
    rw [hlent, hpoints] at hr
    omega

/-! ## A call begins -/

/-- A pool that is gone is closed or about to be, also with one more call on its way. -/
theorem SoundAt.shutting_cons (h : w.SoundAt i gs) (hq : w.pools[i]? = some q) {pt : Point ρ}
    (hp : (pt :: w.points i).Perm (w'.points i)) (hg : q.gone = true) :
    q.closed = true ∨ ∃ c, Point.close c ∈ w'.points i := by
  rcases h.shutting q hq hg with hc | ⟨c, hc⟩
  · exact .inl hc
  · exact .inr ⟨c, hp.mem_iff.mp (List.mem_cons_of_mem _ hc)⟩

theorem Sound.push (h : w.Sound g) (ht : w.Open t)
    (ha : ∀ q, w.pools[a.pool]? = some q →
      q.Sound (.of q (a.point :: w.points a.pool) (w.lent a.pool) (g a.pool)))
    (hq : w.pools[a.pool]? = some q) : (w.push t a).Sound g := by
  have hself := points_push_self ht a
  refine h.of_others (fun _ _ => rfl) (fun i hi => sameAt_push ht hi) ?_ (kept_push ht a)
    (h.nested.push ht a)
  exact .intro hq (ha q hq) hself (.refl _) ((h.pools a.pool).shutting_cons hq hself)

/-- A caller begins a call. -/
theorem Sound.begin (h : w.Sound g) (ht : w.Open t) (hq : w.pools[p]? = some q) (o : Opening) :
    (w.push t ⟨p, o.point⟩).Sound g :=
  h.push (a := ⟨p, o.point⟩) ht (fun q hq => ((h.pools p).sound q hq).opening o) hq

/-! ## Handles -/

/-- A handle is one of an object of a pool that is there. -/
theorem Sound.pool_of_handle (h : w.Sound g) (hx : w.handle? n = some x) :
    ∃ q, w.pools[x.pool]? = some q := by
  cases hq : w.pools[x.pool]? with
  | some q => exact ⟨q, rfl⟩
  | none =>
    have hmem : x ∈ w.lent x.pool := mem_lent.mpr ⟨⟨n, hx⟩, rfl⟩
    rw [((h.pools x.pool).housed hq).2.1] at hmem
    exact nomatch hmem

/-- A handle leaves its borrower's hands, and a call has the object. -/
theorem Sound.handBack (h : w.Sound g) (hx : w.handle? n = some x) (hg : x.guarded = false)
    (ht : w.Open t) {pt : Point ρ} (hpt : pt.TakesBack x.object) :
    ((w.surrender n).push t ⟨x.pool, pt⟩).Sound g := by
  obtain ⟨q, hq⟩ := h.pool_of_handle hx
  have hself := points_push_self (w := w.surrender n) ht ⟨x.pool, pt⟩
  -- the other pools
  have hsame : ∀ i, i ≠ x.pool → w.SameAt ((w.surrender n).push t ⟨x.pool, pt⟩) i := by
    intro i hi
    obtain ⟨rest, hold, hnew⟩ := lent_set hx none i
    have hpush := sameAt_push (w := w.surrender n) (a := ⟨x.pool, pt⟩) ht hi
    rw [Handle.on_of_ne hi] at hold
    exact ⟨rfl, hpush.points, hold.trans hnew.symm⟩
  obtain ⟨rest, hold, hnew⟩ := lent_set hx none x.pool
  rw [Handle.on_self] at hold
  have hsound := ((h.pools x.pool).sound q hq).of_perm (.refl _) hold
  refine h.of_others (fun _ _ => rfl) hsame ?_
    (kept_push (w := w.surrender n) ht ⟨x.pool, pt⟩) (h.nested.push ht _)
  exact .intro hq (hsound.handBack hg hpt) hself hnew.symm
    ((h.pools x.pool).shutting_cons hq hself)

/-- A borrower does something with a handle that it keeps. -/
theorem Sound.use (h : w.Sound g) (hx : w.handle? n = some x) (hq : w.pools[x.pool]? = some q)
    {b : Bool} {f : Pool ρ → Pool ρ}
    (hf : ∀ pts hs gs, q.Sound (.of q pts (x :: hs) gs) →
      (f q).Sound (.of (f q) pts ({ x with guarded := b } :: hs) gs))
    (hcharter : (f q).charter = q.charter) (hclosed : (f q).closed = q.closed) :
    Sound { w.onPool x.pool f with
      handles := w.handles.set n (some { x with guarded := b }) } g := by
  have hgone : (f q).gone = q.gone := congrArg Charter.gone hcharter
  have hclones : (f q).clones = q.clones := congrArg Charter.clones hcharter
  have hself := pools_onPool_self hq f
  -- the other pools
  have hsame : ∀ i, i ≠ x.pool → w.SameAt
      { w.onPool x.pool f with handles := w.handles.set n (some { x with guarded := b }) } i := by
    intro i hi
    obtain ⟨rest, hold, hnew⟩ := lent_set hx (some { x with guarded := b }) i
    rw [Handle.on_of_ne hi] at hold
    rw [Option.elim_some, show Handle.on i { x with guarded := b } = [] from
      if_neg (Ne.symm hi)] at hnew
    exact ⟨pools_onPool_of_ne hi f, .refl _, hold.trans hnew.symm⟩
  obtain ⟨rest, hold, hnew⟩ := lent_set hx (some { x with guarded := b }) x.pool
  rw [Handle.on_self] at hold
  rw [Option.elim_some, show Handle.on x.pool { x with guarded := b } = [{ x with guarded := b }]
    from if_pos rfl] at hnew
  refine h.of_others (fun _ _ => rfl) hsame ?_ ?_ h.nested
  · have hsound := ((h.pools x.pool).sound q hq).of_perm (.refl _) hold
    refine .intro hself (hf _ _ _ hsound) (.refl _) hnew.symm ?_
    rw [hgone, hclosed]
    exact (h.pools x.pool).shutting q hq
  · -- a borrower with a handle refers to the pool
    intro q' _ hr
    have hlen := hnew.length_eq
    rw [references_eq] at hr
    have hzero : (World.lent { w.onPool x.pool f with
        handles := w.handles.set n (some { x with guarded := b }) } x.pool).length = 0 := by
      omega
    rw [List.length_append, List.length_singleton] at hlen
    exact absurd (hlen.symm.trans hzero) (by omega)

/-- A handle that is written back as it was. -/
theorem set_handle (hx : w.handle? n = some x) : w.handles.set n (some x) = w.handles := by
  obtain ⟨hlt, hget⟩ := List.getElem?_eq_some_iff.mp (Option.join_eq_some_iff.mp hx)
  rw [← hget]
  exact List.set_getElem_self hlt

/-- A pool refuses an object that it has not lent. -/
theorem Sound.refuse (h : w.Sound g) (p : Nat) :
    (w.onPool p fun q => (q.refuseReturn .done).pool).Sound g :=
  h.onPool
    (fun _ hq => Pool.Sound.count
      (f := fun c => { c with invalidReturns := c.invalidReturns + 1 }) hq rfl rfl)
    (fun _ => rfl) (fun _ => rfl) fun _ => Nat.le_refl _

/-- A handle leaves its borrower's hands. -/
theorem Sound.partsWith (h : w.Sound g) (hx : w.handle? n = some x) (hg : x.guarded = false)
    (ht : w.Open t) (hw : w.PartsWith t n x w') : w'.Sound g := by
  cases hw with
  | own hpt => exact h.handBack hx hg ht hpt
  | foreign p hpt => exact (h.refuse p).handBack hx hg ht hpt

/-- The pool of a handle with a resource. -/
theorem slot?_of_resource? {r : ρ} (hr : w.resource? x = some r) :
    ∃ q, w.pools[x.pool]? = some q ∧ q.slot? x.object = some r := Option.bind_eq_some_iff.mp hr

theorem Sound.access (h : w.Sound g) (hx : w.handle? n = some x) (hg : x.guarded = false) {r : ρ}
    (hr : w.resource? x = some r) (site : String) (f : ρ → ρ) :
    (w.onPool x.pool fun q => (q.trackUse w.now x.object site).letGo x.object (f r)).Sound g := by
  obtain ⟨q, hq, hslot⟩ := slot?_of_resource? hr
  have huse := h.use (b := false) hx hq
    (f := fun q => (q.trackUse w.now x.object site).letGo x.object (f r)) ?_
    (Pool.trackUse_charter ..) (Pool.trackUse_closed ..)
  · rwa [← hg, set_handle hx] at huse
  · intro pts hs gs hs'
    have huse := (hs'.borrowed hslot).trackUse w.now site
    exact (huse.letGo (f r)).handle

theorem Sound.lock (h : w.Sound g) (hx : w.handle? n = some x) {r : ρ}
    (hr : w.resource? x = some r) (site : String) :
    Sound { w.onPool x.pool (fun q => (q.trackUse w.now x.object site).hold x.object) with
      handles := w.handles.set n (some { x with guarded := true }) } g := by
  obtain ⟨q, hq, hslot⟩ := slot?_of_resource? hr
  refine h.use (b := true) hx hq ?_ (Pool.trackUse_charter ..) (Pool.trackUse_closed ..)
  intro pts hs gs hs'
  have huse := (hs'.borrowed hslot).trackUse w.now site
  exact huse.hold.handle

theorem Sound.unlock (h : w.Sound g) (hx : w.handle? n = some x) {r : ρ}
    (hr : w.resource? x = some r) (f : ρ → ρ) :
    Sound { w.onPool x.pool (Pool.letGo x.object (f r)) with
      handles := w.handles.set n (some { x with guarded := false }) } g := by
  obtain ⟨q, hq, hslot⟩ := slot?_of_resource? hr
  refine h.use (b := false) hx hq ?_ rfl rfl
  intro pts hs gs hs'
  have hback := (hs'.borrowed hslot).letGo (f r)
  exact hback.handle

theorem Sound.markUsed (h : w.Sound g) (hx : w.handle? n = some x) (site : String) :
    (w.markUsed x site).Sound g := by
  obtain ⟨q, hq⟩ := h.pool_of_handle hx
  have huse := h.use (b := x.guarded) hx hq
    (f := fun q => if q.isHeld x.object = false ∧ (q.slot? x.object).isSome then
      q.trackUse w.now x.object site else q) ?_ ?_ ?_
  · rwa [set_handle hx] at huse
  · intro pts hs gs hs'
    split
    · rename_i hc
      obtain ⟨r, hslot⟩ := Option.isSome_iff_exists.mp hc.2
      exact ((hs'.borrowed hslot).trackUse w.now site).handle
    · exact hs'
  · split
    · exact Pool.trackUse_charter ..
    · rfl
  · split
    · exact Pool.trackUse_closed ..
    · rfl

end World

end ObjectPool
