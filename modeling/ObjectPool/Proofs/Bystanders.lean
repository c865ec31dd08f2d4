/-
  ObjectPool.Proofs.Bystanders

  What others do to an object that is no business of theirs: nothing. An object that a call has
  been given back is in the charge of that call alone until it is idle again or gone, and one
  whose resource went to the factory to be destroyed is nobody's business any more.

    * `Works.callAt_pop` — the other calls are among those that do not run.
    * `Called.kept` — the callers leave an object alone that nobody has borrowed.
    * `react_returning` — an object that comes back, while others go on.
    * `react_buried` — an object that was destroyed.
    * `LeftAlone.states` — a pool on which nobody else calls.
-/

import ObjectPool.Proofs.Onward

namespace ObjectPool

variable {ρ : Type}

/-! ## Where an object stands -/

namespace Pool.Sound

variable {p : Pool ρ} {ℓ : Ledger ρ} {id : Nat} {c : Custody ρ}

/-- An object in the charge of a call stands as the charge says. -/
theorem position_of_charge (h : p.Sound ℓ) (hc : (id, c) ∈ ℓ.charges) :
    ∃ v, c.Has v ∧ p.position ℓ id = { v with charges := [c] } := by
  have hone : (p.position ℓ id).charges = [c] := h.claims_of_charge hc
  refine ⟨{ p.position ℓ id with charges := [] }, ((h.objects id).has hone).2, ?_⟩
  rw [← hone]

/-- An object whose resource went to the factory to be destroyed has nothing left. -/
theorem position_of_grave (h : p.Sound ℓ) (hg : id ∈ ℓ.graves) :
    ∃ l, p.position ℓ id = ⟨some ⟨.invalid, none, false⟩, 0, 0, 0, 1, l, []⟩ := by
  have hv := h.objects id
  have hpos : 0 < (p.position ℓ id).graves := List.count_pos_iff.mpr hg
  generalize p.position ℓ id = v at hv hpos
  cases hv with
  | dead hs => exact ⟨_, rfl⟩
  | unborn | idle | lent => exact absurd hpos (Nat.lt_irrefl 0)
  | entrusted he => cases he <;> exact absurd hpos (Nat.lt_irrefl 0)

end Pool.Sound

/-- A pool with a call on it is there. -/
theorem World.SoundAt.pool_of_mem {w : World ρ} {i : Nat} {gs : List Nat} {pt : Point ρ}
    (h : w.SoundAt i gs) (hpt : pt ∈ w.points i) : ∃ p, w.pools[i]? = some p := by
  cases hp : w.pools[i]? with
  | some p => exact ⟨p, rfl⟩
  | none => exact absurd ((h.housed hp).1 ▸ hpt) List.not_mem_nil

/-- A pool with an object in its grave is there. -/
theorem World.SoundAt.pool_of_grave {w : World ρ} {i id : Nat} {gs : List Nat}
    (h : w.SoundAt i gs) (hid : id ∈ gs) : ∃ p, w.pools[i]? = some p := by
  cases hp : w.pools[i]? with
  | some p => exact ⟨p, rfl⟩
  | none => exact absurd ((h.housed hp).2.2 ▸ hid) List.not_mem_nil

/-- What the factory was given to destroy is out of circulation, and has one grave. -/
theorem World.SoundAt.gone {w : World ρ} {i id : Nat} {gs : List Nat} (h : w.SoundAt i gs)
    (hid : id ∈ gs) : ∃ p, w.pools[i]? = some p ∧ p.stateOf id = .invalid ∧
      id ∉ p.registry.tracked ∧ gs.count id = 1 := by
  obtain ⟨p, hp⟩ := h.pool_of_grave hid
  obtain ⟨l, hv⟩ := (h.sound p hp).position_of_grave hid
  refine ⟨p, hp, ?_, List.count_eq_zero.mp (congrArg Position.tracked hv),
    congrArg Position.graves hv⟩
  rw [Pool.stateOf_eq_shape?, show p.shape? id = _ from congrArg Position.shape hv]
  rfl

namespace World

variable {w : World ρ} {e : Event ρ} {f : Effect ρ} {t d u i id : Nat} {a b : Activity ρ}
  {q p : Pool ρ} {s : Stretch ρ} {g : Nat → List Nat}

/-! ## The calls that do not run -/

/-- What the call that runs has in its charge is in the ledger. -/
theorem Works.charge_mem (h : w.Works e f u a q s) (g : Nat → List Nat) {c : Custody ρ}
    (hc : (id, c) ∈ a.point.charges) :
    (id, c) ∈ (Ledger.of q (w.points a.pool) (w.lent a.pool) (g a.pool)).charges :=
  List.mem_flatMap.mpr ⟨_, h.call_mem, hc⟩

/-- A call other than the one that runs is among those below it, or on another thread. -/
theorem Works.callAt_pop (h : w.Works e f u a q s) (still : Episode.runs t d ⟨w, e, f⟩ = false)
    (hb : w.callAt t d = some b) : (w.pop u).callAt t d = some b := by
  obtain ⟨th, rest, hth, hs⟩ := top?_eq_some h.top
  have hpop : (w.pop u).stackOf t = if u = t then rest else w.stackOf t := by
    rw [pop, stackOf_onThread hth, hs]
    rfl
  unfold callAt at hb ⊢
  rw [hpop]
  split
  · rename_i hut
    subst hut
    rw [stackOf_eq hth, hs, getElem?_reverse_cons] at hb
    split at hb
    · -- the call would be the one on top
      rename_i hd
      have hlen : (w.stackOf u).length = d + 1 := by rw [stackOf_eq hth, hs, hd, List.length_cons]
      have hruns : Episode.runs u d ⟨w, e, f⟩ = true := decide_eq_true ⟨h.thread, hlen⟩
      exact absurd (still.symm.trans hruns) Bool.false_ne_true
    · exact hb
  · exact hb

/-- What a call has in its charge is not in that of another. -/
theorem Works.charges_apart (h : w.Works e f u a q s) (hw : w.Sound g)
    (still : Episode.runs t d ⟨w, e, f⟩ = false) (hb : w.callAt t d = some b)
    (hab : b.pool = a.pool) {c c' : Custody ρ} (hc : (id, c) ∈ b.point.charges) :
    (id, c') ∉ a.point.charges := by
  intro hc'
  have hsound := ((hw.pools a.pool).sound q h.pool).of_perm h.stretches.points (.refl _)
  have hmem : b.point ∈ (w.pop u).points a.pool :=
    hab ▸ mem_points_of_callAt (h.callAt_pop still hb)
  have hrest : (id, c) ∈ ((w.pop u).points a.pool).flatMap Point.charges :=
    List.mem_flatMap.mpr ⟨_, hmem, hc⟩
  -- both charges would be in the ledger, where an object has one at most
  have hfirst : (id, c') ∈ (a.point :: (w.pop u).points a.pool).flatMap Point.charges :=
    List.mem_flatMap.mpr ⟨_, List.mem_cons_self .., hc'⟩
  have hone := hsound.claims_of_charge hfirst
  have htwo : claims id ((a.point :: (w.pop u).points a.pool).flatMap Point.charges) =
      claims id a.point.charges ++
        claims id (((w.pop u).points a.pool).flatMap Point.charges) := claims_append ..
  have hlen := congrArg List.length (htwo.symm.trans hone)
  have hpos : 0 < (claims id a.point.charges).length :=
    List.length_pos_of_mem (mem_claims.mpr hc')
  have hpos' : 0 < (claims id (((w.pop u).points a.pool).flatMap Point.charges)).length :=
    List.length_pos_of_mem (mem_claims.mpr hrest)
  rw [List.length_append, List.length_singleton] at hlen
  omega

/-! ## What the callers do -/

/-- An object that no borrower has is left alone by the callers. -/
theorem Called.kept (hc : w.Called e f)
    (hfree : ∀ n x, w.handle? n = some x → x.pool = i → x.object ≠ id) :
    (f.world.entriesOf i)[id]? = (w.entriesOf i)[id]? := by
  -- the callers change the object of one handle at most
  rcases hc.entries with hsame | ⟨n, x, v, hx, -, huse⟩
  · rw [hsame i]
  · rw [huse i]
    split
    · rename_i hi
      rw [List.getElem?_modify]
      simp only [if_neg (hfree n x hx hi.symm), id_map']
    · rfl

theorem object?_trackUse_of_ne {x : Nat} (hx : x ≠ id) (p : Pool ρ) (now : Instant)
    (site : String) : (p.trackUse now x site).object? id = p.object? id := by
  unfold Pool.trackUse
  split
  · split
    · rw [Pool.object?_modify, if_neg hx]
    · rfl
  · rfl

/-- A change to a pool that leaves an object alone. -/
theorem entry_onPool {v : Pool ρ → Pool ρ}
    (hv : ∀ q, w.pools[i]? = some q → i = u → (v q).object? id = q.object? id) :
    ((w.onPool u v).entriesOf i)[id]? = (w.entriesOf i)[id]? := by
  rw [entriesOf_onPool]
  split
  · rename_i hi
    unfold entriesOf
    rw [← hi]
    cases hq : w.pools[i]? with
    | none => rfl
    | some q => exact hv q hq hi
  · rfl

/-- An object with an empty slot is left alone by the callers. -/
theorem Called.emptied (hc : w.Called e f) {y : Entry ρ} (hy : (w.entriesOf i)[id]? = some y)
    (hslot : y.slot = none) : (f.world.entriesOf i)[id]? = some y := by
  -- a handle through which something can be done has a resource in its slot
  have hother : ∀ {x : Handle} {r : ρ}, w.resource? x = some r → i = x.pool → x.object ≠ id := by
    intro x r hr hi hid
    rw [resource?_eq, ← hi, hid, hy] at hr
    exact nomatch hslot.symm.trans hr
  have hsame : ∀ {w' : World ρ}, w'.entriesOf i = w.entriesOf i →
      (w'.entriesOf i)[id]? = some y := fun he => (congrArg (·[id]?) he).trans hy
  cases hc with
  | tick _ | spawn | notCreated _ | begin _ _ _ | noAccess _ _ | noLock _ _ => exact hy
  | create hw => exact hsame (create_entries hw i)
  | clone _ _ =>
    exact hsame (entriesOf_onPool_of_eq (u := fun q => { q with clones := q.clones + 1 })
      (fun _ => rfl) w _ i)
  | @drop t p _ _ _ _ =>
    have hdrop := entriesOf_onPool_of_eq (u := fun q => { q with clones := q.clones - 1 })
      (fun _ => rfl) w p i
    exact hsame ((entriesOf_forsake _ t p .done i).trans hdrop)
  | giveBack _ _ _ _ _ => exact hsame ((giveBack_parts ..).entries i)
  | invalidate _ _ _ _ _ => exact hsame ((invalidate_parts ..).entries i)
  | letGo _ _ _ => exact hsame ((letGo_parts ..).entries i)
  | @access _ x site c r _ _ hr =>
    refine Eq.trans (entry_onPool fun q _ hi => ?_) hy
    unfold Pool.letGo
    rw [Pool.object?_modify, if_neg (hother hr hi), object?_trackUse_of_ne (hother hr hi)]
  | @lock _ x site r _ _ hr =>
    refine Eq.trans (entry_onPool fun q _ hi => ?_) hy
    unfold Pool.hold
    rw [Pool.object?_modify, if_neg (hother hr hi), object?_trackUse_of_ne (hother hr hi)]
  | @unlock _ x c r _ _ hr =>
    refine Eq.trans (entry_onPool fun q _ hi => ?_) hy
    unfold Pool.letGo
    rw [Pool.object?_modify, if_neg (hother hr hi)]
  | @markUsed _ x site hx =>
    refine Eq.trans (entry_onPool fun q hq hi => ?_) hy
    split
    · rename_i huse
      obtain ⟨r, hr⟩ := Option.isSome_iff_exists.mp huse.2
      have hres : w.resource? x = some r := by
        rw [World.resource?, ← hi, hq]
        exact hr
      exact object?_trackUse_of_ne (hother hres hi) q _ _
    · rfl

/-! ## Objects that come back, and those that are gone -/

/-- A stretch of a call leaves an object alone that is neither idle nor its business, unless it is
    overdue. -/
theorem Works.kept (h : w.Works e f u a q s) {y : Entry ρ} (hy : q.object? id = some y)
    (hlent : y.state ≠ .allocated) (hidle : id ∉ q.registry.idle) (hown : ¬a.point.Holds id) :
    (f.world.entriesOf a.pool)[id]? = some y := by
  have hyields : ¬q.Yields a.point.Holds id := by
    rintro (hnew | hin | hholds)
    · have hnone : q.object? id = none := List.getElem?_eq_none_iff.mpr hnew
      exact nomatch hnone.symm.trans hy
    · exact hidle hin
    · exact hown hholds
  rw [h.entriesOf]
  rcases h.reaches.pool.kept hyields with hsame | ⟨⟨x, -, habandoned⟩, -⟩
  · exact hsame.trans hy
  · -- what is overdue is lent
    have hin := (Bool.and_eq_true_iff.mp habandoned).2
    rw [Pool.isIn, hy, Option.any_some] at hin
    exact absurd (of_decide_eq_true hin) hlent

/-- The objects of a pool are left alone in an event, or the callers have done something, or a
    call on the pool runs. -/
theorem react_entries (hr : w.react e = some f) (i : Nat) :
    w.Called e f ∨ f.world.entriesOf i = w.entriesOf i ∨
      ∃ u a q s, w.Works e f u a q s ∧ a.pool = i := by
  cases react_happens hr with
  | called hcall => exact .inl hcall
  | keeps _ _ _ hk => exact .inr (.inl (keeperStep_entries hk i))
  | @works u a q s h =>
    -- a stretch changes its own pool alone
    by_cases hi : i = a.pool
    · exact .inr (.inr ⟨u, a, q, s, h, hi.symm⟩)
    · refine .inr (.inl ?_)
      rw [h.effect, apply_entries h.pool i, if_neg hi]

/-- An object that a call has been given back stays as it is while others go on. -/
theorem react_returning (hw : w.Sound g) (hr : w.react e = some f)
    (still : Episode.runs t d ⟨w, e, f⟩ = false) (hb : w.callAt t d = some b)
    (hc : (id, .returning) ∈ b.point.charges) :
    (f.world.entriesOf b.pool)[id]? = (w.entriesOf b.pool)[id]? := by
  obtain ⟨p, hp⟩ := (hw.pools b.pool).pool_of_mem (mem_points_of_callAt hb)
  have hsound := (hw.pools b.pool).sound p hp
  have hmem : (id, Custody.returning) ∈
      (Ledger.of p (w.points b.pool) (w.lent b.pool) (g b.pool)).charges :=
    List.mem_flatMap.mpr ⟨_, mem_points_of_callAt hb, hc⟩
  obtain ⟨v, hhas, hv⟩ := hsound.position_of_charge hmem
  cases hhas
  rename_i r
  -- nobody has borrowed it
  have hloan : ∀ l, (id, l) ∉ (Ledger.of p (w.points b.pool) (w.lent b.pool) (g b.pool)).loans :=
    fun l hl => List.ne_nil_of_mem (mem_claims.mpr hl) (congrArg Position.loans hv)
  rcases react_entries hr b.pool with hcall | hsame | ⟨u, a, q, s, hworks, hi⟩
  · refine hcall.kept fun n x hx hi hid => hloan ⟨x.guarded, p.slot? x.object⟩ ?_
    refine List.mem_append_right _ (List.mem_map.mpr ⟨x, mem_lent.mpr ⟨⟨n, hx⟩, hi⟩, ?_⟩)
    rw [hid]
  · rw [hsame]
  · obtain rfl : q = p := Option.some.inj (hworks.pool.symm.trans (hi ▸ hp))
    have hshape : q.shape? id = some ⟨.returning, some r, true⟩ := congrArg Position.shape hv
    obtain ⟨y, hy, hyshape⟩ := Option.map_eq_some_iff.mp hshape
    have hstate : y.state = .returning := congrArg Shape.state hyshape
    rw [entriesOf_eq hp, show q.entries[id]? = some y from hy, ← hi]
    refine hworks.kept hy (by rw [hstate]; decide)
      (List.count_eq_zero.mp (congrArg Position.idle hv)) ?_
    rintro (hreturned | ⟨c, hother⟩)
    · refine hloan ⟨false, q.slot? id⟩ (List.mem_append_left _ (List.mem_map.mpr ⟨id, ?_, rfl⟩))
      exact List.mem_flatMap.mpr ⟨_, hi ▸ hworks.call_mem, hreturned⟩
    · exact hworks.charges_apart hw still hb hi.symm hc hother

/-- A borrower that brings back an object that is no longer listed as lent leaves it as it is. -/
theorem Works.returns_gone (h : w.Works e f u a q s) (hactive : id ∉ q.registry.active)
    (hreturned : id ∈ a.point.returns) : s.pool.object? id = q.object? id := by
  rcases h.runs with ⟨-, hs⟩ | ⟨r, -, hs⟩
  · generalize a.point = pt at hs hreturned
    cases pt with
    | takeBack x answer =>
      obtain rfl := List.mem_singleton.mp hreturned
      obtain rfl := Option.some.inj hs
      rw [Pool.takeBack, if_pos hactive]
      rfl
    | discard x =>
      obtain rfl := List.mem_singleton.mp hreturned
      obtain rfl := Option.some.inj hs
      rw [Pool.discard, if_pos hactive]
      rfl
    | _ => exact absurd hreturned List.not_mem_nil
  · -- the factory is asked for nothing before the pool has looked at the object
    have hreq := Pool.isRequest_of_respond hs
    generalize a.point = pt at hreq hreturned
    cases pt with
    | takeBack | discard => exact nomatch hreq
    | _ => exact absurd hreturned List.not_mem_nil

/-- An object that was destroyed stays as it is. -/
theorem react_buried (hw : w.Sound g) (hr : w.react e = some f) (hid : id ∈ g i) :
    (f.world.entriesOf i)[id]? = (w.entriesOf i)[id]? := by
  obtain ⟨p, hp⟩ := (hw.pools i).pool_of_grave hid
  have hsound := (hw.pools i).sound p hp
  obtain ⟨l, hv⟩ := hsound.position_of_grave hid
  have hshape : p.shape? id = some ⟨.invalid, none, false⟩ := congrArg Position.shape hv
  obtain ⟨y, hy, hyshape⟩ := Option.map_eq_some_iff.mp hshape
  have hentry : (w.entriesOf i)[id]? = some y := by
    rw [entriesOf_eq hp]
    exact hy
  rw [hentry]
  -- its slot is empty, it is not idle, and in nobody's charge
  rcases react_entries hr i with hcall | hsame | ⟨u, a, q, s, hworks, rfl⟩
  · exact hcall.emptied hentry (congrArg Shape.slot hyshape)
  · rw [hsame]
    exact hentry
  · obtain rfl : q = p := Option.some.inj (hworks.pool.symm.trans hp)
    have hstate : y.state = .invalid := congrArg Shape.state hyshape
    have hactive : id ∉ q.registry.active := List.count_eq_zero.mp (congrArg Position.active hv)
    by_cases hreturned : id ∈ a.point.returns
    · rw [hworks.entriesOf]
      exact (hworks.returns_gone hactive hreturned).trans hy
    · refine hworks.kept hy (by rw [hstate]; decide)
        (List.count_eq_zero.mp (congrArg Position.idle hv)) ?_
      rintro (hmem | ⟨c, hc⟩)
      · exact hreturned hmem
      · have hnone : claims id _ = [] := congrArg Position.charges hv
        exact List.ne_nil_of_mem (mem_claims.mpr (hworks.charge_mem g hc)) hnone

end World

/-- While a call rests whose pool nobody else calls, the pool keeps its books, and every object the
    state it is in. -/
theorem LeftAlone.states {t d i : Nat} {e : Episode ρ} {later : List (Episode ρ)} {p : Pool ρ}
    (hu : LeftAlone t d i (e :: later)) (hr : e.before.react e.event = some e.effect)
    (still : e.runs t d = false) (hp : e.before.pools[i]? = some p) :
    ∃ p', e.after.pools[i]? = some p' ∧ p.SameBooks p' ∧ ∀ x, p'.stateOf x = p.stateOf x := by
  obtain ⟨p', hp', hbooks⟩ := (hu.rests hr still).pool hp
  refine ⟨p', hp', hbooks, fun x => ?_⟩
  have hcalled : ∀ y', p'.object? x = some y' →
      ∃ y, p.object? x = some y ∧ y'.state = y.state := by
    intro y' hy'
    have hentry : (e.after.entriesOf i)[x]? = some y' := by
      rw [World.entriesOf_eq hp']
      exact hy'
    have hback : ∀ {y : Entry ρ}, (e.before.entriesOf i)[x]? = some y → p.object? x = some y := by
      intro y hy
      rw [World.entriesOf_eq hp] at hy
      exact hy
    -- the callers may use an object, which leaves its state as it is
    rcases World.react_entries hr i with hcall | hsame | ⟨u, a, q, s, hworks, hi⟩
    · obtain ⟨y, hy, ht⟩ := hcall.touched i x y' hentry
      exact ⟨y, hback hy, ht.state⟩
    · exact ⟨y', hback ((congrArg (·[x]?) hsame).symm.trans hentry), rfl⟩
    · have hruns := hu e (.head _) a hworks.call hi
      exact absurd (still.symm.trans hruns) Bool.false_ne_true
  -- an object that is not there was not there before
  unfold Pool.stateOf
  cases hy' : p'.object? x with
  | some y' =>
    obtain ⟨y, hy, hstate⟩ := hcalled y' hy'
    rw [hy]
    exact hstate
  | none =>
    have hlen : p'.entries.length ≤ x := List.getElem?_eq_none_iff.mp hy'
    have hnone : p.object? x = none :=
      List.getElem?_eq_none_iff.mpr (hbooks.entries ▸ hlen)
    rw [hnone]

end ObjectPool
