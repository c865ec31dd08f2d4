/-
  ObjectPool.Proofs.Captives

  The objects that a call has taken from their borrowers, from the pass that took them until the
  call disposes of them. While an object waits for that, nobody gets it and no use of it is noted,
  so that what its pool keeps of it is what was known when it was taken.

    * `Point.reclaimed`, `Works.reclaimed` — the objects that a call still has to dispose of, and
      where it has them from.
    * `World.Seized`, `Sound.seized` — how such an object is known to its pool.
    * `Captive`, `Run.captive` — the pass that took an object.
-/

import ObjectPool.Proofs.Chronicle

namespace ObjectPool

variable {ρ : Type}

/-! ## Objects to dispose of -/

/-- The objects taken from borrowers that a call has before it after the end of another. -/
def After.reclaimed : After ρ → List (Reclaimed ρ)
  | .reclaim rest _ _ => rest
  | _ => []

/-- The objects taken from borrowers that a call has before it. -/
def Point.reclaimed : Point ρ → List (Reclaimed ρ)
  | .reclaiming rest _ _ => rest
  | .reporting _ x rest _ _ => x :: rest
  | .destroying _ _ _ k => k.reclaimed
  | _ => []

theorem Point.charge_of_reclaimed {pt : Point ρ} {x : Reclaimed ρ} (hx : x ∈ pt.reclaimed) :
    (x.object, .seized x.resource) ∈ pt.charges := by
  cases pt with
  | reclaiming | reporting => exact List.mem_map.mpr ⟨x, hx, rfl⟩
  | destroying id v mode k =>
    cases k with
    | reclaim rest n s => exact List.mem_map.mpr ⟨x, hx, rfl⟩
    | _ => exact nomatch hx
  | _ => exact nomatch hx

/-- Where a call stands that has such objects in its charge. -/
theorem Point.seizing_cases {pt : Point ρ} (h : seizedIn pt.charges ≠ 0) :
    (∃ x rest n k, pt = .reclaiming (x :: rest) n k) ∨
      (∃ r x rest n k, pt = .reporting r x rest n k) ∨
      ∃ id v mode rest n k, pt = .destroying id v mode (.reclaim rest n k) := by
  cases pt with
  | reclaiming rest n k =>
    cases rest with
    | nil => exact absurd rfl h
    | cons x rest => exact .inl ⟨x, rest, n, k, rfl⟩
  | reporting r x rest n k => exact .inr (.inl ⟨r, x, rest, n, k, rfl⟩)
  | destroying id v mode k =>
    cases k with
    | reclaim rest n s => exact .inr (.inr ⟨id, v, mode, rest, n, s, rfl⟩)
    | evict out tests n => exact absurd (seizedIn_sweeping out tests) h
    | drain rest d => exact absurd (seizedIn_each rest rfl) h
    | seek | reply | notStocked => exact absurd rfl h
  | evicting out tests n => exact absurd (seizedIn_sweeping out tests) h
  | draining rest d => exact absurd (seizedIn_each rest rfl) h
  | joining k rest c => exact absurd (seizedIn_each rest rfl) h
  | activating id x =>
    cases x with
    | lend b fresh => exact absurd rfl h
    | test tests n => exact absurd (seizedIn_each tests rfl) h
  | validating id c =>
    cases c with
    | trial x =>
      cases x with
      | lend b fresh => exact absurd rfl h
      | test tests n => exact absurd (seizedIn_each tests rfl) h
    | stock | takeBack => exact absurd rfl h
  | passivating id r =>
    cases r with
    | test tests n => exact absurd (seizedIn_each tests rfl) h
    | stock | takeBack => exact absurd rfl h
  | _ => exact absurd rfl h

theorem Point.seizedIn_ne_zero {pt : Point ρ} {x : Reclaimed ρ} (hx : x ∈ pt.reclaimed) :
    seizedIn pt.charges ≠ 0 := fun h =>
  List.countP_eq_zero.mp h _ (charge_of_reclaimed hx) rfl

namespace World

variable {w : World ρ} {g : Nat → List Nat} {e : Event ρ} {f : Effect ρ} {t d i id n : Nat}
  {a b b' : Activity ρ} {q : Pool ρ} {s : Stretch ρ} {x : Reclaimed ρ} {pt : Point ρ}

/-- A call that has such objects before it disposes of one after the other. -/
theorem Works.reclaimed_of_seizing (h : w.Works e f t a q s) (hw : w.Sound g)
    (hn : s.next = .go pt) (hx : x ∈ pt.reclaimed) (hseizing : seizedIn a.point.charges ≠ 0) :
    x ∈ a.point.reclaimed := by
  have hgoes : ∀ {pt' : Point ρ}, s.next = .go pt' → x ∈ pt'.reclaimed := fun hgo =>
    Next.go.inj (hn.symm.trans hgo) ▸ hx
  have hruns := h.runs
  have hresource : ∀ id r, (id, .seized r) ∈ a.point.charges → ∃ v, r = some v :=
    fun _ _ => h.resource_of_seized hw
  rcases Point.seizing_cases hseizing with ⟨y, rest, n, k, hpt⟩ | ⟨r, y, rest, n, k, hpt⟩ |
      ⟨id, v, mode, rest, n, k, hpt⟩
  · rw [hpt] at hruns hresource ⊢
    rcases hruns with ⟨-, hs⟩ | ⟨c, -, hs⟩
    · obtain rfl := Option.some.inj hs
      obtain ⟨v, hv⟩ := hresource y.object y.resource (List.mem_cons_self ..)
      rcases (Pool.reclaimNext_shows hv q rest n k).2 with hdestroys | ⟨-, hreports⟩
      · exact List.mem_cons_of_mem _ (hgoes hdestroys.next)
      · have hgo : (q.reclaimNext y rest n k).next = .go (.reporting (q.report y) y rest n k) :=
          congrArg Stretch.next hreports
        have hmem := hgoes hgo
        exact hmem
    · cases Pool.answered_of_respond hs
  · rw [hpt] at hruns hresource ⊢
    rcases hruns with ⟨-, hs⟩ | ⟨c, -, hs⟩
    · cases Pool.goesOn_of_advance hs
    · cases Pool.answered_of_respond hs with
      | reported =>
        obtain ⟨v, hv⟩ := hresource y.object y.resource (List.mem_cons_self ..)
        obtain ⟨hdestroys, -⟩ := Pool.disposeReclaimed_shows hv q rest n k
        exact List.mem_cons_of_mem _ (hgoes hdestroys.next)
  · rw [hpt] at hruns ⊢
    rcases hruns with ⟨-, hs⟩ | ⟨c, -, hs⟩
    · cases Pool.goesOn_of_advance hs
    · cases Pool.answered_of_respond hs with
      | destroyed _ _ _ _ refusal =>
        have hgo : (q.destroyed id (.reclaim rest n k) refusal).next =
            .go (.reclaiming rest n k) := by
          cases refusal <;> rfl
        have hmem := hgoes hgo
        exact hmem

/-- What a call has before it after a stretch it had before, or it has just been through the lent
    objects and taken it. -/
theorem Works.reclaimed (h : w.Works e f t a q s) (hw : w.Sound g) (hn : s.next = .go pt)
    (hx : x ∈ pt.reclaimed) : x ∈ a.point.reclaimed ∨ ∃ c, q.config.abandonment = some c ∧
      s.pool = (q.reclaimFrom w.now c.timeout q.registry.active).1 ∧
      x ∈ (q.reclaimFrom w.now c.timeout q.registry.active).2 := by
  by_cases hnone : seizedIn a.point.charges = 0
  · -- of the stretches of other calls only a pass leaves such objects before them
    have hsome : seizedIn s.next.charges ≠ 0 := by
      rw [hn]
      exact Point.seizedIn_ne_zero hx
    cases h.counts with
    | passes hpasses => exact absurd (hpasses.seized.trans hnone) hsome
    | lends _ _ _ _ _ next | exhausts _ _ _ _ next | refuses _ _ _ _ next =>
      exact nomatch hn.symm.trans next
    | takesBack _ _ _ _ hpasses => exact absurd hpasses.seized hsome
    | discards _ _ _ _ hzero => exact absurd hzero hsome
    | evicts _ _ hpasses => exact absurd (hpasses.seized.trans hnone) hsome
    | sweeps c n k hset hsweeps _ _ _ next =>
      have hpass : (a.point.sweeps && s.next.isPass) = true := by
        rw [hsweeps, next]
        rfl
      obtain ⟨c', hset', hpool⟩ := h.pass hpass
      obtain rfl := Option.some.inj (hset.symm.trans hset')
      obtain rfl := Next.go.inj (hn.symm.trans next)
      exact .inr ⟨c, hset, hpool, hx⟩
    | reclaims n _ _ hone => exact nomatch hnone.symm.trans hone
  · exact .inl (h.reclaimed_of_seizing hw hn hx hnone)

/-! ## How such an object is known to its pool -/

/-- How an object is known to the pool `i` that a call has taken from its borrower. -/
structure Seized (w : World ρ) (g : Nat → List Nat) (i id : Nat) : Prop where
  out : ∃ d, w.dossier? i id = some d ∧ d.out = true
  there : id ∉ g i
  /-- It is readied for nobody, and nobody finds its resource. -/
  unready : id ∉ w.readied i
  empty : ∀ n y, w.handle? n = some y → y.pool = i → y.object = id → w.resource? y = none

theorem Sound.seized (hw : w.Sound g) (hb : w.callAt t d = some b) (hi : b.pool = i)
    (hx : x ∈ b.point.reclaimed) : w.Seized g i x.object := by
  subst hi
  have hpoint := mem_points_of_callAt hb
  obtain ⟨q, hq⟩ := (hw.pools b.pool).pool_of_mem hpoint
  have hsound := (hw.pools b.pool).sound q hq
  have hcharge : (x.object, .seized x.resource) ∈ (w.points b.pool).flatMap Point.charges :=
    List.mem_flatMap.mpr ⟨_, hpoint, Point.charge_of_reclaimed hx⟩
  obtain ⟨v, hhas, hv⟩ := hsound.position_of_charge hcharge
  generalize x.resource = r at hcharge hhas hv
  cases hhas with
  | seized r =>
    have hshape : q.shape? x.object = some ⟨.abandoned, none, false⟩ := congrArg Position.shape hv
    have hone : claims x.object ((w.points b.pool).flatMap Point.charges) = [.seized (some r)] :=
      hsound.claims_of_charge hcharge
    refine ⟨dossier_of_shape hq hshape, hsound.not_grave_of_charge hcharge, fun hready => ?_,
      fun n y hy hpool hobject => ?_⟩
    · have hmem := mem_claims.mpr (mem_readied.mp hready)
      rw [hone] at hmem
      exact nomatch List.mem_singleton.mp hmem
    · rw [resource?_of_pool (hpool.symm ▸ hq), hobject, Pool.slot?_eq_shape?, hshape]
      rfl

end World

/-! ## The pass that took an object -/

/-- The last sign of life from the borrower. -/
def Dossier.lastActive (d : Dossier) : Instant :=
  match d.lastUse with
  | some u => u.time.later d.lastBorrow
  | none => d.lastBorrow

/-- What a pass over the lent objects takes is overdue. -/
theorem Pool.Sound.overdue_of_taken {p : Pool ρ} {ℓ : Ledger ρ} (h : p.Sound ℓ) {now : Instant}
    {timeout : Duration} {x : Reclaimed ρ}
    (hx : x ∈ (p.reclaimFrom now timeout p.registry.active).2) :
    x.object ∈ p.registry.active ∧ p.isAbandoned now timeout x.object = true ∧
      x.unused = p.unusedFor now x.object := by
  rw [Pool.reclaimFrom_eq h.nodup_active] at hx
  obtain ⟨id, hid, rfl⟩ := List.mem_map.mp hx
  obtain ⟨hactive, hdue⟩ := List.mem_filter.mp hid
  exact ⟨hactive, hdue, rfl⟩

/-- A call has the object `x` of the pool `i` before it, which it took from its borrower in the
    episode `k`; the episodes `newer` came after that. -/
structure Captive (i : Nat) (x : Reclaimed ρ) (newer : List (Episode ρ)) (k : Episode ρ)
    (w : World ρ) : Prop where
  taken : k.Reclaims i x.object
  /-- Nobody has got it since then. -/
  kept : ∀ e ∈ newer ++ [k], e.handsOut i x.object = false
  /-- Its pool knows of its borrower what it knew then. -/
  overdue : ∃ p c d, w.pools[i]? = some p ∧ p.config.abandonment = some c ∧
    w.dossier? i x.object = some d ∧ x.unused = k.before.now.since d.lastActive ∧
    c.timeout.nanos < x.unused.nanos

section Runs

open World

variable {es newer : List (Episode ρ)} {w : World ρ} {g : Nat → List Nat} {e : Event ρ}
  {f : Effect ρ} {t d i id : Nat} {a b b' : Activity ρ} {q : Pool ρ} {s : Stretch ρ}
  {x : Reclaimed ρ} {pt : Point ρ} {c : Abandonment} {k : Episode ρ}

/-- What a pass takes from borrowers. -/
theorem World.Works.captive (h : w.Works e f t a q s) (hw : w.Sound g) (hr : w.react e = some f)
    (hn : s.next = .go pt) (hset : q.config.abandonment = some c)
    (hpool : s.pool = (q.reclaimFrom w.now c.timeout q.registry.active).1)
    (hx : x ∈ (q.reclaimFrom w.now c.timeout q.registry.active).2) :
    Captive a.pool x [] ⟨w, e, f⟩ f.world := by
  obtain ⟨hactive, hdue, hunused⟩ := ((hw.pools a.pool).sound q h.pool).overdue_of_taken hx
  obtain ⟨-, y, hy, hs, hlate⟩ := Pool.unused_of_isAbandoned hdue
  have hsince : x.unused = w.now.since y.lastActive := by
    rw [hunused, Pool.unusedFor, hy]
  obtain ⟨q', hq', hconfig⟩ := react_config hw hr h.pool
  refine ⟨⟨fun hgone => ?_, ?_⟩, fun z hz => ?_, q', c, y.dossier, hq', hconfig ▸ hset, ?_, hsince,
    hsince ▸ hlate⟩
  · obtain ⟨z, hz, hgone⟩ := (stateOf_eq_iff (s := .abandoned) nofun).mp hgone
    obtain rfl : z = y := Option.some.inj ((entriesOf_eq h.pool ▸ hz).symm.trans hy)
    exact nomatch hs.symm.trans hgone
  · have htaken := Pool.isIn_reclaimFrom hactive hdue
    rw [← hpool] at htaken
    obtain ⟨z, hz, hgone⟩ := (Option.any_eq_true _ _).mp htaken
    refine (stateOf_eq_iff (s := .abandoned) nofun).mpr ⟨z, ?_, of_decide_eq_true hgone⟩
    exact h.entriesOf ▸ hz
  · obtain rfl := List.mem_singleton.mp hz
    exact h.not_handsOut (by rw [hn]; nofun)
  · rw [h.dossier?_after, hpool, Pool.dossiers_reclaimFrom, Pool.getElem?_dossiers, hy]
    rfl

/-- As long as a call has an object before it, its dossier stays as it is, and nobody gets it. -/
theorem Run.file_of_captive (run : Run es w) (hr : w.react e = some f)
    (hb : w.callAt t d = some b) (hi : b.pool = i) (hx : x ∈ b.point.reclaimed)
    (hb' : f.world.callAt t d = some b') (hi' : b'.pool = i) (hx' : x ∈ b'.point.reclaimed) :
    f.world.dossier? i x.object = w.dossier? i x.object ∧
      Episode.handsOut i x.object ⟨w, e, f⟩ = false := by
  obtain ⟨⟨d, hd, hout⟩, -, hready, hempty⟩ := run.sound.seized hb hi hx
  obtain ⟨⟨d', hd', hout'⟩, -, hready', -⟩ := (World.react_sound run.sound hr).seized hb' hi' hx'
  cases run.files hr i x.object with
  | rests same _ kept => exact ⟨same, kept⟩
  | @uses n site y q _ usage handle pool object =>
    have hres := ((usage?_eq_some handle).mp usage).2.2
    rw [hempty n y handle pool object] at hres
    exact nomatch hres
  | closes file =>
    obtain ⟨d₀, -, rfl⟩ := Option.map_eq_some_iff.mp (file.symm.trans hd')
    exact nomatch hout'
  | enlists new => exact nomatch new.symm.trans hd
  | lends _ _ _ _ after => exact absurd after hready'
  | hands _ _ _ _ _ ready => exact absurd ready hready

/-- What a call has before it in a run it took from its borrower itself. -/
theorem Run.captive (run : Run es w) (ha : w.callAt t d = some a) (hx : x ∈ a.point.reclaimed) :
    ∃ newer k older, es = newer ++ k :: older ∧ k.runs t d = true ∧ answer? t d newer = none ∧
      Captive a.pool x newer k w := by
  refine run.since (fun b => b.pool = a.pool ∧ x ∈ b.point.reclaimed) (Captive a.pool x) ?charged
    ?turn ?keep ha ⟨rfl, hx⟩
  case charged =>
    rintro b ⟨-, hb⟩ hnil
    exact absurd (hnil ▸ Point.charge_of_reclaimed hb) List.not_mem_nil
  case turn =>
    rintro es w e f b q s pt run react hworks hn ⟨hi, hpt⟩
    rcases hworks.reclaimed run.sound hn hpt with hold | ⟨c, hset, hpool, htaken⟩
    · exact .inl ⟨hi, hold⟩
    · exact .inr (hi ▸ hworks.captive run.sound react hn hset hpool htaken)
  case keep =>
    rintro es newer w e f b b' k run react hb ⟨hi, hxb⟩ hb' ⟨hi', hxb'⟩ hk
    obtain ⟨p, c, d, hp, hset, hd, hsince, hlate⟩ := hk.overdue
    obtain ⟨p', hp', hconfig⟩ := react_config run.sound react hp
    obtain ⟨hsame, hkept⟩ := run.file_of_captive react hb hi hxb hb' hi' hxb'
    refine ⟨hk.taken, fun z hz => ?_, p', c, d, hp', hconfig ▸ hset, hsame.trans hd, hsince, hlate⟩
    rcases List.mem_cons.mp hz with rfl | hz
    · exact hkept
    · exact hk.kept z hz

end Runs

end ObjectPool
