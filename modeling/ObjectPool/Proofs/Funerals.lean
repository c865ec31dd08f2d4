/-
  ObjectPool.Proofs.Funerals

  Which objects are reported as abandoned in a run, and which ones the factory is given to
  destroy. An object is reported by the call that has it in its charge and by nobody else. Every
  object that goes to the factory in the mode for abandoned ones is counted as abandoned once, and
  as destroyed once.

    * `Episode.reports`, `Episode.funerals` — what an episode shows of such objects.
    * `Works.reports`, `Works.funerals` — the same, read off the stretch of the call that runs.
    * `Pool.reclaimNext_shows` — the object that was taken away first is disposed of.
    * `OutOfReach` — objects with which nobody has anything to do in an episode.
    * `Leads.tallies` — the counters.
-/

import ObjectPool.Proofs.Bystanders
import ObjectPool.Proofs.Origins
import ObjectPool.Proofs.Stretch.Reports

namespace ObjectPool

variable {ρ : Type}

/-! ## What an episode shows -/

/-- The object that a record reports as abandoned. -/
def Notice.reported? : Notice → Option Nat
  | .abandoned r => some r.object
  | _ => none

/-- The object that a call at a point reports to the caller's sink. -/
def Point.told : Point ρ → List Nat
  | .reporting r _ _ _ _ => [r.object]
  | _ => []

/-- The object that the factory is given to destroy at a point, with the mode. -/
def Point.funeral : Point ρ → List (Nat × DestroyMode)
  | .destroying id _ mode _ => [(id, mode)]
  | _ => []

/-- The objects of the pool `i` that were reported as abandoned in an episode, in the journal or to
    the caller's sink. -/
def Episode.reports (i : Nat) (e : Episode ρ) : List Nat :=
  (e.effect.notices.filterMap fun n => if n.1 = i then n.2.reported? else none) ++
    match e.request? with
    | some a => if a.pool = i then a.point.told else []
    | none => []

/-- The object of the pool `i` whose resource was passed to the factory to be destroyed in an
    episode, with the mode. -/
def Episode.funerals (i : Nat) (e : Episode ρ) : List (Nat × DestroyMode) :=
  match e.request? with
  | some a => if a.pool = i then a.point.funeral else []
  | none => []

/-- The objects that were reported in some episodes. -/
def reports (es : List (Episode ρ)) (i : Nat) : List Nat := es.flatMap (Episode.reports i)

/-- The objects that went to the factory to be destroyed in some episodes, with the modes. -/
def funerals (es : List (Episode ρ)) (i : Nat) : List (Nat × DestroyMode) :=
  es.flatMap (Episode.funerals i)

theorem Episode.map_funerals (i : Nat) (e : Episode ρ) :
    (e.funerals i).map (·.1) = e.buried i := by
  unfold Episode.funerals Episode.buried Episode.burial
  cases e.request? with
  | none => rfl
  | some a =>
    obtain ⟨p, pt⟩ := a
    dsimp only
    cases pt with
    | destroying id v mode k =>
      dsimp only
      split <;> rfl
    | _ => split <;> rfl

theorem map_funerals (es : List (Episode ρ)) (i : Nat) :
    (funerals es i).map (·.1) = graves es i := by
  unfold funerals graves
  rw [List.map_flatMap]
  simp only [Episode.map_funerals]

/-! ### What a stretch shows -/

/-- The objects that are reported in a stretch. -/
def Stretch.reports (s : Stretch ρ) : List Nat :=
  s.notices.filterMap Notice.reported? ++
    match s.next with
    | .go pt => pt.told
    | .finish _ => []

/-- The object that goes to the factory after a stretch. -/
def Stretch.funerals (s : Stretch ρ) : List (Nat × DestroyMode) :=
  match s.next with
  | .go pt => pt.funeral
  | .finish _ => []

theorem Point.told_of_isRequest {pt : Point ρ} (h : pt.isRequest = false) :
    pt.told = [] ∧ pt.funeral = [] := by
  cases pt with
  | reporting | destroying => exact nomatch h
  | _ => exact ⟨rfl, rfl⟩

theorem Stretch.Plain.shows {c : Nat} {s : Stretch ρ} (h : s.Plain c) :
    s.reports = [] ∧ ∀ id, (id, .abandoned) ∉ s.funerals := by
  have hwritten : s.notices.filterMap Notice.reported? = [] := by
    rw [List.filterMap_eq_nil_iff]
    intro n hn
    cases n with
    | abandoned r => exact absurd hn (h.written r)
    | _ => rfl
  unfold Stretch.reports Stretch.funerals
  rw [hwritten]
  -- what is asked for next is neither a report nor the end of an abandoned object
  cases hnext : s.next with
  | finish r => exact ⟨rfl, fun id hid => nomatch hid⟩
  | go pt =>
    have hgoes := h.goes pt hnext
    cases pt with
    | reporting => exact nomatch hgoes
    | destroying id v mode k =>
      cases mode with
      | normal => exact ⟨rfl, fun x hx => nomatch List.mem_singleton.mp hx⟩
      | abandoned => exact nomatch hgoes
    | _ => exact ⟨rfl, fun id hid => nomatch hid⟩

namespace World

variable {w : World ρ} {e : Event ρ} {f : Effect ρ} {t d i id : Nat} {a b : Activity ρ}
  {q : Pool ρ} {s : Stretch ρ} {g : Nat → List Nat}

/-- What a call asks for after a stretch. -/
theorem Works.requested (h : w.Works e f t a q s) (hw : w.Sound g) :
    Episode.request? ⟨w, e, f⟩ =
      match s.next with
      | .go pt => if pt.isRequest then some ⟨a.pool, pt⟩ else none
      | .finish _ => none := by
  have hrequest : Episode.request? ⟨w, e, f⟩ =
      if f.reply.isNone then (f.world.top? t).filter fun a => a.point.isRequest else none := by
    rw [Episode.request?, h.thread]
    rfl
  rw [hrequest, h.effect]
  -- a call that ends leaves nobody on top that asks for something
  cases hs : s.next with
  | go pt =>
    have htop : (w.apply t a.pool s).world.top? t = some { a with point := pt } := by
      rw [apply_go hs]
      exact top?_moveTo (w := w.onPool a.pool fun _ => s.pool) h.top pt
    rw [htop, show (w.apply t a.pool s).reply = none by rw [apply_go hs]]
    show Option.filter (fun b : Activity ρ => b.point.isRequest) (some ⟨a.pool, pt⟩) = _
    exact Option.filter_some
  | finish r =>
    rw [apply_finish hs, forsake_request
      (w := ((w.onPool a.pool fun _ => s.pool).pop t).handOver a.pool r)
      (hw.nested.open_pop h.top)]

theorem Works.notices_eq (h : w.Works e f t a q s) :
    f.notices = s.notices.map fun n => (a.pool, n) := by
  rw [h.effect]
  cases hn : s.next with
  | go pt => rw [apply_go hn]
  | finish r => rw [apply_finish hn]

theorem Works.reports (h : w.Works e f t a q s) (hw : w.Sound g) :
    Episode.reports i ⟨w, e, f⟩ = if a.pool = i then s.reports else [] := by
  unfold Episode.reports Stretch.reports
  rw [h.requested hw, show (Episode.effect ⟨w, e, f⟩).notices = _ from h.notices_eq]
  rw [List.filterMap_map]
  -- a stretch writes about its own pool alone
  by_cases hi : a.pool = i
  · subst hi
    rw [if_pos rfl]
    refine congrArg₂ (· ++ ·) ?_ ?_
    · refine List.filterMap_congr fun n _ => ?_
      exact if_pos rfl
    · cases s.next with
      | finish r => rfl
      | go pt =>
        dsimp only
        cases hreq : pt.isRequest with
        | true => exact if_pos rfl
        | false => exact (Point.told_of_isRequest hreq).1.symm
  · rw [if_neg hi, List.append_eq_nil_iff, List.filterMap_eq_nil_iff]
    refine ⟨fun n _ => if_neg hi, ?_⟩
    cases s.next with
    | finish r => rfl
    | go pt =>
      dsimp only
      cases pt.isRequest with
      | true => exact if_neg hi
      | false => rfl

theorem Works.funerals (h : w.Works e f t a q s) (hw : w.Sound g) :
    Episode.funerals i ⟨w, e, f⟩ = if a.pool = i then s.funerals else [] := by
  unfold Episode.funerals Stretch.funerals
  rw [h.requested hw]
  cases s.next with
  | finish r => exact (ite_self _).symm
  | go pt =>
    dsimp only
    cases hreq : pt.isRequest with
    | true => rfl
    | false =>
      rw [(Point.told_of_isRequest hreq).2]
      exact (ite_self _).symm

/-! ### Events without a stretch -/

theorem create_notices {c : Config} {w' : World ρ} {ns : List (Nat × Notice)}
    (h : w.create c = .ok (w', ns)) :
    ns = [(w.pools.length, .poolCreated c.maxTotal c.maxIdle c.minIdle)] := by
  unfold World.create at h
  split at h
  · exact nomatch h
  · split at h
    · exact (congrArg Prod.snd (Except.ok.inj h)).symm
    · exact (congrArg Prod.snd (Except.ok.inj h)).symm

theorem forsake_notices (w : World ρ) (t p : Nat) (r : Reply) :
    (w.forsake t p r).notices = [] := by
  unfold World.forsake
  dsimp only
  split
  · rfl
  · rfl

/-- Callers report nothing. -/
theorem Called.unreported (hc : w.Called e f) : ∀ n ∈ f.notices, n.2.reported? = none := by
  have hnone : f.notices = [] → ∀ n ∈ f.notices, n.2.reported? = none := fun h n hn =>
    absurd (h ▸ hn) List.not_mem_nil
  -- callers write about a new pool and about objects that were refused
  cases hc with
  | create hw =>
    intro n hn
    rw [show n = _ from List.mem_singleton.mp (create_notices hw ▸ hn)]
    rfl
  | drop _ _ _ => exact hnone (forsake_notices ..)
  | @giveBack t p n q x _ _ _ _ _ =>
    intro n hn
    unfold World.giveBack at hn
    dsimp only at hn
    split at hn
    · exact nomatch hn
    · rw [List.mem_singleton.mp hn]
      rfl
  | @invalidate t p n q x _ _ _ _ _ =>
    refine hnone ?_
    unfold World.invalidate
    dsimp only
    split
    · rfl
    · rfl
  | _ => exact hnone rfl

/-- Nor does the thread of a background upkeep between two rounds. -/
theorem keeperStep_unreported {k : Keeper} (hk : w.keeperStep t k = some f) :
    ∀ n ∈ f.notices, n.2.reported? = none := by
  unfold World.keeperStep at hk
  dsimp only at hk
  intro n hn
  split at hk
  · obtain rfl := Option.some.inj hk
    rw [List.mem_singleton.mp hn]
    rfl
  · split at hk
    · obtain rfl := Option.some.inj hk
      rw [List.mem_singleton.mp hn]
      rfl
    · split at hk
      · obtain rfl := Option.some.inj hk
        exact nomatch hn
      · exact nomatch hk
  · obtain rfl := Option.some.inj hk
    exact nomatch hn
  · exact nomatch hk

/-- Without a stretch nothing is reported and nothing destroyed. -/
theorem react_shows (hr : w.react e = some f) :
    (∀ i, Episode.reports i ⟨w, e, f⟩ = [] ∧ Episode.funerals i ⟨w, e, f⟩ = [] ∧
      (f.world.countersOf i).abandoned = (w.countersOf i).abandoned) ∨
      ∃ t a q s, w.Works e f t a q s := by
  have hnone : Episode.request? ⟨w, e, f⟩ = none → (∀ n ∈ f.notices, n.2.reported? = none) →
      w.Opens e f → ∀ i, Episode.reports i ⟨w, e, f⟩ = [] ∧ Episode.funerals i ⟨w, e, f⟩ = [] ∧
        (f.world.countersOf i).abandoned = (w.countersOf i).abandoned := by
    intro hreq hnotices hopens i
    refine ⟨?_, ?_, ?_⟩
    · unfold Episode.reports
      rw [hreq, List.append_nil, List.filterMap_eq_nil_iff]
      intro n hn
      split
      · exact hnotices n hn
      · rfl
    · unfold Episode.funerals
      rw [hreq]
    · cases hopens with
      | rests _ hc => rw [hc i]
      | begins t b _ _ _ hc =>
        rw [hc i]
        split
        · rfl
        · rfl
  cases react_happens hr with
  | called hcall =>
    refine .inl (hnone ?_ hcall.unreported hcall.opens)
    unfold Episode.request?
    rw [hcall.thread?]
    exact ite_self _
  | @keeps t th k event hth hidle hk =>
    subst event
    refine .inl (hnone ?_ (keeperStep_unreported hk) (opens_keeperStep ⟨th, hth⟩ hk))
    show (if f.reply.isNone then (f.world.top? t).filter _ else none) = none
    rw [keeperStep_top hth hidle hk, ite_self]
  | works h => exact .inr ⟨_, _, _, _, h⟩

end World

/-! ## Who disposes of an object -/

/-- Whether abandoned objects are to be reported. -/
def Config.reports (c : Config) : Bool := c.abandonment.any (·.reported)

/-- How many turns a call that disposes of objects has before it at most, until none is left. -/
def Point.ahead : Point ρ → Nat
  | .reclaiming rest _ _ => 3 * rest.length
  | .reporting _ _ rest _ _ => 3 * rest.length + 2
  | .destroying _ _ _ (.reclaim rest _ _) => 3 * rest.length + 1
  | _ => 0

/-- A stretch after which the object `x` goes to the factory with its resource `v`, to be destroyed
    as abandoned; `c` objects were counted as abandoned before. -/
structure Stretch.Destroys (c : Nat) (x : Reclaimed ρ) (v : ρ) (k : After ρ) (s : Stretch ρ) :
    Prop where
  next : s.next = .go (.destroying x.object v .abandoned k)
  counted : s.pool.counters.abandoned = c + 1

theorem Stretch.Destroys.funerals {c : Nat} {x : Reclaimed ρ} {v : ρ} {k : After ρ}
    {s : Stretch ρ} (h : s.Destroys c x v k) : s.funerals = [(x.object, .abandoned)] := by
  unfold Stretch.funerals
  rw [h.next]
  rfl

namespace Pool

variable {p : Pool ρ} {x : Reclaimed ρ} {v : ρ}

theorem disposeReclaimed_shows (hv : x.resource = some v) (p : Pool ρ)
    (rest : List (Reclaimed ρ)) (n : Nat) (k : Sweeper) :
    (p.disposeReclaimed x rest n k).Destroys p.counters.abandoned x v (.reclaim rest n k) ∧
      (p.disposeReclaimed x rest n k).reports = [] := by
  unfold disposeReclaimed dispose
  rw [hv]
  exact ⟨⟨rfl, rfl⟩, rfl⟩

/-- The object that was taken away first is reported if reports are wanted. Then it is destroyed,
    at once unless the caller's sink takes the report first. -/
theorem reclaimNext_shows (hv : x.resource = some v) (p : Pool ρ) (rest : List (Reclaimed ρ))
    (n : Nat) (k : Sweeper) :
    (p.reclaimNext x rest n k).reports = (if p.config.reports then [x.object] else []) ∧
      ((p.reclaimNext x rest n k).Destroys p.counters.abandoned x v (.reclaim rest n k) ∨
        p.config.reports = true ∧ p.reclaimNext x rest n k =
          p.go (.reporting (p.report x) x rest n k)) := by
  obtain ⟨hdestroys, hsilent⟩ := disposeReclaimed_shows hv p rest n k
  unfold reclaimNext Config.reports
  cases p.config.abandonment with
  | none => exact ⟨hsilent, .inl hdestroys⟩
  | some a =>
    dsimp only
    rw [Option.any_some]
    cases a.reported with
    | false => exact ⟨hsilent, .inl hdestroys⟩
    | true =>
      -- the journal takes the report at once, the caller's sink in a call of its own
      cases a.sink with
      | caller => exact ⟨rfl, .inr ⟨rfl, rfl⟩⟩
      | journal =>
        refine ⟨?_, .inl ⟨hdestroys.next, hdestroys.counted⟩⟩
        show x.object :: (p.disposeReclaimed x rest n k).reports = [x.object]
        rw [hsilent]

end Pool

/-- The number of objects that were destroyed as abandoned. -/
def abandonments (l : List (Nat × DestroyMode)) : Nat :=
  l.countP fun x => decide (x.2 = .abandoned)

theorem Stretch.Plain.abandonments {c : Nat} {s : Stretch ρ} (h : s.Plain c) :
    abandonments s.funerals = 0 := by
  refine List.countP_eq_zero.mpr fun x hx hmode => ?_
  obtain ⟨id, mode⟩ := x
  obtain rfl : mode = .abandoned := of_decide_eq_true hmode
  exact h.shows.2 id hx

namespace World

variable {w w₀ : World ρ} {e : Event ρ} {f : Effect ρ} {t d i id : Nat} {a b : Activity ρ}
  {q : Pool ρ} {s : Stretch ρ} {g : Nat → List Nat} {later : List (Episode ρ)}

/-- An object that was taken away from its borrower has its resource with the call that took it. -/
theorem Works.resource_of_seized (h : w.Works e f t a q s) (hw : w.Sound g) {r : Option ρ}
    (hc : (id, .seized r) ∈ a.point.charges) : ∃ v, r = some v := by
  have hsound := (hw.pools a.pool).sound q h.pool
  obtain ⟨v, hhas, -⟩ := hsound.position_of_charge (h.charge_mem g hc)
  cases hhas with
  | seized r _ => exact ⟨r, rfl⟩

/-- A stretch shows nothing of abandoned objects, or its call has the object `x` in its charge that
    was taken away from its borrower, and disposes of it. -/
theorem Works.disposes (h : w.Works e f t a q s) (hw : w.Sound g) :
    s.Plain q.counters.abandoned ∨ ∃ x v rest n k,
      (x.object, .seized x.resource) ∈ a.point.charges ∧ x.resource = some v ∧
        ((a.point = .reclaiming (x :: rest) n k ∧ s = q.reclaimNext x rest n k) ∨
          ∃ r, a.point = .reporting r x rest n k ∧ s = q.disposeReclaimed x rest n k) := by
  rcases h.runs with ⟨-, hs⟩ | ⟨r, -, hs⟩
  · refine (Pool.advance_plain hs).imp_right ?_
    rintro ⟨x, rest, n, k, hpt, hnext⟩
    have hc : (x.object, .seized x.resource) ∈ a.point.charges := hpt ▸ List.mem_cons_self ..
    obtain ⟨v, hv⟩ := h.resource_of_seized hw hc
    exact ⟨x, v, rest, n, k, hc, hv, .inl ⟨hpt, hnext⟩⟩
  · refine (Pool.respond_plain hs).imp_right ?_
    rintro ⟨report, x, rest, n, k, hpt, hnext⟩
    have hc : (x.object, .seized x.resource) ∈ a.point.charges := hpt ▸ List.mem_cons_self ..
    obtain ⟨v, hv⟩ := h.resource_of_seized hw hc
    exact ⟨x, v, rest, n, k, hc, hv, .inr ⟨report, hpt, hnext⟩⟩

/-- Only the call that has an object in its charge reports it. -/
theorem Works.charges_of_reports (h : w.Works e f t a q s) (hw : w.Sound g)
    (hid : id ∈ s.reports) : ∃ c, (id, c) ∈ a.point.charges := by
  rcases h.disposes hw with hplain | ⟨x, v, rest, n, k, hc, hv, ⟨-, hs⟩ | ⟨r, -, hs⟩⟩
  · rw [hplain.shows.1] at hid
    exact absurd hid List.not_mem_nil
  · rw [hs, (Pool.reclaimNext_shows hv q rest n k).1] at hid
    split at hid
    · obtain rfl := List.mem_singleton.mp hid
      exact ⟨_, hc⟩
    · exact absurd hid List.not_mem_nil
  · rw [hs, (Pool.disposeReclaimed_shows hv q rest n k).2] at hid
    exact absurd hid List.not_mem_nil

/-- Nobody has anything to do with the object `id` of the pool `i` in an episode: it is in its
    grave, or in the charge of a call that does not run. -/
def OutOfReach (w : World ρ) (g : Nat → List Nat) (e : Event ρ) (f : Effect ρ) (i id : Nat) :
    Prop :=
  id ∈ g i ∨ ∃ t d b c, Episode.runs t d ⟨w, e, f⟩ = false ∧ w.callAt t d = some b ∧ b.pool = i ∧
    (id, c) ∈ b.point.charges

/-- Such an object is not reported. -/
theorem OutOfReach.unreported (hown : w.OutOfReach g e f i id) (hw : w.Sound g)
    (hr : w.react e = some f) : id ∉ Episode.reports i ⟨w, e, f⟩ := by
  intro hid
  rcases react_shows hr with hnone | ⟨t, a, q, s, h⟩
  · rw [(hnone i).1] at hid
    exact absurd hid List.not_mem_nil
  · rw [h.reports hw] at hid
    split at hid
    · rename_i hi
      subst hi
      -- the call that runs would have it in its charge
      obtain ⟨c, hc⟩ := h.charges_of_reports hw hid
      have hsound := (hw.pools a.pool).sound q h.pool
      rcases hown with hgrave | ⟨t', d, b, c', still, hb, hpool, hc'⟩
      · exact hsound.not_grave_of_charge (h.charge_mem g hc) hgrave
      · exact h.charges_apart hw still hb hpool hc' hc
    · exact absurd hid List.not_mem_nil

/-- Nor is it destroyed. -/
theorem OutOfReach.unburied (hown : w.OutOfReach g e f i id) (hw : w.Sound g)
    (hr : w.react e = some f) : id ∉ Episode.buried i ⟨w, e, f⟩ := by
  intro hid
  have hafter := react_sound hw hr
  have hlaid : id ∈ Episode.buried i ⟨w, e, f⟩ ++ g i := List.mem_append_left _ hid
  rcases hown with hgrave | ⟨t, d, b, c, still, hb, rfl, hc⟩
  · -- it would have two graves
    obtain ⟨p, -, -, -, hone⟩ := (hafter.pools i).gone hlaid
    rw [List.count_append] at hone
    have hpos := List.count_pos_iff.mpr hid
    have hpos' := List.count_pos_iff.mpr hgrave
    omega
  · -- the call has it in its charge after the event as well
    rcases react_callAt hw hr hb with ⟨-, hstays⟩ | ⟨hruns, -⟩
    · obtain ⟨p, hp⟩ := (hafter.pools b.pool).pool_of_mem (mem_points_of_callAt hstays)
      have hmem : (id, c) ∈ (Ledger.of p (f.world.points b.pool) (f.world.lent b.pool)
          (Episode.buried b.pool ⟨w, e, f⟩ ++ g b.pool)).charges :=
        List.mem_flatMap.mpr ⟨_, mem_points_of_callAt hstays, hc⟩
      exact ((hafter.pools b.pool).sound p hp).not_grave_of_charge hmem hlaid
    · exact absurd (still.symm.trans hruns) Bool.false_ne_true

/-! ## The counters -/

/-- What a stretch counts as abandoned is what it has destroyed as such. -/
theorem Works.tallies (h : w.Works e f t a q s) (hw : w.Sound g) :
    s.pool.counters.abandoned = q.counters.abandoned + abandonments s.funerals := by
  have hdestroys : ∀ {x : Reclaimed ρ} {v : ρ} {k : After ρ},
      s.Destroys q.counters.abandoned x v k →
      s.pool.counters.abandoned = q.counters.abandoned + abandonments s.funerals := by
    intro x v k hd
    rw [hd.counted, hd.funerals]
    rfl
  rcases h.disposes hw with hplain | ⟨x, v, rest, n, k, -, hv, ⟨-, hs⟩ | ⟨r, -, hs⟩⟩
  · rw [hplain.counted, hplain.abandonments, Nat.add_zero]
  · rcases (Pool.reclaimNext_shows hv q rest n k).2 with hd | ⟨-, hgo⟩
    · exact hdestroys (hs ▸ hd)
    · rw [hs, hgo]
      rfl
  · exact hdestroys (hs ▸ (Pool.disposeReclaimed_shows hv q rest n k).1)

theorem react_tallies (hw : w.Sound g) (hr : w.react e = some f) (i : Nat) :
    (f.world.countersOf i).abandoned =
      (w.countersOf i).abandoned + abandonments (Episode.funerals i ⟨w, e, f⟩) := by
  rcases react_shows hr with hnone | ⟨t, a, q, s, h⟩
  · obtain ⟨-, hfunerals, hcount⟩ := hnone i
    rw [hfunerals, hcount]
    rfl
  · rw [h.funerals hw, h.countersOf]
    split
    · rename_i hi
      subst hi
      rw [h.tallies hw, countersOf_eq h.pool]
    · rfl

/-- What is counted as destroyed is what went to the factory. -/
theorem Sound.destroyed_eq (hw : w.Sound g) (i : Nat) :
    (w.countersOf i).destroyed = (g i).length := by
  cases hp : w.pools[i]? with
  | none =>
    rw [((hw.pools i).housed hp).2.2, countersOf, hp]
    rfl
  | some p =>
    rw [countersOf_eq hp]
    exact ((hw.pools i).sound p hp).destroyed

/-- From one world to another the counters go up by what was destroyed in between. -/
theorem Leads.tallies (h : w₀.Leads later w) (hw : w₀.Sound g) (i : Nat) :
    (w.countersOf i).abandoned = (w₀.countersOf i).abandoned + abandonments (funerals later i) ∧
      (w.countersOf i).destroyed =
        (w₀.countersOf i).destroyed + (funerals later i).length := by
  constructor
  · induction h with
    | refl => rfl
    | @next later w e f leads react ih =>
      rw [react_tallies (leads.sound hw) react i, ih]
      show _ = _ + abandonments (Episode.funerals i ⟨w, e, f⟩ ++ funerals later i)
      unfold abandonments
      rw [List.countP_append]
      omega
  · -- what is counted as destroyed is what lies in the graves
    have hlen := congrArg List.length (map_funerals later i)
    rw [List.length_map] at hlen
    rw [(h.sound hw).destroyed_eq i, hw.destroyed_eq i, List.length_append, hlen, Nat.add_comm]

end World

end ObjectPool
