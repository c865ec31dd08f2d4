/-
  ObjectPool.Proofs.Seizures

  What becomes of the objects that a pass over the lent ones has taken from their borrowers. The
  call that made the pass goes through them one after the other. Whatever others do meanwhile, each
  is reported once if reports are wanted, goes to the factory once, in the mode for abandoned
  objects, and is counted once.

    * `Point.Clears` — where a call stands that goes through such objects.
    * `Accounted` — what was reported, and what destroyed, of them.
    * `Clearing` — a call on its way through them.
    * `Pool.passOver`, `World.passOver` — a pass in an order of its own.
    * `overdue_objects_reclaimed` — the main statement, for every order of the pass.
-/

import ObjectPool.Proofs.Funerals
import ObjectPool.Proofs.Stretch.Seizure

namespace ObjectPool

variable {ρ : Type}

/-! ## A call on its way -/

/-- Where a call stands that goes through the objects `xs`, `n` in all, on behalf of `k`, once those
    in `told` were reported, if reports are wanted, and those in `dead` destroyed. -/
inductive Point.Clears (xs : List (Reclaimed ρ)) (n : Nat) (k : Sweeper) :
    Point ρ → List Nat → List Nat → Prop
  | next {done rest : List (Reclaimed ρ)} (split : xs = done ++ rest) :
      Clears xs n k (.reclaiming rest n k) (objects done) (objects done)
  | tells {done rest : List (Reclaimed ρ)} {x : Reclaimed ρ} (r : Report)
      (split : xs = done ++ x :: rest) :
      Clears xs n k (.reporting r x rest n k) (objects done ++ [x.object]) (objects done)
  | given {done rest : List (Reclaimed ρ)} {x : Reclaimed ρ} (v : ρ)
      (split : xs = done ++ x :: rest) :
      Clears xs n k (.destroying x.object v .abandoned (.reclaim rest n k))
        (objects done ++ [x.object]) (objects done ++ [x.object])

/-- An object that is not destroyed yet is in the charge of the call. -/
theorem Point.Clears.charged {xs : List (Reclaimed ρ)} {n : Nat} {k : Sweeper} {pt : Point ρ}
    {told dead : List Nat} (h : pt.Clears xs n k told dead) {id : Nat} (hid : id ∈ objects xs) :
    id ∈ dead ∨ ∃ c, (id, c) ∈ pt.charges := by
  obtain ⟨x, hx, rfl⟩ := List.mem_map.mp hid
  have hrest : ∀ {rest : List (Reclaimed ρ)}, x ∈ rest →
      ∃ c, (x.object, c) ∈ seizures rest := fun hx => ⟨_, List.mem_map.mpr ⟨x, hx, rfl⟩⟩
  -- what is before the split is dealt with, what is after it is in the call's charge
  cases h with
  | next split =>
    rw [split] at hx
    exact (List.mem_append.mp hx).imp (fun hx => List.mem_map.mpr ⟨x, hx, rfl⟩) hrest
  | tells r split =>
    rw [split] at hx
    exact (List.mem_append.mp hx).imp (fun hx => List.mem_map.mpr ⟨x, hx, rfl⟩) hrest
  | given v split =>
    rw [split] at hx
    rcases List.mem_append.mp hx with hx | hx
    · exact .inl (List.mem_append_left _ (List.mem_map.mpr ⟨x, hx, rfl⟩))
    · rcases List.mem_cons.mp hx with rfl | hx
      · exact .inl (List.mem_append_right _ (List.mem_singleton.mpr rfl))
      · exact .inr (hrest hx)

/-! ## What was reported and destroyed -/

/-- Of the objects `ids` of the pool `i` those in `told` were reported once, if reports are
    `wanted`, those in `dead` went to the factory once, as abandoned objects, and no others. -/
structure Accounted (i : Nat) (wanted : Bool) (ids told dead : List Nat)
    (later : List (Episode ρ)) : Prop where
  reported : ∀ id ∈ ids,
    (reports later i).count id = if wanted = true ∧ id ∈ told then 1 else 0
  destroyed : ∀ id ∈ ids, claims id (funerals later i) = if id ∈ dead then [.abandoned] else []

section Accounted

variable {i : Nat} {wanted : Bool} {ids told dead : List Nat} {later : List (Episode ρ)}
  {e : Episode ρ} {g : Nat → List Nat}

theorem Accounted.nil : Accounted (ρ := ρ) i wanted ids [] [] [] where
  reported := fun _ _ => (if_neg fun h => absurd h.2 List.not_mem_nil).symm
  destroyed := fun _ _ => (if_neg List.not_mem_nil).symm

/-- What was destroyed is in its grave. -/
theorem Accounted.buried (h : Accounted i wanted ids told dead later) {id : Nat} (hid : id ∈ ids)
    (hdead : id ∈ dead) : id ∈ graves later i := by
  have hmem : DestroyMode.abandoned ∈ claims id (funerals later i) := by
    rw [h.destroyed id hid, if_pos hdead]
    exact List.mem_singleton.mpr rfl
  rw [← map_funerals]
  exact List.mem_map.mpr ⟨_, mem_claims.mp hmem, rfl⟩

/-- An episode in which nobody has anything to do with the objects. -/
theorem Accounted.rests (h : Accounted i wanted ids told dead later)
    (hw : e.before.Sound g) (hr : e.before.react e.event = some e.effect)
    (hapart : ∀ id ∈ ids, e.before.OutOfReach g e.event e.effect i id) :
    Accounted i wanted ids told dead (e :: later) := by
  refine ⟨fun id hid => ?_, fun id hid => ?_⟩
  · show (e.reports i ++ reports later i).count id = _
    rw [List.count_append, List.count_eq_zero.mpr ((hapart id hid).unreported hw hr), Nat.zero_add]
    exact h.reported id hid
  · have hnone : claims id (e.funerals i) = [] := by
      refine claims_eq_nil_iff.mpr fun mode hm => (hapart id hid).unburied hw hr ?_
      rw [← e.map_funerals]
      exact List.mem_map.mpr ⟨_, hm, rfl⟩
    show claims id (e.funerals i ++ funerals later i) = _
    rw [claims_append, hnone, List.nil_append]
    exact h.destroyed id hid

/-- An episode in which the objects `ys` are reported, if reports are wanted, and the objects `zs`
    go to the factory. -/
theorem Accounted.turn (h : Accounted i wanted ids told dead later) (ys zs : List Nat)
    (hys : (told ++ ys).Nodup) (hzs : (dead ++ zs).Nodup)
    (hr : e.reports i = if wanted then ys else []) (hf : e.funerals i = each zs .abandoned) :
    Accounted i wanted ids (told ++ ys) (dead ++ zs) (e :: later) := by
  have hapart : ∀ {l m : List Nat} {id : Nat}, (l ++ m).Nodup → id ∈ m → id ∉ l :=
    fun hl hm hmem => (List.disjoint_of_nodup_append hl) hmem hm
  -- what is new is counted once, and was not among the old
  refine ⟨fun id hid => ?_, fun id hid => ?_⟩
  · show (e.reports i ++ reports later i).count id = _
    rw [List.count_append, hr, h.reported id hid]
    cases wanted with
    | false => simp
    | true =>
      rw [if_pos rfl, hys.of_append_right.count]
      by_cases hid' : id ∈ ys
      · simp [hid', hapart hys hid']
      · simp [hid']
  · show claims id (e.funerals i ++ funerals later i) = _
    rw [claims_append, hf, claims_each, hzs.of_append_right.count, h.destroyed id hid]
    by_cases hid' : id ∈ zs
    · simp [hid', hapart hzs hid']
    · simp [hid']

end Accounted

/-! ## One turn after the other -/

/-- A call on the pool `i` on its way through the objects `xs`, with the turns `ts` that it has
    had. -/
structure Clearing (i : Nat) (wanted : Bool) (xs : List (Reclaimed ρ)) (n : Nat) (k : Sweeper)
    (later ts : List (Episode ρ)) (a : Activity ρ) (told dead : List Nat) : Prop where
  pool : a.pool = i
  point : a.point.Clears xs n k told dead
  account : Accounted i wanted (objects xs) told dead later
  turns : ts.length + a.point.ahead ≤ 3 * xs.length

/-- Where a call goes on that has destroyed `n` objects. -/
def Sweeper.onward (k : Sweeper) (now : Instant) (n : Nat) : Point ρ :=
  match k with
  | .borrow b => .seek (b.start now)
  | .upkeep out => .filling (.upkeep out n) 0

theorem Pool.swept_eq (p : Pool ρ) (now : Instant) (n : Nat) (k : Sweeper) :
    p.swept now n k =
      { pool := p
        notices := if 0 < n then [.reclaimed n] else []
        next := .go (k.onward now n) } := by
  unfold swept Stretch.notingIf Stretch.noting
  by_cases hn : 0 < n
  · rw [if_pos (decide_eq_true hn), if_pos hn]
    cases k <;> rfl
  · rw [if_neg (by simpa using hn), if_neg hn]
    cases k <;> rfl

section Course

variable {later ts : List (Episode ρ)} {w w₀ : World ρ} {g : Nat → List Nat} {t d i n : Nat}
  {a : Activity ρ} {p q : Pool ρ} {s : Stretch ρ} {e : Episode ρ} {xs : List (Reclaimed ρ)}
  {k : Sweeper} {wanted : Bool} {told dead : List Nat}

/-- Others leave the objects alone. -/
theorem Clearing.rests (h : Clearing i wanted xs n k later ts a told dead)
    (hw : e.before.Sound fun i => graves later i ++ g i)
    (hr : e.before.react e.event = some e.effect) (still : e.runs t d = false)
    (ha : e.before.callAt t d = some a) :
    Clearing i wanted xs n k (e :: later) ts a told dead := by
  refine ⟨h.pool, h.point, h.account.rests hw hr fun id hid => ?_, h.turns⟩
  rcases h.point.charged hid with hdead | ⟨c, hc⟩
  · exact .inl (List.mem_append_left _ (h.account.buried hid hdead))
  · exact .inr ⟨t, d, a, c, still, ha, h.pool, hc⟩

/-! ### A turn of the call -/

section Turn

variable {done rest : List (Reclaimed ρ)} {x : Reclaimed ρ} {ys : List Nat} {v : ρ}

/-- No object is dealt with twice. -/
theorem nodup_dealt (hxs : (objects xs).Nodup) (split : xs = done ++ x :: rest) :
    (objects done ++ [x.object]).Nodup := by
  rw [split, objects_append] at hxs
  exact hxs.sublist (List.Sublist.append_left (List.singleton_sublist.mpr (.head _)) _)

/-- An object goes to the factory, and what was not reported of it is reported. -/
theorem Clearing.gives (haccount : Accounted i wanted (objects xs) told (objects done) later)
    (hxs : (objects xs).Nodup) (split : xs = done ++ x :: rest)
    (htold : told ++ ys = objects done ++ [x.object])
    (hreports : e.reports i = if wanted then ys else []) (hfunerals : e.funerals i = s.funerals)
    (hd : s.Destroys q.counters.abandoned x v (.reclaim rest n k))
    (hle : ts.length + 1 + (3 * rest.length + 1) ≤ 3 * xs.length) :
    ∃ pt told' dead', s.next = .go pt ∧
      Clearing i wanted xs n k (e :: later) (e :: ts) ⟨i, pt⟩ told' dead' := by
  have hnodup := nodup_dealt hxs split
  have hall := haccount.turn ys [x.object] (htold ▸ hnodup) hnodup hreports
    (hfunerals.trans hd.funerals)
  rw [htold] at hall
  exact ⟨_, _, _, hd.next, rfl, .given v split, hall, hle⟩

/-- The next object is reported, and goes to the factory unless the report goes to the sink. -/
theorem Clearing.next (h : Clearing i wanted xs n k later ts ⟨i, .reclaiming (x :: rest) n k⟩
      (objects done) (objects done)) (hxs : (objects xs).Nodup) (split : xs = done ++ x :: rest)
    (hv : x.resource = some v) (hwanted : q.config.reports = wanted)
    (hs : q.reclaimNext x rest n k = s) (hreports : e.reports i = s.reports)
    (hfunerals : e.funerals i = s.funerals) : ∃ pt told' dead', s.next = .go pt ∧
      Clearing i wanted xs n k (e :: later) (e :: ts) ⟨i, pt⟩ told' dead' := by
  subst hs
  have hturns := h.turns
  rw [Point.ahead, List.length_cons] at hturns
  obtain ⟨hshows, hcase⟩ := Pool.reclaimNext_shows hv q rest n k
  rw [hwanted] at hshows
  -- three turns for each object: one here, one with the sink, one with the factory
  rcases hcase with hd | ⟨-, hgo⟩
  · exact Clearing.gives h.account hxs split rfl (hreports.trans hshows) hfunerals hd (by omega)
  · have hnodup := nodup_dealt hxs split
    have htold := h.account.turn [x.object] [] hnodup
      (by rw [List.append_nil]; exact hnodup.of_append_left) (hreports.trans hshows)
      (by rw [hfunerals, hgo]; rfl)
    rw [List.append_nil] at htold
    refine ⟨_, _, _, congrArg Stretch.next hgo, rfl, .tells _ split, htold, ?_⟩
    rw [Point.ahead, List.length_cons]
    omega

/-- The factory has destroyed an object, and the call turns to the next. -/
theorem Clearing.destroyed (h : Clearing i wanted xs n k later ts
      ⟨i, .destroying x.object v .abandoned (.reclaim rest n k)⟩ (objects done ++ [x.object])
      (objects done ++ [x.object])) (hxs : (objects xs).Nodup) (split : xs = done ++ x :: rest)
    {refusal : Option String} (hs : q.destroyed x.object (.reclaim rest n k) refusal = s)
    (hreports : e.reports i = s.reports) (hfunerals : e.funerals i = s.funerals) :
    ∃ pt told' dead', s.next = .go pt ∧
      Clearing i wanted xs n k (e :: later) (e :: ts) ⟨i, pt⟩ told' dead' := by
  obtain ⟨hgo, hsilent, hnone⟩ : s.next = .go (.reclaiming rest n k) ∧ s.reports = [] ∧
      s.funerals = [] := by
    subst hs
    cases refusal with
    | none => exact ⟨rfl, rfl, rfl⟩
    | some reason => exact ⟨rfl, rfl, rfl⟩
  have hnodup := nodup_dealt hxs split
  have hall := h.account.turn [] [] (by rw [List.append_nil]; exact hnodup)
    (by rw [List.append_nil]; exact hnodup) (by rw [hreports, hsilent, ite_self])
    (by rw [hfunerals, hnone]; rfl)
  have hturns := h.turns
  rw [List.append_nil] at hall
  rw [Point.ahead] at hturns
  refine ⟨_, objects (done ++ [x]), objects (done ++ [x]), hgo, rfl,
    .next (by rw [split, List.append_assoc]; rfl), ?_, ?_⟩
  · rw [objects_append]
    exact hall
  · rw [Point.ahead, List.length_cons]
    omega

/-- A turn of such a call takes it further through the objects, or it was through with them. -/
theorem Clearing.turn (h : Clearing i wanted xs n k later ts a told dead)
    (hxs : (objects xs).Nodup) (hw : e.before.Sound g) (ht : e.IsTurn t d a q s)
    (hwanted : q.config.reports = wanted) :
    (∃ pt told' dead', s.next = .go pt ∧
        Clearing i wanted xs n k (e :: later) (e :: ts) ⟨a.pool, pt⟩ told' dead') ∨
      (a.point = .reclaiming [] n k ∧ s = q.swept e.before.now n k) := by
  have hreports : e.reports i = s.reports := (ht.works.reports hw).trans (if_pos h.pool)
  have hfunerals : e.funerals i = s.funerals := (ht.works.funerals hw).trans (if_pos h.pool)
  have hresource : ∀ id r, (id, .seized r) ∈ a.point.charges → ∃ v, r = some v :=
    fun _ _ => ht.works.resource_of_seized hw
  have hcases := ht.cases
  obtain ⟨j, pt⟩ := a
  obtain rfl : j = i := h.pool
  -- what the point says of the split decides which of the objects is next
  have hpoint : pt.Clears xs n k told dead := h.point
  cases hpoint with
  | @next done rest split =>
    rcases hcases with ⟨-, hs⟩ | ⟨r, -, -, hs⟩
    · cases hs with
      | swept => exact .inr ⟨rfl, rfl⟩
      | reclaiming x rest =>
        obtain ⟨v, hv⟩ := hresource x.object x.resource (List.mem_cons_self ..)
        exact .inl (h.next hxs split hv hwanted rfl hreports hfunerals)
    · cases hs
  | @tells done rest x r split =>
    rcases hcases with ⟨-, hs⟩ | ⟨c, -, -, hs⟩
    · cases hs
    · cases hs with
      | reported =>
        obtain ⟨v, hv⟩ := hresource x.object x.resource (List.mem_cons_self ..)
        obtain ⟨hd, hsilent⟩ := Pool.disposeReclaimed_shows hv q rest n k
        have hturns := h.turns
        rw [Point.ahead] at hturns
        refine .inl (Clearing.gives h.account hxs split (List.append_nil _) ?_ hfunerals hd
          (by omega))
        rw [hreports, hsilent, ite_self]
  | given v split =>
    rcases hcases with ⟨-, hs⟩ | ⟨c, -, -, hs⟩
    · cases hs
    · cases hs with
      | destroyed => exact .inl (h.destroyed hxs split rfl hreports hfunerals)

end Turn

/-- The settings of a pool stay as they are. -/
theorem World.Leads.config (h : w₀.Leads later w) (hw : w₀.Sound g)
    (hp : w₀.pools[i]? = some p) : ∃ q, w.pools[i]? = some q ∧ q.config = p.config := by
  induction h with
  | refl => exact ⟨p, hp, rfl⟩
  | next leads react ih =>
    obtain ⟨q, hq, hcfg⟩ := ih
    obtain ⟨q', hq', hcfg'⟩ := World.react_config (leads.sound hw) react hq
    exact ⟨q', hq', hcfg'.trans hcfg⟩

/-- The turn with which a call ends its way through `n` objects of the pool `i`. -/
structure ClearsUp (t d i n : Nat) (k : Sweeper) (e : Episode ρ) : Prop where
  runs : e.runs t d = true
  stood : e.before.callAt t d = some ⟨i, .reclaiming [] n k⟩
  /-- The call goes on with their number. -/
  goesOn : e.effect.reply = none ∧ e.after.callAt t d = some ⟨i, k.onward e.before.now n⟩
  notices : e.effect.notices = if 0 < n then [(i, .reclaimed n)] else []

/-- How far the call on the thread `t` with `d` calls below it is with the objects `xs`. -/
inductive Progress (t d i : Nat) (wanted : Bool) (xs : List (Reclaimed ρ)) (n : Nat) (k : Sweeper)
    (later : List (Episode ρ)) (w : World ρ) : Prop
  /-- It is on its way, and waits for nothing but the factory and the sink. -/
  | underway {pt : Point ρ} {told dead : List Nat} (stands : w.callAt t d = some ⟨i, pt⟩)
      (clears : pt.Clears xs n k told dead)
      (account : Accounted i wanted (objects xs) told dead later)
      (turns : answer? t d later = none ∧ (turns t d later).length + pt.ahead ≤ 3 * xs.length)
      (goesOn : pt.isRequest = false → (w.step t).isSome = true) :
      Progress t d i wanted xs n k later w
  /-- It is through with them, and nobody touches them any more. -/
  | through {newer older : List (Episode ρ)} {e : Episode ρ} (split : later = newer ++ e :: older)
      (last : ClearsUp t d i n k e)
      (turns : answer? t d (e :: older) = none ∧
        (turns t d (e :: older)).length ≤ 3 * xs.length + 1)
      (done : Accounted i wanted (objects xs) (objects xs) (objects xs) older)
      (account : Accounted i wanted (objects xs) (objects xs) (objects xs) later) :
      Progress t d i wanted xs n k later w

/-- Once all the objects were dealt with, nobody touches them any more. -/
theorem Accounted.stays {ids : List Nat} {newer older : List (Episode ρ)}
    (h : Accounted i wanted ids ids ids older) (hleads : w₀.Leads (newer ++ older) w)
    (hw : w₀.Sound g) : Accounted i wanted ids ids ids (newer ++ older) := by
  induction newer generalizing w with
  | nil => exact h
  | cons e newer ih =>
    cases hleads with
    | next leads react =>
      have haccount := ih leads
      exact haccount.rests (leads.sound hw) react fun id hid =>
        .inl (List.mem_append_left _ (haccount.buried hid hid))

/-- The turn of a call that finds nothing left to destroy. -/
theorem Clearing.ends (h : Clearing i wanted xs n k later ts a told dead)
    (hat : e.before.callAt t d = some a) (ht : e.IsTurn t d a q s)
    (hpt : a.point = .reclaiming [] n k) (hs : s = q.swept e.before.now n k) :
    told = objects xs ∧ dead = objects xs ∧ ClearsUp t d i n k e := by
  rw [Pool.swept_eq] at hs
  have hpoint := h.point
  obtain ⟨j, pt⟩ := a
  obtain rfl : j = i := h.pool
  obtain rfl : pt = .reclaiming [] n k := hpt
  have hgo : s.next = .go (k.onward e.before.now n) := congrArg Stretch.next hs
  have hnotices : e.effect.notices = if 0 < n then [(j, .reclaimed n)] else [] := by
    refine ht.works.notices_eq.trans ?_
    rw [congrArg Stretch.notices hs]
    dsimp only
    split
    · rfl
    · rfl
  cases hpoint with
  | next split =>
    rw [split, List.append_nil]
    exact ⟨rfl, rfl, ht.runs, hat, ht.goesOn hgo, hnotices⟩

/-- A call that goes through objects does so to the end, whatever others do. -/
theorem World.Leads.progress (h : w₀.Leads later w) (hw : w₀.Sound g)
    (ha : w₀.callAt t d = some ⟨i, .reclaiming xs n k⟩) (hp : w₀.pools[i]? = some p)
    (hxs : (objects xs).Nodup) : Progress t d i p.config.reports xs n k later w := by
  have hcases := h.follow
    (fun later ts _ a => ∃ told dead, Clearing i p.config.reports xs n k later ts a told dead)
    (fun older ts e _ => ClearsUp t d i n k e ∧ ts.length ≤ 3 * xs.length ∧
      Accounted i p.config.reports (objects xs) (objects xs) (objects xs) older)
    hw ha ?start ?rests ?turn
  -- nothing is done at first, and three turns are enough for each object
  case start =>
    refine ⟨[], [], rfl, .next (List.nil_append xs).symm, .nil, ?_⟩
    rw [Point.ahead, List.length_nil, Nat.zero_add]
  case rests =>
    rintro older ts e a hcourse - hreact still ⟨told, dead, hclear⟩
    exact ⟨told, dead, hclear.rests (hcourse.sound hw) hreact still (hcourse.callAt hw)⟩
  -- the settings are those of the start, so that reports are wanted or not throughout
  case turn =>
    rintro older ts e a q s hcourse - hturn ⟨told, dead, hclear⟩
    obtain ⟨q', hq', hcfg⟩ := hcourse.leads.config hw hp
    obtain rfl : q' = q := Option.some.inj (hq'.symm.trans (hclear.pool ▸ hturn.works.pool))
    rcases hclear.turn hxs (hcourse.sound hw) hturn (congrArg Config.reports hcfg) with
      ⟨pt, told', dead', hgo, hnext⟩ | ⟨hpt, hswept⟩
    · exact .inl ⟨pt, hgo, told', dead', hnext⟩
    · obtain ⟨rfl, rfl, hlast⟩ := hclear.ends (hcourse.callAt hw) hturn hpt hswept
      exact .inr ⟨hlast, Nat.le_trans (Nat.le_add_right ..) hclear.turns, hclear.account⟩
  rcases hcases with ⟨ts, a, hcourse, told, dead, hclear⟩ |
      ⟨newer, e, older, ts, a, rfl, hcourse, hlast, hle, hdone⟩
  · obtain ⟨hts, hnone⟩ := hcourse.turns_eq
    have hat := hcourse.callAt hw
    obtain ⟨j, pt⟩ := a
    obtain rfl : j = i := hclear.pool
    have hclears := hclear.point
    refine .underway hat hclears hclear.account ⟨hnone, hts ▸ hclear.turns⟩ fun hreq => ?_
    refine (h.sound hw).step_isSome hat hreq fun q _ => ?_
    cases hclears with
    | @next done rest split => cases rest <;> rfl
    | tells | given => exact nomatch hreq
  · obtain ⟨hts, hnone⟩ := hcourse.turns_eq
    obtain ⟨hanswer, hturns⟩ := answer?_of_runs hnone hlast.runs
    refine .through rfl hlast ⟨hanswer.trans hlast.goesOn.1, ?_⟩ hdone ?_
    · rw [hturns, hts]
      exact Nat.succ_le_succ hle
    · rw [List.append_cons] at h ⊢
      exact hdone.stays h hw

end Course

/-! ## A pass -/

/-- A pass over the lent objects in the order `ids`. -/
def Pool.passOver (p : Pool ρ) (now : Instant) (a : Abandonment) (k : Sweeper) (ids : List Nat) :
    Stretch ρ :=
  let (q, xs) := p.reclaimFrom now a.timeout ids
  q.go (.reclaiming xs xs.length k)

/-- The world once a call on top of the thread `t` has made a pass over the lent objects of its pool
    `p`, which is the pool `i`, in the order `ids`. -/
def World.passOver (w : World ρ) (t i : Nat) (p : Pool ρ) (a : Abandonment) (k : Sweeper)
    (ids : List Nat) : World ρ := (w.apply t i (p.passOver w.now a k ids)).world

/-- A call that passes over the lent objects goes through them in the order of the books. -/
theorem Pool.advance_passOver {p : Pool ρ} {now : Instant} {self : Nat} {ended : Nat → Bool}
    {pt : Point ρ} {s : Stretch ρ} (hs : p.advance now self ended pt = some s)
    (hsweeps : pt.sweeps = true) (hpass : s.next.isPass = true) :
    ∃ a k, p.config.abandonment = some a ∧
      s.pool = (p.passOver now a k p.registry.active).pool ∧
      s.next = (p.passOver now a k p.registry.active).next := by
  -- a borrow may pass over the lent objects at once, upkeep once it is done with the idle
  cases goesOn_of_advance hs with
  | borrow b =>
    unfold Pool.borrow at hpass ⊢
    split at hpass
    · rename_i a hset
      refine ⟨a, .borrow b, hset, ?_⟩
      split at hpass
      · rename_i hsweep
        rw [if_pos hsweep]
        exact ⟨rfl, rfl⟩
      · cases hpass
    · cases hpass
  | evicting out tests n =>
    cases out with
    | cons x out => cases hsweeps
    | nil =>
      cases tests with
      | cons x tests => cases hsweeps
      | nil =>
        unfold Pool.evictNext Pool.evicted at hpass ⊢
        dsimp only at hpass ⊢
        rw [Stretch.notingIf_next] at hpass
        rw [Stretch.notingIf_pool, Stretch.notingIf_next]
        split at hpass
        · rename_i a hset
          refine ⟨a, .upkeep n, hset, ?_⟩
          split at hpass
          · rename_i hsweep
            rw [if_pos hsweep]
            exact ⟨rfl, rfl⟩
          · cases hpass
        · cases hpass
  | _ => cases hsweeps

section Pass

variable {es later : List (Episode ρ)} {w w₀ : World ρ} {g : Nat → List Nat} {t d i : Nat}
  {pt : Point ρ} {p : Pool ρ} {a : Abandonment} {k : Sweeper} {ids : List Nat} {s : Stretch ρ}

/-- Two stretches that leave the same pool and the same point behind lead to the same world. -/
theorem World.apply_congr {s' : Stretch ρ} (hpool : s.pool = s'.pool) (hnext : s.next = s'.next) :
    (w.apply t i s).world = (w.apply t i s').world := by
  cases hn : s.next with
  | go pt =>
    rw [apply_go hn, apply_go (hnext ▸ hn), hpool]
  | finish r =>
    rw [apply_finish hn, apply_finish (hnext ▸ hn), hpool]

/-- A call that goes on by itself is where its stretch has taken it. -/
theorem World.Nested.callAt_apply {pt' : Point ρ} (hw : w.Nested)
    (ha : w.callAt t d = some ⟨i, pt⟩) (hreq : pt.isRequest = false) (hn : s.next = .go pt') :
    (w.apply t i s).world.callAt t d = some ⟨i, pt'⟩ := by
  obtain ⟨th, rest, hth, hs⟩ := top?_eq_some (hw.top?_of_callAt ha hreq)
  have hold : (w.stackOf t).reverse[d]? = some ⟨i, pt⟩ := ha
  rw [stackOf_eq hth, hs, getElem?_reverse_cons] at hold
  rw [apply_go hn, World.callAt, stackOf_moveTo (w := w.onPool i fun _ => s.pool) hth hs,
    getElem?_reverse_cons]
  split
  · rfl
  · -- what is below the call on top waits for an answer
    rename_i hd
    rw [if_neg hd] at hold
    have hmem := List.mem_reverse.mp (List.mem_of_getElem? hold)
    have hwaits := hw th (List.mem_of_getElem? hth) _ (by rw [hs]; exact hmem)
    exact absurd (hreq.symm.trans hwaits) Bool.false_ne_true

/-- A pass in any order leaves a sound world behind, in which the call goes through what it took. -/
theorem World.Sound.passOver (hw : w.Sound g) (ha : w.callAt t d = some ⟨i, pt⟩)
    (hp : w.pools[i]? = some p) (hsweeps : pt.sweeps = true) (a : Abandonment) (k : Sweeper)
    (ids : List Nat) : (w.passOver t i p a k ids).Sound g ∧
      (w.passOver t i p a k ids).pools[i]? = some (p.reclaimFrom w.now a.timeout ids).1 ∧
      (w.passOver t i p a k ids).callAt t d =
        some ⟨i, .reclaiming (p.reclaimFrom w.now a.timeout ids).2
          (p.reclaimFrom w.now a.timeout ids).2.length k⟩ := by
  have hreq := Pool.isRequest_of_sweeps hsweeps
  have hstretches : w.Stretches t ⟨i, pt⟩ p (p.passOver w.now a k ids) 0 := by
    refine ⟨hw.nested.top?_of_callAt ha hreq, hp, fun ℓ hℓ => ?_, fun c hpt => ?_⟩
    · -- such a call has nothing in its charge
      have hpool : p.Sound ℓ := by
        cases pt with
        | borrow b => exact hℓ
        | evicting out tests n =>
          cases out with
          | cons x out => cases hsweeps
          | nil =>
            cases tests with
            | cons x tests => cases hsweeps
            | nil => exact hℓ
        | _ => cases hsweeps
      exact hpool.reclaimFrom w.now a.timeout ids
    · obtain rfl : pt = .close c := hpt
      cases hsweeps
  have hgraves : (fun j => if j = i then (p.passOver w.now a k ids).buried ++ g j else g j) =
      g := by
    funext j
    split
    · rfl
    · rfl
  refine ⟨hgraves ▸ hw.apply hstretches, ?_, hw.nested.callAt_apply ha hreq rfl⟩
  exact pools_onPool_self hp fun _ => (p.reclaimFrom w.now a.timeout ids).1

/-! ## Main statement -/

/-- What becomes of the objects `xs` that a call has taken away from their borrowers in the world
    `w₀`, where `gs` is what had been destroyed of the pool `i`. -/
structure Disposal (w₀ : World ρ) (t d i : Nat) (wanted : Bool) (xs : List (Reclaimed ρ))
    (k : Sweeper) (gs : List Nat) (later : List (Episode ρ)) (w : World ρ) : Prop where
  progress : Progress t d i wanted xs xs.length k later w
  /-- What the factory has destroyed is out of circulation for good. -/
  gone : ∀ id ∈ graves later i, ∃ p, w.pools[i]? = some p ∧ p.stateOf id = .invalid ∧
    id ∉ p.registry.tracked ∧ (graves later i ++ gs).count id = 1
  /-- It is counted as destroyed once, and as abandoned once if it was destroyed as such. -/
  counted : (w.countersOf i).abandoned =
      (w₀.countersOf i).abandoned + abandonments (funerals later i) ∧
    (w.countersOf i).destroyed = (w₀.countersOf i).destroyed + (funerals later i).length

theorem World.Leads.disposal {xs : List (Reclaimed ρ)} (h : w₀.Leads later w) (hw : w₀.Sound g)
    (ha : w₀.callAt t d = some ⟨i, .reclaiming xs xs.length k⟩) (hp : w₀.pools[i]? = some p)
    (hxs : (objects xs).Nodup) : Disposal w₀ t d i p.config.reports xs k (g i) later w := by
  refine ⟨h.progress hw ha hp hxs, fun id hid => ?_, h.tallies hw i⟩
  exact ((h.sound hw).pools i).gone (List.mem_append_left _ hid)

/-- What a call takes that passes over the lent objects of the pool `p` in the order `ids`. -/
structure PassesOver (es : List (Episode ρ)) (w : World ρ) (t d i : Nat) (p : Pool ρ)
    (a : Abandonment) (k : Sweeper) (ids : List Nat) (q : Pool ρ) (xs : List (Reclaimed ρ)) :
    Prop where
  seizes : p.Seizes w.now a.timeout q xs
  /-- The order makes no difference to the pool, and none to what is taken. -/
  pool : q = (p.reclaimFrom w.now a.timeout p.registry.active).1
  taken : xs.Perm (p.reclaimFrom w.now a.timeout p.registry.active).2
  lands : (w.passOver t i p a k ids).pools[i]? = some q ∧
    (w.passOver t i p a k ids).callAt t d = some ⟨i, .reclaiming xs xs.length k⟩
  /-- Whatever happens then. -/
  leads : ∀ later w', (w.passOver t i p a k ids).Leads later w' →
    Disposal (w.passOver t i p a k ids) t d i p.config.reports xs k (graves es i) later w'

/-- In every world that can be reached, a call that passes over the lent objects takes away exactly
    those that are overdue, in whatever order it goes through them. Each of them is reported once
    if reports are wanted, and destroyed once. -/
theorem overdue_objects_reclaimed (h : Run es w) (ha : w.callAt t d = some ⟨i, pt⟩)
    (hp : w.pools[i]? = some p) (hs : p.advance w.now t w.hasEnded pt = some s)
    (hsweeps : pt.sweeps = true) (hpass : s.next.isPass = true) :
    ∃ a k, p.config.abandonment = some a ∧
      (∃ f, w.step t = some f ∧ f.world = w.passOver t i p a k p.registry.active) ∧
      ∀ ids, ids.Perm p.registry.active →
        PassesOver es w t d i p a k ids (p.reclaimFrom w.now a.timeout ids).1
          (p.reclaimFrom w.now a.timeout ids).2 := by
  have hw := h.sound
  obtain ⟨a, k, hset, hpool, hnext⟩ := Pool.advance_passOver hs hsweeps hpass
  have hsound := (hw.pools i).sound p hp
  refine ⟨a, k, hset, ⟨w.apply t i s, ?_, World.apply_congr hpool hnext⟩, fun ids hids => ?_⟩
  · have htop := hw.nested.top?_of_callAt ha (Pool.isRequest_of_sweeps hsweeps)
    obtain ⟨th, rest, hth, hst⟩ := World.top?_eq_some htop
    simp only [World.step, hth, hst, hp, hs, Option.bind_eq_bind, Option.bind_some]
    rfl
  · obtain ⟨hafter, hland, hat⟩ := hw.passOver ha hp hsweeps a k ids
    have hseizes := hsound.seizes w.now a.timeout hids
    obtain ⟨hsame, hperm⟩ := hsound.reclaimFrom_perm w.now a.timeout hids
    have hcfg : (p.reclaimFrom w.now a.timeout ids).1.config = p.config := by
      rw [Pool.reclaimFrom_eq (hids.nodup_iff.mpr hsound.nodup_active) p]
      exact (Pool.takeAwayAll_rest _ p).1
    refine ⟨hseizes, hsame, hperm, ⟨hland, hat⟩, fun later w' hleads => ?_⟩
    rw [← hcfg]
    exact hleads.disposal hafter hat hland hseizes.once

end Pass

/-- Two borrowers have both objects of a pool and do nothing for 20, although an object may go
    unused for 10 only; a third one waits. A round of upkeep has just looked at the idle objects. -/
def overdueEvents : List (Event Nat) :=
  [.create
      { maxTotal := 2
        abandonment := some { onUpkeep := true, timeout := ⟨10⟩, reported := true } },
    .spawn, .spawn, .spawn, .spawn,
    .begin 0 0 (.borrow none "first"), .step 0, .step 0, .answer 0 (.created (.ok 7)),
    .answer 0 (.activated 7 none),
    .begin 1 0 (.borrow none "second"), .step 1, .step 1, .answer 1 (.created (.ok 8)),
    .answer 1 (.activated 8 none),
    .begin 3 0 (.borrow none "third"), .step 3, .step 3, .tick ⟨20⟩,
    .begin 2 0 .maintain, .step 2]

theorem overdue_objects_reclaimed_from_two :
    ∃ p s, Run (episodes overdueEvents) (reached overdueEvents) ∧
      (reached overdueEvents).callAt 2 0 = some ⟨0, .evicting [] [] 0⟩ ∧
      (reached overdueEvents).pools[0]? = some p ∧ p.registry.active = [0, 1] ∧
      p.advance (reached overdueEvents).now 2 (reached overdueEvents).hasEnded
        (.evicting [] [] 0) = some s ∧ s.next.isPass = true ∧
      ∃ a k, p.config.abandonment = some a ∧
        (∃ f, (reached overdueEvents).step 2 = some f ∧
          f.world = (reached overdueEvents).passOver 2 0 p a k p.registry.active) ∧
        ∀ ids, ids.Perm p.registry.active →
          PassesOver (episodes overdueEvents) (reached overdueEvents) 2 0 0 p a k ids
            (p.reclaimFrom (reached overdueEvents).now a.timeout ids).1
            (p.reclaimFrom (reached overdueEvents).now a.timeout ids).2 :=
  ⟨_, _, Run.of_events rfl, rfl, rfl, rfl, rfl, rfl,
    overdue_objects_reclaimed (Run.of_events rfl) rfl rfl rfl rfl rfl⟩

end ObjectPool
