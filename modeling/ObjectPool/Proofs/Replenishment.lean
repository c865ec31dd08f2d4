/-
  ObjectPool.Proofs.Replenishment

  How the reserve of a pool is filled that nobody else calls, from beginning to end: by a call of
  its own, or in a round of upkeep. So many objects are made as the reserve lacks, if there is room
  for them and the factory makes each; otherwise those before the first that it refuses. No object
  that was there before is touched, and neither the idle objects nor all of them get to be too many.
  The turns of the call are bounded, before it looks at the reserve for the first time and after.

    * `Episode.Tells` — a call ends and tells what has come of it.
    * `Refilling` — a call on its way that fills the reserve.
    * `Point.Nears`, `Point.ToFill` — a call that is about to, and how many turns it has left.
    * `FillAhead`, `FillGoesOn`, `FillEnds`, `reserve_replenished` — the main statement.
-/

import ObjectPool.Proofs.Stretch.Restocking
import ObjectPool.Proofs.Stretch.Tidying

namespace ObjectPool

variable {ρ : Type}

/-- A call that fills the reserve of the pool `i` has its last turn in an episode, with the result
    `x`. -/
structure Episode.Tells (t d i : Nat) (f : Filler) (x : Except PoolError Nat) (e : Episode ρ) :
    Prop where
  finishes : e.Finishes t d i (f.reply x)
  notices : (f.notices x).map (fun n => (i, n)) <:+ e.effect.notices

/-- An episode leaves the first `n` objects of a pool alone. -/
def Episode.LeavesAlone (i n : Nat) (e : Episode ρ) : Prop :=
  ∀ id < n, (e.after.entriesOf i)[id]? = (e.before.entriesOf i)[id]?

/-- A pool that stood at `p` once has not been filled too much. -/
structure Pool.WithinBounds (p q : Pool ρ) : Prop where
  total : q.registry.total ≤ q.config.maxTotal
  idle : q.registry.idle.length ≤ max p.registry.idle.length q.config.maxIdle
  active : q.registry.active = p.registry.active

namespace Pool

variable {p q : Pool ρ} {f : Filler} {j held n : Nat} {ds : List Deed} {pt : Point ρ}
  {x : Except PoolError Nat}

theorem Restocked.withinBounds (h : p.Restocked j held n q) (hp : p.Fillable)
    (made : j ≤ p.shortfall) (total : q.registry.total ≤ q.config.maxTotal) :
    p.WithinBounds q := by
  refine ⟨total, ?_, h.active⟩
  have hreserve := hp.reserve
  rw [h.idle_length, h.config]
  unfold shortfall at made
  omega

theorem Filled.withinBounds (h : p.Filled q ds x) (hp : p.Fillable)
    (total : q.registry.total ≤ q.config.maxTotal) : p.WithinBounds q := by
  cases h with
  | whole books => exact books.withinBounds hp (Nat.le_refl _) total
  | stopped lacks _ books => exact books.withinBounds hp (Nat.le_of_lt lacks) total

/-- A pool whose reserve is filled as far as it goes has its reserve, or no room. -/
theorem Filled.whole_eq (h : p.Filled q ds x)
    (within : p.registry.total ≤ p.config.maxTotal) {n : Nat} (hx : x = .ok n) :
    n = p.shortfall ∧ q.registry.idle.length = p.registry.idle.length + n ∧
      (q.config.minIdle ≤ q.registry.idle.length ∨ q.registry.total = q.config.maxTotal) := by
  cases h with
  | whole books =>
    obtain rfl := Except.ok.inj hx
    refine ⟨rfl, books.idle_length, ?_⟩
    rw [books.idle_length, books.total_eq, books.config]
    unfold shortfall
    omega
  | stopped => exact nomatch hx

theorem Filled.ne_exhausted (h : p.Filled q ds x) (d : Duration) : x ≠ .error (.exhausted d) := by
  cases h with
  | whole => exact nofun
  | stopped _ refuses => exact fun hx => refuses.ne_exhausted d (Except.error.inj hx)

end Pool

/-! ## A call on its way -/

/-- A call that fills the reserve of the pool `i`, which stood at `p` when it began, with the turns
    `ts` that it has had. -/
structure Refilling (p : Pool ρ) (f : Filler) (i j : Nat) (ts : List (Episode ρ)) (w : World ρ)
    (a : Activity ρ) : Prop where
  pool : a.pool = i
  stage : ∃ q, w.pools[i]? = some q ∧ p.Filling f q j (deeds ts) a.point
  turns : ts.length ≤ a.point.fillTurns
  alone : ∀ e ∈ ts, e.LeavesAlone i p.entries.length

/-- The turn with which such a call ends. -/
structure RefillEnds (p : Pool ρ) (f : Filler) (t d i : Nat) (ts : List (Episode ρ))
    (e : Episode ρ) (x : Except PoolError Nat) : Prop where
  tells : e.Tells t d i f x
  filled : ∃ q, e.after.pools[i]? = some q ∧ p.Filled q (deeds (e :: ts)) x
  turns : (e :: ts).length ≤ 4 * p.shortfall + 1
  alone : ∀ e' ∈ e :: ts, e'.LeavesAlone i p.entries.length

section Course

variable {later ts : List (Episode ρ)} {w w₀ : World ρ} {g : Nat → List Nat} {t d i j : Nat}
  {a : Activity ρ} {p q : Pool ρ} {s : Stretch ρ} {e : Episode ρ} {f : Filler} {pt : Point ρ}
  {x : Except PoolError Nat}

theorem Episode.IsTurn.tells (h : e.IsTurn t d a q s) (hs : s.Tells f x) :
    e.Tells t d a.pool f x := by
  refine ⟨h.finishes hs.next, ?_⟩
  rw [show e.effect.notices = _ from h.works.notices_eq]
  obtain ⟨pre, hpre⟩ := hs.notices
  exact ⟨pre.map _, by rw [← hpre, List.map_append]⟩

theorem World.Sound.fillable (hw : w.Sound g) (hp : w.pools[i]? = some p)
    (hvalid : p.config.fault? = none) (hopen : p.closed = false) : p.Fillable := by
  have hsound := (hw.pools i).sound p hp
  refine ⟨hopen, fun id hid => ?_, hsound.capacity, Config.minIdle_le_of_valid hvalid⟩
  obtain ⟨v, hv⟩ := hsound.slot_of_tracked hid
  obtain ⟨y, hy, -⟩ := Option.bind_eq_some_iff.mp hv
  exact (List.getElem?_eq_some_iff.mp hy).1

/-- While the call rests nothing happens to the books. -/
theorem Refilling.rests (h : Refilling p f i j ts e.before a) (hu : LeftAlone t d i (e :: later))
    (hr : e.before.react e.event = some e.effect) (still : e.runs t d = false) :
    Refilling p f i j ts e.after a := by
  obtain ⟨q, hq, hfills⟩ := h.stage
  obtain ⟨q', hq', hbooks⟩ := (hu.rests hr still).pool hq
  exact ⟨h.pool, ⟨q', hq', hfills.of_same hbooks.config hbooks.registry hbooks.entries⟩, h.turns,
    h.alone⟩

/-- After each of its turns the call is further, or at its end. -/
theorem Refilling.turn (h : Refilling p f i j ts e.before a) (hw : e.before.Sound g)
    (hp : p.Fillable) (ht : e.IsTurn t d a q s) :
    (∃ pt j', s.next = .go pt ∧ Refilling p f i j' (e :: ts) e.after ⟨a.pool, pt⟩) ∨
      ∃ x, RefillEnds p f t d i ts e x := by
  obtain ⟨q₀, hq₀, hfills⟩ := h.stage
  obtain rfl : q₀ = q := Option.some.inj (hq₀.symm.trans (h.pool ▸ ht.works.pool))
  have hrefills := ht.refills hw hfills.supplies
  have hturns := h.turns
  have hbound := hfills.fillTurns_le
  obtain ⟨q', hq', hsame⟩ := ht.pools
  rw [h.pool] at hq'
  have halone : ∀ e' ∈ e :: ts, e'.LeavesAlone i p.entries.length := by
    refine List.forall_mem_cons.mpr ⟨fun id hid => ?_, h.alone⟩
    rw [World.entriesOf_eq hq', World.entriesOf_eq hq₀]
    rcases hsame with rfl | rfl
    · exact hfills.untouched hrefills hid
    · exact hfills.untouched hrefills hid
  rcases hfills.turn hp hrefills (ht.works.config hw) with
    ⟨j', pt, hnext, hfills', hlt⟩ | ⟨x, htells, hfilled⟩
  · refine .inl ⟨pt, j', hnext, h.pool, ⟨q', hq', ?_⟩, ?_, halone⟩
    · rw [deeds_cons]
      rcases hsame with rfl | rfl
      · exact hfills'
      · exact hfills'.of_same rfl rfl rfl
    · exact Nat.le_trans (Nat.succ_le_succ hturns) hlt
  · refine .inr ⟨x, h.pool ▸ ht.tells htells, ⟨q', hq', ?_⟩, ?_, halone⟩
    · rw [deeds_cons]
      rcases hsame with rfl | rfl
      · exact hfilled
      · exact hfilled.of_same rfl rfl rfl
    · exact Nat.succ_le_succ (Nat.le_trans hturns hbound)

/-- The call is followed from its beginning. -/
theorem World.Leads.refills (h : w₀.Leads later w) (hw : w₀.Sound g)
    (ha : w₀.callAt t d = some ⟨i, .filling f 0⟩) (hq : w₀.pools[i]? = some p) (hp : p.Fillable)
    (hu : LeftAlone t d i later) :
    (∃ ts a j, w₀.Course t d later ts w a ∧ Refilling p f i j ts w a) ∨
      ∃ newer e older ts a x, later = newer ++ e :: older ∧ w₀.Course t d older ts e.before a ∧
        RefillEnds p f t d i ts e x := by
  have hstart : Refilling p f i 0 [] w₀ ⟨i, .filling f 0⟩ :=
    ⟨rfl, ⟨p, hq, .start hp.isOpen f⟩, Nat.zero_le _, List.forall_mem_nil _⟩
  rcases h.follow (fun _ ts w a => ∃ j, Refilling p f i j ts w a)
    (fun _ ts e _ => ∃ x, RefillEnds p f t d i ts e x) hw ha ⟨0, hstart⟩
    (fun _ hsub hr still ⟨j, hway⟩ => ⟨j, hway.rests (hu.of_suffix hsub) hr still⟩)
    (fun hcourse _ hturn ⟨j, hway⟩ => by
      rcases hway.turn (hcourse.sound hw) hp hturn with ⟨pt, j', hnext, hway'⟩ | hends
      · exact .inl ⟨pt, hnext, j', hway'⟩
      · exact .inr hends) with
    ⟨ts, a, hcourse, j, hway⟩ | ⟨newer, e, older, ts, a, rfl, hcourse, x, hends⟩
  · exact .inl ⟨ts, a, j, hcourse, hway⟩
  · exact .inr ⟨newer, e, older, ts, a, x, rfl, hcourse, hends⟩

end Course

/-! ## A call that is about to fill the reserve -/

/-- Whether the reserve is filled in a round of upkeep. -/
def Filler.isUpkeep : Filler → Bool
  | .prepare => false
  | .upkeep _ _ => true

/-- A call on the pool `p`, a round of upkeep or not, that is to fill the reserve and has not looked
    at it yet; it does so after `m` turns at the latest. -/
inductive Point.Nears (p : Pool ρ) : Bool → Nat → Point ρ → Prop
  | prepares : Nears p false 1 .prepare
  | tidies {m : Nat} {pt : Point ρ} (h : pt.Tidies p m) : Nears p true m pt

/-- The same, or the call is just about to look at the reserve. -/
inductive Point.ToFill (p : Pool ρ) : Bool → Nat → Point ρ → Prop
  | looks (f : Filler) : ToFill p f.isUpkeep 0 (.filling f 0)
  | nears {u : Bool} {m : Nat} {pt : Point ρ} (h : pt.Nears p u m) : ToFill p u m pt

section Approach

variable {later ts : List (Episode ρ)} {w w₀ : World ρ} {g : Nat → List Nat} {t d i m : Nat}
  {a : Activity ρ} {p q : Pool ρ} {s : Stretch ρ} {e : Episode ρ} {pt : Point ρ} {u : Bool}

theorem Point.Tidies.of_registry (h : pt.Tidies p m) (hq : q.registry = p.registry) :
    pt.Tidies q m := by
  cases h with
  | begins => exact hq ▸ .begins
  | sorts n h => exact hq ▸ .sorts n h
  | clears n h => exact .clears n h

theorem Point.ToFill.of_registry (h : pt.ToFill p u m) (hq : q.registry = p.registry) :
    pt.ToFill q u m := by
  cases h with
  | looks f => exact .looks f
  | nears h =>
    cases h with
    | prepares => exact .nears .prepares
    | tidies h => exact .nears (.tidies (h.of_registry hq))

theorem Point.Nears.pos (h : pt.Nears p u m) : 0 < m := by
  cases h with
  | prepares => exact Nat.one_pos
  | tidies h => cases h <;> exact Nat.succ_pos _

/-- A turn of such a call on an open pool takes it nearer. -/
theorem Episode.IsTurn.nears (h : e.IsTurn t d a q s) (hw : e.before.Sound g)
    (hopen : q.closed = false) (hpt : a.point.Nears q u m) :
    ∃ pt, s.next = .go pt ∧ (∃ k < m, pt.ToFill s.pool u k) ∧ s.pool.closed = false := by
  have hcases := h.cases
  have htidies := fun {m : Nat} (hpt : a.point.Tidies q m) => h.tidies hw hpt hopen
  obtain ⟨i, pt⟩ := a
  cases hpt with
  | prepares =>
    have hs : s = q.prepare := by
      rcases hcases with ⟨-, hs⟩ | ⟨r, -, -, hs⟩
      · cases hs
        rfl
      · cases hs
    rw [hs, Pool.prepare, if_neg (Bool.eq_false_iff.mp hopen)]
    exact ⟨_, rfl, ⟨0, Nat.one_pos, .looks .prepare⟩, hopen⟩
  | tidies hpt =>
    obtain ⟨pt', hnext, hpt'⟩ := (htidies hpt).next
    refine ⟨pt', hnext, ?_, (htidies hpt).isOpen⟩
    rcases hpt' with ⟨out, back, rfl⟩ | ⟨k, hk, hpt'⟩
    · exact ⟨0, (Point.Nears.tidies hpt).pos, .looks (.upkeep out back)⟩
    · exact ⟨k, hk, .nears (.tidies hpt')⟩

/-- It waits for nothing but the factory and the sink of reports. -/
theorem Point.Nears.goesOn (h : pt.Nears p u m) (hreq : pt.isRequest = false) (q : Pool ρ)
    (now : Instant) (self : Nat) (ended : Nat → Bool) :
    (q.advance now self ended pt).isSome = true := by
  cases h with
  | prepares => rfl
  | tidies h =>
    cases h with
    | begins => rfl
    | sorts n h =>
      cases h with
      | between => rfl
      | readied | checked | rested | given => exact nomatch hreq
    | clears n h =>
      cases h with
      | next xs m => cases xs <;> rfl
      | tells | given => exact nomatch hreq

/-- Of the `m` turns after which the call looks at the reserve at the latest it has had `n`. -/
structure Approaching (u : Bool) (m i n : Nat) (w : World ρ) (a : Activity ρ) : Prop where
  pool : a.pool = i
  near : ∃ q k, w.pools[i]? = some q ∧ q.closed = false ∧ a.point.ToFill q u k ∧ n + k ≤ m

theorem Approaching.rests {n : Nat} (h : Approaching u m i n e.before a)
    (hu : LeftAlone t d i (e :: later)) (hr : e.before.react e.event = some e.effect)
    (still : e.runs t d = false) : Approaching u m i n e.after a := by
  obtain ⟨q, k, hq, hopen, hpt, hle⟩ := h.near
  obtain ⟨q', hq', hbooks⟩ := (hu.rests hr still).pool hq
  exact ⟨h.pool, q', k, hq', (congrArg Registry.closed hbooks.registry).trans hopen,
    hpt.of_registry hbooks.registry, hle⟩

/-- A turn of the call takes it nearer, or it looks at the reserve in it. -/
theorem Approaching.turn (h : Approaching u m i ts.length e.before a) (hw : e.before.Sound g)
    (ht : e.IsTurn t d a q s) :
    (∃ pt, s.next = .go pt ∧ Approaching u m i (e :: ts).length e.after ⟨a.pool, pt⟩) ∨
      (∃ f, f.isUpkeep = u ∧ a = ⟨i, .filling f 0⟩) ∧ e.before.pools[i]? = some q ∧
        q.closed = false ∧ ts.length ≤ m := by
  obtain ⟨j, pt⟩ := a
  obtain rfl : j = i := h.pool
  obtain ⟨q₀, k, hq₀, hopen, hpt, hle⟩ := h.near
  obtain rfl : q₀ = q := Option.some.inj (hq₀.symm.trans ht.works.pool)
  cases hpt with
  | looks f => exact .inr ⟨⟨f, rfl, rfl⟩, hq₀, hopen, hle⟩
  | nears hpt =>
    obtain ⟨pt', hnext, ⟨k', hk', hpt'⟩, hopen'⟩ := ht.nears hw hopen hpt
    obtain ⟨q', hq', hsame⟩ := ht.pools
    have hle' : (e :: ts).length + k' ≤ m := by
      rw [List.length_cons]
      omega
    refine .inl ⟨pt', hnext, rfl, q', k', hq', ?_⟩
    rcases hsame with rfl | rfl
    · exact ⟨hopen', hpt', hle'⟩
    · exact ⟨hopen', hpt'.of_registry rfl, hle'⟩

/-- The call is followed until it looks at the reserve. -/
theorem World.Leads.toFill (h : w₀.Leads later w) (hw : w₀.Sound g)
    (ha : w₀.callAt t d = some ⟨i, pt⟩) (hq : w₀.pools[i]? = some q) (hpt : pt.ToFill q u m)
    (hopen : q.closed = false) (hu : LeftAlone t d i later) :
    (∃ ts pt q k, w₀.Course t d later ts w ⟨i, pt⟩ ∧ w.pools[i]? = some q ∧ pt.Nears q u k ∧
      ts.length + k ≤ m) ∨
      ∃ newer older ts w₁ f p, later = newer ++ older ∧ w₁.Leads newer w ∧
        w₀.Course t d older ts w₁ ⟨i, .filling f 0⟩ ∧ ts.length ≤ m ∧ f.isUpkeep = u ∧
        w₁.pools[i]? = some p ∧ p.closed = false := by
  have hstart : Approaching u m i 0 w₀ ⟨i, pt⟩ :=
    ⟨rfl, q, m, hq, hopen, hpt, Nat.le_of_eq (Nat.zero_add m)⟩
  rcases h.follow (fun _ ts w a => Approaching u m i ts.length w a)
    (fun _ ts e a => ∃ q, (∃ f, f.isUpkeep = u ∧ a = ⟨i, .filling f 0⟩) ∧
      e.before.pools[i]? = some q ∧ q.closed = false ∧ ts.length ≤ m) hw ha hstart
    (fun _ hsub hr still hnear => hnear.rests (hu.of_suffix hsub) hr still)
    (fun hcourse _ hturn hnear =>
      (hnear.turn (hcourse.sound hw) hturn).imp_right fun hlooks => ⟨_, hlooks⟩) with
    ⟨ts, ⟨j, pt'⟩, hcourse, hnear⟩ |
      ⟨newer, e, older, ts, a, rfl, hcourse, p, ⟨f, hf, rfl⟩, hp, hopen', hle⟩
  · obtain rfl : j = i := hnear.pool
    obtain ⟨q', k, hq', hopen', hpt', hle⟩ := hnear.near
    cases hpt' with
    | looks f =>
      exact .inr ⟨[], later, ts, w, f, q', rfl, .refl, hcourse, hle, rfl, hq', hopen'⟩
    | nears hpt' => exact .inl ⟨ts, pt', q', k, hcourse, hq', hpt', hle⟩
  · obtain ⟨-, hreact, hafter⟩ := h.split
    have hrest : e.before.Leads (newer ++ [e]) w := (World.Leads.refl.next hreact).trans hafter
    refine .inr ⟨newer ++ [e], older, ts, e.before, f, p, ?_, hrest, hcourse, hle, hf, hp, hopen'⟩
    rw [List.append_assoc]
    rfl

end Approach

/-! ## Main statement -/

section Runs

variable {es later older : List (Episode ρ)} {w w₀ : World ρ} {t d i m : Nat} {p p₀ : Pool ρ}
  {e : Episode ρ} {pt : Point ρ} {u : Bool}

/-- A call that is to fill the reserve of the pool `i` has not looked at it yet, and stands at `pt`;
    `later` is what has happened since, in which it has had less than the `m` turns after which it
    does so at the latest. -/
structure FillAhead (u : Bool) (m t d i : Nat) (later : List (Episode ρ)) (w : World ρ)
    (pt : Point ρ) : Prop where
  callAt : w.callAt t d = some ⟨i, pt⟩
  going : answer? t d later = none
  near : ∃ q k, w.pools[i]? = some q ∧ pt.Nears q u k ∧ (turns t d later).length + k ≤ m
  bound : (turns t d later).length < m
  /-- It waits for nothing but the factory and the sink of reports. -/
  goesOn : pt.isRequest = false → (w.step t).isSome = true

/-- A call fills the reserve of the pool `i`, which was `p` when it began, and stands at `pt` after
    having made `j` objects; `later` is what has happened since. -/
structure FillGoesOn (p : Pool ρ) (f : Filler) (t d i : Nat) (later : List (Episode ρ))
    (w : World ρ) (j : Nat) (pt : Point ρ) : Prop where
  callAt : w.callAt t d = some ⟨i, pt⟩
  going : answer? t d later = none
  stage : ∃ q, w.pools[i]? = some q ∧ p.Filling f q j (deeds (turns t d later)) pt ∧
    p.WithinBounds q
  /-- It comes to its end, and waits for nothing but the factory. -/
  bound : (turns t d later).length ≤ 4 * p.shortfall
  goesOn : pt.isRequest = false → (w.step t).isSome = true
  alone : ∀ e ∈ turns t d later, e.LeavesAlone i p.entries.length

/-- Such a call has its last turn in the episode `e`, with the result `x`. -/
structure FillEnds (p : Pool ρ) (f : Filler) (t d i : Nat) (older : List (Episode ρ))
    (e : Episode ρ) (x : Except PoolError Nat) : Prop where
  tells : e.Tells t d i f x
  first : answer? t d older = none
  /-- What the factory has done tells the result, and what has become of the pool. If all went well,
      all that was lacking is there, which is the reserve unless there was no room for it. -/
  outcome : ∃ q, e.after.pools[i]? = some q ∧ p.Filled q (deeds (turns t d (e :: older))) x ∧
    p.WithinBounds q ∧ ∀ n, x = .ok n → n = p.shortfall ∧
      q.registry.idle.length = p.registry.idle.length + n ∧
      (q.config.minIdle ≤ q.registry.idle.length ∨ q.registry.total = q.config.maxTotal)
  notExhausted : ∀ d, x ≠ .error (.exhausted d)
  bound : (turns t d (e :: older)).length ≤ 4 * p.shortfall + 1
  alone : ∀ e' ∈ turns t d (e :: older), e'.LeavesAlone i p.entries.length

theorem World.Sound.total_le {g : Nat → List Nat} (hw : w.Sound g) (hp : w.pools[i]? = some p) :
    p.registry.total ≤ p.config.maxTotal := ((hw.pools i).agrees hp).within

theorem Refilling.fillGoesOn {g : Nat → List Nat} {ts : List (Episode ρ)} {a : Activity ρ} {j : Nat}
    {f : Filler} (h : Refilling p f i j ts w a) (hcourse : w₀.Course t d later ts w a)
    (hw : w₀.Sound g) (hp : p.Fillable) : FillGoesOn p f t d i later w j a.point := by
  obtain ⟨q, hq, hfills⟩ := h.stage
  obtain ⟨held, n, hbooks⟩ := hfills.restocked
  obtain ⟨hts, hnone⟩ := hcourse.turns_eq
  have hsound := hcourse.sound hw
  have hcall := hcourse.callAt hw
  refine ⟨?_, hnone, ⟨q, hq, hts.symm ▸ hfills, ?_⟩, ?_, fun hreq => ?_, hts.symm ▸ h.alone⟩
  · rw [hcall, ← h.pool]
  · exact hbooks.withinBounds hp hfills.le_shortfall (hsound.total_le hq)
  · rw [hts]
    exact Nat.le_trans h.turns hfills.fillTurns_le
  · refine hsound.step_isSome hcall hreq fun q' _ => ?_
    have hsupplies := hfills.supplies
    generalize a.point = pt at hsupplies hreq
    cases hsupplies with
    | asks => rfl
    | makes | checks | lays | fails => exact nomatch hreq

theorem RefillEnds.fillEnds {g : Nat → List Nat} {ts : List (Episode ρ)} {a : Activity ρ}
    {f : Filler} {x : Except PoolError Nat} (h : RefillEnds p f t d i ts e x)
    (hcourse : w₀.Course t d older ts e.before a) (hw : w₀.Sound g) (hp : p.Fillable)
    (hwithin : p.registry.total ≤ p.config.maxTotal)
    (hr : e.before.react e.event = some e.effect) : FillEnds p f t d i older e x := by
  obtain ⟨q, hq, hfilled⟩ := h.filled
  have hall := hcourse.turns_cons h.tells.finishes.1
  have hafter : e.after.Sound _ := ((World.Leads.refl.next hr).sound (hcourse.sound hw))
  refine ⟨h.tells, hcourse.turns_eq.2, ⟨q, hq, hall.symm ▸ hfilled, ?_, fun n => ?_⟩,
    hfilled.ne_exhausted, hall.symm ▸ h.turns, hall.symm ▸ h.alone⟩
  · exact hfilled.withinBounds hp (hafter.total_le hq)
  · exact hfilled.whole_eq hwithin

/-- In every run a call that is to fill the reserve of an open pool which nobody else calls comes to
    look at the reserve within `m` turns, at once if it stands there. From there on it makes what is
    lacking, as far as there is room, and ends with the number; or the factory refuses an object,
    and it ends with that error and keeps those that it has made before. -/
theorem reserve_replenished (h₀ : Run es w₀) (hp₀ : w₀.pools[i]? = some p₀)
    (hopen : p₀.closed = false) (ha : w₀.callAt t d = some ⟨i, pt⟩) (hpt : pt.ToFill p₀ u m)
    (h : Run (later ++ es) w) (hu : LeftAlone t d i later) :
    (∃ pt, FillAhead u m t d i later w pt) ∨
    ∃ newer older w₁ f p, later = newer ++ older ∧ Run (older ++ es) w₁ ∧
      answer? t d older = none ∧ (turns t d older).length ≤ m ∧ f.isUpkeep = u ∧
      w₁.callAt t d = some ⟨i, .filling f 0⟩ ∧ w₁.pools[i]? = some p ∧ p.closed = false ∧
      p.config = p₀.config ∧ ((∃ j pt, FillGoesOn p f t d i newer w j pt) ∨
        ∃ late e mid x, newer = late ++ e :: mid ∧ FillEnds p f t d i mid e x) := by
  have hleads := h₀.leads h
  rcases hleads.toFill h₀.sound ha hp₀ hpt hopen hu with
    ⟨ts, pt', q, k, hcourse, hq, hnears, hle⟩ |
      ⟨newer, older, ts, w₁, f, p, rfl, hfrom, hcourse, hle, hf, hp, hopen'⟩
  · obtain ⟨hts, hnone⟩ := hcourse.turns_eq
    have hcall := hcourse.callAt h₀.sound
    have hpos := hnears.pos
    rw [← hts] at hle
    refine .inl ⟨pt', hcall, hnone, ⟨q, k, hq, hnears, hle⟩, by omega, fun hreq => ?_⟩
    exact (hcourse.sound h₀.sound).step_isSome hcall hreq fun q _ => hnears.goesOn hreq q ..
  · -- from the first look on the call is followed to its end
    obtain ⟨hts, hnone⟩ := hcourse.turns_eq
    have h₁ : Run (older ++ es) w₁ := hcourse.leads.run h₀
    have hat := hcourse.callAt h₀.sound
    obtain ⟨p', hp', hconfig⟩ := hcourse.leads.config h₀.sound hp₀
    obtain rfl : p' = p := Option.some.inj (hp'.symm.trans hp)
    have hfillable := h₁.sound.fillable hp (h₁.valid hp) hopen'
    have hu' : LeftAlone t d i newer := fun x hx => hu x (List.mem_append_left _ hx)
    refine .inr ⟨newer, older, w₁, f, p', rfl, h₁, hnone, hts ▸ hle, hf, hat, hp, hopen', hconfig,
      ?_⟩
    rcases hfrom.refills h₁.sound hat hp hfillable hu' with
      ⟨ts, a, j, hcourse, hway⟩ | ⟨late, e, mid, ts, a, x, rfl, hcourse, hends⟩
    · exact .inl ⟨j, _, hway.fillGoesOn hcourse h₁.sound hfillable⟩
    · obtain ⟨-, hreact, -⟩ := hfrom.split
      exact .inr ⟨late, e, mid, x, rfl, hends.fillEnds hcourse h₁.sound hfillable
        (h₁.sound.total_le hp) hreact⟩

end Runs

/-- A round of upkeep begins on a pool that is to have two idle objects and has none. -/
def emptyReserveEvents : List (Event Nat) :=
  [.create { maxTotal := 3, minIdle := 2 }, .spawn, .begin 0 0 .maintain]

/-- One object is made, and another one that cannot be laid to rest. -/
def halfFilledEvents : List (Event Nat) :=
  emptyReserveEvents ++ [.step 0, .step 0, .step 0, .answer 0 (.created (.ok 7)),
    .answer 0 (.passivated 7 none), .step 0, .answer 0 (.created (.ok 8)),
    .answer 0 (.passivated 8 (some "no")), .answer 0 (.destroyed none)]

theorem reserve_replenished_by_half :
    ∃ p₀ q, Run (episodes emptyReserveEvents) (reached emptyReserveEvents) ∧
      (reached emptyReserveEvents).pools[0]? = some p₀ ∧ p₀.closed = false ∧
      (reached emptyReserveEvents).callAt 0 0 = some ⟨0, .upkeep⟩ ∧
      (Point.upkeep (ρ := Nat)).ToFill p₀ true 3 ∧
      Run ((episodes halfFilledEvents).take 9 ++ episodes emptyReserveEvents)
        (reached halfFilledEvents) ∧
      LeftAlone 0 0 0 ((episodes halfFilledEvents).take 9) ∧
      answer? 0 0 ((episodes halfFilledEvents).take 9) = some .done ∧
      (reached halfFilledEvents).pools[0]? = some q ∧ q.registry.idle = [0] ∧
      q.registry.total = 1 ∧
      ((∃ pt, FillAhead true 3 0 0 0 ((episodes halfFilledEvents).take 9)
          (reached halfFilledEvents) pt) ∨
      ∃ newer older w₁ f p, (episodes halfFilledEvents).take 9 = newer ++ older ∧
        Run (older ++ episodes emptyReserveEvents) w₁ ∧ answer? 0 0 older = none ∧
        (turns 0 0 older).length ≤ 3 ∧ f.isUpkeep = true ∧
        w₁.callAt 0 0 = some ⟨0, .filling f 0⟩ ∧ w₁.pools[0]? = some p ∧ p.closed = false ∧
        p.config = p₀.config ∧
        ((∃ j pt, FillGoesOn p f 0 0 0 newer (reached halfFilledEvents) j pt) ∨
          ∃ late e mid x, newer = late ++ e :: mid ∧ FillEnds p f 0 0 0 mid e x)) :=
  have h₀ : Run (episodes emptyReserveEvents) (reached emptyReserveEvents) := Run.of_events rfl
  have hall : Run (episodes halfFilledEvents) (reached halfFilledEvents) := Run.of_events rfl
  have h : Run ((episodes halfFilledEvents).take 9 ++ episodes emptyReserveEvents)
      (reached halfFilledEvents) := hall
  have hruns : ((episodes halfFilledEvents).take 9).all (·.runs 0 0) = true := by decide +kernel
  have hu : LeftAlone 0 0 0 ((episodes halfFilledEvents).take 9) :=
    fun e he _ _ _ => List.all_eq_true.mp hruns e he
  ⟨_, _, h₀, rfl, rfl, rfl, .nears (.tidies .begins), h, hu, by decide +kernel, rfl, rfl, rfl,
    reserve_replenished h₀ rfl rfl rfl (.nears (.tidies .begins)) h hu⟩

end ObjectPool
