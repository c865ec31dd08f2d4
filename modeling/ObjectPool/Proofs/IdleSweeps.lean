/-
  ObjectPool.Proofs.IdleSweeps

  What an idle sweep does from its first turn to its last. Which objects go is settled in the
  first turn, in closed form for each rule. After that, whatever the factory answers and whatever
  others do, each of them is destroyed once, and each of those that are to be tried out is readied,
  checked and laid to rest once at most. On a pool that nobody else calls those that pass are idle
  again, and no others.

    * `Pool.Evicts` — which objects go.
    * `Sifting` — a sweep on its way.
    * `Sifting.turn`, `Sifting.rests` — what it keeps.
    * `idle_swept` — the main statement.
-/

import ObjectPool.Proofs.Funerals
import ObjectPool.Proofs.Stretch.Sifting

namespace ObjectPool

variable {ρ : Type}

/-! ## Which objects go -/

/-- The idle objects returned longer ago than some time, the one idle for longest first. -/
def Pool.lingering (p : Pool ρ) (now : Instant) (timeout : Duration) : List Nat :=
  p.registry.idleOldestFirst.filter fun id => decide (timeout.nanos < (p.idleFor now id).nanos)

/-- Which objects the idle sweep of a pool evicts under each rule. -/
structure Pool.Evicts (p : Pool ρ) (now : Instant) (out : List Nat) : Prop where
  inOrder : out.Sublist p.registry.idleOldestFirst
  never : p.config.eviction = .never → out = []
  /-- Those older than the time to live, whatever the reserve. -/
  timeToLive : ∀ ttl, p.config.eviction = .timeToLive ttl → out =
    p.registry.idleOldestFirst.filter fun id => decide (ttl.nanos < (p.ageOf now id).nanos)
  /-- The first of those idle for too long, as many as there are idle objects beyond the reserve. -/
  idleTimeout : ∀ timeout, p.config.eviction = .idleTimeout timeout → out =
    (p.lingering now timeout).take
      (min (p.lingering now timeout).length (p.registry.idle.length - p.config.minIdle))
  /-- Those older than the time to live, and those idle for too long while more than the reserve are
      left after the evictions before them. -/
  combined : ∀ ttl timeout, p.config.eviction = .combined ttl timeout → ∀ pre id post,
    p.registry.idleOldestFirst = pre ++ id :: post →
      (id ∈ out ↔ ttl.nanos < (p.ageOf now id).nanos ∨
        (timeout.nanos < (p.idleFor now id).nanos ∧ p.config.minIdle <
          p.registry.idle.length - pre.countP fun x => decide (x ∈ out)))
  /-- The object that is looked at is counted, so that the count does not run out. -/
  counted : ∀ pre id post, p.registry.idleOldestFirst = pre ++ id :: post →
    (pre.countP fun x => decide (x ∈ out)) < p.registry.idle.length

theorem Pool.Sweepable.evicts {p : Pool ρ} (h : p.Sweepable p.registry.idle) (now : Instant) :
    p.Evicts now (p.culled now p.registry.idle.length p.registry.idleOldestFirst) := by
  have hlen := (Pool.idleOldestFirst_perm p.registry).length_eq
  have hids := h.oldestFirst.nodup
  unfold Pool.culled
  refine ⟨Eviction.culls_sublist .., fun hrule => ?_, fun ttl hrule => ?_, fun timeout hrule => ?_,
    fun ttl timeout hrule pre id post hsplit => ?_, fun pre id post hsplit => ?_⟩
  · rw [hrule]
    exact Eviction.culls_never ..
  · rw [hrule]
    exact Eviction.culls_timeToLive ..
  · rw [hrule, Eviction.culls_idleTimeout]
    exact (List.take_eq_take_min ..).trans (by rw [Nat.min_comm]; rfl)
  · rw [hrule]
    rw [hsplit] at hids ⊢
    rw [Eviction.mem_culls_iff hids]
    simp only [Eviction.evicts, Eviction.outstayed, Bool.or_eq_true, Bool.and_eq_true,
      decide_eq_true_eq]
  · rw [hsplit] at hlen ⊢
    exact Eviction.countP_culls_lt (Nat.le_of_eq hlen)

/-! ## A sweep on its way -/

namespace Stretch.Sifts

variable {p : Pool ρ} {σ σ' : Sieve} {s : Stretch ρ}

/-- What is sifted stays the same. -/
theorem parts (h : s.Sifts p σ σ') : σ'.removed ++ σ'.out = σ.removed ++ σ.out ∧
    σ'.tried.map Prod.fst ++ σ'.tests = σ.tried.map Prod.fst ++ σ.tests := by
  cases h with
  | rests => exact ⟨rfl, rfl⟩
  | removes id out next =>
    refine ⟨?_, rfl⟩
    rw [next]
    exact List.append_assoc ..
  | rejects id tests v n next | keeps id tests next =>
    refine ⟨rfl, ?_⟩
    rw [next]
    show (σ.tried ++ [_]).map Prod.fst ++ tests = _
    rw [List.map_append, List.append_assoc]
    rfl

/-- What goes, goes to be destroyed. -/
theorem buried (h : s.Sifts p σ σ') {id : Nat} (hid : id ∈ σ'.removed ++ σ'.failed) :
    id ∈ σ.removed ++ σ.failed ∨ id ∈ s.buried := by
  cases h with
  | rests => exact .inl hid
  | removes x out next hburied =>
    rw [hburied]
    rcases List.mem_append.mp hid with hid | hid
    · exact (List.mem_append.mp hid).imp_left (List.mem_append_left _)
    · exact .inl (List.mem_append_right _ hid)
  | rejects x tests v n next unkept shut hburied =>
    rw [hburied]
    rw [Sieve.failed_judge, if_neg unkept, ← List.append_assoc] at hid
    exact List.mem_append.mp hid
  | keeps x tests next =>
    rw [Sieve.failed_judge, if_pos rfl, List.append_nil] at hid
    exact .inl hid

/-- On an open pool nobody finds it closed. -/
theorem isOpen (h : s.Sifts p σ σ') (hopen : p.closed = false)
    (hs : ∀ x ∈ σ.tried, x.2 ≠ .shut) : ∀ x ∈ σ'.tried, x.2 ≠ .shut := by
  cases h with
  | rests | removes => exact hs
  | rejects id tests v n next unkept shut =>
    refine List.forall_mem_append.mpr ⟨hs, fun x hx hv => ?_⟩
    obtain rfl := List.mem_singleton.mp hx
    exact absurd (hopen.symm.trans (shut hv)) Bool.false_ne_true
  | keeps id tests next =>
    refine List.forall_mem_append.mpr ⟨hs, fun x hx hv => ?_⟩
    obtain rfl := List.mem_singleton.mp hx
    exact nomatch hv

end Stretch.Sifts

/-- A call that sweeps over the idle objects of the pool `i`, which was `p` when it began, has come
    so far; it evicts `out` and tries out `tests`. -/
structure Sifting (p : Pool ρ) (i : Nat) (out tests : List Nat) (σ : Sieve) (gs : List Nat)
    (ts : List (Episode ρ)) (a : Activity ρ) : Prop where
  pool : a.pool = i
  stage : SiftStage out.length σ a.point (deeds ts)
  evicted : σ.removed ++ σ.out = out
  tested : σ.tried.map Prod.fst ++ σ.tests = tests
  bound : ts.length + a.point.sweepLeft ≤ 2 * out.length + 5 * tests.length
  buried : ∀ id ∈ σ.removed ++ σ.failed, id ∈ gs

/-- What the pool has become if nobody else has called it. -/
def SiftedAlone (p : Pool ρ) (i : Nat) (out tests : List Nat) (σ : Sieve) (w : World ρ) : Prop :=
  (∃ q, w.pools[i]? = some q ∧ p.Sifted q out tests σ) ∧ ∀ x ∈ σ.tried, x.2 ≠ .shut

section Course

variable {later ts : List (Episode ρ)} {w w₀ : World ρ} {g : Nat → List Nat} {t d i : Nat}
  {a : Activity ρ} {p q : Pool ρ} {s : Stretch ρ} {e : Episode ρ} {out tests : List Nat}
  {σ : Sieve}

/-- What a turn of the sweep makes of it, unless the sweep was over before. -/
theorem Sifting.turn (h : Sifting p i out tests σ (graves later i) ts a)
    (hw : e.before.Sound g) (ht : e.IsTurn t d a q s) : a.point = .evicting [] [] out.length ∨
      ∃ σ' pt, s.next = .go pt ∧ s.Sifts q σ σ' ∧
        Sifting p i out tests σ' (graves (e :: later) i) (e :: ts) ⟨a.pool, pt⟩ := by
  rcases h.stage.turn (ht.weeds hw h.stage.inSweep) with
    hover | ⟨σ', pt, hnext, hstage, hleft, hsifts⟩
  · exact .inl hover
  · refine .inr ⟨σ', pt, hnext, hsifts, h.pool, ?_, hsifts.parts.1.trans h.evicted,
      hsifts.parts.2.trans h.tested, ?_, fun id hid => ?_⟩
    · rw [deeds_cons]
      exact hstage
    · have hbound := h.bound
      show (ts.length + 1) + pt.sweepLeft ≤ _
      omega
    · -- what has just been given up is in its grave
      rw [show graves (e :: later) i = e.buried i ++ graves later i from rfl]
      rcases hsifts.buried hid with hold | hnew
      · exact List.mem_append_right _ (h.buried id hold)
      · refine List.mem_append_left _ ?_
        rw [← h.pool, show e.buried a.pool = s.buried from ht.works.buried hw]
        exact hnew

/-- Others have no part in it. -/
theorem Sifting.rests (h : Sifting p i out tests σ (graves later i) ts a) (e : Episode ρ) :
    Sifting p i out tests σ (graves (e :: later) i) ts a :=
  ⟨h.pool, h.stage, h.evicted, h.tested, h.bound,
    fun id hid => List.mem_append_right _ (h.buried id hid)⟩

/-- A pool that nobody else calls counts nothing while the call rests, except for returns that
    belong to another pool. -/
theorem LeftAlone.counters (hu : LeftAlone t d i (e :: later))
    (hr : e.before.react e.event = some e.effect) (still : e.runs t d = false) :
    ∃ k, e.after.countersOf i = { e.before.countersOf i with invalidReturns := k } := by
  rcases World.react_opens hr with ⟨hopens, -⟩ | ⟨u, c, q, s, hworks⟩
  · cases hopens with
    | rests _ hc => exact ⟨_, hc i⟩
    | begins _ _ _ _ _ hc =>
      refine ⟨(e.after.countersOf i).invalidReturns, ?_⟩
      rw [show e.after.countersOf i = _ from hc i]
      split
      · rfl
      · rfl
  · have hother : c.pool ≠ i := fun hi =>
      absurd (still.symm.trans (hu e (.head _) c hworks.call hi)) Bool.false_ne_true
    exact ⟨_, (hworks.countersOf i).trans (if_neg hother)⟩

theorem SiftedAlone.rests (h : SiftedAlone p i out tests σ e.before)
    (hu : LeftAlone t d i (e :: later)) (hr : e.before.react e.event = some e.effect)
    (still : e.runs t d = false) : SiftedAlone p i out tests σ e.after := by
  obtain ⟨⟨q, hq, hsifted⟩, hshut⟩ := h
  obtain ⟨q', hq', hbooks, hstates⟩ := hu.states hr still hq
  obtain ⟨k, hk⟩ := hu.counters hr still
  rw [World.countersOf_eq hq, World.countersOf_eq hq'] at hk
  exact ⟨⟨q', hq', hsifted.of_same hbooks.config hbooks.registry hstates ⟨k, hk⟩⟩, hshut⟩

theorem SiftedAlone.turn {σ' : Sieve} (h : SiftedAlone p i out tests σ e.before) (hi : a.pool = i)
    (hopen : p.closed = false) (hp : p.Sweepable tests) (hout : ∀ x ∈ tests, x ∉ out)
    (hall : σ.tried.map Prod.fst ++ σ.tests = tests) (ht : e.IsTurn t d a q s)
    (hs : s.Sifts q σ σ') : SiftedAlone p i out tests σ' e.after := by
  obtain ⟨⟨q₀, hq₀, hsifted⟩, hshut⟩ := h
  obtain rfl : q₀ = q := Option.some.inj (hq₀.symm.trans (hi ▸ ht.works.pool))
  have hnext := hsifted.next hp hout hall hs
  obtain ⟨q', hq', hsame⟩ := ht.pools
  refine ⟨⟨q', hi ▸ hq', ?_⟩, hs.isOpen (hsifted.closed.trans hopen) hshut⟩
  rcases hsame with rfl | rfl
  · exact hnext
  · exact hnext.of_same rfl rfl (fun _ => rfl) ⟨_, rfl⟩

/-- A sweep that has begun is followed to its end. -/
theorem World.Leads.sifts (h : w₀.Leads later w) (hw : w₀.Sound g)
    (ha : w₀.callAt t d = some ⟨i, .evicting out tests out.length⟩) (hq : w₀.pools[i]? = some q)
    (hopen : p.closed = false) (hp : p.Sweepable tests) (hout : ∀ x ∈ tests, x ∉ out)
    (hculled : p.Culled q out tests) :
    ∃ newer older w₁ ts a σ, later = newer ++ older ∧ w₁.Leads newer w ∧
      w₀.Course t d older ts w₁ a ∧ Sifting p i out tests σ (graves older i) ts a ∧
      (LeftAlone t d i older → SiftedAlone p i out tests σ w₁) ∧
      (newer = [] ∨ a.point = .evicting [] [] out.length) := by
  have hstart : Sifting p i out tests { out, tests } [] []
      (⟨i, .evicting out tests out.length⟩ : Activity ρ) :=
    ⟨rfl, .between (.inr rfl), rfl, rfl, by simp [Point.sweepLeft], List.forall_mem_nil _⟩
  -- the call is followed up to the turn with which it leaves the sweep
  rcases h.follow (fun older ts w a => ∃ σ, Sifting p i out tests σ (graves older i) ts a ∧
      (LeftAlone t d i older → SiftedAlone p i out tests σ w))
    (fun older ts e a => a.point = .evicting [] [] out.length ∧
      ∃ σ, Sifting p i out tests σ (graves older i) ts a ∧
        (LeftAlone t d i older → SiftedAlone p i out tests σ e.before)) hw ha
    ⟨_, hstart, fun _ => ⟨⟨q, hq, hculled.sifted⟩, List.forall_mem_nil _⟩⟩
    (fun {older ts e a} _ _ hr still hway => by
      obtain ⟨σ, hsift, halone⟩ := hway
      exact ⟨σ, hsift.rests e, fun hu => (halone hu.tail).rests hu hr still⟩)
    (fun {older ts e a q s} hcourse _ hturn hway => by
      obtain ⟨σ, hsift, halone⟩ := hway
      rcases hsift.turn (hcourse.sound hw) hturn with hover | ⟨σ', pt, hnext, hsifts, hsift'⟩
      · exact .inr ⟨hover, σ, hsift, halone⟩
      · exact .inl ⟨pt, hnext, σ', hsift', fun hu => (halone hu.tail).turn hsift.pool hopen hp hout
          hsift.tested hturn hsifts⟩) with
    ⟨ts, a, hcourse, σ, hsift, halone⟩ |
      ⟨newer, e, older, ts, a, rfl, hcourse, hover, σ, hsift, halone⟩
  · exact ⟨[], later, w, ts, a, σ, rfl, .refl, hcourse, hsift, halone, .inl rfl⟩
  · obtain ⟨-, hreact, hafter⟩ := h.split
    have hrest : e.before.Leads (newer ++ [e]) w := (World.Leads.refl.next hreact).trans hafter
    refine ⟨newer ++ [e], older, e.before, ts, a, σ, ?_, hrest, hcourse, hsift, halone, .inr hover⟩
    rw [List.append_assoc]
    rfl

end Course

/-! ## Main statement -/

section Runs

variable {es later : List (Episode ρ)} {w w₀ : World ρ} {t d i : Nat} {p : Pool ρ} {f : Effect ρ}

/-- How far the idle sweep of a call on the pool `i` has come, which was `p` when the call began and
    evicts `out` and tries out `tests`; `es` is what happened before, and `later` since then. -/
structure SweepsIdle (es : List (Episode ρ)) (t d i : Nat) (p : Pool ρ) (out tests : List Nat)
    (later : List (Episode ρ)) (w : World ρ) (pt : Point ρ) (σ : Sieve) : Prop where
  callAt : w.callAt t d = some ⟨i, pt⟩
  going : answer? t d later = none
  evicted : σ.removed ++ σ.out = out
  tested : σ.tried.map Prod.fst ++ σ.tests = tests
  /-- What the factory has done for the call is what the sieve says, and where the call stands fits
      it. -/
  stage : SiftStage out.length σ pt (deeds (turns t d later))
  /-- The sweep comes to its end in so many turns, and waits for nothing but the factory. -/
  bound : (turns t d later).length + pt.sweepLeft ≤ 2 * out.length + 5 * tests.length
  goesOn : pt.isRequest = false → (w.step t).isSome = true
  /-- Each object that was evicted or tried out and not kept is destroyed by nobody but this call,
      and out of circulation for good. -/
  gone : ∀ id ∈ σ.removed ++ σ.failed, ∃ q, w.pools[i]? = some q ∧ q.stateOf id = .invalid ∧
    id ∉ q.registry.tracked ∧ (graves (later ++ es) i).count id = 1
  /-- If nobody else has called the pool, its books, the states of all objects and its counters are
      what the sieve says, and those that pass their trial are kept. -/
  alone : LeftAlone t d i later →
    (∃ q, w.pools[i]? = some q ∧ p.Sifted q out tests σ) ∧ ∀ x ∈ σ.tried, x.2 ≠ .shut

/-- A sweep that is over has gone through all its objects. -/
theorem SiftStage.atEnd {n : Nat} {σ : Sieve} {ds : List Deed}
    (h : SiftStage n σ (.evicting (ρ := ρ) [] [] n) ds) :
    σ.out = [] ∧ σ.tests = [] ∧ ds = σ.deeds := by
  generalize hpt : Point.evicting (ρ := ρ) [] [] n = pt at h
  cases h with
  | between =>
    obtain ⟨hout, htests, -⟩ := Point.evicting.inj hpt
    exact ⟨hout.symm, htests.symm, rfl⟩
  | given | readied | checked | rested => exact nomatch hpt

/-- In every run the idle sweep of an open pool evicts exactly the objects that its rule says. Each
    of them is destroyed once, and each of those that are to be tried out is readied, checked and
    laid to rest once at most; it is idle again if it passes. -/
theorem idle_swept (h₀ : Run es w₀) (ha : w₀.callAt t d = some ⟨i, .upkeep⟩)
    (hp : w₀.pools[i]? = some p) (hopen : p.closed = false) (hr : w₀.react (.step t) = some f)
    (h : Run (later ++ ⟨w₀, .step t, f⟩ :: es) w) :
    ∃ out q, p.Evicts w₀.now out ∧ f.world.pools[i]? = some q ∧
      p.Culled q out (p.tried out p.registry.idleOldestFirst) ∧
      ∃ newer older w₁ pt σ, later = newer ++ older ∧ w₁.Leads newer w ∧
        SweepsIdle (⟨w₀, .step t, f⟩ :: es) t d i p out (p.tried out p.registry.idleOldestFirst)
          older w₁ pt σ ∧
        (newer = [] ∨ pt = .evicting [] [] out.length ∧ σ.removed = out ∧
          σ.tried.map Prod.fst = p.tried out p.registry.idleOldestFirst ∧
          deeds (turns t d older) = σ.deeds) := by
  have hw := h₀.sound
  have hsweep := ((hw.pools i).agrees hp).sweepable
  obtain ⟨q, hevict, hculled⟩ := hsweep.evict w₀.now
  generalize hout : p.culled w₀.now p.registry.idle.length p.registry.idleOldestFirst = out
    at hevict hculled
  have hevicts : p.Evicts w₀.now out := hout ▸ hsweep.evicts w₀.now
  -- the first turn settles what goes
  obtain ⟨p', s, hturn⟩ := hw.turn_of_step ha rfl hr
  obtain rfl : p = p' := Option.some.inj (hp.symm.trans hturn.works.pool)
  have hs : s = q.go (.evicting out (p.tried out p.registry.idleOldestFirst) out.length) := by
    rcases hturn.works.runs with ⟨-, hadv⟩ | ⟨r, hev, -⟩
    · rw [← hevict]
      refine (Option.some.inj hadv).symm.trans ?_
      exact if_neg (Bool.eq_false_iff.mp hopen)
    · exact nomatch hev
  have hnext : s.next = .go (.evicting out (p.tried out p.registry.idleOldestFirst) out.length) :=
    congrArg Stretch.next hs
  have hat := (hturn.goesOn hnext).2
  have hpool : ∃ q', f.world.pools[i]? = some q' ∧
      p.Culled q' out (p.tried out p.registry.idleOldestFirst) := by
    obtain ⟨q', hq', rfl | rfl⟩ := hturn.pools
    · exact ⟨_, hq', hs ▸ hculled⟩
    · exact ⟨_, hq', hs ▸ ⟨hculled.config, hculled.counters, hculled.closed, hculled.active,
        hculled.creating, hculled.tracked, hculled.idle, hculled.states⟩⟩
  obtain ⟨q', hq', hculled'⟩ := hpool
  -- from there on the call is followed
  have h₁ : Run (⟨w₀, .step t, f⟩ :: es) f.world := h₀.next hr
  obtain ⟨newer, older, w₁, ts, a, σ, rfl, hrest, hcourse, hsift, halone, hover⟩ :=
    (h₁.leads h).sifts h₁.sound hat hq' hopen
      (hsweep.oldestFirst.of_sublist (Pool.tried_sublist p out _))
      (fun x hx => Pool.not_mem_of_mem_tried hx) hculled'
  have hsound := hcourse.sound h₁.sound
  have hcall := hcourse.callAt h₁.sound
  obtain ⟨hts, hnone⟩ := hcourse.turns_eq
  obtain ⟨i', pt⟩ := a
  obtain rfl : i' = i := hsift.pool
  refine ⟨out, q', hevicts, hq', hculled', newer, older, w₁, pt, σ, rfl, hrest,
    ⟨hcall, hnone, hsift.evicted, hsift.tested, hts.symm ▸ hsift.stage, hts.symm ▸ hsift.bound,
      fun hreq => ?_, fun id hid => ?_, halone⟩, hover.imp_right fun hpt => ?_⟩
  · exact hsound.step_isSome hcall hreq fun q _ =>
      hsift.stage.goesOn hreq q w₁.now t w₁.hasEnded
  · rw [graves_append]
    exact (hsound.pools i').gone (List.mem_append_left _ (hsift.buried id hid))
  · obtain rfl : pt = _ := hpt
    obtain ⟨hnoout, hnotests, hdeeds⟩ := hsift.stage.atEnd
    have hevicted := hsift.evicted
    have htested := hsift.tested
    rw [hnoout, List.append_nil] at hevicted
    rw [hnotests, List.append_nil] at htested
    exact ⟨rfl, hevicted, htested, hts.symm ▸ hdeeds⟩

end Runs

/-- Three objects of a pool with a reserve of two have been idle for too long, and a round of upkeep
    begins. -/
def idlingEvents : List (Event Nat) :=
  [.create { maxTotal := 3, minIdle := 2, testWhileIdle := true, eviction := .idleTimeout ⟨10⟩ },
    .spawn,
    .begin 0 0 (.borrow none "first"), .step 0, .step 0, .answer 0 (.created (.ok 7)),
    .answer 0 (.activated 7 none),
    .begin 0 0 (.borrow none "second"), .step 0, .step 0, .answer 0 (.created (.ok 8)),
    .answer 0 (.activated 8 none),
    .begin 0 0 (.borrow none "third"), .step 0, .step 0, .answer 0 (.created (.ok 9)),
    .answer 0 (.activated 9 none),
    .giveBack 0 0 0, .step 0, .answer 0 (.passivated 7 none),
    .giveBack 0 0 1, .step 0, .answer 0 (.passivated 8 none),
    .giveBack 0 0 2, .step 0, .answer 0 (.passivated 9 none), .tick ⟨20⟩,
    .begin 0 0 .maintain]

/-- One of them is evicted, one fails its trial, and one passes. -/
def siftedEvents : List (Event Nat) :=
  idlingEvents ++ [.step 0, .step 0, .answer 0 (.destroyed none),
    .step 0, .answer 0 (.activated 8 none), .answer 0 (.validated false),
    .answer 0 (.destroyed none), .step 0, .answer 0 (.activated 9 none),
    .answer 0 (.validated true), .answer 0 (.passivated 9 none)]

theorem idle_swept_of_three :
    ∃ p f later, Run (episodes idlingEvents) (reached idlingEvents) ∧
      (reached idlingEvents).callAt 0 0 = some ⟨0, .upkeep⟩ ∧
      (reached idlingEvents).pools[0]? = some p ∧ p.closed = false ∧
      (reached idlingEvents).react (.step 0) = some f ∧
      Run (later ++ ⟨reached idlingEvents, .step 0, f⟩ :: episodes idlingEvents)
        (reached siftedEvents) ∧
      deeds (turns 0 0 later) = [.destroyed 0 .normal, .readied 1 none, .checked 1 false,
        .destroyed 1 .normal, .readied 2 none, .checked 2 true, .laidToRest 2 none] ∧
      ∃ out q, p.Evicts (reached idlingEvents).now out ∧ f.world.pools[0]? = some q ∧
        p.Culled q out (p.tried out p.registry.idleOldestFirst) ∧
        ∃ newer older w₁ pt σ, later = newer ++ older ∧ w₁.Leads newer (reached siftedEvents) ∧
          SweepsIdle (⟨reached idlingEvents, .step 0, f⟩ :: episodes idlingEvents) 0 0 0 p out
            (p.tried out p.registry.idleOldestFirst) older w₁ pt σ ∧
          (newer = [] ∨ pt = .evicting [] [] out.length ∧ σ.removed = out ∧
            σ.tried.map Prod.fst = p.tried out p.registry.idleOldestFirst ∧
            deeds (turns 0 0 older) = σ.deeds) :=
  have h₀ : Run (episodes idlingEvents) (reached idlingEvents) := Run.of_events rfl
  have hall : Run (episodes siftedEvents) (reached siftedEvents) := Run.of_events rfl
  have h : Run ((episodes siftedEvents).take 10 ++ ⟨reached idlingEvents, .step 0, _⟩ ::
    episodes idlingEvents) (reached siftedEvents) := hall
  ⟨_, _, _, h₀, rfl, rfl, rfl, rfl, h, by decide +kernel, idle_swept h₀ rfl rfl rfl rfl h⟩

end ObjectPool
