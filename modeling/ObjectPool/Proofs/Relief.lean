/-
  ObjectPool.Proofs.Relief

  A borrow that looks for overdue objects first does not wait if there are any. Each object that it
  takes from another borrower leaves room for a new one. So it gets an object, unless the factory
  refuses to make one or the new one is not fit, whatever the timeout of the borrow is and whether
  or not the pool lets borrowers wait.

    * `Pool.Serves` — how a borrow can end that neither waits nor gives up.
    * `Outcome.serves` — if a borrow has taken something from others, it ends like this.
    * `Fares` — such a borrow is on its way, or it is over.
    * `World.Sound.sweeps_first` — the first turn of such a borrow.
    * `borrow_relieved_by_overdue` — the main statement.
-/

import ObjectPool.Proofs.Borrowing
import ObjectPool.Proofs.Ownership
import ObjectPool.Proofs.Seizures

namespace ObjectPool

variable {ρ : Type}

/-! ## What such a borrow comes to -/

namespace Pool

/-- How a borrow from the pool `p₀` ends that neither waits nor gives up, with the idle objects `R`
    refused before: with the first of the others, with a new object if there are no others, or with
    the error that the factory or a check has met with a new object. The factory has done `ds` for
    it since it looked for the first time. -/
inductive Serves (p₀ : Pool ρ) (R : List (Nat × Refusal)) : Reply → List Deed → Prop
  | idle {id : Nat} {rest : List Nat} (first : p₀.registry.idle = R.map (·.1) ++ id :: rest) :
      Serves p₀ R (.lent id) (R.flatMap turnedDown ++ accepted p₀.config false id)
  | made {id : Nat} (all : p₀.registry.idle = R.map (·.1)) (new : p₀.entries.length ≤ id) :
      Serves p₀ R (.lent id) (R.flatMap turnedDown ++ .made none :: accepted p₀.config true id)
  | unmade (reason : String) (all : p₀.registry.idle = R.map (·.1)) :
      Serves p₀ R (.failed (.factory .create reason))
        (R.flatMap turnedDown ++ [.made (some reason)])
  | unfit {id : Nat} (r : Refusal) (all : p₀.registry.idle = R.map (·.1))
      (new : p₀.entries.length ≤ id) :
      Serves p₀ R (.failed r.error) (R.flatMap turnedDown ++ .made none :: turnedDown (id, r))

variable {p₀ p : Pool ρ} {S : List Nat} {R : List (Nat × Refusal)} {next : Next ρ} {hl : Haul}
  {ds : List Deed} {ℓ : Ledger ρ} {now : Instant} {timeout : Duration} {id : Nat}

theorem Outcome.serves_of_not_inVain (h : p₀.Outcome S R next hl ds) (hf : hl.From p₀ p)
    (hopen : p₀.closed = false) (hvain : next.inVain = false) :
    ∃ r, next = .finish r ∧ p₀.Serves R r ds := by
  cases h with
  | lent refuses => exact ⟨_, rfl, .idle hf.idle⟩
  | made out new => exact ⟨_, rfl, .made out.all new⟩
  | unmade reason out => exact ⟨_, rfl, .unmade reason out.all⟩
  | unfit r out new fair => exact ⟨_, rfl, .unfit r out.all new⟩
  | shut fair closed => exact nomatch hopen.symm.trans closed
  | givesUp | waits => exact nomatch hvain

/-- A pool is not full once something was taken from it. -/
theorem Sound.room_of_taken (h : p₀.Sound ℓ) (hid : id ∈ p₀.registry.tracked) (hS : id ∈ S) :
    (p₀.registry.tracked.filter (· ∉ S)).length < p₀.config.maxTotal := by
  have hwithin : p₀.registry.tracked.length + p₀.registry.creating ≤ p₀.config.maxTotal :=
    h.capacity ▸ h.books.within
  have hless : (p₀.registry.tracked.filter (· ∉ S)).length < p₀.registry.tracked.length :=
    List.length_filter_lt_length_iff_exists.mpr ⟨id, hid, by simpa using hS⟩
  omega

/-- A borrow that nobody is in line before and that has taken something from others neither waits
    nor gives up. -/
theorem Outcome.serves (h : p₀.Outcome S R next hl ds) (hf : hl.From p₀ p) (h₀ : p₀.Sound ℓ)
    (hopen : p₀.closed = false) (hqueue : p₀.registry.line.queue = [])
    (hcreating : p₀.registry.creating = 0) (hid : id ∈ p₀.registry.tracked) (hS : id ∈ S) :
    ∃ r, next = .finish r ∧ p₀.Serves R r ds := by
  refine h.serves_of_not_inVain hf hopen (Bool.eq_false_iff.mpr fun hvain => ?_)
  -- it would have found the pool full
  have hfull := ((h.inVain_iff hf h₀ hopen hqueue hcreating).mp hvain).2
  exact absurd (h₀.room_of_taken hid hS) (hfull ▸ Nat.lt_irrefl _)

/-- What is lent and in nobody's charge is allocated, so that it is overdue as soon as nobody has
    worked on it for long enough. -/
theorem Sound.isAbandoned_iff_unused (h : p₀.Sound ℓ) (hcharges : ℓ.charges = [])
    (hid : id ∈ p₀.registry.active) : p₀.isAbandoned now timeout id = true ↔
      p₀.isHeld id = false ∧ timeout.nanos < (p₀.unusedFor now id).nanos := by
  have htracked : id ∈ p₀.registry.tracked := (h.active_listed id).2 hid
  have hallocated : p₀.isIn id .allocated = true := by
    have hlegal := h.objects id
    have hactive : 0 < (p₀.position ℓ id).active := List.count_pos_iff.mpr hid
    have hnone : (p₀.position ℓ id).charges = [] := by
      show claims id ℓ.charges = []
      rw [hcharges]
      rfl
    obtain ⟨x, hx⟩ := hlegal.loan_of_active hactive hnone
    rw [isIn_eq_shape?]
    show (p₀.position ℓ id).shape.any _ = true
    rcases hlegal.of_loan hx with ⟨r, -, hv⟩ | ⟨s, hs, hreclaimed, -⟩
    · rw [hv]
      rfl
    · -- what was taken back is not listed as lent
      obtain ⟨s', hs', hstate⟩ := hlegal.shape_of_active hactive
      obtain rfl := Option.some.inj (hs.symm.trans hs')
      rcases hstate with hstate | hstate
      · rw [hstate] at hreclaimed
        exact nomatch hreclaimed
      · rw [hstate] at hreclaimed
        exact nomatch hreclaimed
  unfold isAbandoned
  simp [htracked, hallocated, and_comm]

end Pool

/-! ## One turn after the other -/

/-- How a borrow fares that found the pool `i` at `p₀` and has taken `n` objects from others, after
    the episodes `later`, the first of which was its first turn. -/
inductive Fares (p₀ : Pool ρ) (t d i n : Nat) (later : List (Episode ρ)) (w : World ρ) : Prop
  /-- It is on its way, and waits neither in line nor for anything else but the factory. -/
  | underway {pt : Point ρ} (stands : w.callAt t d = some ⟨i, pt⟩)
      (notInLine : ∀ b x, pt ≠ .waiting b x) (unanswered : answer? t d later = none)
      (bound : (turns t d later).length ≤ 3 * n + 4 * p₀.registry.idle.length + 6)
      (goesOn : pt.isRequest = false → (w.step t).isSome = true) : Fares p₀ t d i n later w
  /-- It is over. -/
  | ended {newer older : List (Episode ρ)} {e : Episode ρ} {r : Reply}
      {R : List (Nat × Refusal)} {pre ds : List Deed} (split : later = newer ++ e :: older)
      (unanswered : answer? t d older = none) (ends : e.Finishes t d i r)
      (serves : p₀.Serves R r ds) (done : deeds (turns t d (e :: older)) = pre ++ ds)
      (first : ∀ x ∈ pre, x.isSweep = true)
      (bound : (turns t d (e :: older)).length ≤ 3 * n + 4 * p₀.registry.idle.length + 7) :
      Fares p₀ t d i n later w

section Course

variable {later : List (Episode ρ)} {w w₀ : World ρ} {g : Nat → List Nat} {t d i id : Nat}
  {p₀ q : Pool ρ} {e : Episode ρ} {b : Borrowing} {S : List Nat}

/-- If a call runs in the first of some episodes, that is its first turn. -/
theorem getLast?_turns (hlast : later.getLast? = some e) (hruns : e.runs t d = true) :
    (turns t d later).getLast? = some e := by
  induction later with
  | nil => exact nomatch hlast
  | cons x later ih =>
    cases later with
    | nil =>
      obtain rfl : x = e := Option.some.inj hlast
      rw [(answer?_of_runs (rfl : answer? t d [] = none) hruns).2]
      rfl
    | cons y later =>
      have hrest := ih (List.getLast?_cons_cons.symm.trans hlast)
      rw [turns]
      split
      · rw [List.getLast?_cons, hrest]
        rfl
      · exact hrest

/-- What a borrow takes from others is what it has found overdue in its first turn. -/
theorem Swept.eq_overdue {ts : List (Episode ρ)} (h : Swept i ts S)
    (hlast : ts.getLast? = some e) (hq : e.before.pools[i]? = some q) :
    S = q.overdue e.before.now := by
  obtain ⟨x, q', hx, hq', hS⟩ := h
  obtain rfl := Option.some.inj (hx.symm.trans hlast)
  obtain rfl := Option.some.inj (hq'.symm.trans hq)
  exact hS

/-- If no other call is on an open pool, a borrow that takes something from others in its first turn
    neither waits nor gives up. -/
theorem World.Leads.fares (h : w₀.Leads later w) (hw : w₀.Sound g)
    (ha : w₀.callAt t d = some ⟨i, .borrow b⟩) (hp : w₀.pools[i]? = some p₀)
    (hopen : p₀.closed = false) (hsole : w₀.points i = [.borrow b]) (hu : LeftAlone t d i later)
    (hlast : later.getLast? = some e) (hbefore : e.before = w₀) (hruns : e.runs t d = true)
    (hS : S = p₀.overdue w₀.now) (hid : id ∈ p₀.registry.tracked) (hmem : id ∈ S) :
    Fares p₀ t d i S.length later w := by
  subst hbefore
  have hsound := (hw.pools i).sound p₀ hp
  obtain ⟨hqueue, hcreating⟩ := hw.sole hp hsole
  rcases h.pursues hw ha hp hu with ⟨ts, a, S', R, hcourse, hpursues⟩ |
      ⟨newer, x, older, ts, a, S', R, next, rfl, hcourse, hout⟩
  · obtain ⟨hts, hnone⟩ := hcourse.turns_eq
    have hat := hcourse.callAt hw
    have hgo := hpursues.goesOn (hcourse.sound hw) hat
    have hfirst : ts.getLast? = some e := hts ▸ getLast?_turns hlast hruns
    obtain ⟨i', pt⟩ := a
    obtain rfl : i' = i := hpursues.pool
    -- it has had its first turn, so that it has taken what was overdue then
    obtain rfl : S' = S := by
      rcases hpursues.swept with ⟨-, rfl⟩ | ⟨-, hswept⟩
      · exact nomatch hfirst
      · exact (hswept.eq_overdue hfirst hp).trans hS.symm
    obtain ⟨p, hl, pre, ds, -, hfrom, hstage, -⟩ := hpursues.stage
    have hle := hfrom.refused_le hstage.refused
    have hturns : ts.length + pt.ahead ≤ 3 * S'.length + 4 * R.length + pt.spent := hpursues.turns
    have hspent := pt.spent_le
    refine .underway hat (fun b x hpt => ?_) hnone (by rw [hts]; omega) hgo
    have hline := hstage.quests.2
    rw [show pt = .waiting b x from hpt] at hline
    exact nomatch hline
  · obtain ⟨hts, hnone⟩ := hcourse.turns_eq
    obtain ⟨p, hl, pre, ds, -, hfrom, houtcome, hdeeds, hpre⟩ := hout.outcome
    have hall := hcourse.turns_cons hout.comes.runs
    have hfirst : (x :: ts).getLast? = some e := by
      refine hall ▸ getLast?_turns ?_ hruns
      rw [← hlast, List.getLast?_append_of_ne_nil _ (List.cons_ne_nil x older)]
    obtain rfl : S' = S := (hout.swept.eq_overdue hfirst hp).trans hS.symm
    obtain ⟨r, rfl, hserves⟩ :=
      houtcome.serves hfrom hsound hopen hqueue hcreating hid hmem
    have hle := hfrom.refused_le houtcome.refused
    have hturns := hout.turns
    refine .ended rfl hnone hout.comes hserves (hall.symm ▸ hdeeds) hpre ?_
    rw [hall]
    omega

end Course

/-! ## The first turn -/

/-- What the first turn of a borrow on the pool `i` takes from other borrowers, the list `xs`, and
    the pool `q` that it leaves of `p₀`. -/
structure ReclaimsFirst (w₀ : World ρ) (t d i : Nat) (b : Borrowing) (p₀ : Pool ρ)
    (timeout : Duration) (f : Effect ρ) (q : Pool ρ) (xs : List (Reclaimed ρ)) : Prop where
  react : w₀.react (.step t) = some f
  seizes : p₀.Seizes w₀.now timeout q xs
  /-- It takes every lent object that nobody works on and that went unused for too long. -/
  all : ∀ id, id ∈ objects xs ↔ id ∈ p₀.registry.active ∧ p₀.isHeld id = false ∧
    timeout.nanos < (p₀.unusedFor w₀.now id).nanos
  pool : f.world.pools[i]? = some q
  /-- Before it looks for an object it has to go through what it has taken. -/
  stands : f.world.callAt t d = some ⟨i, .reclaiming xs xs.length (.borrow b)⟩

section Runs

variable {es : List (Episode ρ)} {w w₀ : World ρ} {g : Nat → List Nat} {t d i : Nat}
  {b : Borrowing} {p₀ p : Pool ρ} {a : Abandonment} {pt : Point ρ} {s : Stretch ρ}

/-- A call that waits for nobody goes on as its pool says. -/
theorem World.Sound.step_eq (hw : w.Sound g) (ha : w.callAt t d = some ⟨i, pt⟩)
    (hreq : pt.isRequest = false) (hp : w.pools[i]? = some p)
    (hs : p.advance w.now t w.hasEnded pt = some s) : w.step t = some (w.apply t i s) := by
  obtain ⟨th, rest, hth, hst⟩ := World.top?_eq_some (hw.nested.top?_of_callAt ha hreq)
  simp only [World.step, hth, hst, hp, hs, Option.bind_eq_bind, Option.bind_some]
  rfl

/-- A call on a pool on which there is no other has no object in its charge if it is a borrow that
    has just begun. -/
theorem World.Sound.isAbandoned_iff_of_sole {id : Nat} {timeout : Duration} (hw : w₀.Sound g)
    (hp : w₀.pools[i]? = some p₀) (hsole : w₀.points i = [.borrow b])
    (hid : id ∈ p₀.registry.active) : p₀.isAbandoned w₀.now timeout id = true ↔
      p₀.isHeld id = false ∧ timeout.nanos < (p₀.unusedFor w₀.now id).nanos := by
  refine ((hw.pools i).sound p₀ hp).isAbandoned_iff_unused ?_ hid
  rw [hsole]
  rfl

/-- The first turn of a borrow that looks for overdue objects. -/
theorem World.Sound.reclaimsFirst (hw : w₀.Sound g) (ha : w₀.callAt t d = some ⟨i, .borrow b⟩)
    (hp : w₀.pools[i]? = some p₀) (hopen : p₀.closed = false)
    (hsole : w₀.points i = [.borrow b]) (hset : p₀.config.abandonment = some a)
    (hon : a.onBorrow = true) (htrigger : a.trigger p₀.status = true) :
    ∃ f q xs, ReclaimsFirst w₀ t d i b p₀ a.timeout f q xs ∧ p₀.overdue w₀.now = objects xs := by
  have hsound := (hw.pools i).sound p₀ hp
  have hlooks : (a.onBorrow && !p₀.closed && a.trigger p₀.status) = true := by
    rw [hon, hopen, htrigger]
    rfl
  have hs : p₀.advance w₀.now t w₀.hasEnded (.borrow b) =
      some (p₀.sweep w₀.now a (.borrow b)) := by
    show some (p₀.borrow w₀.now b) = _
    rw [Pool.borrow, hset]
    exact congrArg some (if_pos hlooks)
  have hseizes := hsound.seizes w₀.now a.timeout (.refl p₀.registry.active)
  obtain ⟨-, hland, hat⟩ := hw.passOver ha hp rfl a (.borrow b) p₀.registry.active
  refine ⟨_, _, _, ⟨hw.step_eq ha rfl hp hs, hseizes, fun id => ?_, hland, hat⟩, ?_⟩
  · -- what the pass takes is what is overdue, and every lent object is tracked
    rw [hseizes.exact]
    refine and_congr_right fun hid => ?_
    rw [← hw.isAbandoned_iff_of_sole hp hsole hid]
    exact (Pool.isAbandoned_iff ((hsound.active_listed id).2 hid)).symm
  · rw [Pool.overdue, hset]
    exact if_pos hlooks

/-! ## Main statement -/

/-- If a borrow on an open pool looks for overdue objects and no other call is on the pool, it takes
    all of them from their borrowers and destroys them before it looks for an object. If there was
    any, it neither waits nor gives up then: it gets an object, or meets with an error of the
    factory or of a check over a new one. -/
theorem borrow_relieved_by_overdue (h₀ : Run es w₀)
    (ha : w₀.callAt t d = some ⟨i, .borrow b⟩) (hp : w₀.pools[i]? = some p₀)
    (hopen : p₀.closed = false) (hsole : w₀.points i = [.borrow b])
    (hset : p₀.config.abandonment = some a) (hon : a.onBorrow = true)
    (htrigger : a.trigger p₀.status = true)
    (hdue : ∃ id ∈ p₀.registry.active, p₀.isHeld id = false ∧
      a.timeout.nanos < (p₀.unusedFor w₀.now id).nanos) :
    ∃ f q xs, ReclaimsFirst w₀ t d i b p₀ a.timeout f q xs ∧
      ∀ later w, Run (later ++ ⟨w₀, .step t, f⟩ :: es) w → LeftAlone t d i later →
        Progress t d i p₀.config.reports xs xs.length (.borrow b) later w ∧
          Fares p₀ t d i xs.length (later ++ [⟨w₀, .step t, f⟩]) w := by
  have hw := h₀.sound
  obtain ⟨f, q, xs, hfirst, hoverdue⟩ := hw.reclaimsFirst ha hp hopen hsole hset hon htrigger
  refine ⟨f, q, xs, hfirst, fun later w h hu => ?_⟩
  have h₁ : Run (⟨w₀, .step t, f⟩ :: es) f.world := h₀.next hfirst.react
  obtain ⟨_, _, hturn⟩ := hw.turn_of_step ha rfl hfirst.react
  constructor
  · -- whether reports are wanted is a matter of the settings, which stay
    obtain ⟨q', hq', hcfg⟩ := (World.Leads.refl.next hfirst.react).config hw hp
    obtain rfl := Option.some.inj (hq'.symm.trans hfirst.pool)
    have hprogress := (h₁.leads h).progress h₁.sound hfirst.stands hfirst.pool hfirst.seizes.once
    rwa [hcfg] at hprogress
  · obtain ⟨id, hactive, hheld, hunused⟩ := hdue
    have hid : id ∈ objects xs := (hfirst.all id).mpr ⟨hactive, hheld, hunused⟩
    have htracked := (((hw.pools i).sound p₀ hp).active_listed id).2 hactive
    have hleads : w₀.Leads (later ++ [⟨w₀, .step t, f⟩]) w :=
      h₀.leads (by rwa [List.append_assoc])
    have hu' : LeftAlone t d i (later ++ [⟨w₀, .step t, f⟩]) := by
      intro x hx y hcall hpool
      rcases List.mem_append.mp hx with hx | hx
      · exact hu x hx y hcall hpool
      · rw [List.mem_singleton.mp hx]
        exact hturn.runs
    have hfares := hleads.fares hw ha hp hopen hsole hu' (List.getLast?_concat ..) rfl hturn.runs
      hoverdue.symm htracked hid
    rwa [objects, List.length_map] at hfares

end Runs

/-- Somebody has the only object of a pool and does nothing for 20, although an object may go unused
    for 10 only; somebody else does not want to wait for it, nor does the pool let anybody wait. -/
def hoardedEvents : List (Event Nat) :=
  [.create
      { maxTotal := 1
        blocks := false
        abandonment := some { onBorrow := true, timeout := ⟨10⟩ } },
    .spawn, .spawn, .begin 0 0 (.borrow none "first"), .step 0, .step 0, .step 0,
    .answer 0 (.created (.ok 7)), .answer 0 (.activated 7 none), .tick ⟨20⟩,
    .begin 1 0 (.borrow (some .zero) "second")]

/-- The object is taken away and destroyed, and a new one is made. -/
def relievedEvents : List (Event Nat) :=
  hoardedEvents ++ [.step 1, .step 1, .answer 1 (.destroyed none), .step 1, .step 1,
    .answer 1 (.created (.ok 8)), .answer 1 (.activated 8 none)]

theorem borrow_relieved_by_overdue_of_one :
    ∃ p₀ a, Run (episodes hoardedEvents) (reached hoardedEvents) ∧
      (reached hoardedEvents).callAt 1 0 =
        some ⟨0, .borrow { timeout := some .zero, site := "second" }⟩ ∧
      (reached hoardedEvents).pools[0]? = some p₀ ∧ p₀.closed = false ∧
      (reached hoardedEvents).points 0 =
        [.borrow { timeout := some .zero, site := "second" }] ∧
      p₀.config.abandonment = some a ∧ a.onBorrow = true ∧ a.trigger p₀.status = true ∧
      (∃ id ∈ p₀.registry.active, p₀.isHeld id = false ∧
        a.timeout.nanos < (p₀.unusedFor (reached hoardedEvents).now id).nanos) ∧
      p₀.config.blocks = false ∧
      answer? 1 0 ((episodes relievedEvents).take 7) = some (.lent 1) ∧
      ∃ f q xs, ReclaimsFirst (reached hoardedEvents) 1 0 0
          { timeout := some .zero, site := "second" } p₀ a.timeout f q xs ∧
        ∀ later w,
          Run (later ++ ⟨reached hoardedEvents, .step 1, f⟩ :: episodes hoardedEvents) w →
          LeftAlone 1 0 0 later →
          Progress 1 0 0 p₀.config.reports xs xs.length
              (.borrow { timeout := some .zero, site := "second" }) later w ∧
            Fares p₀ 1 0 0 xs.length (later ++ [⟨reached hoardedEvents, .step 1, f⟩]) w :=
  have h₀ : Run (episodes hoardedEvents) (reached hoardedEvents) := Run.of_events rfl
  ⟨_, _, h₀, rfl, rfl, rfl, rfl, rfl, rfl, rfl, ⟨0, by decide +kernel, rfl, by decide +kernel⟩, rfl,
    by decide +kernel,
    borrow_relieved_by_overdue h₀ rfl rfl rfl rfl rfl rfl rfl
      ⟨0, by decide +kernel, rfl, by decide +kernel⟩⟩

end ObjectPool
