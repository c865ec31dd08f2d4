/-
  ObjectPool.Proofs.LifeCycle

  The life of an object, in every run. The states that it has been in are a path of the
  diagram, and the last one is never left. A lent object can be taken out of circulation by
  the call to which its borrower gives it back and by a pass over the lent objects. These may
  try in any number and in any order: the first does, the others find that it is done.

    * `react_walks`, `Run.onCourse`, `Run.walks` — every object goes on along the diagram.
    * `Episode.tries` — a call tries to take an object out of circulation.
    * `Works.takes`, `Works.refuses` — what it does if the object is lent, and if it is not.
    * `Run.takenOnce` — the first that tries takes it, and no other.
    * `Lives`, `lifecycle_kept` — the main statement.
-/

import Mathlib.Data.List.Chain
import ObjectPool.Proofs.Draining
import ObjectPool.Proofs.Population
import ObjectPool.Proofs.Stretch.Capture
import ObjectPool.Proofs.Stretch.Walks

namespace ObjectPool

variable {ρ : Type}

/-! ## Along the diagram -/

/-- The objects of the pool `i` that are taken away from their borrowers in an episode. -/
def Episode.taken (i : Nat) (e : Episode ρ) : List Nat :=
  match e.call?, e.next? with
  | some a, some next => if a.pool = i then a.point.takes next else []
  | _, _ => []

/-- No object goes on from the last state. -/
theorem Entry.OnCourse.final {e e₀ : Entry ρ} (h : e.OnCourse) (hs : e₀.trail <:+ e.trail)
    (hlast : e₀.state = .invalid) : e.trail = e₀.trail := by
  obtain ⟨steps, hsteps⟩ := hs
  have hmoves := h.moves
  rw [← hsteps] at hmoves ⊢
  cases hx : steps.getLast? with
  | none =>
    rw [List.getLast?_eq_none_iff.mp hx]
    rfl
  | some x =>
    -- the earliest of the later states would follow on the last one
    have hlead : e₀.state.Leads x := (List.isChain_append.mp hmoves).2.2 x hx e₀.state rfl
    rw [hlast] at hlead
    exact nomatch hlead

namespace World

variable {w w' : World ρ} {e : Event ρ} {f : Effect ρ} {t i id : Nat} {a : Activity ρ} {q : Pool ρ}
  {s : Stretch ρ} {g : Nat → List Nat}

theorem Works.taken (h : w.Works e f t a q s) :
    Episode.taken a.pool ⟨w, e, f⟩ = a.point.takes s.next := by
  obtain ⟨next, hnext, htakes, -⟩ := h.next
  unfold Episode.taken
  rw [h.call, hnext, ← htakes]
  exact if_pos rfl

/-- Objects that are used stay in their states. -/
theorem Touched.walks {away : Nat → Prop} (h : w.Touched w' i)
    (hlen : (w'.entriesOf i).length = (w.entriesOf i).length) :
    Entry.AllWalk away (w.entriesOf i) (w'.entriesOf i) where
  old := fun id y hy => by
    have hlt : id < (w'.entriesOf i).length := hlen ▸ (List.getElem?_eq_some_iff.mp hy).1
    have hy' := List.getElem?_eq_getElem hlt
    obtain ⟨z, hz, ht⟩ := h id _ hy'
    obtain rfl := Option.some.inj (hy.symm.trans hz)
    exact ⟨_, hy', .of_eq (congrArg₂ List.cons ht.state ht.past)⟩
  new := fun id y' hn hy' => by
    obtain ⟨y, hy, -⟩ := h id y' hy'
    exact nomatch hn.symm.trans hy

/-- In every event the objects of a pool go on along the diagram. -/
theorem react_walks (hw : w.Sound g) (hr : w.react e = some f) (i : Nat) :
    Entry.AllWalk (fun id => id ∈ Episode.taken i ⟨w, e, f⟩) (w.entriesOf i)
      (f.world.entriesOf i) := by
  rcases react_at hr i with ⟨-, hn⟩ | ⟨t, a, q, s, h, rfl⟩
  · have hlen := react_length hw hr i
    rw [born_eq_nil hn] at hlen
    exact (react_touched hr hn).walks hlen
  · rw [h.taken, entriesOf_eq h.pool, h.entriesOf]
    rcases h.runs with ⟨-, hs⟩ | ⟨r, -, hs⟩
    · exact Pool.advance_walks hs
    · exact Pool.respond_walks hs

end World

section Runs

variable {es later : List (Episode ρ)} {w w₀ : World ρ} {i id : Nat}

/-- The states that an object has been in are a path of the diagram. -/
theorem Run.onCourse (h : Run es w) (i id : Nat) (y : Entry ρ)
    (hy : (w.entriesOf i)[id]? = some y) : y.OnCourse := by
  induction h generalizing id y with
  | start => exact nomatch hy
  | next run react ih => exact (World.react_walks run.sound react i).onCourse ih id y hy

/-- An object adds to the states that it has been in. -/
theorem Run.walks (h₀ : Run es w₀) (h : Run (later ++ es) w) {y₀ : Entry ρ}
    (hy₀ : (w₀.entriesOf i)[id]? = some y₀) :
    ∃ y, (w.entriesOf i)[id]? = some y ∧ y₀.trail <:+ y.trail := by
  induction later generalizing w with
  | nil => exact ⟨y₀, h.unique h₀ ▸ hy₀, List.suffix_rfl⟩
  | cons e later ih =>
    cases h with
    | next run react =>
      obtain ⟨y, hy, hs⟩ := ih run
      obtain ⟨y', hy', hw⟩ := (World.react_walks run.sound react i).old id y hy
      exact ⟨y', hy', hs.trans hw.suffix⟩

end Runs

/-! ## Calls that try to take an object out of circulation -/

/-- How many returns the pool `i` has refused. -/
def World.refusals (w : World ρ) (i : Nat) : Nat :=
  ((w.pools[i]?).map (·.counters.invalidReturns)).getD 0

namespace Episode

/-- Whether a call runs to which an object of the pool `i` has just been given back, to be kept or
    to be destroyed. -/
def retrieves (i id : Nat) (e : Episode ρ) : Bool :=
  e.call?.any fun a => decide (a.pool = i ∧ id ∈ a.point.returns)

/-- Whether the lent objects of the pool `i` are gone through while an object is overdue. -/
def hunts (i id : Nat) (e : Episode ρ) : Bool :=
  match e.call?, e.next? with
  | some a, some next => decide (a.pool = i) && a.point.sweeps && next.isPass &&
      (e.before.pools[i]?).any fun p => p.outstays e.before.now id
  | _, _ => false

/-- Whether a call tries to take an object of the pool `i` out of circulation. -/
def tries (i id : Nat) (e : Episode ρ) : Bool := e.retrieves i id || e.hunts i id

/-- The call that runs ends with a reply, though it may have to close its pool before. -/
def Ends (e : Episode ρ) (r : Reply) : Prop :=
  e.next? = some (.finish r) ∨ e.next? = some (.go (.close (.release r)))

/-- An object of the pool `i` is lent before an episode, and not after it. -/
structure Takes (i id : Nat) (e : Episode ρ) : Prop where
  before : e.before.stateOf { pool := i, object := id } = .allocated
  after : e.after.stateOf { pool := i, object := id } ≠ .allocated

/-- Nothing happens to an object of the pool `i` in an episode. If it was given back, the return
    is refused and counted. -/
structure Refuses (i id : Nat) (e : Episode ρ) : Prop where
  kept : (e.after.entriesOf i)[id]? = (e.before.entriesOf i)[id]?
  refused : e.retrieves i id = true →
    (∃ a, e.call? = some a ∧ e.Ends a.point.refusal) ∧
      e.after.refusals i = e.before.refusals i + 1

end Episode

/-! ### A call runs -/

namespace World

variable {w w' : World ρ} {e : Event ρ} {f : Effect ρ} {t i id : Nat} {a : Activity ρ}
  {q p : Pool ρ} {s : Stretch ρ} {g : Nat → List Nat}

theorem top?_eq_head? (w : World ρ) (t : Nat) : w.top? t = (w.stackOf t).head? := by
  unfold top? stackOf
  cases w.threads[t]? <;> rfl

/-- The thread stands where the stretch has led, unless the call closes the pool before it ends. -/
theorem Works.next?_cases (h : w.Works e f t a q s) :
    Episode.next? ⟨w, e, f⟩ = some s.next ∨ ∃ r, s.next = .finish r ∧
      Episode.next? ⟨w, e, f⟩ = some (.go (.close (.release r))) := by
  obtain ⟨rest, -, hcases⟩ := h.stackOf
  have htop : ∀ b, f.reply = none → f.world.stackOf t = b :: rest →
      Episode.next? ⟨w, e, f⟩ = some (.go b.point) := by
    intro b hr hb
    unfold Episode.next?
    rw [h.thread, show Episode.effect ⟨w, e, f⟩ = f from rfl, hr]
    show ((f.world.top? t).map _) = _
    rw [top?_eq_head?, hb]
    rfl
  rcases hcases with ⟨pt, hn, hr, hstack⟩ | ⟨r, hn, ⟨hr, -⟩ | ⟨hr, -, -, hstack⟩⟩
  · exact .inl ((htop _ hr hstack).trans (congrArg some hn.symm))
  · refine .inl ?_
    unfold Episode.next?
    rw [show Episode.effect ⟨w, e, f⟩ = f from rfl, hr, hn]
  · exact .inr ⟨r, hn, htop _ hr hstack⟩

theorem Works.ends {r : Reply} (h : w.Works e f t a q s) (hn : s.next = .finish r) :
    Episode.Ends ⟨w, e, f⟩ r := by
  rcases h.next?_cases with hnext | ⟨r', hr', hnext⟩
  · exact .inl (hnext.trans (congrArg some hn))
  · obtain rfl := Next.finish.inj (hn.symm.trans hr')
    exact .inr hnext

theorem Works.retrieves (h : w.Works e f t a q s) :
    Episode.retrieves a.pool id ⟨w, e, f⟩ = decide (id ∈ a.point.returns) := by
  unfold Episode.retrieves
  rw [h.call, Option.any_some]
  simp only [true_and]

theorem Works.hunts (h : w.Works e f t a q s) : Episode.hunts a.pool id ⟨w, e, f⟩ =
    (a.point.sweeps && s.next.isPass && q.outstays w.now id) := by
  have hhunts : ∀ next, Episode.next? ⟨w, e, f⟩ = some next →
      Episode.hunts a.pool id ⟨w, e, f⟩ =
        (a.point.sweeps && next.isPass && q.outstays w.now id) := by
    intro next hnext
    unfold Episode.hunts
    rw [h.call, hnext]
    show (decide (a.pool = a.pool) && _ && _ && (w.pools[a.pool]?).any _) = _
    rw [h.pool, decide_eq_true rfl, Bool.true_and]
    rfl
  rcases h.next?_cases with hnext | ⟨r, hr, hnext⟩
  · exact hhunts _ hnext
  · rw [hhunts _ hnext, hr]
    rfl

theorem Works.stateOf (h : w.Works e f t a q s) (id : Nat) :
    f.world.stateOf { pool := a.pool, object := id } = s.pool.stateOf id := by
  rw [stateOf_eq]
  show (((f.world.entriesOf a.pool)[id]?).map _).getD _ = _
  rw [h.entriesOf]
  unfold Pool.stateOf
  cases hy : s.pool.object? id with
  | none => rw [show s.pool.entries[id]? = none from hy]; rfl
  | some y => rw [show s.pool.entries[id]? = some y from hy]; rfl

theorem refusals_eq (hq : w.pools[i]? = some q) : w.refusals i = q.counters.invalidReturns := by
  rw [refusals, hq]
  rfl

theorem Works.refusals (h : w.Works e f t a q s) :
    f.world.refusals a.pool = s.pool.counters.invalidReturns := by
  obtain ⟨p', hp', hsame⟩ := h.pools
  rw [refusals_eq hp']
  rcases hsame with rfl | rfl <;> rfl

/-- A call to which an object has just been given back looks at it. -/
theorem Works.looks (h : w.Works e f t a q s) (hid : id ∈ a.point.returns) :
    (∃ answer, a.point = .takeBack id answer ∧ s = q.takeBack w.now id answer) ∨
      (a.point = .discard id ∧ s = q.discard id) := by
  have hruns := h.runs
  obtain ⟨i, pt⟩ := a
  cases pt with
  | takeBack x answer =>
    obtain rfl := List.mem_singleton.mp hid
    rcases hruns with ⟨-, hs⟩ | ⟨r, -, hs⟩
    · exact .inl ⟨answer, rfl, (Option.some.inj hs).symm⟩
    · exact nomatch hs
  | discard x =>
    obtain rfl := List.mem_singleton.mp hid
    rcases hruns with ⟨-, hs⟩ | ⟨r, -, hs⟩
    · exact .inr ⟨rfl, (Option.some.inj hs).symm⟩
    · exact nomatch hs
  | _ => exact nomatch hid

/-- A call that goes through the lent objects takes away those that are overdue. -/
theorem Works.pass (h : w.Works e f t a q s) (hpass : (a.point.sweeps && s.next.isPass) = true) :
    ∃ c, q.config.abandonment = some c ∧
      s.pool = (q.reclaimFrom w.now c.timeout q.registry.active).1 := by
  obtain ⟨hsweeps, hpass⟩ := Bool.and_eq_true_iff.mp hpass
  rcases h.runs with ⟨-, hadv⟩ | ⟨c, -, hrsp⟩
  · exact Pool.advance_pass hadv hsweeps hpass
  · exact nomatch (Pool.isRequest_of_sweeps hsweeps).symm.trans (Pool.isRequest_of_respond hrsp)

/-! ### Lent objects -/

theorem stateOf_eq_iff {s : Lifecycle} (hs : s ≠ .invalid) :
    w.stateOf { pool := i, object := id } = s ↔
      ∃ y, (w.entriesOf i)[id]? = some y ∧ y.state = s := by
  rw [stateOf_eq]
  show (((w.entriesOf i)[id]?).map _).getD _ = s ↔ _
  cases (w.entriesOf i)[id]? with
  | none => exact ⟨fun h => absurd h.symm hs, nofun⟩
  | some y => exact ⟨fun h => ⟨y, rfl, h⟩, fun ⟨_, hy, h⟩ => Option.some.inj hy ▸ h⟩

/-- An object in the state of the lent ones is readied for a borrower, or a borrower has it. -/
theorem Sound.allocated_cases (hw : w.Sound g) (hp : w.pools[i]? = some p)
    (hs : w.stateOf { pool := i, object := id } = .allocated) :
    id ∈ w.readied i ∨ ∃ b r, p.position (.of p (w.points i) (w.lent i) (g i)) id =
      ⟨some ⟨.allocated, some r, b⟩, 1, 0, 1, 0, [⟨b, some r⟩], []⟩ := by
  have hlegal := ((hw.pools i).sound p hp).objects id
  rw [stateOf_of_pool (x := { pool := i, object := id }) hp, Pool.stateOf_eq_shape?,
    show p.shape? id = (p.position (.of p (w.points i) (w.lent i) (g i)) id).shape from rfl] at hs
  generalize hv : p.position (.of p (w.points i) (w.lent i) (g i)) id = v at hlegal hs
  cases hlegal with
  | lent b r => exact .inr ⟨b, r, rfl⟩
  | unborn | idle | dead => exact nomatch hs
  | entrusted he =>
    cases he with
    | lending r =>
      have hcharges : claims id ((w.points i).flatMap Point.charges) = [.lending] :=
        congrArg Position.charges hv
      refine .inl (mem_readied.mpr (mem_claims.mp ?_))
      rw [hcharges]
      exact List.mem_singleton.mpr rfl
    | _ => exact nomatch hs

/-- How an object stands that is readied for a borrower. -/
theorem Sound.position_of_readied (hw : w.Sound g) (hp : w.pools[i]? = some p)
    (hid : id ∈ w.readied i) : ∃ r, p.position (.of p (w.points i) (w.lent i) (g i)) id =
      ⟨some ⟨.allocated, some r, true⟩, 1, 0, 1, 0, [], [.lending]⟩ := by
  have hsound := (hw.pools i).sound p hp
  have hall : (p.position (.of p (w.points i) (w.lent i) (g i)) id).charges = [.lending] :=
    hsound.claims_of_charge (mem_readied.mp hid)
  obtain ⟨-, hhas⟩ := (hsound.objects id).has hall
  generalize p.position (.of p (w.points i) (w.lent i) (g i)) id = v at hall hhas
  obtain ⟨shape, tracked, idle, active, graves, loans, charges⟩ := v
  obtain rfl : charges = [.lending] := hall
  cases hhas with
  | lending r => exact ⟨r, rfl⟩

/-- The objects in use are those in the state of the lent ones. -/
theorem Sound.inUse_iff (hw : w.Sound g) :
    w.InUse i id ↔ w.stateOf { pool := i, object := id } = .allocated := by
  cases hp : w.pools[i]? with
  | none =>
    constructor
    · rintro (hready | ⟨hactive, -⟩)
      · unfold readied at hready
        rw [((hw.pools i).housed hp).1] at hready
        exact nomatch hready
      · unfold activeOf at hactive
        rw [hp] at hactive
        exact nomatch hactive
    · intro hs
      obtain ⟨y, hy, -⟩ := (stateOf_eq_iff (s := .allocated) nofun).mp hs
      unfold entriesOf at hy
      rw [hp] at hy
      exact nomatch hy
  | some p =>
    constructor
    · intro huse
      rw [stateOf_of_pool (x := { pool := i, object := id }) hp, Pool.stateOf_eq_shape?,
        show p.shape? id = (p.position (.of p (w.points i) (w.lent i) (g i)) id).shape from rfl]
      rcases huse with hready | ⟨hactive, hfree⟩
      · obtain ⟨r, hv⟩ := hw.position_of_readied hp hready
        rw [hv]
        rfl
      · have hlegal := ((hw.pools i).sound p hp).objects id
        have hone : 0 < (p.position (.of p (w.points i) (w.lent i) (g i)) id).active :=
          List.count_pos_iff.mpr (activeOf_eq hp ▸ hactive)
        have hnone : (p.position (.of p (w.points i) (w.lent i) (g i)) id).charges = [] := hfree
        generalize p.position (.of p (w.points i) (w.lent i) (g i)) id = v at hlegal hone hnone
        cases hlegal with
        | lent b r => rfl
        | unborn | idle | dead => exact nomatch hone
        | entrusted he => exact nomatch hnone
    · intro hs
      rcases hw.allocated_cases hp hs with hready | ⟨b, r, hv⟩
      · exact .inl hready
      · obtain ⟨-, -, hactive, -⟩ := Pool.of_lent hv
        exact .inr ⟨(activeOf_eq hp).symm ▸ hactive, congrArg Position.charges hv⟩

theorem works_of_tries (hr : w.react e = some f) (ht : Episode.tries i id ⟨w, e, f⟩ = true) :
    ∃ t a q s, w.Works e f t a q s ∧ a.pool = i := by
  have hcall : ∃ a, Episode.call? ⟨w, e, f⟩ = some a ∧ a.pool = i := by
    rcases Bool.or_eq_true_iff.mp ht with hback | hhunt
    · obtain ⟨a, ha, hpool⟩ := (Option.any_eq_true _ _).mp hback
      exact ⟨a, ha, (of_decide_eq_true hpool).1⟩
    · unfold Episode.hunts at hhunt
      split at hhunt
      · rename_i a next ha _
        obtain ⟨⟨⟨hpool, -⟩, -⟩, -⟩ := by simpa only [Bool.and_eq_true] using hhunt
        exact ⟨a, ha, of_decide_eq_true hpool⟩
      · exact nomatch hhunt
  obtain ⟨a, ha, hpool⟩ := hcall
  obtain ⟨t, q, s, h⟩ := works_of_call hr ha
  exact ⟨t, a, q, s, h, hpool⟩

/-- Nobody tries to take an object that is readied for a borrower. -/
theorem tries_of_readied (hw : w.Sound g) (hr : w.react e = some f) (hid : id ∈ w.readied i) :
    Episode.tries i id ⟨w, e, f⟩ = false := by
  refine Bool.eq_false_iff.mpr fun ht => ?_
  obtain ⟨t, a, q, s, h, rfl⟩ := works_of_tries hr ht
  obtain ⟨r, hv⟩ := hw.position_of_readied h.pool hid
  unfold Episode.tries at ht
  rw [h.retrieves, h.hunts] at ht
  rcases Bool.or_eq_true_iff.mp ht with hback | hhunt
  · -- an object that comes back is on loan
    have hreturns : id ∈ (w.points a.pool).flatMap Point.returns :=
      List.mem_flatMap.mpr ⟨a.point, h.call_mem, of_decide_eq_true hback⟩
    have hloan : (id, ⟨false, q.slot? id⟩) ∈
        (Ledger.of q (w.points a.pool) (w.lent a.pool) (g a.pool)).loans :=
      List.mem_append_left _ (List.mem_map_of_mem hreturns)
    have hnone : claims id (Ledger.of q (w.points a.pool) (w.lent a.pool) (g a.pool)).loans = [] :=
      congrArg Position.loans hv
    exact claims_eq_nil_iff.mp hnone _ hloan
  · -- the factory works on it
    have hheld : q.isHeld id = true := by
      rw [Pool.isHeld_eq_shape?, show q.shape? id = _ from congrArg Position.shape hv]
      rfl
    obtain ⟨-, hout⟩ := Bool.and_eq_true_iff.mp hhunt
    obtain ⟨c, -, hc⟩ := (Option.any_eq_true _ _).mp hout
    rw [hheld, Bool.not_true, Bool.and_false] at hc
    exact nomatch hc

/-- A lent object that is found overdue is taken away from its borrower. -/
theorem Works.hunted (h : w.Works e f t a q s) (hw : w.Sound g)
    (hs : w.stateOf { pool := a.pool, object := id } = .allocated) (hr : id ∉ w.readied a.pool)
    (ht : Episode.hunts a.pool id ⟨w, e, f⟩ = true) :
    f.world.stateOf { pool := a.pool, object := id } = .abandoned ∧
      f.world.refusals a.pool = w.refusals a.pool := by
  obtain ⟨b, r, hv⟩ := (hw.allocated_cases h.pool hs).resolve_left hr
  obtain ⟨htracked, -, hactive, hin⟩ := Pool.of_lent hv
  rw [h.hunts] at ht
  obtain ⟨hpass, hout⟩ := Bool.and_eq_true_iff.mp ht
  obtain ⟨c, hset, hpool⟩ := h.pass hpass
  have habandoned : q.isAbandoned w.now c.timeout id = true := by
    unfold Pool.outstays at hout
    rw [hset, Option.any_some] at hout
    obtain ⟨htime, hloose⟩ := Bool.and_eq_true_iff.mp hout
    unfold Pool.isAbandoned
    rw [decide_eq_true htracked, htime, hloose, hin]
    rfl
  have hseized := Pool.isIn_reclaimFrom hactive habandoned
  rw [h.stateOf, h.refusals, refusals_eq h.pool, hpool]
  exact ⟨(Pool.stateOf_eq_iff (s := .abandoned) nofun).mpr hseized,
    congrArg (·.invalidReturns) (Pool.counters_reclaimFrom _)⟩

/-- A lent object that comes back, or that is found overdue, is not lent any more. -/
theorem Works.takes (h : w.Works e f t a q s) (hw : w.Sound g)
    (hs : w.stateOf { pool := a.pool, object := id } = .allocated) (hr : id ∉ w.readied a.pool)
    (ht : Episode.tries a.pool id ⟨w, e, f⟩ = true) :
    f.world.stateOf { pool := a.pool, object := id } ≠ .allocated ∧
      f.world.refusals a.pool = w.refusals a.pool := by
  rcases Bool.or_eq_true_iff.mp ht with hback | hhunt
  · obtain ⟨b, r, hv⟩ := (hw.allocated_cases h.pool hs).resolve_left hr
    obtain ⟨-, -, hactive, hin⟩ := Pool.of_lent hv
    rw [h.retrieves] at hback
    rw [h.stateOf, h.refusals, refusals_eq h.pool]
    rcases h.looks (of_decide_eq_true hback) with ⟨answer, -, rfl⟩ | ⟨-, rfl⟩
    · exact ⟨Pool.stateOf_takeBack_ne hactive hin w.now answer,
        Pool.invalidReturns_takeBack hactive hin w.now answer⟩
    · exact ⟨Pool.stateOf_discard_ne hactive hin, Pool.invalidReturns_discard hactive hin⟩
  · obtain ⟨hseized, hcount⟩ := h.hunted hw hs hr hhunt
    rw [hseized]
    exact ⟨nofun, hcount⟩

/-- A call to which an object has come back that is not lent any more ends in this stretch, which
    counts the return as refused and does nothing else. -/
theorem Works.strays (h : w.Works e f t a q s) (hid : id ∈ a.point.returns)
    (ha : id ∉ q.registry.active) : s.next = .finish a.point.refusal ∧
      s.pool = q.count fun c => { c with invalidReturns := c.invalidReturns + 1 } := by
  rcases h.looks hid with ⟨answer, hpt, rfl⟩ | ⟨hpt, rfl⟩
  · rw [hpt]
    unfold Pool.takeBack
    rw [if_pos ha]
    exact ⟨rfl, rfl⟩
  · rw [hpt]
    unfold Pool.discard
    rw [if_pos ha]
    exact ⟨rfl, rfl⟩

/-- An object that is not lent any more is left alone, and its return is refused. -/
theorem Works.refuses (h : w.Works e f t a q s) (hw : w.Sound g)
    (hs : w.stateOf { pool := a.pool, object := id } ≠ .allocated)
    (ht : Episode.tries a.pool id ⟨w, e, f⟩ = true) :
    Episode.Refuses a.pool id ⟨w, e, f⟩ := by
  rw [stateOf_of_pool (x := { pool := a.pool, object := id }) h.pool] at hs
  have hkept : s.pool.object? id = q.object? id →
      ((Episode.after ⟨w, e, f⟩).entriesOf a.pool)[id]? = (w.entriesOf a.pool)[id]? := by
    intro hobject
    rw [show Episode.after ⟨w, e, f⟩ = f.world from rfl, h.entriesOf, entriesOf_eq h.pool]
    exact hobject
  by_cases hback : id ∈ a.point.returns
  · have hstray : id ∉ q.registry.active := by
      have hsound := h.before hw
      have hloan := Ledger.loan_of_returns q ((w.pop t).points a.pool) (w.lent a.pool) (g a.pool)
        hback
      refine hsound.not_active_of_reclaimed (Bool.not_eq_false _ |>.mp fun hlive => hs ?_)
      obtain ⟨hactive, hin, -⟩ := hsound.lent_of_live hloan hlive
      exact (Pool.stateOf_eq_iff (s := .allocated) nofun).mpr hin
    have hrefused := h.strays hback hstray
    refine ⟨hkept (by rw [hrefused.2]; rfl), fun _ => ⟨⟨a, h.call, h.ends hrefused.1⟩, ?_⟩⟩
    rw [show Episode.after ⟨w, e, f⟩ = f.world from rfl, h.refusals, hrefused.2, refusals_eq h.pool]
    rfl
  · have hno : Episode.retrieves a.pool id ⟨w, e, f⟩ = false :=
      h.retrieves.trans (decide_eq_false hback)
    refine ⟨hkept ?_, fun hyes => nomatch hno.symm.trans hyes⟩
    unfold Episode.tries at ht
    rw [hno, h.hunts, Bool.false_or] at ht
    obtain ⟨c, -, hpool⟩ := h.pass (Bool.and_eq_true_iff.mp ht).1
    rw [hpool]
    refine Pool.object?_reclaimFrom _ (Bool.eq_false_iff.mpr fun hin => hs ?_)
    exact (Pool.stateOf_eq_iff (s := .allocated) nofun).mpr hin

/-- A lent object stays so unless somebody tries to take it. -/
theorem react_stays (hw : w.Sound g) (hr : w.react e = some f)
    (hs : w.stateOf { pool := i, object := id } = .allocated) (hready : id ∉ w.readied i)
    (ht : Episode.tries i id ⟨w, e, f⟩ = false) :
    f.world.stateOf { pool := i, object := id } = .allocated := by
  obtain ⟨y, hy, hstate⟩ := (stateOf_eq_iff (s := .allocated) nofun).mp hs
  obtain ⟨y', hy', hwalk⟩ := (react_walks hw hr i).old id y hy
  refine (stateOf_eq_iff (s := .allocated) nofun).mpr ⟨y', hy', ?_⟩
  rcases react_at hr i with ⟨-, hn⟩ | ⟨t, a, q, s, h, rfl⟩
  · obtain ⟨z, hz, htouched⟩ := react_touched hr hn id y' hy'
    obtain rfl := Option.some.inj (hy.symm.trans hz)
    exact htouched.state.trans hstate
  · obtain ⟨b, r, hv⟩ := (hw.allocated_cases h.pool hs).resolve_left hready
    obtain ⟨-, hidle, -, -⟩ := Pool.of_lent hv
    unfold Episode.tries at ht
    rw [h.retrieves, h.hunts] at ht
    obtain ⟨hback, hhunt⟩ := Bool.or_eq_false_iff.mp ht
    have hown : ¬q.Yields a.point.Holds id := by
      rintro (hnew | hfree | hback' | ⟨c, hcharge⟩)
      · exact Nat.not_lt.mpr hnew (entriesOf_eq h.pool ▸ (List.getElem?_eq_some_iff.mp hy).1)
      · exact hidle hfree
      · exact of_decide_eq_false hback hback'
      · have hnone : claims id ((w.points a.pool).flatMap Point.charges) = [] :=
          congrArg Position.charges hv
        exact claims_eq_nil_iff.mp hnone c (List.mem_flatMap.mpr ⟨a.point, h.call_mem, hcharge⟩)
    rw [entriesOf_eq h.pool] at hy
    rw [h.entriesOf] at hy'
    rcases h.reaches.pool.kept hown with hkept | ⟨hover, z, hz, habandoned⟩
    · obtain rfl := Option.some.inj (hy'.symm.trans (hkept.trans hy))
      exact hstate
    · -- only a pass over the lent objects takes an object away
      obtain rfl := Option.some.inj (hy'.symm.trans hz)
      obtain ⟨steps, hsteps, hout⟩ := hwalk.trail
      have hmem : .abandoned ∈ steps := by
        cases steps with
        | nil =>
          have hsame : y'.state = y.state := (List.cons.inj hsteps).1
          exact nomatch habandoned.symm.trans (hsame.trans hstate)
        | cons x steps =>
          have hhead : y'.state = x := (List.cons.inj hsteps).1
          exact List.mem_cons.mpr (.inl (habandoned.symm.trans hhead))
      have htaken := hout hmem
      rw [h.taken] at htaken
      unfold Point.takes at htaken
      split at htaken
      · rename_i hsweeps
        have hpass : s.next.isPass = true := Next.isPass_of_taken htaken
        have hlate : q.outstays w.now id = true := hover.outstays
        rw [hsweeps, hpass, hlate] at hhunt
        exact nomatch hhunt
      · exact nomatch htaken

end World

/-! ## The first that tries -/

section Runs

variable {es later newer older : List (Episode ρ)} {w w₀ : World ρ} {e : Episode ρ} {i id : Nat}

/-- An object that is not lent stays so until it is picked for a borrower. -/
theorem Run.staysOut {ev : Event ρ} {f : Effect ρ} (run : Run es w) (hr : w.react ev = some f)
    (hs : w.stateOf { pool := i, object := id } ≠ .allocated)
    (hp : Episode.picks i id ⟨w, ev, f⟩ = false) :
    f.world.stateOf { pool := i, object := id } ≠ .allocated := by
  intro hn
  have hsound := (run.next hr).sound
  rcases run.comesIntoUse hr (hsound.inUse_iff.mpr hn) with hold | hpicks
  · exact hs (run.sound.inUse_iff.mp hold)
  · exact Bool.false_ne_true (hp.symm.trans hpicks)

/-- A lent object that a borrower has, and that is not picked for another one, stays lent until a
    call tries to take it, and not any longer. -/
theorem Run.circulates (h₀ : Run es w₀) (h : Run (later ++ es) w)
    (hs : w₀.stateOf { pool := i, object := id } = .allocated) (hr : id ∉ w₀.readied i)
    (hp : ∀ e ∈ later, e.picks i id = false) :
    ((∀ e ∈ later, e.tries i id = false) →
      w.stateOf { pool := i, object := id } = .allocated ∧ id ∉ w.readied i) ∧
    ((∃ e ∈ later, e.tries i id = true) → w.stateOf { pool := i, object := id } ≠ .allocated) := by
  induction later generalizing w with
  | nil =>
    obtain rfl := h.unique h₀
    exact ⟨fun _ => ⟨hs, hr⟩, fun ⟨e, he, _⟩ => nomatch he⟩
  | cons x later ih =>
    cases h with
    | @next _ w e f run react =>
      obtain ⟨hpicks, hp⟩ := List.forall_mem_cons.mp hp
      obtain ⟨hno, hyes⟩ := ih run hp
      constructor
      · intro hall
        obtain ⟨ht, hall⟩ := List.forall_mem_cons.mp hall
        obtain ⟨hs, hr⟩ := hno hall
        refine ⟨World.react_stays run.sound react hs hr ht, fun hready => ?_⟩
        -- only an object that is picked comes to be readied
        rcases Bool.and_eq_false_iff.mp hpicks with hafter | hbefore
        · exact of_decide_eq_false hafter hready
        · exact of_decide_eq_false hbefore hr
      · rintro ⟨y, hy, ht⟩
        by_cases hold : ∃ e ∈ later, e.tries i id = true
        · exact run.staysOut react (hyes hold) hpicks
        · have hnone : ∀ e ∈ later, e.tries i id = false := fun e he =>
            Bool.eq_false_iff.mpr fun h => hold ⟨e, he, h⟩
          rcases List.mem_cons.mp hy with rfl | hy
          · obtain ⟨hs, hr⟩ := hno hnone
            obtain ⟨t, a, q, s, hworks, rfl⟩ := World.works_of_tries react ht
            exact (hworks.takes run.sound hs hr ht).1
          · exact absurd ⟨y, hy, ht⟩ hold

/-- What becomes of a lent object of the pool `i` that a borrower has, in the episodes `later`. -/
structure TakenOnce (later : List (Episode ρ)) (w : World ρ) (i id : Nat) : Prop where
  /-- As long as no call tries to take it, it stays lent. -/
  untried : (∀ e ∈ later, e.tries i id = false) →
    w.stateOf { pool := i, object := id } = .allocated
  /-- The first call that tries takes it, and no return is refused then. -/
  first : ∀ newer e older, later = newer ++ e :: older → e.tries i id = true →
    (∀ x ∈ older, x.tries i id = false) →
    e.Takes i id ∧ e.after.refusals i = e.before.refusals i
  /-- Every later one is refused, or passes it by. -/
  others : ∀ newer e older, later = newer ++ e :: older → e.tries i id = true →
    (∃ x ∈ older, x.tries i id = true) → e.Refuses i id
  /-- Nothing else takes it. -/
  only : ∀ e ∈ later, e.Takes i id → e.tries i id = true

theorem Run.takenOnce (h₀ : Run es w₀) (h : Run (later ++ es) w)
    (hs : w₀.stateOf { pool := i, object := id } = .allocated) (hr : id ∉ w₀.readied i)
    (hp : ∀ e ∈ later, e.picks i id = false) : TakenOnce later w i id := by
  -- where the object stood before an episode
  have hsplit : ∀ newer e older, later = newer ++ e :: older →
      (∃ g, e.before.Sound g) ∧ e.before.react e.event = some e.effect ∧
        ((∀ x ∈ older, x.tries i id = false) →
          e.before.stateOf { pool := i, object := id } = .allocated ∧ id ∉ e.before.readied i) ∧
        ((∃ x ∈ older, x.tries i id = true) →
          e.before.stateOf { pool := i, object := id } ≠ .allocated) := by
    rintro newer e older rfl
    have hrun : Run (newer ++ e :: (older ++ es)) w := by
      rwa [List.append_assoc] at h
    have hold : ∀ x ∈ older, x.picks i id = false := fun x hx =>
      hp x (List.mem_append_right _ (List.mem_cons_of_mem _ hx))
    obtain ⟨hno, hyes⟩ := h₀.circulates hrun.split hs hr hold
    obtain ⟨-, -, hreact⟩ := hrun.of_mem (List.mem_append_right _ (List.mem_cons_self ..))
    exact ⟨⟨_, hrun.split.sound⟩, hreact, hno, hyes⟩
  have hfirst : ∀ newer e older, later = newer ++ e :: older → e.tries i id = true →
      (∀ x ∈ older, x.tries i id = false) →
      e.Takes i id ∧ e.after.refusals i = e.before.refusals i := by
    intro newer e older heq ht hnone
    obtain ⟨⟨g, hsound⟩, hreact, hno, -⟩ := hsplit newer e older heq
    obtain ⟨hs, hr⟩ := hno hnone
    obtain ⟨t, a, q, s, hworks, rfl⟩ := World.works_of_tries hreact ht
    obtain ⟨hout, hcount⟩ := hworks.takes hsound hs hr ht
    exact ⟨⟨hs, hout⟩, hcount⟩
  refine ⟨fun hall => ((h₀.circulates h hs hr hp).1 hall).1, hfirst,
    fun newer e older heq ht hsome => ?_, fun e he htakes => ?_⟩
  · obtain ⟨⟨g, hsound⟩, hreact, -, hyes⟩ := hsplit newer e older heq
    obtain ⟨t, a, q, s, hworks, rfl⟩ := World.works_of_tries hreact ht
    exact hworks.refuses hsound (hyes hsome) ht
  · obtain ⟨newer, older, heq⟩ := List.append_of_mem he
    obtain ⟨⟨g, hsound⟩, hreact, hno, hyes⟩ := hsplit newer e older heq
    -- no call can have tried before, as the object was lent until then
    have hnone : ∀ x ∈ older, x.tries i id = false := fun x hx =>
      Bool.eq_false_iff.mpr fun ht => hyes ⟨x, hx, ht⟩ htakes.before
    obtain ⟨hs, hr⟩ := hno hnone
    refine Decidable.byContradiction fun ht => htakes.after ?_
    exact World.react_stays hsound hreact hs hr (Bool.eq_false_iff.mpr ht)

/-- The life of the objects of the pool `i` in the episodes `later`, which lead from the world `w₀`
    to the world `w`. -/
structure Lives (later : List (Episode ρ)) (w₀ w : World ρ) (i : Nat) : Prop where
  /-- The states that an object has been in are a path of the diagram. -/
  path : ∀ (id : Nat) (y : Entry ρ), (w.entriesOf i)[id]? = some y → y.OnCourse
  /-- An object only adds to them. -/
  goesOn : ∀ (id : Nat) (y₀ : Entry ρ), (w₀.entriesOf i)[id]? = some y₀ →
    ∃ y, (w.entriesOf i)[id]? = some y ∧ y₀.trail <:+ y.trail
  /-- The last state is never left. -/
  final : ∀ (id : Nat) (y₀ : Entry ρ), (w₀.entriesOf i)[id]? = some y₀ → y₀.state = .invalid →
    ∃ y, (w.entriesOf i)[id]? = some y ∧ y.trail = y₀.trail
  /-- Nobody tries to take an object that is readied for a borrower. -/
  readied : ∀ id ∈ w₀.readied i, ∀ e f, w₀.react e = some f →
    Episode.tries i id ⟨w₀, e, f⟩ = false
  /-- A lent object that a borrower has is taken out of circulation by the first call that tries,
      as long as it is not picked for another borrower. -/
  taken : ∀ id, w₀.stateOf { pool := i, object := id } = .allocated → id ∉ w₀.readied i →
    (∀ e ∈ later, e.picks i id = false) → TakenOnce later w i id

/-- In every run the objects of a pool live as the diagram says. -/
theorem lifecycle_kept (h₀ : Run es w₀) (h : Run (later ++ es) w) (i : Nat) :
    Lives later w₀ w i where
  path := h.onCourse i
  goesOn := fun _ _ => h₀.walks h
  final := fun id y₀ hy₀ hlast => by
    obtain ⟨y, hy, hs⟩ := h₀.walks h hy₀
    exact ⟨y, hy, (h.onCourse i id y hy).final hs hlast⟩
  readied := fun _ hid _ _ hr => World.tries_of_readied h₀.sound hr hid
  taken := fun _ => h₀.takenOnce h

end Runs

/-- Two objects are lent, and may go unused for 10; at 20 nobody has used them. -/
def bothLentEvents : List (Event Nat) :=
  [.create { abandonment := some { onUpkeep := true, timeout := ⟨10⟩ } }, .spawn, .spawn, .spawn,
    .begin 0 0 (.borrow none "first"), .step 0, .step 0, .answer 0 (.created (.ok 7)),
    .answer 0 (.activated 7 none),
    .begin 1 0 (.borrow none "second"), .step 1, .step 1, .answer 1 (.created (.ok 8)),
    .answer 1 (.activated 8 none), .tick ⟨20⟩]

/-- The first comes back, and then the pool is looked after; of the second it is the other way
    round. -/
def takenOutEvents : List (Event Nat) :=
  bothLentEvents ++
    [.giveBack 0 0 0, .step 0, .answer 0 (.passivated 7 none),
      .begin 2 0 .maintain, .step 2, .step 2,
      .giveBack 1 0 1, .step 1,
      .step 2, .answer 2 (.destroyed none)]

theorem lifecycle_kept_of_both :
    Run (episodes bothLentEvents) (reached bothLentEvents) ∧
      Run ((episodes takenOutEvents).take 10 ++ episodes bothLentEvents) (reached takenOutEvents) ∧
      ((reached takenOutEvents).entriesOf 0).map Entry.trail =
        [[.idle, .evictionTest, .idle, .returning, .allocated],
          [.invalid, .abandoned, .allocated]] ∧
      ((episodes takenOutEvents).take 10).countP (Episode.tries 0 0) = 2 ∧
      ((episodes takenOutEvents).take 10).countP (Episode.tries 0 1) = 2 ∧
      Lives ((episodes takenOutEvents).take 10) (reached bothLentEvents) (reached takenOutEvents)
        0 :=
  have h₀ : Run (episodes bothLentEvents) (reached bothLentEvents) := Run.of_events rfl
  have hall : Run (episodes takenOutEvents) (reached takenOutEvents) := Run.of_events rfl
  have h : Run ((episodes takenOutEvents).take 10 ++ episodes bothLentEvents)
    (reached takenOutEvents) := hall
  ⟨h₀, h, by decide +kernel, by decide +kernel, by decide +kernel, lifecycle_kept h₀ h 0⟩

end ObjectPool
