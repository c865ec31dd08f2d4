/-
  ObjectPool.Proofs.Leftovers

  What a call leaves behind in the line of borrowers and of the places that it has held. A ticket
  that it no longer holds is in the line of nobody and never comes back. The places are held and
  given up one at a time, so that a call that holds none any more has given up as many as it took.

    * `WaitLine.Rid` — a ticket is neither in line nor woken, and is not issued again.
    * `Course.line` — the tickets that a call has held.
    * `Episode.reserves`, `Episode.releases` — a place is held, or no longer.
    * `Course.places` — the places that a call has held and given up.
-/

import ObjectPool.Proofs.Onward
import ObjectPool.Proofs.Precedence

namespace ObjectPool

variable {ρ : Type}

/-! ## Tickets -/

namespace WaitLine

variable {l l' : WaitLine} {began back ts : List Nat} {u : Nat}

/-- A ticket is neither in line nor woken, and is not issued again. -/
structure Rid (l : WaitLine) (u : Nat) : Prop where
  queue : u ∉ l.queue
  woken : u ∉ l.woken
  issued : u < l.issued

theorem Thins.rid (h : l.Thins l') (hu : l.Rid u) : l'.Rid u := by
  -- the line loses tickets from its head, all at once, or one from its middle
  induction h with
  | refl => exact hu
  | @wakeNext m _ ih =>
    refine ⟨fun hq => ih.queue ?_, fun hw => ?_, ?_⟩
    · rw [wakeNext_queue] at hq
      exact List.mem_of_mem_tail hq
    · rw [wakeNext_woken] at hw
      rcases List.mem_append.mp hw with hhead | hold
      · exact ih.queue (List.mem_of_mem_head? (Option.mem_toList.mp hhead))
      · exact ih.woken hold
    · rw [wakeNext_issued]
      exact ih.issued
  | wakeAll _ ih =>
    refine ⟨List.not_mem_nil, fun hw => ?_, ih.issued⟩
    exact (List.mem_append.mp hw).elim ih.queue ih.woken
  | leave t _ ih =>
    exact ⟨fun hq => ih.queue (List.mem_of_mem_filter hq),
      fun hw => ih.woken (List.mem_of_mem_filter hw), ih.issued⟩

/-- Such a ticket does not come back. -/
theorem Moves.rid (h : l.Moves l' began back) (hu : l.Rid u) : l'.Rid u := by
  cases h with
  | thin h => exact h.rid hu
  | enter =>
    refine ⟨fun hq => ?_, hu.woken, Nat.lt_succ_of_lt hu.issued⟩
    rcases List.mem_append.mp hq with hq | hq
    · exact hu.queue hq
    · exact absurd hu.issued (List.mem_singleton.mp hq ▸ Nat.lt_irrefl _)
  | goBack ht =>
    refine ⟨fun hq => ?_, fun hw => hu.woken (List.mem_of_mem_filter hw), hu.issued⟩
    rcases List.mem_cons.mp hq with rfl | hq
    · exact hu.woken ht
    · exact hu.queue hq

theorem Moves.issued_le (h : l.Moves l' began back) : l.issued ≤ l'.issued := by
  cases h with
  | thin h => exact Nat.le_of_eq h.issued.symm
  | enter => exact Nat.le_succ _
  | goBack => exact Nat.le_refl _

end WaitLine

/-- The tickets that the call on the thread `t` with `d` calls below it holds after an episode. -/
def Episode.tickets (t d : Nat) (e : Episode ρ) : List Nat :=
  ((e.after.callAt t d).map fun a => a.point.tickets).getD []

/-! ## Places -/

/-- How many places are held in the pool `i` for objects on their way. -/
def World.creatingOf (w : World ρ) (i : Nat) : Nat :=
  ((w.pools[i]?).map fun p => p.registry.creating).getD 0

/-- A place is held that was not before. -/
def Episode.reserves (i : Nat) (e : Episode ρ) : Bool :=
  decide (e.after.creatingOf i = e.before.creatingOf i + 1)

/-- A place is held no longer. -/
def Episode.releases (i : Nat) (e : Episode ρ) : Bool :=
  decide (e.before.creatingOf i = e.after.creatingOf i + 1)

/-- The places that a call holds once a stretch is over. -/
def Next.places : Next ρ → Nat
  | .go pt => pt.places
  | .finish _ => 0

theorem Point.places_le (pt : Point ρ) : pt.places ≤ 1 := by
  unfold Point.places
  split
  · exact Nat.le_refl 1
  · exact Nat.le_refl 1
  · exact Nat.le_refl 1
  · exact Nat.zero_le 1

theorem Next.places_le (next : Next ρ) : next.places ≤ 1 := by
  cases next with
  | go pt => exact pt.places_le
  | finish r => exact Nat.zero_le 1

/-- Only a call that waits for the factory holds a place. -/
theorem Point.places_eq_zero {pt : Point ρ} (h : pt.isRequest = false) : pt.places = 0 := by
  cases pt with
  | creating | validating | passivating => exact nomatch h
  | _ => rfl

section Turns

variable {t d : Nat} {e : Episode ρ} {a : Activity ρ} {q : Pool ρ} {s : Stretch ρ}
  {g : Nat → List Nat}

/-- The calls on a pool before and after a turn: the one that has it, and the others. -/
theorem Episode.IsTurn.calls (h : e.IsTurn t d a q s) : ∃ others new : List (Point ρ),
    (∀ pt ∈ new, pt.Opens) ∧ (e.before.points a.pool).Perm (a.point :: others) ∧
      (new ++ (s.next.points ++ others)).Perm (e.after.points a.pool) := by
  obtain ⟨-, new, hnew, hperm⟩ := h.works.lands
  exact ⟨_, new, hnew, h.works.stretches.points, hperm⟩

/-- A ticket that a call holds no longer after a turn. -/
theorem Episode.IsTurn.rid (h : e.IsTurn t d a q s) (hw : e.before.Sound g) {u : Nat}
    (hu : u ∈ a.point.tickets) (hleft : u ∉ s.next.tickets) : (e.after.lineOf a.pool).Rid u := by
  obtain ⟨others, new, hnew, hbefore, hafter⟩ := h.calls
  have hl := ((hw.pools a.pool).line).of_perm (hbefore.flatMap_right Point.tickets)
  have hl' : (e.after.lineOf a.pool).Holds ((e.after.points a.pool).flatMap Point.tickets) :=
    ((World.react_sound hw h.react).pools a.pool).line
  have hmoves := World.react_line hw h.react a.pool
  -- nobody else holds it
  have hothers : u ∉ others.flatMap Point.tickets := fun hmem =>
    (List.nodup_append.mp hl.nodup).2.2 u hu u hmem rfl
  have hnone : u ∉ (e.after.points a.pool).flatMap Point.tickets := by
    intro hmem
    rw [← (hafter.flatMap_right Point.tickets).mem_iff, List.flatMap_append, List.flatMap_append]
      at hmem
    rcases List.mem_append.mp hmem with hmem | hmem
    · obtain ⟨pt, hpt, hmem⟩ := List.mem_flatMap.mp hmem
      rw [(hnew pt hpt).tickets] at hmem
      exact List.not_mem_nil hmem
    · rcases List.mem_append.mp hmem with hmem | hmem
      · refine hleft ?_
        cases hn : s.next with
        | go pt =>
          rw [hn] at hmem
          rwa [show (Next.go pt).points = [pt] from rfl, List.flatMap_singleton] at hmem
        | finish r =>
          rw [hn] at hmem
          exact absurd hmem List.not_mem_nil
      · exact hothers hmem
  have hissued : u < (e.before.lineOf a.pool).issued :=
    hl.issued u (List.mem_append_left _ hu)
  exact ⟨fun hq => hnone (hl'.mem_iff.mpr (.inl hq)), fun hq => hnone (hl'.mem_iff.mpr (.inr hq)),
    Nat.lt_of_lt_of_le hissued hmoves.issued_le⟩

/-- The places of a pool change by those of the call that has a turn. -/
theorem Episode.IsTurn.creating (h : e.IsTurn t d a q s) (hw : e.before.Sound g) :
    e.after.creatingOf a.pool + a.point.places =
      e.before.creatingOf a.pool + s.next.places := by
  obtain ⟨others, new, hnew, hbefore, hafter⟩ := h.calls
  -- the places of a pool are held by its calls, and by nobody else
  have held : ∀ {w : World ρ} {g : Nat → List Nat}, w.Sound g →
      w.creatingOf a.pool = ((w.points a.pool).map Point.places).sum := by
    intro w g hw
    unfold World.creatingOf
    cases hp : w.pools[a.pool]? with
    | some p => exact ((hw.pools a.pool).sound p hp).books.creating
    | none =>
      rw [((hw.pools a.pool).housed hp).1]
      rfl
  have hnone : (new.map Point.places).sum = 0 := by
    refine List.sum_eq_zero_iff_forall_eq_nat.mpr fun n hn => ?_
    obtain ⟨pt, hpt, rfl⟩ := List.mem_map.mp hn
    exact Point.places_eq_zero (hnew pt hpt).request
  have hnext : (s.next.points.map Point.places).sum = s.next.places := by
    cases s.next with
    | go pt => exact List.sum_singleton
    | finish r => rfl
  have hleft : e.after.creatingOf a.pool = s.next.places + (others.map Point.places).sum := by
    have hall : e.after.creatingOf a.pool = _ := held (World.react_sound hw h.react)
    rw [hall, ← (hafter.map Point.places).sum_nat, List.map_append, List.map_append,
      List.sum_append, List.sum_append, hnone, hnext, Nat.zero_add]
  rw [hleft, held hw, (hbefore.map Point.places).sum_nat, List.map_cons, List.sum_cons]
  omega

/-- A call takes a place or gives one up, if it does not hold as many after a turn as before. -/
theorem Episode.IsTurn.moves (h : e.IsTurn t d a q s) (hw : e.before.Sound g) :
    (e.reserves a.pool = decide (a.point.places = 0 ∧ s.next.places = 1)) ∧
      (e.releases a.pool = decide (a.point.places = 1 ∧ s.next.places = 0)) ∧
      (e.reserves a.pool = true ∨ e.releases a.pool = true ∨
        e.after.creatingOf a.pool = e.before.creatingOf a.pool) := by
  have hcreating := h.creating hw
  have hle := a.point.places_le
  have hle' := s.next.places_le
  unfold Episode.reserves Episode.releases
  refine ⟨decide_eq_decide.mpr ?_, decide_eq_decide.mpr ?_, ?_⟩
  · omega
  · omega
  · rw [decide_eq_true_eq, decide_eq_true_eq]
    omega

/-- A call holds the places that it held before, and the one that it has just taken, but for the one
    that it has just given up. -/
theorem Episode.IsTurn.balance (h : e.IsTurn t d a q s) (hw : e.before.Sound g)
    (l : List (Episode ρ)) :
    a.point.places + (e :: l).countP (Episode.reserves a.pool) +
        l.countP (Episode.releases a.pool) =
      (e :: l).countP (Episode.releases a.pool) + l.countP (Episode.reserves a.pool) +
        s.next.places := by
  obtain ⟨hreserves, hreleases, -⟩ := h.moves hw
  have hle := a.point.places_le
  have hle' := s.next.places_le
  rw [List.countP_cons, List.countP_cons, hreserves, hreleases]
  simp only [decide_eq_true_eq]
  split <;> split <;> omega

end Turns

/-! ## Along the course of a call -/

namespace World.Course

variable {later ts : List (Episode ρ)} {w w₀ : World ρ} {g : Nat → List Nat} {t d : Nat}
  {a a₀ : Activity ρ} {e : Episode ρ} {q : Pool ρ} {s : Stretch ρ} {r : Reply}

/-- A ticket that a call has held is still its own, or nobody's. -/
theorem line (h : w₀.Course t d later ts w a) (hw : w₀.Sound g) :
    ∀ x ∈ ts, ∀ u ∈ x.tickets t d, u ∈ a.point.tickets ∨ (w.lineOf a.pool).Rid u := by
  induction h with
  | start => exact List.forall_mem_nil _
  | rests course react still ih =>
    intro x hx u hu
    -- the call rests, and others cannot bring a ticket back
    rcases ih x hx u hu with hheld | hrid
    · exact .inl hheld
    · exact .inr ((react_line (course.sound hw) react _).rid hrid)
  | @turn later ts e a q s pt course turn next ih =>
    intro x hx u hu
    rcases List.mem_cons.mp hx with rfl | hx
    · refine .inl ?_
      unfold Episode.tickets at hu
      rw [(turn.goesOn next).2] at hu
      exact hu
    · rcases ih x hx u hu with hheld | hrid
      · by_cases hleft : u ∈ s.next.tickets
        · rw [next] at hleft
          exact .inl hleft
        · exact .inr (turn.rid (course.sound hw) hheld hleft)
      · exact .inr ((react_line (course.sound hw) turn.react _).rid hrid)

/-- A call holds the places that it took and has not given up since. -/
theorem places (h : w₀.Course t d later ts w a) (hw : w₀.Sound g)
    (ha : w₀.callAt t d = some a₀) :
    a₀.point.places + ts.countP (Episode.reserves a.pool) =
        ts.countP (Episode.releases a.pool) + a.point.places ∧
      ∀ x ∈ ts, x.reserves a.pool = true ∨ x.releases a.pool = true ∨
        x.after.creatingOf a.pool = x.before.creatingOf a.pool := by
  induction h with
  | start stands =>
    obtain rfl := Option.some.inj (ha.symm.trans stands)
    exact ⟨(Nat.zero_add _).symm, List.forall_mem_nil _⟩
  | rests _ _ _ ih => exact ih
  | @turn later ts e a q s pt course turn next ih =>
    obtain ⟨hsum, hsteady⟩ := ih
    have hbalance := turn.balance (course.sound hw) ts
    rw [show s.next.places = pt.places from congrArg Next.places next] at hbalance
    refine ⟨?_, fun x hx => ?_⟩
    · show a₀.point.places + (e :: ts).countP (Episode.reserves a.pool) =
        (e :: ts).countP (Episode.releases a.pool) + pt.places
      omega
    · rcases List.mem_cons.mp hx with rfl | hx
      · exact (turn.moves (course.sound hw)).2.2
      · exact hsteady x hx

/-- No ticket that a call has held is in the line once it has ended. -/
theorem ends_line (h : w₀.Course t d later ts e.before a) (hw : w₀.Sound g)
    (ht : e.IsTurn t d a q s) (hn : s.next = .finish r) :
    ∀ x ∈ ts, ∀ u ∈ x.tickets t d, (e.after.lineOf a.pool).Rid u := by
  intro x hx u hu
  rcases h.line hw x hx u hu with hheld | hrid
  · refine ht.rid (h.sound hw) hheld ?_
    rw [hn]
    exact List.not_mem_nil
  · exact (react_line (h.sound hw) ht.react _).rid hrid

/-- A call that held no place at first has given up each that it took when it ends. -/
theorem ends_places (h : w₀.Course t d later ts e.before a) (hw : w₀.Sound g)
    (ha : w₀.callAt t d = some a₀) (hnone : a₀.point.places = 0) (ht : e.IsTurn t d a q s)
    (hn : s.next = .finish r) :
    (e :: ts).countP (Episode.reserves a.pool) = (e :: ts).countP (Episode.releases a.pool) ∧
      ∀ x ∈ e :: ts, x.reserves a.pool = true ∨ x.releases a.pool = true ∨
        x.after.creatingOf a.pool = x.before.creatingOf a.pool := by
  obtain ⟨hsum, hsteady⟩ := h.places hw ha
  have hbalance := ht.balance (h.sound hw) ts
  rw [hn, show (Next.finish (ρ := ρ) r).places = 0 from rfl] at hbalance
  refine ⟨by omega, fun x hx => ?_⟩
  rcases List.mem_cons.mp hx with rfl | hx
  · exact (ht.moves (h.sound hw)).2.2
  · exact hsteady x hx

end World.Course

end ObjectPool
