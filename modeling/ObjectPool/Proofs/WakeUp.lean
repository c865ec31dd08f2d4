/-
  ObjectPool.Proofs.WakeUp

  No borrower waits in vain, in every world that can be reached. Each borrower that
  waits is in line or was woken, and never both. While others are in line and
  something is to be had, some borrower was woken and goes on (`World.Wakeful`). So
  if no thread goes on, whoever waits does so because the pool has nothing left.
-/

import ObjectPool.Proofs.Invariant

namespace ObjectPool

variable {ρ : Type}

/-- Whether a call is a borrower that waits. -/
def Point.isWaiting : Point ρ → Bool
  | .waiting _ _ => true
  | _ => false

theorem length_tickets (pts : List (Point ρ)) :
    (pts.flatMap Point.tickets).length = pts.countP Point.isWaiting := by
  induction pts with
  | nil => rfl
  | cons pt pts ih =>
    rw [List.flatMap_cons, List.length_append, List.countP_cons, ih, Nat.add_comm]
    cases pt <;> rfl

theorem mem_tickets {t : Nat} {pts : List (Point ρ)} :
    t ∈ pts.flatMap Point.tickets ↔ ∃ b, .waiting b t ∈ pts := by
  rw [List.mem_flatMap]
  constructor
  · rintro ⟨pt, hpt, ht⟩
    cases pt with
    | waiting b u =>
      obtain rfl := List.mem_singleton.mp ht
      exact ⟨b, hpt⟩
    | _ => exact nomatch ht
  · rintro ⟨b, hb⟩
    exact ⟨_, hb, List.mem_singleton.mpr rfl⟩

/-- A borrower that waits is in line once, or was woken. -/
theorem WaitLine.Holds.line_or_woken {l : WaitLine} {ts : List Nat} {t : Nat} (h : l.Holds ts)
    (ht : t ∈ ts) : (l.queue.count t = 1 ∧ t ∉ l.woken) ∨ (t ∉ l.queue ∧ t ∈ l.woken) := by
  have hnodup := h.nodup_append
  rcases h.mem_iff.mp ht with hq | hw
  · have hone : l.queue.count t = 1 := by
      rw [(List.nodup_append.mp hnodup).1.count, if_pos hq]
    exact .inl ⟨hone, h.not_mem_both hq⟩
  · exact .inr ⟨fun hq => h.not_mem_both hq hw, hw⟩

/-- What a borrower could have of a pool that is open. -/
theorem Registry.available_eq {r : Registry} (ho : r.closed = false) :
    r.available = true ↔ r.idle ≠ [] ∨ r.tracked.length + r.creating < r.capacity := by
  unfold available total
  rw [ho]
  cases r.idle <;> simp

namespace World

variable {w : World ρ} {gs : List Nat} {i t u : Nat} {p : Pool ρ} {b : Borrowing}

/-- The borrowers that wait for an object of the pool `i`. -/
def waiting (w : World ρ) (i : Nat) : Nat := (w.points i).countP Point.isWaiting

/-- No thread goes on by itself. -/
def Stalled (w : World ρ) : Prop := ∀ u, w.step u = none

/-- A borrower that waits has no other call on top of it. -/
theorem Nested.top?_of_waiting (h : w.Nested) (hb : .waiting b t ∈ w.points i) :
    ∃ u, w.top? u = some ⟨i, .waiting b t⟩ := by
  obtain ⟨th, hth, hmem⟩ := mem_points.mp hb
  obtain ⟨u, hu⟩ := List.mem_iff_getElem?.mp hth
  have hnest := h th hth
  refine ⟨u, ?_⟩
  rw [top?, hu, Option.bind_some]
  cases hs : th.stack with
  | nil =>
    rw [hs] at hmem
    cases hmem
  | cons a rest =>
    rw [hs] at hmem hnest
    rcases List.mem_cons.mp hmem with rfl | hrest
    · rfl
    · -- a call below another one waits for an answer, and not in line
      cases hnest _ hrest

/-- A borrower that was woken goes on. -/
theorem step_of_woken (hp : w.pools[i]? = some p) (ht : w.top? u = some ⟨i, .waiting b t⟩)
    (hw : t ∈ p.registry.line.woken) : (w.step u).isSome = true := by
  obtain ⟨th, rest, hth, hs⟩ := top?_eq_some ht
  have hwoken : p.registry.line.isWoken t = true := decide_eq_true hw
  have hadv : p.advance w.now u w.hasEnded (.waiting b t) = some (p.seek w.now b (some t)) := by
    rw [Pool.advance, hwoken, Bool.true_or, if_pos rfl]
  simp only [World.step, hth, hs, hp, hadv, Option.bind_eq_bind, Option.bind_some]
  rfl

/-- Nobody waits for an object of the pool `i` in vain. -/
structure Wakeful (w : World ρ) (i : Nat) (p : Pool ρ) : Prop where
  /-- Each borrower has a ticket of its own. -/
  tickets : ((w.points i).flatMap Point.tickets).Nodup
  /-- A borrower that waits is in line once and was not woken, or was woken. -/
  line_or_woken : ∀ b t, .waiting b t ∈ w.points i →
    (p.registry.line.queue.count t = 1 ∧ t ∉ p.registry.line.woken) ∨
      (t ∉ p.registry.line.queue ∧ t ∈ p.registry.line.woken)
  /-- While others are in line and something is to be had, a borrower was woken that has not
      looked again, and its thread goes on. -/
  awake : p.closed = false → p.registry.line.queue ≠ [] →
    (p.registry.idle ≠ [] ∨ p.registry.tracked.length + p.registry.creating < p.config.maxTotal) →
    ∃ u b t, w.top? u = some ⟨i, .waiting b t⟩ ∧ t ∈ p.registry.line.woken ∧
      (w.step u).isSome = true
  /-- If no thread goes on, whoever waits does so because nothing is left. -/
  nothing_left : p.closed = false → w.Stalled → 0 < w.waiting i →
    p.registry.idle = [] ∧ p.registry.tracked.length + p.registry.creating = p.config.maxTotal
  /-- If no thread goes on, the borrowers in line are all that wait. -/
  waiters : w.Stalled → p.status.waiters = w.waiting i

/-- A ticket that was woken is that of a borrower, which goes on. -/
theorem goes_on_of_woken (hn : w.Nested) (hp : w.pools[i]? = some p)
    (hl : p.registry.line.Holds ((w.points i).flatMap Point.tickets))
    (ht : t ∈ p.registry.line.woken) :
    ∃ u b, w.top? u = some ⟨i, .waiting b t⟩ ∧ (w.step u).isSome = true := by
  obtain ⟨b, hb⟩ := mem_tickets.mp (hl.mem_iff.mpr (.inr ht))
  obtain ⟨u, hu⟩ := hn.top?_of_waiting hb
  exact ⟨u, b, hu, step_of_woken hp hu ht⟩

/-- If no thread goes on, nobody was woken. -/
theorem Stalled.woken_eq_nil (hs : w.Stalled) (hn : w.Nested) (hp : w.pools[i]? = some p)
    (hl : p.registry.line.Holds ((w.points i).flatMap Point.tickets)) :
    p.registry.line.woken = [] := by
  rw [List.eq_nil_iff_forall_not_mem]
  intro t ht
  obtain ⟨u, b, -, hstep⟩ := goes_on_of_woken hn hp hl ht
  rw [hs u] at hstep
  exact nomatch hstep

theorem SoundAt.wakeful (h : w.SoundAt i gs) (hn : w.Nested) (hp : w.pools[i]? = some p) :
    w.Wakeful i p := by
  have hsound := h.sound p hp
  have hline : p.registry.line.Holds ((w.points i).flatMap Point.tickets) := hsound.books.line
  have hwaiting : w.waiting i = ((w.points i).flatMap Point.tickets).length :=
    (length_tickets _).symm
  -- a stalled line is the queue alone
  have hqueue : w.Stalled → p.registry.line.queue.length = w.waiting i := by
    intro hs
    have hlen := hline.perm.length_eq
    rwa [hs.woken_eq_nil hn hp hline, List.append_nil, ← hwaiting] at hlen
  refine ⟨hline.nodup, fun b t hb => hline.line_or_woken (mem_tickets.mpr ⟨b, hb⟩),
    fun ho hq ha => ?_, fun ho hs hw => ?_, hqueue⟩
  · -- somebody was woken, and whoever was woken goes on
    rw [← hsound.capacity, ← Registry.available_eq ho] at ha
    obtain ⟨t, ht⟩ := List.exists_mem_of_ne_nil _ (hsound.books.awake ho ha hq)
    obtain ⟨u, b, hu, hstep⟩ := goes_on_of_woken hn hp hline ht
    exact ⟨u, b, t, hu, ht, hstep⟩
  · have hq : p.registry.line.queue ≠ [] := by
      rw [← List.length_pos_iff, hqueue hs]
      exact hw
    -- if there were something to be had, somebody would have been woken
    have hnone : ¬ p.registry.available = true := fun ha =>
      hsound.books.awake ho ha hq (hs.woken_eq_nil hn hp hline)
    rw [Registry.available_eq ho, not_or, hsound.capacity, Decidable.not_not] at hnone
    have hwithin : p.registry.tracked.length + p.registry.creating ≤ p.config.maxTotal :=
      hsound.capacity ▸ hsound.books.within
    exact ⟨hnone.1, Nat.le_antisymm hwithin (Nat.le_of_not_lt hnone.2)⟩

end World

/-- In every world that can be reached nobody waits in vain. -/
theorem wake_ups_kept {es : List (Episode ρ)} {w : World ρ} (h : Run es w) {i : Nat} {p : Pool ρ}
    (hp : w.pools[i]? = some p) : w.Wakeful i p :=
  (h.sound.pools i).wakeful h.sound.nested hp

/-- Two borrowers wait for the only object of a pool. -/
def lineEvents : List (Event Nat) :=
  [.create { maxTotal := 1 }, .spawn, .spawn, .spawn,
    .begin 0 0 (.borrow none "holder"), .step 0, .step 0, .answer 0 (.created (.ok 7)),
    .answer 0 (.activated 7 none),
    .begin 1 0 (.borrow none "first"), .step 1, .step 1,
    .begin 2 0 (.borrow none "second"), .step 2, .step 2]

example : (reached lineEvents).Stalled ∧ (reached lineEvents).waiting 0 = 2 :=
  ⟨fun | 0 | 1 | 2 | _ + 3 => rfl, rfl⟩

/-- Their object comes back, and the first of the two is woken. -/
def wokenEvents : List (Event Nat) :=
  lineEvents ++ [.giveBack 0 0 0, .step 0, .answer 0 (.passivated 7 none)]

theorem wake_ups_kept_after_return :
    ∃ p, Run (episodes wokenEvents) (reached wokenEvents) ∧
      (reached wokenEvents).pools[0]? = some p ∧ p.closed = false ∧
      p.registry.idle = [0] ∧ p.registry.line.queue = [1] ∧ p.registry.line.woken = [0] ∧
      (reached wokenEvents).Wakeful 0 p :=
  ⟨_, Run.of_events rfl, rfl, rfl, rfl, rfl, rfl, wake_ups_kept (Run.of_events rfl) rfl⟩

end ObjectPool
