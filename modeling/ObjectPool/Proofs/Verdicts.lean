/-
  ObjectPool.Proofs.Verdicts

  The failed checks of a whole run. At every moment a pool has counted as many of them as checks
  have said no, whoever had an object checked: a borrower, a call that made it or to which it came
  back, or a round of upkeep. Besides it has counted every idle object that the factory refused to
  ready or to lay to rest while it was tried out. Such a refusal is counted nowhere else, so a pool
  that tries out no idle object counts the checks that said no and nothing more.

    * `Episode.rejects`, `Episode.failsTrial` — the answers that a pool counts.
    * `react_failures` — what one event counts.
    * `FailedChecks` — what is counted, in the run and in each of its episodes.
    * `failed_checks_counted` — the main statement.
    * `refused_trial_counted` — a refusal counted though no check has said no.
-/

import ObjectPool.Proofs.LifeCycle
import ObjectPool.Proofs.Stretch.Verdicts

namespace ObjectPool

variable {ρ : Type}

namespace Episode

/-- Whether a call on the pool `i` gets an answer of some sort. -/
def answered (i : Nat) (judge : Point ρ → Response ρ → Bool) (e : Episode ρ) : Bool :=
  match e.event, e.call? with
  | .answer _ r, some a => decide (a.pool = i) && judge a.point r
  | _, _ => false

/-- A check of an object of the pool `i` says no. -/
def rejects (i : Nat) (e : Episode ρ) : Bool := e.answered i Point.rejects

/-- An idle object of the pool `i` that is tried out cannot be readied, or cannot be laid to
    rest. -/
def failsTrial (i : Nat) (e : Episode ρ) : Bool := e.answered i Point.failsTrial

end Episode

namespace World

variable {w : World ρ} {g : Nat → List Nat} {e : Event ρ} {f : Effect ρ} {t i : Nat}
  {a : Activity ρ} {q : Pool ρ} {s : Stretch ρ}

/-- The answers that the call that runs gets are those of its pool. -/
theorem Works.answered (h : w.Works e f t a q s) (i : Nat) (judge : Point ρ → Response ρ → Bool) :
    Episode.answered i judge ⟨w, e, f⟩ =
      (decide (a.pool = i) && e.response?.any (judge a.point)) := by
  unfold Episode.answered
  rw [h.call]
  rcases h.runs with ⟨rfl, -⟩ | ⟨r, rfl, -⟩
  · simp [Event.response?]
  · rfl

/-- What an event counts as failed checks of the pool `i`. -/
theorem react_failures (hw : w.Sound g) (hr : w.react e = some f) (i : Nat) :
    (f.world.countersOf i).validationFailures = (w.countersOf i).validationFailures +
      (Episode.rejects i ⟨w, e, f⟩).toNat + (Episode.failsTrial i ⟨w, e, f⟩).toNat := by
  rcases react_opens hr with ⟨hopens, hidle⟩ | ⟨t, a, q, s, h⟩
  · -- no call runs, and so none gets an answer
    have hcall : Episode.call? ⟨w, e, f⟩ = none := by
      unfold Episode.call?
      cases ht : Episode.thread? ⟨w, e, f⟩ with
      | none => rfl
      | some t =>
        rw [Option.bind_some, top?_eq_head?, show w.stackOf t = [] from hidle t ht]
        rfl
    have hnone : ∀ judge, Episode.answered i judge ⟨w, e, f⟩ = false := by
      intro judge
      unfold Episode.answered
      rw [hcall]
      split
      · next heq => exact nomatch heq
      · rfl
    rw [show Episode.rejects i ⟨w, e, f⟩ = false from hnone _,
      show Episode.failsTrial i ⟨w, e, f⟩ = false from hnone _]
    cases hopens with
    | rests _ hc => rw [hc i]; rfl
    | begins _ _ _ _ _ hc =>
      rw [hc i]
      split <;> rfl
  · rw [Episode.rejects, Episode.failsTrial, h.answered, h.answered, h.countersOf]
    by_cases hi : a.pool = i
    · subst hi
      have hcount : s.pool.counters.validationFailures =
          q.counters.validationFailures + e.verdicts a.point := h.failures hw
      rw [if_pos rfl, hcount, countersOf_eq h.pool]
      simp only [decide_true, Bool.true_and]
      rcases h.runs with ⟨rfl, -⟩ | ⟨r, rfl, -⟩
      · rfl
      · exact (Nat.add_assoc ..).symm
    · simp [hi]

end World

/-! ## A whole run -/

/-- The failed checks that a pool has counted in a run. -/
structure FailedChecks (es : List (Episode ρ)) (w : World ρ) (i : Nat) : Prop where
  /-- Every check that said no is counted once, and so is every idle object that was refused while
      it was tried out. -/
  counted : (w.countersOf i).validationFailures =
    es.countP (Episode.rejects i) + es.countP (Episode.failsTrial i)
  /-- They are counted as they happen, and nothing else is. -/
  promptly : ∀ e ∈ es, (e.after.countersOf i).validationFailures =
    (e.before.countersOf i).validationFailures + (e.rejects i).toNat + (e.failsTrial i).toNat
  /-- The checks alone are counted as long as no idle object is refused. -/
  checks : (∀ e ∈ es, e.failsTrial i = false) →
    (w.countersOf i).validationFailures = es.countP (Episode.rejects i)

section Runs

variable {es : List (Episode ρ)} {w : World ρ}

theorem Run.failures (h : Run es w) (i : Nat) : (w.countersOf i).validationFailures =
    es.countP (Episode.rejects i) + es.countP (Episode.failsTrial i) := by
  induction h with
  | start => rfl
  | @next es w e f run react ih =>
    rw [World.react_failures run.sound react i, ih, List.countP_cons, List.countP_cons]
    cases Episode.rejects i ⟨w, e, f⟩ <;> cases Episode.failsTrial i ⟨w, e, f⟩ <;>
    · simp only [Bool.toNat_true, Bool.toNat_false, Bool.false_eq_true, if_true, if_false]
      omega

/-- At every moment of a run a pool has counted the checks that said no and the idle objects that
    were refused while they were tried out. -/
theorem failed_checks_counted (h : Run es w) (i : Nat) : FailedChecks es w i where
  counted := h.failures i
  promptly := fun e he => by
    obtain ⟨es', hrun, hreact⟩ := h.of_mem he
    exact World.react_failures hrun.sound hreact i
  checks := fun hnone => by
    have hzero : es.countP (Episode.failsTrial i) = 0 :=
      List.countP_eq_zero.mpr fun e he => Bool.eq_false_iff.mp (hnone e he)
    rw [h.failures i, hzero, Nat.add_zero]

end Runs

/-- A returned object is found unfit. Another one is made, and a round of upkeep tries it out: it is
    found fit, but the factory refuses to lay it to rest. -/
def unfitEvents : List (Event Nat) :=
  [.create { maxTotal := 1, testOnReturn := true, testWhileIdle := true, eviction := .never },
    .spawn, .begin 0 0 (.borrow none "a"), .step 0, .step 0, .answer 0 (.created (.ok 7)),
    .answer 0 (.activated 7 none), .giveBack 0 0 0, .step 0, .answer 0 (.validated false),
    .answer 0 (.destroyed none), .begin 0 0 .add, .step 0, .answer 0 (.created (.ok 8)),
    .answer 0 (.passivated 8 none), .begin 0 0 .maintain, .step 0, .step 0,
    .answer 0 (.activated 8 none), .answer 0 (.validated true),
    .answer 0 (.passivated 8 (some "no")), .answer 0 (.destroyed none), .step 0, .step 0]

theorem failed_checks_counted_when_unfit :
    Run (episodes unfitEvents) (reached unfitEvents) ∧
      (episodes unfitEvents).countP (Episode.rejects 0) = 1 ∧
      (episodes unfitEvents).countP (Episode.failsTrial 0) = 1 ∧
      ((reached unfitEvents).countersOf 0).validationFailures = 2 ∧
      FailedChecks (episodes unfitEvents) (reached unfitEvents) 0 :=
  ⟨Run.of_events rfl, rfl, rfl, rfl, failed_checks_counted (Run.of_events rfl) 0⟩

/-- An object is borrowed and returned. A round of upkeep tries it out, and the factory refuses to
    ready it. -/
def refusedTrialEvents : List (Event Nat) :=
  [.create { maxTotal := 1, testWhileIdle := true, eviction := .never }, .spawn,
    .begin 0 0 (.borrow none "a"), .step 0, .step 0, .answer 0 (.created (.ok 7)),
    .answer 0 (.activated 7 none), .giveBack 0 0 0, .step 0, .answer 0 (.passivated 7 none),
    .begin 0 0 .maintain, .step 0, .step 0, .answer 0 (.activated 7 (some "no")),
    .answer 0 (.destroyed none), .step 0, .step 0]

/-- No check has said no and no call is in progress, but the pool has counted a failed check. -/
theorem refused_trial_counted :
    Run (episodes refusedTrialEvents) (reached refusedTrialEvents) ∧
      (reached refusedTrialEvents).Quiet 0 ∧
      (episodes refusedTrialEvents).countP (Episode.rejects 0) = 0 ∧
      ((reached refusedTrialEvents).countersOf 0).validationFailures = 1 := by
  have hnone : (reached refusedTrialEvents).points 0 = [] := rfl
  refine ⟨Run.of_events rfl, fun pt hpt => ?_, rfl, rfl⟩
  rw [hnone] at hpt
  exact nomatch hpt

end ObjectPool
