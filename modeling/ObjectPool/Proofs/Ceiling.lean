/-
  ObjectPool.Proofs.Ceiling

  How many objects of a pool can be idle, in every world that can be reached. Nothing
  joins the idle queue unless there is room below the ceiling. But an object that was
  tried out goes back without a look at the ceiling, and finds the queue full if others
  have joined it in the meantime. Each time that happens one more object is idle than
  there may be, and it is the only way to that.

    * `Episode.crowds` — an object goes back into a full queue.
    * `World.reserve` — the objects that are idle or tried out.
    * `KeepsCeiling`, `ceiling_kept` — what follows for the idle objects of a pool.
-/

import ObjectPool.Proofs.IdleQueue

namespace ObjectPool

variable {ρ : Type}

/-- Whether an object goes back into the idle queue of the pool `i` that is full already. -/
def Episode.crowds (i : Nat) (e : Episode ρ) : Bool :=
  !(e.putBack i).isEmpty &&
    (e.before.pools[i]?).any fun p => decide (p.config.maxIdle ≤ p.registry.idle.length)

/-- The pool `i`, if there is one, has no more idle objects than its settings allow. -/
def World.Within (w : World ρ) (i : Nat) : Prop :=
  ∀ p, w.pools[i]? = some p → p.registry.idle.length ≤ p.config.maxIdle

/-- The objects of the pool `i` that are idle or tried out. -/
def World.reserve (w : World ρ) (i : Nat) : List Nat :=
  w.idleOf i ++ w.inCharge i Custody.isTest

/-! ## One event -/

section Moves

variable {o : HandOut} {n : Nat} {l l' joined back : List Nat}

/-- An object that joins the queue finds room below the ceiling. -/
theorem IdleMoves.room (h : IdleMoves o n l l' joined back) (hj : joined ≠ []) :
    l.length < n ∧ l'.length = l.length + 1 ∧ joined.length = 1 := by
  cases h with
  | thin | putBack => exact absurd rfl hj
  | join hid hroom => exact ⟨hroom, HandOut.length_push, rfl⟩

/-- An object that goes back makes the queue longer, however long it is. -/
theorem IdleMoves.grows (h : IdleMoves o n l l' joined back) (hb : back ≠ []) :
    l'.length = l.length + 1 := by
  cases h with
  | thin | join => exact absurd rfl hb
  | putBack hid => exact List.length_append

/-- If nothing goes back, the queue grows no longer than there may be idle objects. -/
theorem IdleMoves.length_le (h : IdleMoves o n l l' joined back) (hb : back = []) :
    l'.length ≤ l.length ∨ l'.length ≤ n := by
  cases h with
  | thin h => exact .inl h.length_le
  | join hid hroom =>
    rw [HandOut.length_push]
    exact .inr hroom
  | putBack => exact nomatch hb

end Moves

namespace World

variable {w : World ρ} {e : Event ρ} {f : Effect ρ} {i : Nat} {p p' : Pool ρ} {g : Nat → List Nat}
  {gs : List Nat}

theorem crowds_eq (hp : w.pools[i]? = some p) : Episode.crowds i ⟨w, e, f⟩ = true ↔
    Episode.putBack i ⟨w, e, f⟩ ≠ [] ∧ p.config.maxIdle ≤ p.registry.idle.length := by
  unfold Episode.crowds
  rw [hp, Bool.and_eq_true, Bool.not_eq_true', ← Bool.not_eq_true, List.isEmpty_iff,
    Option.any_some, decide_eq_true_eq]

/-- The idle objects become more than there may be only by one that goes back into a full queue,
    and only by that one. -/
theorem IdleAt.length_le (h : w.IdleAt e f i p') :
    p'.registry.idle.length ≤ p'.config.maxIdle ∨
      ∃ p, w.pools[i]? = some p ∧ p'.config = p.config ∧ p'.registry.idle.length ≤
        p.registry.idle.length + if Episode.crowds i ⟨w, e, f⟩ then 1 else 0 := by
  cases h with
  | new hp ho hi =>
    rw [hi]
    exact .inl (Nat.zero_le _)
  | @moves p hp hc ho hm =>
    rw [hc]
    by_cases hb : Episode.putBack i ⟨w, e, f⟩ = []
    · exact (hm.length_le hb).symm.imp_right fun hle => ⟨p, hp, rfl, Nat.le_add_right_of_le hle⟩
    · have hgrows := hm.grows hb
      by_cases hfull : p.config.maxIdle ≤ p.registry.idle.length
      · refine .inr ⟨p, hp, rfl, ?_⟩
        rw [if_pos ((crowds_eq hp).mpr ⟨hb, hfull⟩)]
        exact Nat.le_of_eq hgrows
      · exact .inl (by omega)

/-- An object that goes back into a full queue makes it too long. -/
theorem react_crowds (hw : w.Sound g) (hr : w.react e = some f)
    (hc : Episode.crowds i ⟨w, e, f⟩ = true) : ¬ f.world.Within i := by
  intro hin
  cases hp : w.pools[i]? with
  | none =>
    unfold Episode.crowds at hc
    rw [hp, Option.any_none, Bool.and_false] at hc
    exact nomatch hc
  | some p =>
    obtain ⟨hb, hfull⟩ := (crowds_eq hp).mp hc
    obtain ⟨p', hp', hconfig⟩ := react_config hw hr hp
    have hle := hin p' hp'
    cases react_idle hw hr hp' with
    | new hnone => exact nomatch hnone.symm.trans hp
    | moves hold _ _ hm =>
      obtain rfl := Option.some.inj (hold.symm.trans hp)
      rw [hconfig, hm.grows hb] at hle
      omega

theorem SoundAt.reserve_of_none (h : w.SoundAt i gs) (hp : w.pools[i]? = none) :
    w.reserve i = [] := by
  rw [reserve, idleOf, hp, inCharge, (h.housed hp).1]
  rfl

/-- An object that joins the queue finds room, and the pool keeps within its ceiling. -/
theorem react_joined (hw : w.Sound g) (hr : w.react e = some f)
    (hj : Episode.joined i ⟨w, e, f⟩ ≠ []) : f.world.Within i := by
  intro p' hp'
  cases react_idle hw hr hp' with
  | new hnone ho hi =>
    rw [hi]
    exact Nat.zero_le _
  | moves hp hc ho hm =>
    obtain ⟨hroom, hlength, -⟩ := hm.room hj
    rw [hc, hlength]
    exact hroom

/-- No object is idle and tried out, or one of these twice. -/
theorem SoundAt.nodup_reserve (h : w.SoundAt i gs) : (w.reserve i).Nodup := by
  cases hp : w.pools[i]? with
  | some p =>
    have hperm := (h.agrees hp).tracked
    have hnodup := hperm.nodup_iff.mp (h.agrees hp).tracked_nodup
    rw [reserve, idleOf_eq hp]
    exact hnodup.sublist ((List.sublist_append_left ..).append (.refl _))
  | none =>
    rw [h.reserve_of_none hp]
    exact .nil

/-- An object is idle or tried out only if it was so before, or has joined the queue. -/
theorem react_reserve (hw : w.Sound g) (hw' : f.world.SoundAt i gs) (hr : w.react e = some f) :
    (f.world.reserve i).length ≤ (Episode.joined i ⟨w, e, f⟩).length + (w.reserve i).length := by
  rw [← List.length_append]
  refine (List.subperm_of_subset hw'.nodup_reserve fun id hid => ?_).length_le
  rcases List.mem_append.mp hid with hidle | htest
  · by_cases hold : id ∈ w.reserve i
    · exact List.mem_append_right _ hold
    · refine List.mem_append_left _ (List.mem_filter.mpr ⟨hidle, decide_eq_true ⟨?_, ?_⟩⟩)
      · exact fun hin => hold (List.mem_append_left _ hin)
      · exact fun hin => hold (List.mem_append_right _ hin)
  · exact List.mem_append_right _ (List.mem_append.mpr (react_trials hw hr htest))

end World

/-! ## In every run -/

variable {es : List (Episode ρ)} {w : World ρ} {i : Nat} {p : Pool ρ}

/-- The idle objects are more than there may be by as many as went back into a full queue at
    most. -/
theorem Run.idle_le (h : Run es w) (hp : w.pools[i]? = some p) :
    p.registry.idle.length ≤ p.config.maxIdle + es.countP (Episode.crowds i) := by
  induction h generalizing p with
  | start => exact nomatch hp
  | @next es w e f run react ih =>
    rw [List.countP_cons]
    rcases (World.react_idle run.sound react hp).length_le with hle | ⟨p₀, hp₀, hc, hle⟩
    · omega
    · have hbefore := ih hp₀
      rw [hc]
      omega

/-- The ceiling held all the time exactly if no object went back into a full queue. -/
theorem Run.within_iff (h : Run es w) : (∀ e ∈ es, e.after.Within i) ↔
    ∀ e ∈ es, e.crowds i = false := by
  induction h with
  | start => exact ⟨fun _ _ he => (nomatch he), fun _ _ he => nomatch he⟩
  | @next es w e f run react ih =>
    rw [List.forall_mem_cons, List.forall_mem_cons, ← ih]
    -- the episodes before count nothing if none of them crowded the queue
    refine and_congr_left fun hold => ⟨fun hin => ?_, fun hc p hp => ?_⟩
    · rw [← Bool.not_eq_true]
      exact fun hc => World.react_crowds run.sound react hc hin
    · have hnone : ∀ x ∈ (⟨w, e, f⟩ : Episode ρ) :: es, x.crowds i = false :=
        List.forall_mem_cons.mpr ⟨hc, ih.mp hold⟩
      have hle := (run.next react).idle_le hp
      rwa [List.countP_eq_zero.mpr fun x hx => Bool.eq_false_iff.mp (hnone x hx)] at hle

/-- The idle objects and those tried out together are as few as there may be idle ones, if none
    joins them during a trial. -/
theorem Run.reserve_le (h : Run es w) (hp : w.pools[i]? = some p)
    (hj : ∀ e ∈ es, e.joined i ≠ [] → e.before.inCharge i Custody.isTest = []) :
    (w.reserve i).length ≤ p.config.maxIdle := by
  induction h generalizing p with
  | start => exact nomatch hp
  | @next es w e f run react ih =>
    have hgrows := World.react_reserve run.sound ((run.next react).sound.pools i) react
    have hcalm := hj _ (List.mem_cons_self ..)
    cases World.react_idle run.sound react hp with
    | new hnone _ hi =>
      -- a pool that was just made has nothing
      have hjoined : Episode.joined i ⟨w, e, f⟩ = [] := by
        refine newcomers_eq_nil fun id hid => ?_
        rw [show (Episode.after ⟨w, e, f⟩).idleOf i = _ from World.idleOf_eq hp, hi] at hid
        exact nomatch hid
      rw [hjoined, (run.sound.pools i).reserve_of_none hnone] at hgrows
      exact Nat.le_trans hgrows (Nat.zero_le _)
    | @moves p₀ hp₀ hc _ hm =>
      rw [hc]
      by_cases hjoined : Episode.joined i ⟨w, e, f⟩ = []
      · rw [hjoined, List.length_nil, Nat.zero_add] at hgrows
        exact Nat.le_trans hgrows (ih hp₀ fun x hx => hj x (List.mem_cons_of_mem _ hx))
      · -- an object has joined the queue, so nothing is tried out and there was room
        obtain ⟨hroom, -, hone⟩ := hm.room hjoined
        have htests : w.reserve i = p₀.registry.idle := by
          rw [World.reserve, hcalm hjoined, List.append_nil, World.idleOf_eq hp₀]
        rw [hone, htests] at hgrows
        omega

/-- How many objects of the pool `i` are idle. -/
structure KeepsCeiling (es : List (Episode ρ)) (w : World ρ) (i : Nat) (p : Pool ρ) : Prop where
  /-- They are more than the settings allow by as many as went back into a full queue at most. -/
  bounded : p.registry.idle.length ≤ p.config.maxIdle + es.countP (Episode.crowds i)
  /-- The ceiling held all the time exactly if none went back into a full queue. -/
  within_iff : (∀ e ∈ es, e.after.Within i) ↔ ∀ e ∈ es, e.crowds i = false
  /-- An object that was returned or made finds room when it joins the idle ones. -/
  entered : ∀ e ∈ es, e.joined i ≠ [] → e.after.Within i
  /-- The ceiling holds if idle objects are not tried out, -/
  untested : p.config.testWhileIdle = false → p.registry.idle.length ≤ p.config.maxIdle
  /-- and if none is returned or made while others are tried out. -/
  undisturbed : (∀ e ∈ es, e.joined i ≠ [] → e.before.inCharge i Custody.isTest = []) →
    p.registry.idle.length ≤ p.config.maxIdle

/-- In every run the ceiling is passed only by objects that go back into a full queue. -/
theorem ceiling_kept (h : Run es w) (hp : w.pools[i]? = some p) : KeepsCeiling es w i p where
  bounded := h.idle_le hp
  within_iff := h.within_iff
  entered := fun e he hj => by
    obtain ⟨es', run, react⟩ := h.of_mem he
    exact World.react_joined run.sound react hj
  untested := fun ht => by
    have hback := h.putBack_eq_nil fun q hq => by
      obtain rfl := Option.some.inj (hp.symm.trans hq)
      exact ht
    have hle := h.idle_le hp
    rwa [List.countP_eq_zero.mpr fun e he => by simp [Episode.crowds, hback e he]] at hle
  undisturbed := fun hj => by
    have hle := h.reserve_le hp hj
    rw [World.reserve, List.length_append, World.idleOf_eq hp] at hle
    omega

/-- Three objects of a pool that keeps one idle are lent. One is returned and tried out, and
    another is returned in the meantime. The third is returned when both are idle. -/
def crowdedEvents : List (Event Nat) :=
  [.create { maxTotal := 3, maxIdle := 1, testWhileIdle := true }, .spawn, .spawn,
    .begin 0 0 (.borrow none "first"), .step 0, .step 0, .answer 0 (.created (.ok 7)),
    .answer 0 (.activated 7 none),
    .begin 0 0 (.borrow none "second"), .step 0, .step 0, .answer 0 (.created (.ok 8)),
    .answer 0 (.activated 8 none),
    .begin 0 0 (.borrow none "third"), .step 0, .step 0, .answer 0 (.created (.ok 9)),
    .answer 0 (.activated 9 none),
    .giveBack 0 0 0, .step 0, .answer 0 (.passivated 7 none),
    .begin 0 0 .maintain, .step 0, .step 0,
    .giveBack 1 0 1, .step 1, .answer 1 (.passivated 8 none),
    .answer 0 (.activated 7 none), .answer 0 (.validated true), .answer 0 (.passivated 7 none),
    .giveBack 1 0 2, .step 1, .answer 1 (.passivated 9 none), .answer 1 (.destroyed none)]

theorem ceiling_kept_crowded :
    ∃ p, Run (episodes crowdedEvents) (reached crowdedEvents) ∧
      (reached crowdedEvents).pools[0]? = some p ∧
      KeepsCeiling (episodes crowdedEvents) (reached crowdedEvents) 0 p :=
  ⟨_, Run.of_events rfl, rfl, ceiling_kept (Run.of_events rfl) rfl⟩

/-- All three have been returned to the pool, which may keep one object idle and keeps two. -/
theorem two_idle_of_one :
    ∃ p, Run (episodes crowdedEvents) (reached crowdedEvents) ∧
      (reached crowdedEvents).pools[0]? = some p ∧ p.config.validate = .ok () ∧
      p.config.maxIdle = 1 ∧ p.registry.idle = [1, 0] ∧ p.counters.returned = 3 ∧
      (episodes crowdedEvents).countP (Episode.crowds 0) = 1 :=
  ⟨_, Run.of_events rfl, rfl, rfl, by decide +kernel, by decide +kernel, by decide +kernel,
    by decide +kernel⟩

end ObjectPool
