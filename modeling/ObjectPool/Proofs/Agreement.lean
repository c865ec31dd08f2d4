/-
  ObjectPool.Proofs.Agreement

  How the books of a pool agree with the state of its objects, in every world that
  can be reached and so also while the factory runs. The tracked objects are the
  idle ones, the lent ones and those that an idle sweep is trying out, each listed
  once, and the places held are those of the calls that make an object
  (`World.Agrees`). It follows that no call finds an object otherwise than it
  expects (`World.Unsurprised`).
-/

import ObjectPool.Proofs.Invariant

namespace ObjectPool

variable {ρ : Type}

namespace Custody

/-- An object is being tried out, or is to be. -/
def isTest : Custody ρ → Bool
  | .untried | .trying => true
  | _ => false

/-- The state of an object in the charge of a call. -/
def state : Custody ρ → Lifecycle
  | .lending => .allocated
  | .returning => .returning
  | .untried | .trying => .validation
  | .stocking | .drained => .idle
  | .evicted => .invalid
  | .seized _ => .abandoned

theorem Has.shape {c : Custody ρ} {v : Position ρ} (h : c.Has v) :
    ∃ s, v.shape = some s ∧ s.state = c.state := by
  cases h <;> exact ⟨_, rfl, rfl⟩

end Custody

/-! ## Where the books list an object -/

namespace Position.Legal

variable {v : Position ρ}

theorem tracked_eq (h : v.Legal) :
    v.tracked = v.idle + v.active + v.charges.countP Custody.isTest := by
  cases h with
  | unborn | idle | lent | dead => rfl
  | entrusted he => cases he <;> rfl

theorem tracked_le_one (h : v.Legal) : v.tracked ≤ 1 := by
  cases h with
  | unborn | idle | lent | dead => exact Nat.le_of_ble_eq_true rfl
  | entrusted he => cases he <;> exact Nat.le_of_ble_eq_true rfl

/-- The state of an object that is listed as idle. -/
theorem shape_of_idle (h : v.Legal) (hi : 0 < v.idle) :
    ∃ s, v.shape = some s ∧ s.state = .idle := by
  cases h with
  | idle r => exact ⟨_, rfl, rfl⟩
  | unborn | lent | dead => exact absurd hi (Nat.lt_irrefl 0)
  | entrusted he => cases he <;> exact absurd hi (Nat.lt_irrefl 0)

/-- The state of an object that is listed as lent. -/
theorem shape_of_active (h : v.Legal) (ha : 0 < v.active) :
    ∃ s, v.shape = some s ∧ (s.state = .allocated ∨ s.state = .returning) := by
  cases h with
  | lent g r => exact ⟨_, rfl, .inl rfl⟩
  | unborn | idle | dead => exact absurd ha (Nat.lt_irrefl 0)
  | entrusted he =>
    cases he with
    | lending r => exact ⟨_, rfl, .inl rfl⟩
    | returning r => exact ⟨_, rfl, .inr rfl⟩
    | _ => exact absurd ha (Nat.lt_irrefl 0)

/-- The state of an object in the charge of a call. -/
theorem shape_of_charge (h : v.Legal) {c : Custody ρ} (hc : c ∈ v.charges) :
    ∃ s, v.shape = some s ∧ s.state = c.state := by
  cases h with
  | unborn | idle | lent | dead => exact nomatch hc
  | @entrusted c' v he =>
    obtain rfl := List.mem_singleton.mp hc
    exact he.shape

end Position.Legal

namespace Pool.Sound

variable {p : Pool ρ} {ℓ : Ledger ρ} {id : Nat}

theorem isIn_of_shape {s : Shape ρ} {k : Lifecycle} (hs : p.shape? id = some s)
    (hk : s.state = k) : p.isIn id k = true := by
  rw [isIn_eq_shape?, hs]
  simp [hk]

theorem isIn_idle (h : p.Sound ℓ) (hid : id ∈ p.registry.idle) : p.isIn id .idle = true := by
  obtain ⟨s, hs, hk⟩ := (h.objects id).shape_of_idle (List.count_pos_iff.mpr hid)
  exact isIn_of_shape hs hk

theorem isIn_active (h : p.Sound ℓ) (hid : id ∈ p.registry.active) :
    p.isIn id .allocated = true ∨ p.isIn id .returning = true := by
  obtain ⟨s, hs, hk⟩ := (h.objects id).shape_of_active (List.count_pos_iff.mpr hid)
  exact hk.imp (isIn_of_shape hs) (isIn_of_shape hs)

theorem isIn_charge (h : p.Sound ℓ) {c : Custody ρ} (hc : (id, c) ∈ ℓ.charges) :
    p.isIn id c.state = true := by
  obtain ⟨s, hs, hk⟩ := (h.objects id).shape_of_charge (mem_claims.mpr hc)
  exact isIn_of_shape hs hk

theorem nodup_tracked (h : p.Sound ℓ) : p.registry.tracked.Nodup :=
  List.nodup_iff_count.mpr fun id => (h.objects id).tracked_le_one

end Pool.Sound

/-! ## The agreement -/

namespace World

variable {w : World ρ} {i : Nat} {p : Pool ρ}

/-- The books of the pool `i` agree with the state of its objects and with its calls. -/
structure Agrees (w : World ρ) (i : Nat) (p : Pool ρ) : Prop where
  idle_nodup : p.registry.idle.Nodup
  active_nodup : p.registry.active.Nodup
  tracked_nodup : p.registry.tracked.Nodup
  disjoint : ∀ id ∈ p.registry.idle, id ∉ p.registry.active
  /-- A tracked object is idle, or lent, or under test by a sweep on its way. -/
  tracked : p.registry.tracked.Perm
    (p.registry.idle ++ p.registry.active ++ w.inCharge i Custody.isTest)
  idle : ∀ id ∈ p.registry.idle, p.isIn id .idle = true
  active : ∀ id ∈ p.registry.active, p.isIn id .allocated = true ∨ p.isIn id .returning = true
  tested : ∀ id ∈ w.inCharge i Custody.isTest, p.isIn id .validation = true
  /-- Each place is held by a call that makes an object or readies it for the idle queue. -/
  creating : p.registry.creating = ((w.points i).map Point.places).sum
  within : p.registry.tracked.length + p.registry.creating ≤ p.config.maxTotal

/-- No call on the pool `i` finds an object or a place otherwise than it expects. -/
structure Unsurprised (w : World ρ) (i : Nat) (p : Pool ρ) : Prop where
  /-- The first of the idle queue is lent, and no other number leaves the queue. -/
  acquire : ∀ now id rest, p.registry.idle = id :: rest →
    p.acquire now = ((p.book (Registry.lend id rest)).markLent now id, some (.idle id))
  /-- The call that is about to put a returned object back finds it on its way back. -/
  shelve : ∀ id answer, .passivating id (.takeBack answer) ∈ w.points i →
    p.isIn id .returning = true
  /-- Each idle object reaches the state that a sweep has decided on for it. -/
  sort : ∀ now left ids, ∀ id ∈ p.registry.idle,
    id ∈ (p.sortIdle now left ids).out ∧ (p.sortIdle now left ids).pool.isIn id .invalid = true ∨
    id ∈ (p.sortIdle now left ids).tests ∧
      (p.sortIdle now left ids).pool.isIn id .validation = true ∨
    id ∈ (p.sortIdle now left ids).pool.registry.idle ∧
      (p.sortIdle now left ids).pool.isIn id .idle = true
  /-- The call that is about to give up a place finds it held. -/
  places : ∀ pt ∈ w.points i, pt.places ≤ p.registry.creating

theorem perm_tracked {gs : List Nat} (h : p.Sound (.of p (w.points i) (w.lent i) gs)) :
    p.registry.tracked.Perm
      (p.registry.idle ++ p.registry.active ++ w.inCharge i Custody.isTest) := by
  rw [List.perm_iff_count]
  intro id
  rw [List.count_append, List.count_append, count_inCharge]
  exact (h.objects id).tracked_eq

theorem SoundAt.agrees {gs : List Nat} (h : w.SoundAt i gs) (hp : w.pools[i]? = some p) :
    w.Agrees i p := by
  have hs := h.sound p hp
  have hperm := perm_tracked hs
  have hnodup := hperm.nodup_iff.mp hs.nodup_tracked
  -- no object is listed twice, in one list or in two
  have hpair := List.nodup_append.mp (List.nodup_append.mp hnodup).1
  refine ⟨hpair.1, hpair.2.1, hs.nodup_tracked, fun id hi ha => hpair.2.2 id hi id ha rfl, hperm,
    fun id => hs.isIn_idle, fun id => hs.isIn_active, ?_, hs.books.creating, ?_⟩
  · intro id hid
    obtain ⟨⟨_, c⟩, hc, rfl⟩ := List.mem_map.mp hid
    obtain ⟨hmem, htest⟩ := List.mem_filter.mp hc
    have hin := hs.isIn_charge hmem
    cases c with
    | untried | trying => exact hin
    | _ => exact nomatch htest
  · rw [← hs.capacity]
    exact hs.books.within

theorem SoundAt.unsurprised {gs : List Nat} (h : w.SoundAt i gs) (hp : w.pools[i]? = some p) :
    w.Unsurprised i p := by
  have hs := h.sound p hp
  refine ⟨fun now id rest hi => ?_, fun id answer hpt => ?_, fun now left ids id hid => ?_,
    fun pt hpt => ?_⟩
  · rw [hs.acquire_eq now, hi]
  · have hcharge : (id, Custody.returning) ∈ (w.points i).flatMap Point.charges :=
      List.mem_flatMap.mpr ⟨_, hpt, List.mem_singleton.mpr rfl⟩
    exact hs.isIn_charge hcharge
  · have hsort := hs.sortIdle now left ids
    rcases Pool.mem_sortIdle now left ids hid with hout | htests | hidle
    · have hcharge : (id, Custody.evicted (ρ := ρ)) ∈ each (p.sortIdle now left ids).out .evicted :=
        List.mem_map.mpr ⟨id, hout, rfl⟩
      refine .inl ⟨hout, hsort.isIn_charge (c := .evicted) ?_⟩
      exact List.mem_append_left _ (List.mem_append_left _ hcharge)
    · have hcharge : (id, Custody.untried (ρ := ρ)) ∈
          each (p.sortIdle now left ids).tests .untried := List.mem_map.mpr ⟨id, htests, rfl⟩
      refine .inr (.inl ⟨htests, hsort.isIn_charge (c := .untried) ?_⟩)
      exact List.mem_append_left _ (List.mem_append_right _ hcharge)
    · exact .inr (.inr ⟨hidle, hsort.isIn_idle hidle⟩)
  · -- the place of one call is a summand of the places held
    obtain ⟨before, after, hsplit⟩ := List.append_of_mem hpt
    rw [hs.books.creating]
    simp only [Ledger.of, hsplit, List.map_append, List.map_cons, List.sum_append, List.sum_cons]
    omega

/-- In a quiet pool no place is held, and nothing is under test. -/
theorem Agrees.quiet (h : w.Agrees i p) (hq : w.Quiet i) :
    p.registry.creating = 0 ∧ p.registry.tracked.Perm (p.registry.idle ++ p.registry.active) := by
  have hcharges : (w.points i).flatMap Point.charges = [] := hq.flatMap_eq_nil fun _ _ => rfl
  have htested : w.inCharge i Custody.isTest = [] := by
    rw [inCharge, hcharges]
    rfl
  have hperm := h.tracked
  rw [htested, List.append_nil] at hperm
  refine ⟨?_, hperm⟩
  rw [h.creating, List.sum_eq_zero_iff_forall_eq_nat]
  intro n hn
  obtain ⟨pt, hpt, rfl⟩ := List.mem_map.mp hn
  obtain ⟨b, t, rfl⟩ := hq pt hpt
  rfl

end World

/-- In every world that can be reached the books of each pool agree with its objects. -/
theorem books_agree {es : List (Episode ρ)} {w : World ρ} (h : Run es w) {i : Nat} {p : Pool ρ}
    (hp : w.pools[i]? = some p) :
    w.Agrees i p ∧ w.Unsurprised i p ∧ (w.Quiet i →
      p.registry.creating = 0 ∧
        p.registry.tracked.Perm (p.registry.idle ++ p.registry.active)) := by
  have hsound := h.sound.pools i
  have hagrees := hsound.agrees hp
  exact ⟨hagrees, hsound.unsurprised hp, hagrees.quiet⟩

/-- A sweep has begun to try out the only object of a pool when a borrower comes. -/
def trialEvents : List (Event Nat) :=
  [.create { maxTotal := 1, testWhileIdle := true }, .spawn, .spawn,
    .begin 0 0 .add, .step 0, .answer 0 (.created (.ok 7)), .answer 0 (.passivated 7 none),
    .begin 0 0 .maintain, .step 0, .step 0,
    .begin 1 0 (.borrow none "borrow"), .step 1, .step 1]

theorem books_agree_during_trial :
    ∃ p, Run (episodes trialEvents) (reached trialEvents) ∧
      (reached trialEvents).pools[0]? = some p ∧
      p.registry.tracked = [0] ∧ p.registry.idle = [] ∧
      (reached trialEvents).inCharge 0 Custody.isTest = [0] ∧
      (reached trialEvents).Agrees 0 p ∧ (reached trialEvents).Unsurprised 0 p ∧
      ((reached trialEvents).Quiet 0 → p.registry.creating = 0 ∧
        p.registry.tracked.Perm (p.registry.idle ++ p.registry.active)) :=
  ⟨_, Run.of_events rfl, rfl, rfl, rfl, rfl, books_agree (Run.of_events rfl) rfl⟩

end ObjectPool
