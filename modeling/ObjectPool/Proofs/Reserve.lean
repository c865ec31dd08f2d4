/-
  ObjectPool.Proofs.Reserve

  What an idle sweep leaves of the reserve. An object that has not outlived its time goes only
  while more idle objects than the reserve are counted. The count takes in objects further
  behind in the queue that the same sweep removes for their age, so that fewer than the reserve
  may be left in the end; it is as many fewer as such objects stand behind.

    * `Pool.SparesReserve` — what is left, for each order of the queue and all ages.
    * `reserve_spared` — the main statement.
    * `none_left_of_one` — the run in which an object goes though it makes up the reserve.
-/

import ObjectPool.Proofs.Run
import ObjectPool.Proofs.Stretch.Culling

namespace ObjectPool

variable {ρ : Type}

/-- A rule that does not look at both age and idle time removes nobody for its idle time if it looks
    at ages at all. -/
theorem Eviction.not_combined {rule : Eviction}
    (h : ∀ ttl timeout, rule ≠ .combined ttl timeout) :
    (∀ age, rule.outlived age = false) ∨ ∀ c, rule.evicts c = rule.outlived c.age := by
  cases rule with
  | never | idleTimeout => exact .inl fun _ => rfl
  | timeToLive => exact .inr fun _ => rfl
  | combined ttl timeout => exact absurd rfl (h ttl timeout)

namespace Pool

/-- Whether an object has outlived the time to live of the pool's objects, if they have one. -/
def hasOutlived (p : Pool ρ) (now : Instant) (id : Nat) : Bool :=
  p.config.eviction.outlived (p.ageOf now id)

/-- How many of the idle objects have not outlived their time. -/
def youngIdle (p : Pool ρ) (now : Instant) : Nat :=
  p.registry.idle.countP fun id => !p.hasOutlived now id

/-- What an idle sweep of the pool `p` leaves, if it has led to the pool `q`, with the objects `out`
    to be destroyed and the objects `tests` to be tried out. -/
structure SparesReserve (p : Pool ρ) (now : Instant) (q : Pool ρ) (out tests : List Nat) :
    Prop where
  /-- What is not to be destroyed is idle or to be tried out. -/
  left : q.registry.idle.length + tests.length = p.registry.idle.length - out.length
  /-- If an object goes that has not outlived its time, the reserve is left but for those that stand
      behind it and have. -/
  behind : ∀ pre id post, p.registry.idleOldestFirst = pre ++ id :: post → id ∈ out →
    p.hasOutlived now id = false →
    p.config.minIdle ≤ q.registry.idle.length + tests.length + post.countP (p.hasOutlived now)
  /-- The reserve is kept, as far as there are objects that have not outlived their time, if none
      that has stands behind one that goes without having done so. -/
  kept : (∀ pre id post, p.registry.idleOldestFirst = pre ++ id :: post → id ∈ out →
      p.hasOutlived now id = false → ∀ x ∈ post, p.hasOutlived now x = false) →
    min p.config.minIdle (p.youngIdle now) ≤ q.registry.idle.length + tests.length
  /-- It is kept under every rule that does not look at both age and idle time. -/
  single : (∀ ttl timeout, p.config.eviction ≠ .combined ttl timeout) →
    min p.config.minIdle (p.youngIdle now) ≤ q.registry.idle.length + tests.length

end Pool

/-- Every idle sweep spares the reserve, apart from objects that have outlived their time and stand
    behind one that goes without having done so. -/
theorem reserve_spared {p : Pool ρ} (h : p.Sweepable p.registry.idle) (now : Instant) :
    ∃ q out tests, p.evict now = q.go (.evicting out tests out.length) ∧
      p.SparesReserve now q out tests := by
  obtain ⟨q, hevict, hculled⟩ := h.evict now
  have hids := h.oldestFirst.nodup
  have hperm := Pool.idleOldestFirst_perm p.registry
  have hlen := hperm.length_eq
  have hyoung : p.youngIdle now =
      p.registry.idleOldestFirst.countP fun id => !p.hasOutlived now id :=
    (hperm.countP_eq _).symm
  have hleft := hculled.length_left h.nodup (Eviction.culls_sublist ..)
  have hkept : (∀ pre id post, p.registry.idleOldestFirst = pre ++ id :: post →
      id ∈ p.culled now p.registry.idle.length p.registry.idleOldestFirst →
      p.hasOutlived now id = false → ∀ x ∈ post, p.hasOutlived now x = false) →
      min p.config.minIdle (p.youngIdle now) ≤ q.registry.idle.length +
        (p.tried (p.culled now p.registry.idle.length p.registry.idleOldestFirst)
          p.registry.idleOldestFirst).length := by
    intro hbehind
    rw [hyoung, hleft]
    rw [← hlen] at hbehind ⊢
    exact Eviction.culls_keeps hids hbehind
  refine ⟨q, _, _, hevict, hleft, fun pre id post hsplit hid hage => ?_, hkept, fun hrule => ?_⟩
  · rw [hleft]
    have hcount : (pre ++ id :: post).length ≤ p.registry.idle.length :=
      Nat.le_of_eq (hsplit ▸ hlen)
    unfold Pool.culled at hid ⊢
    rw [hsplit] at hids hid ⊢
    exact Eviction.culls_spares_after hids hcount hid hage
  · refine hkept fun pre id post hsplit hid hage x _ => ?_
    -- nobody has outlived a time that does not matter, and only such go if it does
    rcases Eviction.not_combined hrule with hnever | hage'
    · exact hnever _
    · unfold Pool.culled at hid
      rw [hsplit] at hids hid
      have hgoes := (Eviction.mem_culls_iff hids).mp hid
      exact nomatch hage.symm.trans ((hage' _).symm.trans hgoes)

/-- The idle objects of every pool in a run are as an idle sweep expects them. -/
theorem sweepable_of_run {es : List (Episode ρ)} {w : World ρ} {i : Nat} {p : Pool ρ}
    (h : Run es w) (hp : w.pools[i]? = some p) : p.Sweepable p.registry.idle :=
  ((h.sound.pools i).agrees hp).sweepable

/-- Two objects are lent for a long time and a third one, which is younger, is returned before
    them. -/
def agedEvents : List (Event Nat) :=
  [.create { maxTotal := 3, minIdle := 2, eviction := .combined ⟨100⟩ ⟨10⟩ }, .spawn,
    .begin 0 0 (.borrow none "first"), .step 0, .step 0, .answer 0 (.created (.ok 7)),
    .answer 0 (.activated 7 none),
    .begin 0 0 (.borrow none "second"), .step 0, .step 0, .answer 0 (.created (.ok 8)),
    .answer 0 (.activated 8 none), .tick ⟨90⟩,
    .begin 0 0 (.borrow none "third"), .step 0, .step 0, .answer 0 (.created (.ok 9)),
    .answer 0 (.activated 9 none),
    .giveBack 0 0 2, .step 0, .answer 0 (.passivated 9 none), .tick ⟨95⟩,
    .giveBack 0 0 0, .step 0, .answer 0 (.passivated 7 none),
    .giveBack 0 0 1, .step 0, .answer 0 (.passivated 8 none), .tick ⟨101⟩]

theorem reserve_spared_when_aged :
    ∃ p, Run (episodes agedEvents) (reached agedEvents) ∧
      (reached agedEvents).pools[0]? = some p ∧ p.Sweepable p.registry.idle ∧
      ∃ q out tests, p.evict ⟨101⟩ = q.go (.evicting out tests out.length) ∧
        p.SparesReserve ⟨101⟩ q out tests :=
  have h : Run (episodes agedEvents) (reached agedEvents) := Run.of_events rfl
  have hpool : ∃ p, (reached agedEvents).pools[0]? = some p := ⟨_, rfl⟩
  let ⟨p, hp⟩ := hpool
  have hsweep := sweepable_of_run h hp
  ⟨p, h, hp, hsweep, reserve_spared hsweep ⟨101⟩⟩

/-- The youngest object has not outlived its time and goes because it was idle for too long, though
    the reserve is two and no other idle object survives the sweep. -/
theorem none_left_of_one :
    ∃ p q : Pool Nat, Run (episodes agedEvents) (reached agedEvents) ∧
      (reached agedEvents).pools[0]? = some p ∧ p.config.validate = .ok () ∧
      p.config.minIdle = 2 ∧ p.registry.idleOldestFirst = [2, 0, 1] ∧
      p.hasOutlived (reached agedEvents).now 2 = false ∧
      min p.config.minIdle (p.youngIdle (reached agedEvents).now) = 1 ∧
      p.evict (reached agedEvents).now = q.go (.evicting [2, 0, 1] [] 3) ∧
      q.registry.idle = [] :=
  ⟨_, _, Run.of_events rfl, rfl, rfl, by decide +kernel, by decide +kernel, by decide +kernel,
    by decide +kernel, rfl, by decide +kernel⟩

end ObjectPool
