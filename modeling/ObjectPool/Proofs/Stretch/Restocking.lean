/-
  ObjectPool.Proofs.Stretch.Restocking

  How far the reserve of a pool is filled that nobody else calls. As many objects are made as the
  reserve lacks, or as there is room for; each joins the idle ones, and the place that was held for
  it becomes its own. The first that the factory refuses ends the work: its place is free again, and
  those made before it are kept.

    * `Pool.shortfall` — how many objects are to be made.
    * `Pool.Restocked` — so many of them have joined the idle ones.
    * `Config.passes`, `Config.Refuses` — what the factory does for them.
    * `Pool.Filling`, `Pool.Filled` — how far a call has come, and how it ends.
    * `Filling.turn` — what a turn of the call makes of it.
-/

import ObjectPool.Proofs.Stretch.Glances
import ObjectPool.Proofs.Stretch.Refilling

namespace ObjectPool

variable {ρ : Type}

/-! ## The books -/

/-- The idle objects once the objects `ids` have joined them, one after the other. -/
def Registry.joined (r : Registry) (ids : List Nat) : List Nat :=
  match r.order with
  | .lifo => ids.reverse ++ r.idle
  | .fifo => r.idle ++ ids

theorem Registry.length_joined (r : Registry) (ids : List Nat) :
    (r.joined ids).length = r.idle.length + ids.length := by
  unfold joined
  cases r.order with
  | lifo => rw [List.length_append, List.length_reverse, Nat.add_comm]
  | fifo => rw [List.length_append]

namespace Pool

/-- How many objects the reserve of a pool lacks, as far as there is room for them. -/
def shortfall (p : Pool ρ) : Nat :=
  min (p.config.minIdle - p.registry.idle.length) (p.config.maxTotal - p.registry.total)

/-- The pool `p` once `j` new objects have joined its idle ones, with places held for `held` more,
    and `n` objects in all: the new ones have the next numbers. -/
structure Restocked (p : Pool ρ) (j held n : Nat) (q : Pool ρ) : Prop where
  config : q.config = p.config
  isOpen : q.closed = false
  order : q.registry.order = p.registry.order
  capacity : q.registry.capacity = p.registry.capacity
  tracked : q.registry.tracked = p.registry.tracked ++ List.range' p.entries.length j
  idle : q.registry.idle = p.registry.joined (List.range' p.entries.length j)
  active : q.registry.active = p.registry.active
  creating : q.registry.creating = p.registry.creating + held
  entries : q.entries.length = n

/-- What a pool is like whose reserve can be filled. -/
structure Fillable (p : Pool ρ) : Prop where
  isOpen : p.closed = false
  tracked : ∀ id ∈ p.registry.tracked, id < p.entries.length
  capacity : p.registry.capacity = p.config.maxTotal
  reserve : p.config.minIdle ≤ p.config.maxIdle

variable {p q q' : Pool ρ} {f : Filler} {j held n n' : Nat} {ds : List Deed} {pt : Point ρ}
  {s : Stretch ρ} {deed : Option Deed}

namespace Restocked

theorem refl (hopen : p.closed = false) : p.Restocked 0 0 p.entries.length p where
  config := rfl
  isOpen := hopen
  order := rfl
  capacity := rfl
  tracked := (List.append_nil _).symm
  idle := by
    unfold Registry.joined
    cases p.registry.order with
    | lifo => rfl
    | fifo => exact (List.append_nil _).symm
  active := rfl
  creating := rfl
  entries := rfl

/-- The books have not changed since. -/
theorem of_same (h : p.Restocked j held n q) (hcfg : q'.config = q.config)
    (hreg : q'.registry = q.registry) (hlen : q'.entries.length = n') :
    p.Restocked j held n' q' where
  config := hcfg.trans h.config
  isOpen := (congrArg Registry.closed hreg).trans h.isOpen
  order := hreg ▸ h.order
  capacity := hreg ▸ h.capacity
  tracked := hreg ▸ h.tracked
  idle := hreg ▸ h.idle
  active := hreg ▸ h.active
  creating := hreg ▸ h.creating
  entries := hlen

theorem reserve (h : p.Restocked j 0 n q) : p.Restocked j 1 n (q.book Registry.reserve) :=
  { h with creating := congrArg (· + 1) h.creating }

theorem cancel (h : p.Restocked j 1 n q) : p.Restocked j 0 n (q.book Registry.cancelReservation) :=
  { h with creating := congrArg (· - 1) h.creating }

/-- A new object has the next number, and takes the place that was held for it. -/
theorem register (h : p.Restocked j 1 n q) (hp : p.Fillable) :
    p.Restocked (j + 1) 0 n (q.book (Registry.registerIdle (p.entries.length + j))) := by
  have hnew : p.entries.length + j ∉ q.registry.tracked := by
    rw [h.tracked]
    intro hmem
    rcases List.mem_append.mp hmem with hold | hnew
    · exact absurd (hp.tracked _ hold) (by omega)
    · exact absurd (List.mem_range'_1.mp hnew).2 (by omega)
  refine { h with tracked := ?_, idle := ?_, creating := ?_ }
  · show Registry.adjoin _ q.registry.tracked = _
    rw [Registry.adjoin, if_neg hnew, h.tracked, List.range'_1_concat, List.append_assoc]
  · have hidle := h.idle
    have horder := h.order
    show (match q.registry.order with
      | .lifo => (p.entries.length + j) :: q.registry.idle
      | .fifo => q.registry.idle ++ [p.entries.length + j]) = _
    rw [hidle, horder, List.range'_1_concat]
    unfold Registry.joined
    cases p.registry.order with
    | lifo => simp
    | fifo => simp
  · exact congrArg (· - 1) h.creating

theorem idle_length (h : p.Restocked j held n q) :
    q.registry.idle.length = p.registry.idle.length + j := by
  rw [h.idle, Registry.length_joined, List.length_range']

theorem total_eq (h : p.Restocked j held n q) :
    q.registry.total = p.registry.total + j + held := by
  unfold Registry.total
  rw [h.tracked, h.creating, List.length_append, List.length_range']
  omega

end Restocked

end Pool

/-! ## What the factory does -/

namespace Config

/-- What the factory does for a new object that passes. -/
def passed (c : Config) (id : Nat) : List Deed :=
  .made none :: (if c.testOnCreate then [.checked id true] else []) ++ [.laidToRest id none]

/-- What it does for `j` new objects that pass, which have the numbers from `n` on. -/
def passes (c : Config) (n j : Nat) : List Deed := (List.range' n j).flatMap c.passed

theorem passes_succ (c : Config) (n j : Nat) :
    c.passes n (j + 1) = c.passes n j ++ c.passed (n + j) := by
  rw [passes, List.range'_1_concat, List.flatMap_append, List.flatMap_singleton]
  rfl

/-- What it has done for a new object that it refuses, with the error that this is to the pool. -/
inductive Rejects (c : Config) (id : Nat) : PoolError → List Deed → Prop
  | unfit (test : c.testOnCreate = true) :
      Rejects c id .validationFailed [.made none, .checked id false]
  | stiff (reason : String) : Rejects c id (.factory .passivate reason)
      (.made none :: (if c.testOnCreate then [.checked id true] else []) ++
        [.laidToRest id (some reason)])

/-- What it does if it makes no object, or refuses the one that it has made, which it destroys
    then. -/
inductive Refuses (c : Config) (id : Nat) : PoolError → List Deed → Prop
  | unmade (reason : String) : Refuses c id (.factory .create reason) [.made (some reason)]
  | rejected {e : PoolError} {ds : List Deed} (rejects : c.Rejects id e ds) :
      Refuses c id e (ds ++ [.destroyed id .normal])

theorem Refuses.ne_exhausted {c : Config} {id : Nat} {e : PoolError} {ds : List Deed}
    (h : c.Refuses id e ds) (d : Duration) : e ≠ .exhausted d := by
  cases h with
  | unmade => exact nofun
  | rejected rejects => cases rejects <;> exact nofun

end Config

/-! ## How far a call has come -/

/-- How many turns a call that fills the reserve has had at most when it comes to a point. -/
def Point.fillTurns : Point ρ → Nat
  | .filling _ j => 4 * j
  | .creating (.stock (.fill _ j)) => 4 * j + 1
  | .validating _ (.stock (.fill _ j)) => 4 * j + 2
  | .passivating _ (.stock (.fill _ j)) => 4 * j + 3
  | .destroying _ _ _ (.notStocked (.fill _ j) _) => 4 * j + 4
  | _ => 0

namespace Pool

variable {p q q' : Pool ρ} {f : Filler} {j held n n' : Nat} {ds : List Deed} {pt : Point ρ}
  {s : Stretch ρ} {deed : Option Deed} {x : Except PoolError Nat}

/-- How far a call has come that fills the reserve of a pool which stood at `p` when it began and
    stands at `q` now: `j` objects were made, and the factory has done `ds` in all. -/
inductive Filling (p : Pool ρ) (f : Filler) (q : Pool ρ) : Nat → List Deed → Point ρ → Prop
  | looks {j : Nat} (made : j ≤ p.shortfall) (books : p.Restocked j 0 (p.entries.length + j) q) :
      Filling p f q j (p.config.passes p.entries.length j) (.filling f j)
  | makes {j : Nat} (lacks : j < p.shortfall) (books : p.Restocked j 1 (p.entries.length + j) q) :
      Filling p f q j (p.config.passes p.entries.length j) (.creating (.stock (.fill f j)))
  | checks {j : Nat} (lacks : j < p.shortfall) (test : p.config.testOnCreate = true)
      (books : p.Restocked j 1 (p.entries.length + j + 1) q) :
      Filling p f q j (p.config.passes p.entries.length j ++ [.made none])
        (.validating (p.entries.length + j) (.stock (.fill f j)))
  | lays {j : Nat} (lacks : j < p.shortfall)
      (books : p.Restocked j 1 (p.entries.length + j + 1) q) :
      Filling p f q j (p.config.passes p.entries.length j ++ .made none ::
          if p.config.testOnCreate then [.checked (p.entries.length + j) true] else [])
        (.passivating (p.entries.length + j) (.stock (.fill f j)))
  | fails {j : Nat} {e : PoolError} {ds : List Deed} (lacks : j < p.shortfall) (v : ρ)
      (rejects : p.config.Rejects (p.entries.length + j) e ds)
      (books : p.Restocked j 0 (p.entries.length + j + 1) q) :
      Filling p f q j (p.config.passes p.entries.length j ++ ds)
        (.destroying (p.entries.length + j) v .normal (.notStocked (.fill f j) e))

/-- What a call has made of the pool `p` in the end, with all that the factory has done and the
    result: all objects that were lacking are there, or those before the first that was refused. -/
inductive Filled (p q : Pool ρ) : List Deed → Except PoolError Nat → Prop
  | whole (books : p.Restocked p.shortfall 0 (p.entries.length + p.shortfall) q) :
      Filled p q (p.config.passes p.entries.length p.shortfall) (.ok p.shortfall)
  | stopped {j n : Nat} {e : PoolError} {ds : List Deed} (lacks : j < p.shortfall)
      (refuses : p.config.Refuses (p.entries.length + j) e ds) (books : p.Restocked j 0 n q) :
      Filled p q (p.config.passes p.entries.length j ++ ds) (.error e)

/-- Nothing has happened to the books since. -/
theorem Filled.of_same (h : p.Filled q ds x) (hcfg : q'.config = q.config)
    (hreg : q'.registry = q.registry) (hlen : q'.entries.length = q.entries.length) :
    p.Filled q' ds x := by
  cases h with
  | whole books => exact .whole (books.of_same hcfg hreg (hlen.trans books.entries))
  | stopped lacks refuses books =>
    exact .stopped lacks refuses (books.of_same hcfg hreg (hlen.trans books.entries))

namespace Filling

/-- A call that begins. -/
theorem start (hopen : p.closed = false) (f : Filler) : p.Filling f p 0 [] (.filling f 0) := by
  have hlooks : p.Filling f p 0 (p.config.passes p.entries.length 0) (.filling f 0) :=
    .looks (Nat.zero_le _) (.refl hopen)
  exact hlooks

theorem supplies (h : p.Filling f q j ds pt) : pt.Supplies (.fill f j) := by
  cases h with
  | looks => exact .asks (k := .fill f j)
  | makes => exact .makes
  | checks => exact .checks _
  | lays => exact .lays _
  | fails _ v => exact .fails _ v _

theorem restocked (h : p.Filling f q j ds pt) : ∃ held n, p.Restocked j held n q := by
  cases h with
  | looks _ books | makes _ books | checks _ _ books | lays _ books | fails _ _ _ books =>
    exact ⟨_, _, books⟩

theorem le_shortfall (h : p.Filling f q j ds pt) : j ≤ p.shortfall := by
  cases h with
  | looks made => exact made
  | makes lacks | checks lacks | lays lacks | fails lacks => exact Nat.le_of_lt lacks

theorem fillTurns_le (h : p.Filling f q j ds pt) : pt.fillTurns ≤ 4 * p.shortfall := by
  cases h with
  | looks made =>
    rw [Point.fillTurns]
    omega
  | makes lacks | checks lacks | lays lacks | fails lacks =>
    rw [Point.fillTurns]
    omega

/-- Nothing has happened to the books since. -/
theorem of_same (h : p.Filling f q j ds pt) (hcfg : q'.config = q.config)
    (hreg : q'.registry = q.registry) (hlen : q'.entries.length = q.entries.length) :
    p.Filling f q' j ds pt := by
  have hsame : ∀ {held n : Nat}, p.Restocked j held n q → p.Restocked j held n q' := fun books =>
    books.of_same hcfg hreg (hlen.trans books.entries)
  cases h with
  | looks made books => exact .looks made (hsame books)
  | makes lacks books => exact .makes lacks (hsame books)
  | checks lacks test books => exact .checks lacks test (hsame books)
  | lays lacks books => exact .lays lacks (hsame books)
  | fails lacks v rejects books => exact .fails lacks v rejects (hsame books)

/-- A look after which nothing is left to do. -/
theorem enough (made : j ≤ p.shortfall) (books : p.Restocked j 0 n q) (hp : p.Fillable)
    (reason : q.closed = true ∨ q.config.minIdle ≤ q.registry.idle.length ∨
      q.registry.hasRoom = false) : j = p.shortfall := by
  have hidle := books.idle_length
  have htotal := books.total_eq
  refine Nat.le_antisymm made ?_
  unfold shortfall
  rcases reason with hclosed | hfull | hroom
  · exact absurd (books.isOpen.symm.trans hclosed) Bool.false_ne_true
  · rw [books.config, hidle] at hfull
    omega
  · have hopen : q.registry.closed = false := books.isOpen
    have hno : ¬q.registry.total < q.registry.capacity := by
      simpa [Registry.hasRoom, hopen] using hroom
    rw [htotal, books.capacity, hp.capacity] at hno
    omega

/-- A look after which one more object is made. -/
theorem lacks (books : p.Restocked j 0 n q) (hp : p.Fillable)
    (short : q.registry.idle.length < q.config.minIdle) (room : q.registry.hasRoom = true) :
    j < p.shortfall := by
  have hfree := (Registry.hasRoom_iff.mp room).2
  rw [books.idle_length, books.config] at short
  rw [books.total_eq, books.capacity, hp.capacity] at hfree
  unfold shortfall
  omega

/-- As long as the reserve lacks something, the idle ones are fewer than there may be, so that a new
    object is unwanted for its fault alone. -/
theorem faulty {e : PoolError} {fault : Option PoolError} (hlacks : j < p.shortfall)
    (books : p.Restocked j held n q) (hp : p.Fillable) (h : q.Unwanted fault e) :
    fault = some e := by
  cases h with
  | shut closed => exact absurd (books.isOpen.symm.trans closed) Bool.false_ne_true
  | unfit _ _ faulty => exact faulty
  | full _ full =>
    have hreserve := hp.reserve
    rw [books.idle_length, books.config] at full
    unfold shortfall at hlacks
    omega

/-- Something is wrong with the new object, which goes to be destroyed. -/
theorem spare {e : PoolError} {v : ρ} {new : List Deed} (hlacks : j < p.shortfall)
    (books : p.Restocked j 1 (p.entries.length + j + 1) q)
    (rejects : p.config.Rejects (p.entries.length + j) e (ds ++ new))
    (hnext : s.next =
      .go (.destroying (p.entries.length + j) v .normal (.notStocked (.fill f j) e)))
    (hconfined : q.ConfinedTo (p.entries.length + j) q.entries.length q.registry.cancelReservation
      s.pool) (hcfg : s.pool.config = q.config) :
    ∃ j' pt', s.next = .go pt' ∧
      p.Filling f s.pool j' (p.config.passes p.entries.length j ++ ds ++ new) pt' ∧
      4 * j + 3 < pt'.fillTurns := by
  refine ⟨j, _, hnext, ?_, Nat.lt_succ_self _⟩
  rw [List.append_assoc]
  exact .fails hlacks v rejects (books.cancel.of_same hcfg hconfined.registry
    (hconfined.length.trans books.entries))

/-- What a turn of the call makes of it. -/
theorem turn (h : p.Filling f q j ds pt) (hp : p.Fillable) (hs : q.Refills f j pt deed s)
    (hcfg : s.pool.config = q.config) :
    (∃ j' pt', s.next = .go pt' ∧ p.Filling f s.pool j' (ds ++ deed.toList) pt' ∧
      pt.fillTurns < pt'.fillTurns) ∨
    ∃ x, s.Tells f x ∧ p.Filled s.pool (ds ++ deed.toList) x := by
  cases h with
  | looks made books =>
    cases hs with
    | enough reason tells same =>
      obtain rfl := enough made books hp reason
      rw [Option.toList_none, List.append_nil, same]
      exact .inr ⟨_, tells, .whole books⟩
    | reserves _ short room next hbooks =>
      rw [Option.toList_none, List.append_nil, hbooks]
      exact .inl ⟨j, _, next, .makes (lacks books hp short room) books.reserve, Nat.lt_succ_self _⟩
  | makes hlacks books =>
    cases hs with
    | unmade reason tells hbooks =>
      rw [hbooks]
      exact .inr ⟨_, tells, .stopped hlacks (.unmade reason) books.cancel⟩
    | made next hconfined =>
      have hbooks : p.Restocked j 1 (p.entries.length + j + 1) s.pool :=
        books.of_same hcfg hconfined.registry (hconfined.length.trans (by rw [books.entries]))
      rw [books.config, books.entries] at next
      refine .inl ⟨j, _, next, ?_⟩
      -- without a test the object is laid to rest at once
      by_cases htest : p.config.testOnCreate = true
      · rw [if_pos htest]
        exact ⟨.checks hlacks htest hbooks, Nat.lt_succ_self _⟩
      · have hlays := Filling.lays (f := f) hlacks hbooks
        rw [if_neg htest] at hlays ⊢
        exact ⟨hlays, Nat.lt_succ_of_lt (Nat.lt_succ_self _)⟩
  | checks hlacks test books =>
    cases hs with
    | fit next same =>
      have hlays := Filling.lays (f := f) hlacks books
      rw [if_pos test] at hlays
      rw [same, List.append_assoc]
      exact .inl ⟨j, _, next, hlays, Nat.lt_succ_self _⟩
    | unfit unwanted next hconfined =>
      obtain rfl := Option.some.inj (faulty hlacks books hp unwanted)
      have hrejects : p.config.Rejects (p.entries.length + j) .validationFailed
        ([.made none] ++ [.checked (p.entries.length + j) false]) := .unfit test
      obtain ⟨j', pt', hnext, hfills, hturns⟩ :=
        spare hlacks books hrejects next hconfined hcfg
      exact .inl ⟨j', pt', hnext, hfills, Nat.lt_of_succ_lt hturns⟩
  | lays hlacks books =>
    cases hs with
    | joins _ _ next hconfined =>
      have hbooks : p.Restocked (j + 1) 0 (p.entries.length + (j + 1)) s.pool :=
        (books.register hp).of_same hcfg hconfined.registry
          (hconfined.length.trans books.entries)
      refine .inl ⟨j + 1, _, next, ?_, Nat.lt_succ_self _⟩
      have hlooks := Filling.looks (f := f) hlacks hbooks
      rw [Config.passes_succ, Config.passed] at hlooks
      rw [List.append_assoc]
      exact hlooks
    | spare refusal unwanted next hconfined =>
      obtain ⟨reason, rfl, rfl⟩ := Option.map_eq_some_iff.mp (faulty hlacks books hp unwanted)
      exact .inl (spare hlacks books (.stiff reason) next hconfined hcfg)
  | fails hlacks v rejects books =>
    cases hs with
    | unstocked tells same =>
      rw [same, List.append_assoc]
      exact .inr ⟨_, tells, .stopped hlacks (.rejected rejects) books⟩

/-- The objects that were there before are left alone. -/
theorem untouched (h : p.Filling f q j ds pt) (hs : q.Refills f j pt deed s) {id : Nat}
    (hid : id < p.entries.length) : s.pool.object? id = q.object? id := by
  have hnew : ∀ {m n : Nat} {r : Registry}, q.ConfinedTo m n r s.pool → p.entries.length ≤ m →
      s.pool.object? id = q.object? id := fun hconfined hle => hconfined.others id (by omega)
  obtain ⟨held, n, books⟩ := h.restocked
  have hold : p.entries.length ≤ q.entries.length := by
    cases h with
    | looks _ books | makes _ books | checks _ _ books | lays _ books | fails _ _ _ books =>
      rw [books.entries]
      omega
  cases hs with
  | enough _ _ same | fit _ same | unstocked _ same => rw [same]
  | reserves _ _ _ _ hbooks | unmade _ _ hbooks =>
    rw [hbooks]
    rfl
  | made _ hconfined => exact hnew hconfined hold
  | joins _ _ _ hconfined | spare _ _ _ hconfined =>
    cases h with
    | lays => exact hnew hconfined (Nat.le_add_right ..)
  | unfit _ _ hconfined =>
    cases h with
    | checks => exact hnew hconfined (Nat.le_add_right ..)

end Filling

end Pool

end ObjectPool
