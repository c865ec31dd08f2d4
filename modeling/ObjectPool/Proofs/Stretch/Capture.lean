/-
  ObjectPool.Proofs.Stretch.Capture

  How a lent object is taken out of circulation. A pass over the lent objects takes each that
  went unused for too long, and passes by one that is not lent. An object that its borrower
  gives back is not lent any more after the stretch in which the call looks at it.

    * `Pool.outstays`, `Next.isPass` — a pass, and the objects that it is after.
    * `isIn_reclaimFrom`, `object?_reclaimFrom` — what it takes, and what it leaves.
    * `stateOf_takeBack_ne`, `stateOf_discard_ne` — an object comes back.
-/

import ObjectPool.Proofs.Stretch.Reach

namespace ObjectPool

variable {ρ : Type}

namespace Pool

/-- An object went unused for longer than the settings allow, and nobody works on it. -/
def outstays (p : Pool ρ) (now : Instant) (id : Nat) : Bool :=
  p.config.abandonment.any fun a =>
    decide (a.timeout.nanos < (p.unusedFor now id).nanos) && !p.isHeld id

theorem Overdue.outstays {p : Pool ρ} {now : Instant} {id : Nat} (h : p.Overdue now id) :
    p.outstays now id = true := by
  obtain ⟨a, hset, ha⟩ := h
  obtain ⟨⟨⟨-, htime⟩, hloose⟩, -⟩ := by simpa only [isAbandoned, Bool.and_eq_true] using ha
  unfold Pool.outstays
  rw [hset, Option.any_some, htime, hloose]
  rfl

end Pool

/-- Whether a call has just been through the lent objects. -/
def Next.isPass : Next ρ → Bool
  | .go (.reclaiming _ _ _) => true
  | _ => false

theorem Next.isPass_of_taken {next : Next ρ} {id : Nat} (h : id ∈ next.taken) :
    next.isPass = true := by
  cases next with
  | finish r => exact nomatch h
  | go pt =>
    cases pt with
    | reclaiming => rfl
    | _ => exact nomatch h

/-- The reply with which a call ends that finds an object out of circulation. -/
def Point.refusal : Point ρ → Reply
  | .takeBack _ answer => answer.getD (.failed .invalidReturn)
  | _ => .failed .invalidReturn

namespace Pool

variable {p : Pool ρ} {ℓ : Ledger ρ} {now : Instant} {timeout : Duration} {id x : Nat}
  {s : Stretch ρ} {pt : Point ρ}

theorem isIn_takeAway_of_ne (hx : x ≠ id) (s : Lifecycle) :
    (p.takeAway x).isIn id s = p.isIn id s := by
  unfold isIn
  rw [object?_takeAway, if_neg hx]

/-- An object that is not lent is passed by. -/
theorem object?_reclaimFrom (ids : List Nat) (h : p.isIn id .allocated = false) :
    (p.reclaimFrom now timeout ids).1.object? id = p.object? id := by
  induction ids generalizing p with
  | nil => rfl
  | cons x rest ih =>
    rw [reclaimFrom]
    split
    · rename_i ha
      have hx : x ≠ id := by
        rintro rfl
        exact Bool.false_ne_true (h.symm.trans (Bool.and_eq_true_iff.mp ha).2)
      refine (ih ((isIn_takeAway_of_ne hx _).trans h)).trans ?_
      rw [object?_takeAway, if_neg hx]
    · exact ih h

theorem isAbandoned_takeAway_of_ne (hx : x ≠ id) :
    (p.takeAway x).isAbandoned now timeout id = p.isAbandoned now timeout id := by
  have hobject : (p.takeAway x).object? id = p.object? id := by
    rw [object?_takeAway, if_neg hx]
  have htracked : id ∈ (p.takeAway x).registry.tracked ↔ id ∈ p.registry.tracked :=
    Registry.mem_detach_tracked.trans (and_iff_left hx.symm)
  unfold isAbandoned unusedFor isHeld isIn
  rw [hobject, decide_eq_decide.mpr htracked]

/-- An overdue object is taken away. -/
theorem isIn_reclaimFrom {ids : List Nat} (hid : id ∈ ids)
    (ha : p.isAbandoned now timeout id = true) :
    (p.reclaimFrom now timeout ids).1.isIn id .abandoned = true := by
  induction ids generalizing p with
  | nil => exact nomatch hid
  | cons x rest ih =>
    rw [reclaimFrom]
    by_cases hx : x = id
    · subst hx
      rw [if_pos ha]
      obtain ⟨y, hy, -⟩ := (Option.any_eq_true _ _).mp (Bool.and_eq_true_iff.mp ha).2
      have htaken : (p.takeAway x).object? x = some y.seized := by
        rw [object?_takeAway, if_pos rfl, hy]
        rfl
      -- the rest of the pass finds it taken away
      have hnot : (p.takeAway x).isIn x .allocated = false := by
        rw [isIn, htaken, Option.any_some, Entry.isIn, y.seized_state]
        rfl
      show Pool.isIn _ x .abandoned = true
      rw [isIn, object?_reclaimFrom rest hnot, htaken, Option.any_some, Entry.isIn, y.seized_state]
      rfl
    · have hmem : id ∈ rest := (List.mem_cons.mp hid).resolve_left (Ne.symm hx)
      split
      · exact ih hmem ((isAbandoned_takeAway_of_ne hx).trans ha)
      · exact ih hmem ha

/-- The objects that a pass takes away are those that are overdue. -/
theorem objects_reclaimFrom {ids : List Nat} (h : ids.Nodup) :
    (p.reclaimFrom now timeout ids).2.map (·.object) =
      ids.filter (p.isAbandoned now timeout) := by
  induction ids generalizing p with
  | nil => rfl
  | cons id rest ih =>
    obtain ⟨hid, hrest⟩ := List.nodup_cons.mp h
    rw [reclaimFrom]
    split
    · rename_i htake
      rw [List.filter_cons_of_pos htake]
      refine congrArg (id :: ·) ((ih hrest).trans (List.filter_congr fun x hx => ?_))
      exact isAbandoned_takeAway_of_ne fun he => hid (he ▸ hx)
    · rename_i htake
      rw [List.filter_cons_of_neg htake]
      exact ih hrest

theorem counters_reclaimFrom (ids : List Nat) :
    (p.reclaimFrom now timeout ids).1.counters = p.counters := by
  induction ids generalizing p with
  | nil => rfl
  | cons x rest ih =>
    rw [reclaimFrom]
    split
    · exact ih
    · exact ih

/-- A pass over the lent objects goes through all of them, and does nothing else. -/
theorem advance_pass {self : Nat} {ended : Nat → Bool}
    (hs : p.advance now self ended pt = some s) (hsweeps : pt.sweeps = true)
    (hpass : s.next.isPass = true) : ∃ a, p.config.abandonment = some a ∧
      s.pool = (p.reclaimFrom now a.timeout p.registry.active).1 := by
  cases goesOn_of_advance hs with
  | borrow b =>
    unfold Pool.borrow at hpass ⊢
    split at hpass
    · rename_i a hset
      refine ⟨a, hset, ?_⟩
      split at hpass
      · rename_i hsweep
        rw [if_pos hsweep]
        rfl
      · cases hpass
    · cases hpass
  | evicting out tests n =>
    cases out with
    | cons x out => cases hsweeps
    | nil =>
      cases tests with
      | cons x tests => cases hsweeps
      | nil =>
        unfold Pool.evictNext Pool.evicted at hpass ⊢
        dsimp only at hpass ⊢
        rw [Stretch.notingIf_next] at hpass
        rw [Stretch.notingIf_pool]
        split at hpass
        · rename_i a hset
          refine ⟨a, hset, ?_⟩
          split at hpass
          · rename_i hsweep
            rw [if_pos hsweep]
            rfl
          · cases hpass
        · cases hpass
  | _ => cases hsweeps

/-- A call that waits for the factory is at no pass over the lent objects. -/
theorem isRequest_of_sweeps (h : pt.sweeps = true) : pt.isRequest = false := by
  cases pt with
  | borrow => rfl
  | evicting => rfl
  | _ => exact nomatch h

theorem stateOf_eq_iff {s : Lifecycle} (hs : s ≠ .invalid) :
    p.stateOf id = s ↔ p.isIn id s = true := by
  rw [stateOf_eq_shape?, isIn_eq_shape?]
  cases p.shape? id with
  | none => exact ⟨fun h => absurd h.symm hs, nofun⟩
  | some v => exact decide_eq_true_iff.symm

/-- Where the books list an object that a borrower has. -/
theorem of_lent {b : Bool} {r : Option ρ} {l : List (Loan ρ)}
    (h : p.position ℓ id = ⟨some ⟨.allocated, r, b⟩, 1, 0, 1, 0, l, []⟩) :
    id ∈ p.registry.tracked ∧ id ∉ p.registry.idle ∧ id ∈ p.registry.active ∧
      p.isIn id .allocated = true := by
  have htracked : p.registry.tracked.count id = 1 := congrArg Position.tracked h
  have hidle : p.registry.idle.count id = 0 := congrArg Position.idle h
  have hactive : p.registry.active.count id = 1 := congrArg Position.active h
  refine ⟨List.count_pos_iff.mp (htracked ▸ Nat.one_pos), List.count_eq_zero.mp hidle,
    List.count_pos_iff.mp (hactive ▸ Nat.one_pos), ?_⟩
  rw [isIn_eq_shape?, show p.shape? id = _ from congrArg Position.shape h]
  rfl

/-! ### An object comes back -/

theorem stateOf_destroy (p : Pool ρ) (id : Nat) (k : After ρ) :
    (p.destroy id k).pool.stateOf id = .invalid := by
  unfold destroy finishDestroy
  rw [dispose_pool, stateOf_eq_shape?, shape?_retire, if_pos rfl]
  cases ((p.detach id).emptySlot id).shape? id <;> rfl

theorem stateOf_hold (p : Pool ρ) (id : Nat) : (p.hold id).stateOf id = p.stateOf id := by
  rw [stateOf_eq_shape?, stateOf_eq_shape?, shape?_hold, if_pos rfl]
  cases p.shape? id <;> rfl

theorem stateOf_markReturned_ne (p : Pool ρ) (now : Instant) (id : Nat) :
    (p.markReturned now id).stateOf id ≠ .allocated := by
  have hshape : (p.markReturned now id).shape? id =
      (p.shape? id).map fun v => { v with state := .returning } :=
    (shape?_modify (f := fun e => { e.become .returning with lastReturn := now, lastUse := none })
      (shape_become .returning) id id p).trans (if_pos rfl)
  rw [stateOf_eq_shape?, hshape]
  cases p.shape? id <;> exact nofun

/-- An object that is lent and comes back is not lent any more. -/
theorem stateOf_takeBack_ne (ha : id ∈ p.registry.active) (hin : p.isIn id .allocated = true)
    (now : Instant) (answer : Option Reply) :
    (p.takeBack now id answer).pool.stateOf id ≠ .allocated := by
  have hmark := p.stateOf_markReturned_ne now id
  have hdestroy : ∀ (q : Pool ρ) (k : After ρ), (q.destroy id k).pool.stateOf id ≠ .allocated := by
    intro q k hn
    exact nomatch (q.stateOf_destroy id k).symm.trans hn
  unfold takeBack
  rw [if_neg (not_not_intro ha), if_neg (by simp [hin])]
  dsimp only
  split
  · exact hdestroy _ _
  · split
    · split
      · exact fun hn => hmark ((stateOf_hold _ id).symm.trans hn)
      · exact hdestroy _ _
    · unfold passivate
      split
      · exact fun hn => hmark ((stateOf_hold _ id).symm.trans hn)
      · exact hdestroy _ _

theorem invalidReturns_destroy (p : Pool ρ) (id : Nat) (k : After ρ) :
    (p.destroy id k).pool.counters.invalidReturns = p.counters.invalidReturns := by
  unfold destroy finishDestroy
  rw [dispose_pool]
  rfl

/-- Its return is not refused. -/
theorem invalidReturns_takeBack (ha : id ∈ p.registry.active) (hin : p.isIn id .allocated = true)
    (now : Instant) (answer : Option Reply) :
    (p.takeBack now id answer).pool.counters.invalidReturns = p.counters.invalidReturns := by
  unfold takeBack
  rw [if_neg (not_not_intro ha), if_neg (by simp [hin])]
  dsimp only
  split
  · exact invalidReturns_destroy _ id _
  · split
    · split
      · rfl
      · exact invalidReturns_destroy _ id _
    · unfold passivate
      split
      · rfl
      · exact invalidReturns_destroy _ id _

theorem invalidReturns_discard (ha : id ∈ p.registry.active) (hin : p.isIn id .allocated = true) :
    (p.discard id).pool.counters.invalidReturns = p.counters.invalidReturns := by
  unfold discard
  rw [if_neg (not_not_intro ha), if_pos (by simp [hin])]
  exact invalidReturns_destroy _ id _

theorem stateOf_discard_ne (ha : id ∈ p.registry.active) (hin : p.isIn id .allocated = true) :
    (p.discard id).pool.stateOf id ≠ .allocated := by
  intro hn
  unfold discard at hn
  rw [if_neg (not_not_intro ha), if_pos (by simp [hin])] at hn
  exact nomatch (stateOf_destroy _ id _).symm.trans hn

end Pool

end ObjectPool
