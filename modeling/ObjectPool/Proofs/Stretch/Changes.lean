/-
  ObjectPool.Proofs.Stretch.Changes

  What a stretch makes of the objects of a pool. An object changes only if it is new, was
  idle, or is the business of the call that runs; or else it is overdue and taken away from
  its borrower. The stamp of a borrow is set to the time of the stretch, if at all. Once a
  pool is closed, its books only get emptier.

    * `Registry.Fades` — what can still happen to the books of a closed pool.
    * `Pool.Becomes` — the small changes that a stretch can be made of.
    * `Becomes.kept`, `Becomes.abandoned`, `Becomes.stamped`, `Becomes.lent`, `Becomes.fades`,
      `Becomes.shuts` — what follows.
-/

import ObjectPool.Proofs.Ledger

namespace ObjectPool

variable {ρ : Type}

/-! ## The books of a closed pool -/

namespace Registry

/-- The books of a closed pool with less in them: no object comes to be lent, no place is held
    anew, and nobody enters the line. -/
structure Fades (r r' : Registry) : Prop where
  closed : r'.closed = true
  active : ∀ id ∈ r'.active, id ∈ r.active
  creating : r'.creating ≤ r.creating
  queue : ∀ t ∈ r'.line.queue, t ∈ r.line.queue

variable {r r' r'' : Registry}

theorem Fades.refl (h : r.closed = true) : r.Fades r :=
  ⟨h, fun _ h => h, Nat.le_refl _, fun _ h => h⟩

theorem Fades.trans (h : r.Fades r') (h' : r'.Fades r'') : r.Fades r'' where
  closed := h'.closed
  active := fun id hid => h.active id (h'.active id hid)
  creating := Nat.le_trans h'.creating h.creating
  queue := fun t ht => h.queue t (h'.queue t ht)

theorem Fades.wakeNext (h : r.Fades r') : r.Fades r'.wakeNext :=
  { h with
    queue := fun t ht => by
      rw [wakeNext_line, WaitLine.wakeNext_queue] at ht
      exact h.queue t (List.mem_of_mem_tail ht) }

theorem Fades.wakeIfAvailable (h : r.Fades r') : r.Fades r'.wakeIfAvailable := by
  unfold Registry.wakeIfAvailable
  split
  · exact h.wakeNext
  · exact h

theorem Fades.cancelReservation (h : r.Fades r') : r.Fades r'.cancelReservation :=
  wakeNext { h with creating := Nat.le_trans (Nat.sub_le ..) h.creating }

theorem Fades.leave (h : r.Fades r') (t : Nat) : r.Fades { r' with line := r'.line.leave t } :=
  { h with queue := fun u hu => h.queue u (WaitLine.mem_leave_queue.mp hu).1 }

theorem Fades.detach (h : r.Fades r') (id : Nat) : r.Fades (r'.detach id) := by
  unfold Registry.detach
  split
  · exact wakeNext { h with active := fun x hx => h.active x (mem_without.mp hx).1 }
  · exact h

theorem Fades.drainIdle (h : r.Fades r') : r.Fades r'.drainIdle := by
  unfold Registry.drainIdle
  dsimp only
  split
  · exact { h with }
  · exact wakeNext { h with }

/-- Nobody stands in the line of books that were just closed. -/
theorem Fades.shut (h : r.Fades r') : r.Fades r'.close.drainIdle :=
  drainIdle { h with closed := rfl, queue := fun _ ht => nomatch ht }

theorem closed_wakeIfAvailable (r : Registry) : r.wakeIfAvailable.closed = r.closed := by
  unfold Registry.wakeIfAvailable
  split <;> rfl

theorem closed_detach (r : Registry) (id : Nat) : (r.detach id).closed = r.closed := by
  unfold Registry.detach
  split <;> rfl

theorem closed_drainIdle (r : Registry) : r.drainIdle.closed = r.closed := by
  unfold Registry.drainIdle
  dsimp only
  split <;> rfl

end Registry

/-! ## Small changes -/

/-- A change to one object: it is not taken away from a borrower, its borrow is stamped with the
    time of the change, if at all, and it comes to be lent only with a stamp. -/
structure Entry.Passes (now : Instant) (e e' : Entry ρ) : Prop where
  state : e'.state = .abandoned → e.state = .abandoned
  borrow : e'.lastBorrow = e.lastBorrow ∨ e'.lastBorrow = now
  lent : e'.state = .allocated → e'.lastBorrow = now ∨
    (e.state = .allocated ∧ e'.lastBorrow = e.lastBorrow ∧ e'.lastUse = e.lastUse)

/-- A change to what is in the slot of an object and to who works on it. -/
theorem Entry.Passes.of_same {now : Instant} {e e' : Entry ρ} (hs : e'.state = e.state)
    (hb : e'.lastBorrow = e.lastBorrow) (hu : e'.lastUse = e.lastUse) : e.Passes now e' :=
  ⟨fun h => hs ▸ h, .inl hb, fun h => .inr ⟨hs ▸ h, hb, hu⟩⟩

/-- An object that leaves circulation, or is not lent any more. -/
theorem Entry.Passes.of_state {now : Instant} {e e' : Entry ρ} {s : Lifecycle}
    (hs : e'.state = s) (ha : s ≠ .abandoned) (hl : s ≠ .allocated)
    (hb : e'.lastBorrow = e.lastBorrow) : e.Passes now e' :=
  ⟨fun h => absurd (hs.symm.trans h) ha, .inl hb, fun h => absurd (hs.symm.trans h) hl⟩

theorem Entry.become_lastBorrow (s : Lifecycle) (e : Entry ρ) :
    (e.become s).lastBorrow = e.lastBorrow := by
  unfold Entry.become
  split <;> rfl

theorem Entry.passes_become (now : Instant) {s : Lifecycle} (ha : s ≠ .abandoned)
    (hl : s ≠ .allocated) (e : Entry ρ) : e.Passes now (e.become s) :=
  .of_state (become_state s e) ha hl (become_lastBorrow s e)

/-- What becomes of an object that is taken away from its borrower. -/
def Entry.seized (e : Entry ρ) : Entry ρ := { e.become .abandoned with slot := none }

theorem Entry.seized_state (e : Entry ρ) : e.seized.state = .abandoned := Entry.become_state ..

theorem Entry.seized_lastBorrow (e : Entry ρ) : e.seized.lastBorrow = e.lastBorrow :=
  e.become_lastBorrow .abandoned

/-- The objects that are a call's business at a point: it has them in its charge, or a borrower
    has just given them back to it. -/
def Point.Holds (pt : Point ρ) (id : Nat) : Prop := id ∈ pt.returns ∨ ∃ c, (id, c) ∈ pt.charges

namespace Pool

/-- An object went unused for longer than the settings allow. -/
def Overdue (p : Pool ρ) (now : Instant) (id : Nat) : Prop :=
  ∃ a, p.config.abandonment = some a ∧ p.isAbandoned now a.timeout id = true

/-- A call whose business `own` is may change an object: it is new, idle or its own. -/
def Yields (p : Pool ρ) (own : Nat → Prop) (id : Nat) : Prop :=
  p.entries.length ≤ id ∨ id ∈ p.registry.idle ∨ own id

/-- What small changes make of a pool in a stretch of a call whose business `own` is. -/
inductive Becomes (now : Instant) (own : Nat → Prop) (p : Pool ρ) : Pool ρ → Prop
  | refl : Becomes now own p p
  | count {q : Pool ρ} (f : Counters → Counters) (h : Becomes now own p q) :
      Becomes now own p (q.count f)
  /-- The books of an open pool may change in every way but to be closed. -/
  | book {q : Pool ρ} {f : Registry → Registry} (hc : (f q.registry).closed = q.registry.closed)
      (hf : q.closed = true → q.registry.Fades (f q.registry)) (h : Becomes now own p q) :
      Becomes now own p (q.book f)
  /-- The pool is closed and its idle objects leave the books. -/
  | shut {q : Pool ρ} (h : Becomes now own p q) :
      Becomes now own p (q.book fun r => r.close.drainIdle)
  | modify {q : Pool ρ} {id : Nat} {f : Entry ρ → Entry ρ} (hid : p.Yields own id)
      (hf : ∀ e : Entry ρ, e.Passes now (f e)) (h : Becomes now own p q) :
      Becomes now own p (q.modify id f)
  | enlist {q : Pool ρ} {s : Lifecycle} (r : ρ) (hs : s ≠ .abandoned) (h : Becomes now own p q) :
      Becomes now own p (q.enlist now r s)
  /-- An overdue object is taken away from its borrower. -/
  | takeAway {q : Pool ρ} {id : Nat} (hid : p.Overdue now id) (h : Becomes now own p q) :
      Becomes now own p (q.takeAway id)
  | stop {q : Pool ρ} (h : Becomes now own p q) : Becomes now own p { q with keeper := none }

namespace Becomes

variable {p₀ p : Pool ρ} {now : Instant} {own : Nat → Prop} {id : Nat}

theorem setState (h : p₀.Becomes now own p) (hid : p₀.Yields own id) {s : Lifecycle}
    (ha : s ≠ .abandoned) (hl : s ≠ .allocated) : p₀.Becomes now own (p.setState id s) :=
  .modify hid (Entry.passes_become now ha hl) h

/-- A change to what is in the slot of an object and to who works on it. -/
theorem touch (h : p₀.Becomes now own p) (hid : p₀.Yields own id) {f : Entry ρ → Entry ρ}
    (hs : ∀ e, (f e).state = e.state) (hb : ∀ e, (f e).lastBorrow = e.lastBorrow)
    (hu : ∀ e, (f e).lastUse = e.lastUse) : p₀.Becomes now own (p.modify id f) :=
  .modify hid (fun e => .of_same (hs e) (hb e) (hu e)) h

theorem hold (h : p₀.Becomes now own p) (hid : p₀.Yields own id) :
    p₀.Becomes now own (p.hold id) :=
  h.touch hid (fun _ => rfl) (fun _ => rfl) fun _ => rfl

theorem release (h : p₀.Becomes now own p) (hid : p₀.Yields own id) :
    p₀.Becomes now own (p.release id) :=
  h.touch hid (fun _ => rfl) (fun _ => rfl) fun _ => rfl

theorem letGo (h : p₀.Becomes now own p) (hid : p₀.Yields own id) (r : ρ) :
    p₀.Becomes now own (p.letGo id r) :=
  h.touch hid (fun _ => rfl) (fun _ => rfl) fun _ => rfl

theorem fill (h : p₀.Becomes now own p) (hid : p₀.Yields own id) (r : ρ) :
    p₀.Becomes now own (p.modify id fun e => { e with slot := some r }) :=
  h.touch hid (fun _ => rfl) (fun _ => rfl) fun _ => rfl

theorem emptySlot (h : p₀.Becomes now own p) (hid : p₀.Yields own id) :
    p₀.Becomes now own (p.emptySlot id) :=
  h.touch hid (fun _ => rfl) (fun _ => rfl) fun _ => rfl

theorem retire (h : p₀.Becomes now own p) (hid : p₀.Yields own id) :
    p₀.Becomes now own (p.retire id) := by
  -- the object leaves circulation and forgets its last use at once
  have hone : (p.setState id .invalid).forgetUse id =
      p.modify id fun e => { e.become .invalid with lastUse := none } := by
    unfold Pool.forgetUse Pool.setState Pool.modify
    rw [List.modify_modify_eq]
    rfl
  have hgone : ∀ e : Entry ρ, e.Passes now { e.become .invalid with lastUse := none } :=
    fun e => .of_state (e.become_state .invalid) (by decide) (by decide) (e.become_lastBorrow _)
  exact .count _ (hone ▸ .modify hid hgone h)

theorem detach (h : p₀.Becomes now own p) (id : Nat) : p₀.Becomes now own (p.detach id) :=
  .book (Registry.closed_detach _ id) (fun hc => (Registry.Fades.refl hc).detach id) h

theorem cancelReservation (h : p₀.Becomes now own p) :
    p₀.Becomes now own (p.book Registry.cancelReservation) :=
  .book rfl (fun hc => (Registry.Fades.refl hc).cancelReservation) h

/-- The books of an open pool change. -/
theorem bookOpen (h : p₀.Becomes now own p) (ho : p.closed = false) {f : Registry → Registry}
    (hf : (f p.registry).closed = p.registry.closed) : p₀.Becomes now own (p.book f) :=
  .book hf (fun hc => absurd (ho.symm.trans hc) Bool.false_ne_true) h

/-! ## What follows -/

/-- Once a pool is closed, its books only get emptier. -/
theorem fades (h : p₀.Becomes now own p) (hc : p₀.closed = true) :
    p₀.registry.Fades p.registry := by
  induction h with
  | refl => exact .refl hc
  | count _ _ ih | modify _ _ _ ih | enlist _ _ _ ih | stop _ ih => exact ih
  | book _ hf _ ih => exact ih.trans (hf ih.closed)
  | shut _ ih => exact ih.shut
  | @takeAway q id _ _ ih => exact ih.detach id

/-- Nobody stands in the line of a pool that was just closed. -/
theorem shuts (h : p₀.Becomes now own p) (hc : p.closed = true) :
    p₀.closed = true ∨ p.registry.line.queue = [] := by
  have hnone : ∀ {r r' : Registry}, r.Fades r' → r.line.queue = [] → r'.line.queue = [] :=
    fun hf hr => List.eq_nil_iff_forall_not_mem.mpr fun t ht => nomatch hr ▸ hf.queue t ht
  induction h with
  | refl => exact .inl hc
  | count _ _ ih | modify _ _ _ ih | enlist _ _ _ ih | stop _ ih => exact ih hc
  | @book q f hsame hf _ ih =>
    have hq : q.closed = true := hsame.symm.trans hc
    exact (ih hq).imp_right (hnone (hf hq))
  | @shut q _ _ =>
    exact .inr (hnone (Registry.Fades.refl (r := q.registry.close) rfl).drainIdle rfl)
  | @takeAway q id _ _ ih =>
    have hq : q.closed = true := (q.registry.closed_detach id).symm.trans hc
    exact (ih hq).imp_right (hnone ((Registry.Fades.refl hq).detach id))

/-- No object is ever lost. -/
theorem grows (h : p₀.Becomes now own p) : p₀.entries.length ≤ p.entries.length := by
  induction h with
  | refl => exact Nat.le_refl _
  | count _ _ ih | book _ _ _ ih | shut _ ih | stop _ ih => exact ih
  | @modify q id f _ _ _ ih =>
    show p₀.entries.length ≤ (q.entries.modify id f).length
    rwa [List.length_modify]
  | @enlist q s r _ _ ih =>
    show p₀.entries.length ≤ (q.entries ++ [Entry.fresh now r s]).length
    rw [List.length_append]
    exact Nat.le_trans ih (Nat.le_add_right _ _)
  | @takeAway q id _ _ ih =>
    show p₀.entries.length ≤ ((q.entries.modify id _).modify id _).length
    rwa [List.length_modify, List.length_modify]

end Becomes

theorem object?_enlist_of_lt {p : Pool ρ} {now : Instant} {r : ρ} {s : Lifecycle} {x : Nat}
    (hx : x < p.entries.length) : (p.enlist now r s).object? x = p.object? x :=
  List.getElem?_append_left hx

theorem object?_takeAway (p : Pool ρ) (id x : Nat) : (p.takeAway id).object? x =
    if id = x then (p.object? x).map Entry.seized else p.object? x := by
  show ((p.modify id (Entry.become .abandoned)).modify id
    fun e => { e with slot := none }).object? x = _
  rw [object?_modify, object?_modify]
  split
  · rw [Option.map_map]
    rfl
  · rfl

namespace Becomes

variable {p₀ p : Pool ρ} {now : Instant} {own : Nat → Prop} {id : Nat}

/-- An object that is neither new nor idle nor the business of the call stays as it is, unless it
    is overdue and taken away from its borrower. -/
theorem kept (h : p₀.Becomes now own p) (hid : ¬p₀.Yields own id) :
    p.object? id = p₀.object? id ∨
      (p₀.Overdue now id ∧ ∃ e, p.object? id = some e ∧ e.state = .abandoned) := by
  have hlt : id < p₀.entries.length := Nat.lt_of_not_le fun hle => hid (.inl hle)
  induction h with
  | refl => exact .inl rfl
  | count _ _ ih | book _ _ _ ih | shut _ ih | stop _ ih => exact ih
  | @modify q x f hx _ _ ih =>
    have hne : x ≠ id := fun he => hid (he ▸ hx)
    rw [object?_modify, if_neg hne]
    exact ih
  | enlist r _ h ih =>
    rw [object?_enlist_of_lt (Nat.lt_of_lt_of_le hlt h.grows)]
    exact ih
  | @takeAway q x hx _ ih =>
    rw [object?_takeAway]
    split
    · rename_i he
      subst he
      obtain ⟨e, he⟩ : ∃ e, q.object? x = some e := by
        rcases ih with ih | ⟨-, e, he, -⟩
        · rw [ih]
          exact ⟨_, List.getElem?_eq_getElem hlt⟩
        · exact ⟨e, he⟩
      rw [he]
      exact .inr ⟨hx, _, rfl, e.seized_state⟩
    · exact ih

/-- An object that has been given up by its borrower was so before, or is overdue. -/
theorem abandoned (h : p₀.Becomes now own p) {e : Entry ρ} (he : p.object? id = some e)
    (hs : e.state = .abandoned) :
    (∃ e₀, p₀.object? id = some e₀ ∧ e₀.state = .abandoned) ∨ p₀.Overdue now id := by
  induction h generalizing e with
  | refl => exact .inl ⟨e, he, hs⟩
  | count _ _ ih | book _ _ _ ih | shut _ ih | stop _ ih => exact ih he hs
  | @modify q x f _ hf _ ih =>
    rw [object?_modify] at he
    split at he
    · obtain ⟨y, hy, rfl⟩ := Option.map_eq_some_iff.mp he
      exact ih hy ((hf y).state hs)
    · exact ih he hs
  | @enlist q s r hne h ih =>
    by_cases hlt : id < q.entries.length
    · rw [object?_enlist_of_lt hlt] at he
      exact ih he hs
    · -- the new object is in another state
      have hlast : (q.entries ++ [Entry.fresh now r s])[id]? = some e := he
      rw [List.getElem?_append_right (Nat.le_of_not_lt hlt)] at hlast
      obtain rfl := List.mem_singleton.mp (List.mem_of_getElem? hlast)
      exact absurd hs hne
  | @takeAway q x hx _ ih =>
    rw [object?_takeAway] at he
    split at he
    · rename_i hxid
      exact .inr (hxid ▸ hx)
    · exact ih he hs

/-- The stamp of a borrow stays as it is, or is set to the time of the stretch. -/
theorem stamped (h : p₀.Becomes now own p) {e : Entry ρ} (he : p.object? id = some e) :
    e.lastBorrow = now ∨ ∃ e₀, p₀.object? id = some e₀ ∧ e.lastBorrow = e₀.lastBorrow := by
  induction h generalizing e with
  | refl => exact .inr ⟨e, he, rfl⟩
  | count _ _ ih | book _ _ _ ih | shut _ ih | stop _ ih => exact ih he
  | @modify q x f _ hf _ ih =>
    rw [object?_modify] at he
    split at he
    · obtain ⟨y, hy, rfl⟩ := Option.map_eq_some_iff.mp he
      rcases (hf y).borrow with hsame | hnow
      · rw [hsame]
        exact ih hy
      · exact .inl hnow
    · exact ih he
  | @enlist q s r _ h ih =>
    by_cases hlt : id < q.entries.length
    · rw [object?_enlist_of_lt hlt] at he
      exact ih he
    · have hlast : (q.entries ++ [Entry.fresh now r s])[id]? = some e := he
      rw [List.getElem?_append_right (Nat.le_of_not_lt hlt)] at hlast
      obtain rfl := List.mem_singleton.mp (List.mem_of_getElem? hlast)
      exact .inl rfl
  | @takeAway q x _ _ ih =>
    rw [object?_takeAway] at he
    split at he
    · obtain ⟨y, hy, rfl⟩ := Option.map_eq_some_iff.mp he
      rw [y.seized_lastBorrow]
      exact ih hy
    · exact ih he

/-- An object that is lent was so before, with the stamp and the last use that it has, or it has
    the stamp of the stretch. -/
theorem lent (h : p₀.Becomes now own p) {e : Entry ρ} (he : p.object? id = some e)
    (hs : e.state = .allocated) : e.lastBorrow = now ∨ ∃ e₀, p₀.object? id = some e₀ ∧
      e₀.state = .allocated ∧ e.lastBorrow = e₀.lastBorrow ∧ e.lastUse = e₀.lastUse := by
  induction h generalizing e with
  | refl => exact .inr ⟨e, he, hs, rfl, rfl⟩
  | count _ _ ih | book _ _ _ ih | shut _ ih | stop _ ih => exact ih he hs
  | @modify q x f _ hf _ ih =>
    rw [object?_modify] at he
    split at he
    · obtain ⟨y, hy, rfl⟩ := Option.map_eq_some_iff.mp he
      rcases (hf y).lent hs with hnow | ⟨hs, hb, hu⟩
      · exact .inl hnow
      · rw [hb, hu]
        exact ih hy hs
    · exact ih he hs
  | @enlist q s r _ h ih =>
    by_cases hlt : id < q.entries.length
    · rw [object?_enlist_of_lt hlt] at he
      exact ih he hs
    · have hlast : (q.entries ++ [Entry.fresh now r s])[id]? = some e := he
      rw [List.getElem?_append_right (Nat.le_of_not_lt hlt)] at hlast
      obtain rfl := List.mem_singleton.mp (List.mem_of_getElem? hlast)
      exact .inl rfl
  | @takeAway q x _ _ ih =>
    rw [object?_takeAway] at he
    split at he
    · -- the object itself is not lent any more
      obtain ⟨y, -, rfl⟩ := Option.map_eq_some_iff.mp he
      exact nomatch y.seized_state.symm.trans hs
    · exact ih he hs

end Becomes

end Pool

end ObjectPool
