/-
  ObjectPool.Proofs.Moves

  What the small changes that calls are made of do to the object in focus. Each
  change to the books lists one object anew and leaves the others where they are
  (`Registry.counts`); each statement here gives the object's new position.
-/

import ObjectPool.Proofs.Sound

namespace ObjectPool

variable {ρ : Type}

namespace Registry

/-- How often the books list an object among the tracked, the idle and the lent ones. -/
def counts (r : Registry) (id : Nat) : Nat × Nat × Nat :=
  (r.tracked.count id, r.idle.count id, r.active.count id)

variable {r : Registry} {id x : Nat}

theorem count_pushIdle_idle (r : Registry) (id x : Nat) :
    (r.pushIdle id).idle.count x = (if id = x then 1 else 0) + r.idle.count x := by
  cases ho : r.order with
  | lifo =>
    have hidle : (r.pushIdle id).idle = id :: r.idle := by simp only [pushIdle, ho, wakeNext_idle]
    rw [hidle, List.count_cons, Nat.add_comm]; simp
  | fifo =>
    have hidle : (r.pushIdle id).idle = r.idle ++ [id] := by simp only [pushIdle, ho, wakeNext_idle]
    rw [hidle, List.count_append, List.count_singleton, Nat.add_comm]; simp

theorem counts_detach_of_ne (hx : x ≠ id) (r : Registry) : (r.detach id).counts x = r.counts x := by
  unfold Registry.detach
  split
  · show (List.count x (without id r.tracked),
      List.count x (if id ∈ r.active then r.idle else without id r.idle),
      List.count x (without id r.active)) = _
    rw [count_without_of_ne hx, count_without_of_ne hx]
    split
    · rfl
    · rw [count_without_of_ne hx]
      rfl
  · rfl

/-- An object that is idle or lent, and not both, leaves the books altogether. -/
theorem counts_detach_self (ht : id ∈ r.tracked) (h : id ∈ r.active → id ∉ r.idle) :
    (r.detach id).counts id = (0, 0, 0) := by
  rw [Registry.detach, if_pos ht]
  show (List.count id (without id r.tracked),
    List.count id (if id ∈ r.active then r.idle else without id r.idle),
    List.count id (without id r.active)) = _
  rw [count_without_self, count_without_self]
  split
  · -- a lent object is not in the idle queue, which is left as it is
    rename_i ha
    rw [List.count_eq_zero.mpr (h ha)]
  · rw [count_without_self]

theorem counts_registerActive_of_ne (hx : x ≠ id) (r : Registry) :
    (r.registerActive id).counts x = r.counts x := by
  show (List.count x (adjoin id r.tracked), r.idle.count x, List.count x (adjoin id r.active)) = _
  rw [count_adjoin_of_ne hx, count_adjoin_of_ne hx]
  rfl

theorem counts_registerIdle (r : Registry) (id x : Nat) : (r.registerIdle id).counts x =
    ((adjoin id r.tracked).count x, (if id = x then 1 else 0) + r.idle.count x,
      r.active.count x) := by
  show (_, List.count x (pushIdle id _).idle, _) = _
  rw [count_pushIdle_idle]
  rfl

theorem counts_checkin (r : Registry) (id x : Nat) : (r.checkin id).counts x =
    (r.tracked.count x, (if id = x then 1 else 0) + r.idle.count x,
      (without id r.active).count x) := by
  show (_, List.count x (pushIdle id _).idle, _) = _
  rw [count_pushIdle_idle]
  rfl

theorem counts_restoreIdle (r : Registry) (id x : Nat) : (r.restoreIdle id).counts x =
    (r.tracked.count x, r.idle.count x + (if id = x then 1 else 0), r.active.count x) := by
  show (r.tracked.count x, List.count x (r.idle ++ [id]), r.active.count x) = _
  rw [List.count_append, List.count_singleton]
  simp

theorem counts_removeIdle (r : Registry) (id x : Nat) : (r.removeIdle id).counts x =
    (r.tracked.count x, (without id r.idle).count x, r.active.count x) := rfl

theorem counts_lend (r : Registry) (id x : Nat) (rest : List Nat) :
    (r.lend id rest).counts x =
      (r.tracked.count x, rest.count x, (adjoin id r.active).count x) := rfl

end Registry

namespace Pool

variable {p : Pool ρ} {ℓ : Ledger ρ} {id n : Nat} {v : Position ρ} {ts : List Nat}

/-- The books list the object in focus anew, and the others as before. -/
theorem Focus.book (h : p.Focus ℓ id v) {f : Registry → Registry} {a b c : Nat}
    (hf : (f p.registry).Orderly n ts)
    (hcap : (f p.registry).capacity = p.registry.capacity)
    (hclosed : p.registry.closed = true → (f p.registry).closed = true)
    (hx : ∀ x, x ≠ id → (f p.registry).counts x = p.registry.counts x)
    (hid : (f p.registry).counts id = (a, b, c)) :
    (p.book f).Focus { ℓ with places := n, tickets := ts } id
      { v with tracked := a, idle := b, active := c } := by
  refine h.move (h.toOrderly.book hf hcap hclosed rfl) (fun x hne => ?_) ?_
  · -- the other objects
    obtain ⟨ht, hia⟩ := Prod.mk.inj (hx x hne)
    obtain ⟨hi, ha⟩ := Prod.mk.inj hia
    simp only [position, book_registry, ht, hi, ha]
    rfl
  · -- the object in focus
    obtain ⟨ht, hia⟩ := Prod.mk.inj hid
    obtain ⟨hi, ha⟩ := Prod.mk.inj hia
    rw [← h.here]
    simp only [position, book_registry, ht, hi, ha]
    rfl

/-- The object in focus leaves the books. -/
theorem Focus.detach (h : p.Focus ℓ id v) (ht : v.tracked = 1) (hv : v.active = 0 ∨ v.idle = 0) :
    (p.detach id).Focus ℓ id { v with tracked := 0, idle := 0, active := 0 } := by
  have hmem : id ∈ p.registry.tracked := List.count_pos_iff.mp (by rw [h.tracked, ht]; decide)
  -- it is idle or lent, and not both
  have hnot : id ∈ p.registry.active → id ∉ p.registry.idle := by
    intro ha
    have hpos : 0 < v.active := h.active ▸ List.count_pos_iff.mpr ha
    have hidle : v.idle = 0 := hv.resolve_left (Nat.ne_of_gt hpos)
    exact List.count_eq_zero.mp (h.idle.trans hidle)
  refine h.book h.books.detach ?_ ?_ (fun x hx => Registry.counts_detach_of_ne hx _)
    (Registry.counts_detach_self hmem hnot)
  · rw [Registry.detach, if_pos hmem]
    rfl
  · rw [Registry.detach, if_pos hmem]
    exact fun hc => hc

/-- The object in focus is counted as destroyed, and its resource is given to the factory. -/
theorem Focus.retire (h : p.Focus ℓ id v) :
    (p.retire id).Focus { ℓ with graves := id :: ℓ.graves } id
      { v with
        shape := v.shape.map fun x => { x with state := .invalid }
        graves := v.graves + 1 } := by
  have hlen : (p.retire id).entries.length = p.entries.length := by
    rw [Pool.retire, count_entries, forgetUse, length_entries_modify, Pool.setState,
      length_entries_modify]
  refine h.move { h with born := hlen.trans h.born, destroyed := ?_ } (fun x hx => ?_) ?_
  · exact congrArg (· + 1) h.destroyed
  · rw [position, shape?_retire, if_neg (Ne.symm hx), List.count_cons_of_ne (Ne.symm hx)]
    rfl
  · rw [position, shape?_retire, if_pos rfl, List.count_cons_self, ← h.here]
    rfl

/-- A new object gets the next number. -/
theorem Sound.enlist (h : p.Sound ℓ) (now : Instant) (r : ρ) (s : Lifecycle) :
    ((p.count fun c => { c with created := c.created + 1 }).enlist now r s).Focus (ℓ.bear 1)
      p.entries.length ⟨some ⟨s, some r, false⟩, 0, 0, 0, 0, [], []⟩ := by
  have hnone : p.shape? p.entries.length = none := shape?_eq_none_iff.mpr (Nat.le_refl _)
  -- no object has the next number yet, and so nobody has it
  have hunborn : p.position ℓ p.entries.length = ⟨none, 0, 0, 0, 0, [], []⟩ := by
    have hlegal := h.objects p.entries.length
    have hshape : (p.position ℓ p.entries.length).shape = none := hnone
    generalize p.position ℓ p.entries.length = v at hlegal hshape ⊢
    cases hlegal with
    | unborn => rfl
    | idle | lent | dead => exact nomatch hshape
    | entrusted he => cases he <;> exact nomatch hshape
  have hf := hunborn ▸ h.focus p.entries.length
  refine hf.move { h with created := congrArg (· + 1) h.created, born := ?_ } (fun x hx => ?_) ?_
  · show (p.entries ++ [Entry.fresh now r s]).length = ℓ.born + 1
    rw [List.length_append, h.born]
    rfl
  · rw [position, shape?_enlist, count_entries, if_neg (Ne.symm hx)]
    rfl
  · have hv := hf.here
    simp only [position, Position.mk.injEq] at hv
    obtain ⟨-, ht, hi, ha, hg, hl, hc⟩ := hv
    rw [position, shape?_enlist, count_entries, if_pos rfl]
    exact (Position.mk.injEq ..).mpr ⟨rfl, ht, hi, ha, hg, hl, hc⟩

theorem Focus.registerActive (h : p.Focus ℓ id v) (hn : ℓ.places = n + 1) (ht : v.tracked = 0)
    (ha : v.active = 0) :
    (p.book (Registry.registerActive id)).Focus { ℓ with places := n } id
      { v with tracked := 1, active := 1 } := by
  have hbooks := hn ▸ h.books
  have htracked : p.registry.tracked.count id = 0 := h.tracked.trans ht
  refine h.book (hbooks.registerActive (List.count_eq_zero.mp htracked)) rfl (fun hc => hc)
    (fun x hx => Registry.counts_registerActive_of_ne hx _) ?_
  show (List.count id (Registry.adjoin id p.registry.tracked), p.registry.idle.count id,
    List.count id (Registry.adjoin id p.registry.active)) = _
  rw [Registry.count_adjoin_of_count_eq_zero htracked,
    Registry.count_adjoin_of_count_eq_zero (h.active.trans ha), h.idle]

theorem Focus.registerIdle (h : p.Focus ℓ id v) (hn : ℓ.places = n + 1) (ho : p.closed = false)
    (ht : v.tracked = 0) (hi : v.idle = 0) :
    (p.book (Registry.registerIdle id)).Focus { ℓ with places := n } id
      { v with tracked := 1, idle := 1 } := by
  have hbooks := hn ▸ h.books
  refine h.book (hbooks.toTidy.registerIdle ho) rfl (fun hc => hc) (fun x hx => ?_) ?_
  · rw [Registry.counts_registerIdle, Registry.count_adjoin_of_ne hx, if_neg (Ne.symm hx),
      Nat.zero_add]
    rfl
  · rw [Registry.counts_registerIdle, if_pos rfl, h.idle, hi, h.active,
      Registry.count_adjoin_of_count_eq_zero (h.tracked.trans ht)]

theorem Focus.checkin (h : p.Focus ℓ id v) (ho : p.closed = false) (hi : v.idle = 0) :
    (p.book (Registry.checkin id)).Focus ℓ id { v with idle := 1, active := 0 } := by
  refine h.book (h.books.toTidy.checkin ho) rfl (fun hc => hc) (fun x hx => ?_) ?_
  · rw [Registry.counts_checkin, Registry.count_without_of_ne hx, if_neg (Ne.symm hx),
      Nat.zero_add]
    rfl
  · rw [Registry.counts_checkin, if_pos rfl, h.idle, hi, h.tracked, Registry.count_without_self]

theorem Focus.restoreIdle (h : p.Focus ℓ id v) (ho : p.closed = false) (hi : v.idle = 0) :
    (p.book (Registry.restoreIdle id)).Focus ℓ id { v with idle := 1 } := by
  refine h.book (h.books.toTidy.restoreIdle ho) rfl (fun hc => hc) (fun x hx => ?_) ?_
  · rw [Registry.counts_restoreIdle, if_neg (Ne.symm hx)]
    rfl
  · rw [Registry.counts_restoreIdle, if_pos rfl, h.idle, hi, h.tracked, h.active]

theorem Focus.removeIdle (h : p.Focus ℓ id v) :
    (p.book (Registry.removeIdle id)).Focus ℓ id { v with idle := 0 } := by
  refine h.book h.books.removeIdle rfl (fun hc => hc) (fun x hx => ?_) ?_
  · rw [Registry.counts_removeIdle, Registry.count_without_of_ne hx]
    rfl
  · rw [Registry.counts_removeIdle, Registry.count_without_self, h.tracked, h.active]

/-- The first of the idle objects is lent. -/
theorem Focus.lend (h : p.Focus ℓ id v) {rest : List Nat} (hr : p.registry.idle = id :: rest)
    (hi : v.idle = 1) (ha : v.active = 0) :
    (p.book (Registry.lend id rest)).Focus ℓ id { v with idle := 0, active := 1 } := by
  -- the object is in the idle queue once, at its head
  have hrest : rest.count id = 0 := by
    have hidle := h.idle
    rw [hr, List.count_cons_self, hi] at hidle
    omega
  refine h.book (h.books.shrinkIdle _ fun _ => by rw [hr]; exact List.cons_ne_nil _ _) rfl
    (fun hc => hc) (fun x hx => ?_) ?_
  · have hcons : rest.count x = p.registry.idle.count x := by
      rw [hr, List.count_cons_of_ne (Ne.symm hx)]
    rw [Registry.counts_lend, Registry.count_adjoin_of_ne hx, hcons]
    rfl
  · rw [Registry.counts_lend, hrest, h.tracked,
      Registry.count_adjoin_of_count_eq_zero (h.active.trans ha)]

/-- The books change and list every object as before. -/
theorem Sound.book (h : p.Sound ℓ) {f : Registry → Registry}
    (hf : (f p.registry).Orderly n ts)
    (hcap : (f p.registry).capacity = p.registry.capacity)
    (hclosed : p.registry.closed = true → (f p.registry).closed = true)
    (hx : ∀ x, (f p.registry).counts x = p.registry.counts x) :
    (p.book f).Sound { ℓ with places := n, tickets := ts } := by
  refine h.of_positions (h.toOrderly.book hf hcap hclosed rfl) fun x => ?_
  obtain ⟨ht, hia⟩ := Prod.mk.inj (hx x)
  obtain ⟨hi, ha⟩ := Prod.mk.inj hia
  simp only [position, book_registry, ht, hi, ha]
  rfl

theorem Sound.reserve (h : p.Sound ℓ) (hr : p.registry.hasRoom = true) :
    (p.book Registry.reserve).Sound { ℓ with places := ℓ.places + 1 } :=
  h.book (h.books.reserve hr) rfl (fun hc => hc) fun _ => rfl

theorem Focus.cancelReservation (h : p.Focus ℓ id v) (hn : ℓ.places = n + 1) :
    (p.book Registry.cancelReservation).Focus { ℓ with places := n } id v := by
  -- a place is given up, and every object is listed as before
  have hf := h.book (f := Registry.cancelReservation) ((hn ▸ h.books).toTidy.cancelReservation)
    rfl (fun hc => hc) (fun _ _ => rfl) rfl
  rwa [show v = { v with
    tracked := p.registry.tracked.count id, idle := p.registry.idle.count id,
    active := p.registry.active.count id } from by rw [← h.here]; rfl]

theorem Sound.cancelReservation (h : p.Sound ℓ) (hn : ℓ.places = n + 1) :
    (p.book Registry.cancelReservation).Sound { ℓ with places := n } :=
  h.book ((hn ▸ h.books).toTidy.cancelReservation) rfl (fun hc => hc) fun _ => rfl

end Pool

end ObjectPool
