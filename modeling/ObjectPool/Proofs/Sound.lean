/-
  ObjectPool.Proofs.Sound

  When a pool and a ledger agree: the books are in order and every object is in a
  legal position (`Pool.Sound`).

  Within a stretch an object leaves its legal position for a while. `Pool.Focus`
  says that all is well apart from one object and how that object stands; each
  small change to the object moves it to another position and leaves the rest
  alone. A stretch takes an object out of somebody's charge, moves it, and puts
  it into a charge, an idle queue, a borrower's hands or a grave again.

    * `Sound.take`, `Focus.entrust` — an object leaves and enters a call's charge.
    * `Focus.sound` — an object in a legal position is out of focus again.
-/

import ObjectPool.Proofs.Books
import ObjectPool.Proofs.Position

namespace ObjectPool

variable {ρ : Type}

/-- Whether a call ends with an object for the borrower. -/
def Reply.isLoan : Reply → Bool
  | .lent _ => true
  | _ => false

namespace Pool

/-- The books, the counters and the ledger agree. -/
structure Orderly (p : Pool ρ) (ℓ : Ledger ρ) : Prop where
  books : p.registry.Orderly ℓ.places ℓ.tickets
  capacity : p.registry.capacity = p.config.maxTotal
  created : p.counters.created = ℓ.born
  born : p.entries.length = ℓ.born
  destroyed : p.counters.destroyed = ℓ.graves.length
  promises : ∀ r ∈ ℓ.promises, r.isLoan = false
  charter : p.charter = ℓ.charter
  closed : ℓ.closed = true → p.closed = true

/-- The pool and the ledger agree on every object. -/
structure Sound (p : Pool ρ) (ℓ : Ledger ρ) : Prop extends p.Orderly ℓ where
  objects : ∀ id, (p.position ℓ id).Legal

/-- The pool and the ledger agree on every object but one, which stands at `v`. -/
structure Focus (p : Pool ρ) (ℓ : Ledger ρ) (id : Nat) (v : Position ρ) : Prop
    extends p.Orderly ℓ where
  others : ∀ x, x ≠ id → (p.position ℓ x).Legal
  here : p.position ℓ id = v

variable {p q : Pool ρ} {ℓ m : Ledger ρ} {id : Nat} {v u : Position ρ} {c : Custody ρ}

/-! ## An object comes into focus and leaves it -/

theorem Sound.focus (h : p.Sound ℓ) (id : Nat) : p.Focus ℓ id (p.position ℓ id) :=
  { h with others := fun x _ => h.objects x, here := rfl }

theorem Focus.sound (h : p.Focus ℓ id v) (hv : v.Legal) : p.Sound ℓ := by
  refine { h with objects := fun x => ?_ }
  by_cases hx : x = id
  · subst hx
    rw [h.here]
    exact hv
  · exact h.others x hx

/-- The order of the ledger's entries does not matter. -/
theorem Sound.of_same (h : p.Sound ℓ) (hs : ℓ.Same m) : p.Sound m := by
  refine { h with
    books := ?_, created := ?_, born := ?_, destroyed := ?_, promises := ?_, charter := ?_,
    closed := ?_, objects := ?_ }
  · rw [hs.places]
    exact ⟨{ h.books with line := h.books.line.of_perm hs.tickets }, h.books.awake⟩
  · rw [hs.born]
    exact h.created
  · rw [hs.born]
    exact h.born
  · rw [hs.graves]
    exact h.destroyed
  · exact fun r hr => h.promises r (hs.promises.mem_iff.mpr hr)
  · rw [hs.charter]
    exact h.charter
  · rw [hs.closed]
    exact h.closed
  · -- an object has one loan and one charge at most, whose order cannot matter
    intro id
    have hv := h.objects id
    obtain ⟨hl, hc⟩ := hv.perm (claims_perm hs.loans) (claims_perm hs.charges)
    rw [position, hs.graves, hl, hc]
    exact hv

/-- A pool and a ledger that agree go on to agree if every object stands as before. -/
theorem Sound.of_positions (h : p.Sound ℓ) (ho : q.Orderly m)
    (hp : ∀ x, q.position m x = p.position ℓ x) : q.Sound m :=
  { ho with objects := fun x => hp x ▸ h.objects x }

/-- The object in focus goes to another position, and every other one stands as before. -/
theorem Focus.move (h : p.Focus ℓ id v) (ho : q.Orderly m)
    (hp : ∀ x, x ≠ id → q.position m x = p.position ℓ x) (hu : q.position m id = u) :
    q.Focus m id u :=
  { ho with others := fun x hx => hp x hx ▸ h.others x hx, here := hu }

theorem Focus.shape? (h : p.Focus ℓ id v) : p.shape? id = v.shape := congrArg Position.shape h.here

theorem Focus.tracked (h : p.Focus ℓ id v) : p.registry.tracked.count id = v.tracked :=
  congrArg Position.tracked h.here

theorem Focus.idle (h : p.Focus ℓ id v) : p.registry.idle.count id = v.idle :=
  congrArg Position.idle h.here

theorem Focus.active (h : p.Focus ℓ id v) : p.registry.active.count id = v.active :=
  congrArg Position.active h.here

theorem Focus.slot? (h : p.Focus ℓ id v) : p.slot? id = v.shape.bind (·.slot) := by
  rw [slot?_eq_shape?, h.shape?]

/-- An idle object is in the idle state, with its resource, and nobody has it. -/
theorem Sound.idle_position (h : p.Sound ℓ) (hid : id ∈ p.registry.idle) :
    ∃ r, p.position ℓ id = ⟨some ⟨.idle, some r, false⟩, 1, 1, 0, 0, [], []⟩ := by
  have hlegal := h.objects id
  have hpos : 0 < (p.position ℓ id).idle := List.count_pos_iff.mpr hid
  generalize p.position ℓ id = v at hlegal hpos ⊢
  -- of all legal positions only that of an idle object lists it among the idle ones
  cases hlegal with
  | idle r => exact ⟨r, rfl⟩
  | unborn | lent | dead => exact absurd hpos (Nat.lt_irrefl 0)
  | entrusted he => cases he <;> exact absurd hpos (Nat.lt_irrefl 0)

/-! ## Charges and loans -/

/-- An object leaves the charge of a call. -/
theorem Sound.take (h : p.Sound (ℓ.charge id c)) : ∃ v, c.Has v ∧ p.Focus ℓ id v := by
  have hv := h.objects id
  have hc : (p.position (ℓ.charge id c) id).charges = c :: claims id ℓ.charges := by
    simp [position, Ledger.charge]
  obtain ⟨hnil, hhas⟩ := hv.has hc
  refine ⟨_, hhas, { h with others := fun x hx => ?_, here := ?_ }⟩
  · -- the other objects have no part in the charge
    have hx' := h.objects x
    have hcx : claims x (ℓ.charge id c).charges = claims x ℓ.charges :=
      claims_cons_of_ne c _ hx.symm
    rwa [position, hcx] at hx'
  · rw [position, hnil]
    rfl

/-- An object enters the charge of a call. -/
theorem Focus.entrust (h : p.Focus ℓ id v) (hc : c.Has v) : p.Sound (ℓ.charge id c) := by
  refine { h with objects := fun x => ?_ }
  by_cases hx : x = id
  · subst hx
    -- nobody had the object in charge before
    have hpos : p.position (ℓ.charge x c) x = { v with charges := [c] } := by
      have hnil : claims x ℓ.charges = v.charges := congrArg Position.charges h.here
      have hv : v.charges = [] := by cases hc <;> rfl
      rw [← h.here]
      simp [position, Ledger.charge, hnil, hv]
    rw [hpos]
    exact .entrusted hc
  · have hcx : claims x (ℓ.charge id c).charges = claims x ℓ.charges :=
      claims_cons_of_ne c _ (Ne.symm hx)
    rw [position, hcx]
    exact h.others x hx

/-- A borrower's object, apart from the loan itself: it is lent as the loan says, or the
    pool has taken it back and its slot is empty. -/
theorem Sound.recall {g : Bool} {r : Option ρ} (h : p.Sound (ℓ.lend id ⟨g, r⟩)) :
    (∃ r', r = some r' ∧ p.Focus ℓ id ⟨some ⟨.allocated, some r', g⟩, 1, 0, 1, 0, [], []⟩) ∨
      (p.Sound ℓ ∧ id ∉ p.registry.active ∧ p.slot? id = none) := by
  have hv := h.objects id
  have hl : (p.position (ℓ.lend id ⟨g, r⟩) id).loans = ⟨g, r⟩ :: claims id ℓ.loans := by
    simp [position, Ledger.lend]
  -- the other objects have no part in the loan
  have hothers : ∀ x, x ≠ id → (p.position ℓ x).Legal := by
    intro x hx
    have hx' := h.objects x
    have hcx : claims x (ℓ.lend id ⟨g, r⟩).loans = claims x ℓ.loans :=
      claims_cons_of_ne _ _ hx.symm
    rwa [position, hcx] at hx'
  have hpos : p.position ℓ id =
      { p.position (ℓ.lend id ⟨g, r⟩) id with loans := claims id ℓ.loans } := rfl
  generalize hw : p.position (ℓ.lend id ⟨g, r⟩) id = w at hv hl hpos
  have hactive : p.registry.active.count id = w.active := congrArg Position.active hw
  have hslot : p.slot? id = w.shape.bind (·.slot) := by
    rw [slot?_eq_shape?]
    exact congrArg (fun v => v.shape.bind (·.slot)) hw
  -- once the loan is gone, no borrower has the object any more
  have hstale : ∀ l, Stale l → l = ⟨g, r⟩ :: claims id ℓ.loans → claims id ℓ.loans = [] := by
    rintro l (rfl | ⟨r', rfl⟩) he
    · exact nomatch he
    · exact (List.cons.inj he).2.symm
  cases hv with
  -- only a lent object and one that was taken back have a loan
  | unborn | idle => exact nomatch hl
  | lent g' r' =>
    obtain ⟨hg, hnil⟩ := List.cons.inj hl
    obtain ⟨rfl, rfl⟩ := Loan.mk.inj hg
    exact .inl ⟨r', rfl, { h with others := hothers, here := by rw [hpos, ← hnil] }⟩
  | dead hs =>
    refine .inr ⟨Focus.sound { h with others := hothers, here := hpos } ?_, ?_, hslot⟩
    · exact .dead (.inl (hstale _ hs hl))
    · exact List.count_eq_zero.mp hactive
  | entrusted he =>
    cases he with
    | seized r' hs =>
      refine .inr ⟨Focus.sound { h with others := hothers, here := hpos } ?_, ?_, hslot⟩
      · exact .entrusted (.seized r' (.inl (hstale _ hs hl)))
      · exact List.count_eq_zero.mp hactive
    | _ => exact nomatch hl

/-- A borrower gets an object. -/
theorem Focus.lendTo {r : ρ} {g : Bool}
    (h : p.Focus ℓ id ⟨some ⟨.allocated, some r, g⟩, 1, 0, 1, 0, [], []⟩) :
    p.Sound (ℓ.lend id ⟨g, some r⟩) := by
  have hl : claims id ℓ.loans = [] := congrArg Position.loans h.here
  have hv : p.position (ℓ.lend id ⟨g, some r⟩) id =
      { p.position ℓ id with loans := ⟨g, some r⟩ :: claims id ℓ.loans } := by
    simp [position, Ledger.lend]
  have hlent : p.Focus (ℓ.lend id ⟨g, some r⟩) id
      ⟨some ⟨.allocated, some r, g⟩, 1, 0, 1, 0, [⟨g, some r⟩], []⟩ := by
    refine { h with others := fun x hx => ?_, here := ?_ }
    · have hcx : claims x (ℓ.lend id ⟨g, some r⟩).loans = claims x ℓ.loans :=
        claims_cons_of_ne _ _ hx.symm
      rw [position, hcx]
      exact h.others x hx
    · rw [hv, hl, h.here]
  exact hlent.sound (.lent g r)

/-! ## Changes to the object in focus -/

theorem Orderly.modify (h : p.Orderly ℓ) (id : Nat) (f : Entry ρ → Entry ρ) :
    (p.modify id f).Orderly ℓ :=
  { h with born := (length_entries_modify id f p).trans h.born }

theorem Focus.modify (h : p.Focus ℓ id v) {f : Entry ρ → Entry ρ} {g : Shape ρ → Shape ρ}
    (hf : ∀ e, (f e).shape = g e.shape) :
    (p.modify id f).Focus ℓ id { v with shape := v.shape.map g } := by
  refine h.move (h.toOrderly.modify id f) (fun x hx => ?_) ?_
  · rw [position, shape?_modify hf, if_neg (Ne.symm hx)]
    rfl
  · rw [position, shape?_modify hf, if_pos rfl, ← h.here]
    rfl

/-- A change that the object's shape does not show. -/
theorem Focus.unseen (h : p.Focus ℓ id v) {f : Entry ρ → Entry ρ}
    (hf : ∀ e, (f e).shape = e.shape) : (p.modify id f).Focus ℓ id v := by
  have hm := h.modify (g := fun x => x) hf
  rwa [Option.map_id'] at hm

theorem Focus.setState (h : p.Focus ℓ id v) (s : Lifecycle) :
    (p.setState id s).Focus ℓ id { v with shape := v.shape.map fun x => { x with state := s } } :=
  h.modify (shape_become s)

theorem Focus.hold (h : p.Focus ℓ id v) :
    (p.hold id).Focus ℓ id { v with shape := v.shape.map fun x => { x with held := true } } :=
  h.modify fun _ => rfl

theorem Focus.release (h : p.Focus ℓ id v) :
    (p.release id).Focus ℓ id { v with shape := v.shape.map fun x => { x with held := false } } :=
  h.modify fun _ => rfl

theorem Focus.letGo (h : p.Focus ℓ id v) (r : ρ) :
    (p.letGo id r).Focus ℓ id
      { v with shape := v.shape.map fun x => { x with held := false, slot := some r } } :=
  h.modify fun _ => rfl

theorem Focus.emptySlot (h : p.Focus ℓ id v) :
    (p.emptySlot id).Focus ℓ id { v with shape := v.shape.map fun x => { x with slot := none } } :=
  h.modify fun _ => rfl

/-- A counter moves that is neither that of the objects made nor that of those destroyed. -/
theorem Orderly.count (h : p.Orderly ℓ) {f : Counters → Counters}
    (hc : (f p.counters).created = p.counters.created)
    (hd : (f p.counters).destroyed = p.counters.destroyed) : (p.count f).Orderly ℓ :=
  { h with created := hc.trans h.created, destroyed := hd.trans h.destroyed }

theorem Focus.count (h : p.Focus ℓ id v) {f : Counters → Counters}
    (hc : (f p.counters).created = p.counters.created)
    (hd : (f p.counters).destroyed = p.counters.destroyed) : (p.count f).Focus ℓ id v :=
  { h.toOrderly.count hc hd with others := h.others, here := h.here }

theorem Sound.count (h : p.Sound ℓ) {f : Counters → Counters}
    (hc : (f p.counters).created = p.counters.created)
    (hd : (f p.counters).destroyed = p.counters.destroyed) : (p.count f).Sound ℓ :=
  { h.toOrderly.count hc hd with objects := h.objects }

/-- The books change, and the pool does not open again. -/
theorem Orderly.book (h : p.Orderly ℓ) {f : Registry → Registry}
    (hf : (f p.registry).Orderly m.places m.tickets)
    (hcap : (f p.registry).capacity = p.registry.capacity)
    (hclosed : p.registry.closed = true → (f p.registry).closed = true)
    (hm : m = { ℓ with places := m.places, tickets := m.tickets }) : (p.book f).Orderly m := by
  rw [hm]
  exact { h with
    books := hf, capacity := hcap.trans h.capacity, closed := fun hc => hclosed (h.closed hc) }

end Pool

end ObjectPool
