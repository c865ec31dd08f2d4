/-
  ObjectPool.Proofs.Position

  How one object stands: its state and slot, where the books list it, who has
  it, and whether its resource went to the factory to be destroyed.

  `Position.Legal` is the table of the positions an object can be in between two
  stretches: not made yet, idle, lent, in the charge of a call, or gone. What an
  object in the charge of a call looks like depends on the charge and is the table
  `Custody.Has`. In each row one party answers for the object.
-/

import ObjectPool.Proofs.Ledger

namespace ObjectPool

variable {ρ : Type}

/-- What a call sees of an object itself. -/
structure Shape (ρ : Type) where
  state : Lifecycle
  slot : Option ρ
  held : Bool

/-- What a call sees of an object itself. -/
def Entry.shape (e : Entry ρ) : Shape ρ := ⟨e.state, e.slot, e.held⟩

/-- How one object stands. The numbers say how often the books list it among the
    tracked, the idle and the lent objects, and how often it was destroyed. -/
structure Position (ρ : Type) where
  shape : Option (Shape ρ)
  tracked : Nat
  idle : Nat
  active : Nat
  graves : Nat
  loans : List (Loan ρ)
  charges : List (Custody ρ)

/-- At most one borrower has the object, and it is not working on it. -/
def Stale (l : List (Loan ρ)) : Prop := l = [] ∨ ∃ r, l = [⟨false, r⟩]

/-- The position of an object in the charge of a call, apart from the charge itself. -/
inductive Custody.Has : Custody ρ → Position ρ → Prop
  | lending (r : ρ) : Has .lending ⟨some ⟨.allocated, some r, true⟩, 1, 0, 1, 0, [], []⟩
  | returning (r : ρ) : Has .returning ⟨some ⟨.returning, some r, true⟩, 1, 0, 1, 0, [], []⟩
  | untried (r : ρ) : Has .untried ⟨some ⟨.validation, some r, false⟩, 1, 0, 0, 0, [], []⟩
  | trying (r : ρ) : Has .trying ⟨some ⟨.validation, some r, true⟩, 1, 0, 0, 0, [], []⟩
  | stocking (r : ρ) : Has .stocking ⟨some ⟨.idle, some r, true⟩, 0, 0, 0, 0, [], []⟩
  | evicted (r : ρ) : Has .evicted ⟨some ⟨.invalid, some r, false⟩, 0, 0, 0, 0, [], []⟩
  | drained (r : ρ) : Has .drained ⟨some ⟨.idle, some r, false⟩, 0, 0, 0, 0, [], []⟩
  | seized (r : ρ) {l : List (Loan ρ)} (h : Stale l) :
      Has (.seized (some r)) ⟨some ⟨.abandoned, none, false⟩, 0, 0, 0, 0, l, []⟩

/-- The positions in which an object can be between two stretches. -/
inductive Position.Legal : Position ρ → Prop
  | unborn : Legal ⟨none, 0, 0, 0, 0, [], []⟩
  | idle (r : ρ) : Legal ⟨some ⟨.idle, some r, false⟩, 1, 1, 0, 0, [], []⟩
  | lent (g : Bool) (r : ρ) :
      Legal ⟨some ⟨.allocated, some r, g⟩, 1, 0, 1, 0, [⟨g, some r⟩], []⟩
  | entrusted {c : Custody ρ} {v : Position ρ} (h : c.Has v) : Legal { v with charges := [c] }
  | dead {l : List (Loan ρ)} (h : Stale l) :
      Legal ⟨some ⟨.invalid, none, false⟩, 0, 0, 0, 1, l, []⟩

namespace Pool

/-- The shape of an object. -/
def shape? (p : Pool ρ) (id : Nat) : Option (Shape ρ) := (p.object? id).map Entry.shape

/-- How an object stands. -/
def position (p : Pool ρ) (ℓ : Ledger ρ) (id : Nat) : Position ρ where
  shape := p.shape? id
  tracked := p.registry.tracked.count id
  idle := p.registry.idle.count id
  active := p.registry.active.count id
  graves := ℓ.graves.count id
  loans := claims id ℓ.loans
  charges := claims id ℓ.charges

/-! ## The views of an object in terms of its shape -/

theorem slot?_eq_shape? (p : Pool ρ) (id : Nat) : p.slot? id = (p.shape? id).bind (·.slot) := by
  unfold slot? shape?
  cases p.object? id <;> rfl

theorem isHeld_eq_shape? (p : Pool ρ) (id : Nat) : p.isHeld id = (p.shape? id).any (·.held) := by
  unfold isHeld shape?
  cases p.object? id <;> rfl

theorem isIn_eq_shape? (p : Pool ρ) (id : Nat) (s : Lifecycle) :
    p.isIn id s = (p.shape? id).any fun v => decide (v.state = s) := by
  unfold isIn shape?
  cases p.object? id <;> rfl

theorem stateOf_eq_shape? (p : Pool ρ) (id : Nat) :
    p.stateOf id = ((p.shape? id).map (·.state)).getD .invalid := by
  unfold stateOf shape?
  cases p.object? id <;> rfl

/-! ## What a change to one object does to shapes -/

/-- A change to one object shows in the shape of that object alone. -/
theorem shape?_modify {f : Entry ρ → Entry ρ} {g : Shape ρ → Shape ρ}
    (hf : ∀ e, (f e).shape = g e.shape) (id x : Nat) (p : Pool ρ) :
    (p.modify id f).shape? x = if id = x then (p.shape? x).map g else p.shape? x := by
  unfold shape?
  rw [object?_modify]
  by_cases h : id = x
  · simp only [h, if_true, Option.map_map]
    exact congrArg (Option.map · _) (funext hf)
  · simp only [h, if_false]

theorem shape_become (s : Lifecycle) (e : Entry ρ) :
    (e.become s).shape = { e.shape with state := s } := by
  simp [Entry.shape]

@[simp] theorem shape?_setState (id x : Nat) (s : Lifecycle) (p : Pool ρ) :
    (p.setState id s).shape? x =
      if id = x then (p.shape? x).map fun v => { v with state := s } else p.shape? x :=
  shape?_modify (shape_become s) id x p

@[simp] theorem shape?_hold (id x : Nat) (p : Pool ρ) :
    (p.hold id).shape? x =
      if id = x then (p.shape? x).map fun v => { v with held := true } else p.shape? x :=
  shape?_modify (fun _ => rfl) id x p

@[simp] theorem shape?_release (id x : Nat) (p : Pool ρ) :
    (p.release id).shape? x =
      if id = x then (p.shape? x).map fun v => { v with held := false } else p.shape? x :=
  shape?_modify (fun _ => rfl) id x p

@[simp] theorem shape?_letGo (id x : Nat) (r : ρ) (p : Pool ρ) :
    (p.letGo id r).shape? x =
      if id = x then (p.shape? x).map fun v => { v with held := false, slot := some r }
      else p.shape? x :=
  shape?_modify (fun _ => rfl) id x p

@[simp] theorem shape?_emptySlot (id x : Nat) (p : Pool ρ) :
    (p.emptySlot id).shape? x =
      if id = x then (p.shape? x).map fun v => { v with slot := none } else p.shape? x :=
  shape?_modify (fun _ => rfl) id x p

@[simp] theorem shape?_book (f : Registry → Registry) (x : Nat) (p : Pool ρ) :
    (p.book f).shape? x = p.shape? x := rfl

@[simp] theorem shape?_count (f : Counters → Counters) (x : Nat) (p : Pool ρ) :
    (p.count f).shape? x = p.shape? x := rfl

@[simp] theorem shape?_detach (id x : Nat) (p : Pool ρ) : (p.detach id).shape? x = p.shape? x := rfl

/-- A change that an object's shape does not show. -/
theorem shape?_modify_of_eq {f : Entry ρ → Entry ρ} (hf : ∀ e, (f e).shape = e.shape)
    (id x : Nat) (p : Pool ρ) : (p.modify id f).shape? x = p.shape? x := by
  rw [shape?_modify (g := fun v => v) hf]
  split <;> simp

@[simp] theorem shape?_forgetUse (id x : Nat) (p : Pool ρ) :
    (p.forgetUse id).shape? x = p.shape? x :=
  shape?_modify_of_eq (f := fun e => { e with lastUse := none }) (fun _ => rfl) id x p

@[simp] theorem shape?_retire (id x : Nat) (p : Pool ρ) :
    (p.retire id).shape? x =
      if id = x then (p.shape? x).map fun v => { v with state := .invalid } else p.shape? x := by
  rw [retire, shape?_count, shape?_forgetUse, shape?_setState]

theorem shape?_eq_none_iff {p : Pool ρ} {id : Nat} :
    p.shape? id = none ↔ p.entries.length ≤ id := by
  simp [shape?, object?]

@[simp] theorem shape?_enlist (now : Instant) (r : ρ) (s : Lifecycle) (x : Nat) (p : Pool ρ) :
    (p.enlist now r s).shape? x =
      if p.entries.length = x then some ⟨s, some r, false⟩ else p.shape? x := by
  unfold shape? object? enlist
  by_cases h : p.entries.length = x
  · subst h; simp [Entry.shape, Entry.fresh]
  · rw [List.getElem?_append]
    by_cases hlt : x < p.entries.length
    · simp [hlt, h]
    · have hge : p.entries.length ≤ x := Nat.le_of_not_lt hlt
      rw [if_neg hlt, if_neg h, List.getElem?_eq_none_iff.mpr hge,
        List.getElem?_eq_none_iff.mpr (by simp; omega)]

@[simp] theorem length_entries_modify (id : Nat) (f : Entry ρ → Entry ρ) (p : Pool ρ) :
    (p.modify id f).entries.length = p.entries.length := by simp [modify]

end Pool

/-! ## What a legal position says -/

theorem Stale.perm {l m : List (Loan ρ)} (h : Stale l) (hp : l.Perm m) : m = l := by
  rcases h with rfl | ⟨r, rfl⟩
  · exact List.nil_perm.mp hp
  · exact (List.singleton_perm.mp hp).symm

/-- A loan and a charge are listed once, so that their order does not matter. -/
theorem Position.Legal.perm {v : Position ρ} (h : v.Legal) {loans : List (Loan ρ)}
    {charges : List (Custody ρ)} (hl : v.loans.Perm loans) (hc : v.charges.Perm charges) :
    loans = v.loans ∧ charges = v.charges := by
  -- in every row the lists have one entry at most
  cases h with
  | unborn | idle => exact ⟨List.nil_perm.mp hl, List.nil_perm.mp hc⟩
  | lent => exact ⟨(List.singleton_perm.mp hl).symm, List.nil_perm.mp hc⟩
  | dead hs => exact ⟨hs.perm hl, List.nil_perm.mp hc⟩
  | entrusted he =>
    refine ⟨?_, (List.singleton_perm.mp hc).symm⟩
    cases he with
    | seized r hs => exact hs.perm hl
    | _ => exact List.nil_perm.mp hl

/-- An object in the charge of a call stands as the charge says. -/
theorem Position.Legal.has {v : Position ρ} (h : v.Legal) {c : Custody ρ}
    {l : List (Custody ρ)} (hc : v.charges = c :: l) :
    l = [] ∧ c.Has { v with charges := [] } := by
  cases h with
  | unborn | idle | lent | dead => exact nomatch hc
  | entrusted he =>
    -- the charge is the only one
    obtain ⟨rfl, rfl⟩ := List.cons.inj hc
    refine ⟨rfl, ?_⟩
    cases he with
    | seized r hs => exact .seized r hs
    | _ => constructor

end ObjectPool
