/-
  ObjectPool.Proofs.Ledger

  Who answers for each object of a pool, and what the calls on their way owe it.

  An object that is neither idle nor in the hands of a borrower is in the charge
  of exactly one call, and the point at which that call stands says for what. The
  ledger sums this up over all calls and all borrowers:

    * `Point.charges`, `Point.returns`, `Point.places`, `Point.tickets`,
      `Point.promises` — what one call on its way adds to the ledger.
    * `Point.agenda?` — what an idle sweep has before it.
    * `Ledger.add` — the ledger with one more call on its way.
    * `claims` — the entries of a list that are about one object.
-/

import ObjectPool.Pool.Step

namespace ObjectPool

variable {ρ : Type}

/-! ## Entries about one object -/

/-- What a list keyed by objects says about one object. -/
def claims {α : Type} (id : Nat) (l : List (Nat × α)) : List α :=
  (l.filter fun x => decide (x.1 = id)).map (·.2)

section claims

variable {α : Type} {id : Nat}

@[simp] theorem claims_nil : claims id ([] : List (Nat × α)) = [] := rfl

theorem claims_cons (x : Nat × α) (l : List (Nat × α)) :
    claims id (x :: l) = if x.1 = id then x.2 :: claims id l else claims id l := by
  by_cases h : x.1 = id <;> simp [claims, h]

@[simp] theorem claims_cons_self (a : α) (l : List (Nat × α)) :
    claims id ((id, a) :: l) = a :: claims id l := by simp [claims_cons]

theorem claims_cons_of_ne {x : Nat} (a : α) (l : List (Nat × α)) (h : x ≠ id) :
    claims id ((x, a) :: l) = claims id l := by simp [claims_cons, h]

@[simp] theorem claims_append (l m : List (Nat × α)) :
    claims id (l ++ m) = claims id l ++ claims id m := by simp [claims]

theorem mem_claims {a : α} {l : List (Nat × α)} : a ∈ claims id l ↔ (id, a) ∈ l := by
  simp [claims]

/-- Nothing is said about an object that no entry is about. -/
theorem claims_eq_nil_iff {l : List (Nat × α)} : claims id l = [] ↔ ∀ a, (id, a) ∉ l := by
  rw [List.eq_nil_iff_forall_not_mem]
  exact forall_congr' fun a => not_congr mem_claims

theorem claims_perm {l m : List (Nat × α)} (h : l.Perm m) : (claims id l).Perm (claims id m) :=
  (h.filter _).map _

/-- The same entry for each of several objects. -/
def each (ids : List Nat) (a : α) : List (Nat × α) := ids.map (·, a)

@[simp] theorem each_nil (a : α) : each [] a = [] := rfl

@[simp] theorem each_cons (x : Nat) (ids : List Nat) (a : α) :
    each (x :: ids) a = (x, a) :: each ids a := rfl

theorem claims_each (ids : List Nat) (a : α) :
    claims id (each ids a) = List.replicate (ids.count id) a := by
  induction ids with
  | nil => rfl
  | cons x ids ih =>
    rw [each_cons, claims_cons, ih, List.count_cons]
    by_cases h : x = id <;> simp [h, List.replicate_succ]

end claims

/-! ## What a call on its way adds -/

/-- What a call on its way has an object for. -/
inductive Custody (ρ : Type) where
  /-- It is readied for a borrower. -/
  | lending
  /-- It comes back from a borrower. -/
  | returning
  /-- It is to be tried out. -/
  | untried
  /-- It is being tried out. -/
  | trying
  /-- It is new and goes to the idle queue. -/
  | stocking
  /-- It was evicted and is to be destroyed. -/
  | evicted
  /-- It was idle and is to be destroyed. -/
  | drained
  /-- It was taken away from its borrower and is to be destroyed. -/
  | seized (resource : Option ρ)

/-- Objects taken away from their borrowers. -/
def seizures (xs : List (Reclaimed ρ)) : List (Nat × Custody ρ) :=
  xs.map fun x => (x.object, .seized x.resource)

@[simp] theorem seizures_nil : seizures ([] : List (Reclaimed ρ)) = [] := rfl

@[simp] theorem seizures_cons (x : Reclaimed ρ) (xs : List (Reclaimed ρ)) :
    seizures (x :: xs) = (x.object, .seized x.resource) :: seizures xs := rfl

/-- The objects of an idle sweep that is on its way. -/
def sweeping (out tests : List Nat) : List (Nat × Custody ρ) :=
  each out .evicted ++ each tests .untried

/-- The objects that wait for what follows the end of another. -/
def After.charges : After ρ → List (Nat × Custody ρ)
  | .reclaim rest _ _ => seizures rest
  | .evict out tests _ => sweeping out tests
  | .drain rest _ => each rest .drained
  | .seek _ | .reply _ | .notStocked _ _ => []

/-- The reply that a call has ready once a pool is closed. -/
def Closer.promises : Closer → List Reply
  | .call => []
  | .release r => [r]

/-- The reply that a call has ready once idle objects are destroyed. -/
def Drainer.promises : Drainer → List Reply
  | .clear => []
  | .close c => c.promises

/-- The reply that a call has ready once an object is destroyed. -/
def After.promises : After ρ → List Reply
  | .reply r => [r]
  | .drain _ d => d.promises
  | .seek _ | .notStocked _ _ | .reclaim _ _ _ | .evict _ _ _ => []

/-- The objects in the charge of a trial of `id`. -/
def Trial.charges (id : Nat) : Trial → List (Nat × Custody ρ)
  | .lend _ _ => [(id, .lending)]
  | .test tests _ => (id, .trying) :: each tests .untried

/-- The objects in the charge of a call that checks `id`. -/
def Check.charges (id : Nat) : Check → List (Nat × Custody ρ)
  | .trial t => t.charges id
  | .stock _ => [(id, .stocking)]
  | .takeBack _ => [(id, .returning)]

/-- The objects in the charge of a call that lays `id` to rest. -/
def Rest.charges (id : Nat) : Rest → List (Nat × Custody ρ)
  | .test tests _ => (id, .trying) :: each tests .untried
  | .stock _ => [(id, .stocking)]
  | .takeBack _ => [(id, .returning)]

/-- What the idle sweep of a round of upkeep has before it: objects to destroy, and then objects to
    try out. -/
structure Agenda where
  out : List Nat
  tests : List Nat

/-- What an idle sweep has before it that goes on after the end of an object. -/
def After.agenda? : After ρ → Option Agenda
  | .evict out tests _ => some ⟨out, tests⟩
  | _ => none

namespace Point

/-- The objects in the charge of a call. -/
def charges : Point ρ → List (Nat × Custody ρ)
  | .evicting out tests _ => sweeping out tests
  | .reclaiming rest _ _ => seizures rest
  | .draining rest _ | .joining _ rest _ => each rest .drained
  | .activating id t => t.charges id
  | .validating id c => c.charges id
  | .passivating id r => r.charges id
  | .destroying _ _ _ k => k.charges
  | .reporting _ x rest _ _ => seizures (x :: rest)
  | .borrow _ | .seek _ | .waiting _ _ | .add | .prepare | .filling _ _ | .upkeep
  | .takeBack _ _ | .discard _ | .clear | .close _ | .creating _ => []

/-- The object that a borrower has just given up, if the call is about to look at it. -/
def returns : Point ρ → List Nat
  | .takeBack id _ | .discard id => [id]
  | _ => []

/-- The places that a call holds for an object on its way. -/
def places : Point ρ → Nat
  | .creating _ | .validating _ (.stock _) | .passivating _ (.stock _) => 1
  | _ => 0

/-- The ticket of a borrower that waits. -/
def tickets : Point ρ → List Nat
  | .waiting _ t => [t]
  | _ => []

/-- The object whose resource the factory is given to destroy. -/
def buried : Point ρ → List Nat
  | .destroying id _ _ _ => [id]
  | _ => []

/-- What a call has before it that is in its idle sweep. -/
def agenda? : Point ρ → Option Agenda
  | .evicting out tests _ => some ⟨out, tests⟩
  | .activating _ (.test tests _) | .validating _ (.trial (.test tests _))
  | .passivating _ (.test tests _) => some ⟨[], tests⟩
  | .destroying _ _ _ k => k.agenda?
  | _ => none

/-- The replies that a call has ready for its end. -/
def promises : Point ρ → List Reply
  | .takeBack _ answer | .validating _ (.takeBack answer) | .passivating _ (.takeBack answer) =>
    answer.toList
  | .destroying _ _ _ k => k.promises
  | .close c | .joining _ _ c => c.promises
  | .draining _ d => d.promises
  | _ => []

end Point

/-! ## The ledger -/

/-- An object in the hands of a borrower. -/
structure Loan (ρ : Type) where
  /-- The borrower is working on the resource. -/
  guarded : Bool
  /-- The resource as the borrower left it. -/
  resource : Option ρ

/-- What stays as it is while calls run. -/
structure Charter where
  config : Config
  clones : Nat
  gone : Bool

/-- The charter of a pool. -/
def Pool.charter (p : Pool ρ) : Charter := ⟨p.config, p.clones, p.gone⟩

/-- What the calls on their way and the borrowers have of a pool. -/
structure Ledger (ρ : Type) where
  charter : Charter
  /-- The pool is known to be closed. -/
  closed : Bool := false
  charges : List (Nat × Custody ρ) := []
  loans : List (Nat × Loan ρ) := []
  places : Nat := 0
  tickets : List Nat := []
  promises : List Reply := []
  /-- The objects whose resources went to the factory to be destroyed. -/
  graves : List Nat := []
  /-- How many objects the factory has made. -/
  born : Nat := 0

namespace Ledger

/-- The ledger with one more call on its way; `slots` are the resources of objects
    that borrowers have just given up. -/
def add (slots : Nat → Option ρ) (pt : Point ρ) (ℓ : Ledger ρ) : Ledger ρ :=
  { ℓ with
    charges := pt.charges ++ ℓ.charges
    loans := (pt.returns.map fun id => (id, ⟨false, slots id⟩)) ++ ℓ.loans
    places := ℓ.places + pt.places
    tickets := pt.tickets ++ ℓ.tickets
    promises := pt.promises ++ ℓ.promises }

/-- The ledger once a call has come to a point at which the factory destroys a resource. -/
def bury (pt : Point ρ) (ℓ : Ledger ρ) : Ledger ρ := { ℓ with graves := pt.buried ++ ℓ.graves }

/-- The ledger with an object in the charge of a call. -/
def charge (id : Nat) (c : Custody ρ) (ℓ : Ledger ρ) : Ledger ρ :=
  { ℓ with charges := (id, c) :: ℓ.charges }

/-- The ledger with an object in the hands of a borrower. -/
def lend (id : Nat) (x : Loan ρ) (ℓ : Ledger ρ) : Ledger ρ :=
  { ℓ with loans := (id, x) :: ℓ.loans }

/-- The ledger with `n` more objects made by the factory. -/
def bear (n : Nat) (ℓ : Ledger ρ) : Ledger ρ := { ℓ with born := ℓ.born + n }

/-- The ledger with what follows the end of an object still to come. -/
def after (k : After ρ) (ℓ : Ledger ρ) : Ledger ρ :=
  { ℓ with charges := k.charges ++ ℓ.charges, promises := k.promises ++ ℓ.promises }

/-- Two ledgers that differ in the order of their entries alone. -/
structure Same (ℓ m : Ledger ρ) : Prop where
  charter : m.charter = ℓ.charter
  closed : m.closed = ℓ.closed
  charges : ℓ.charges.Perm m.charges
  loans : ℓ.loans.Perm m.loans
  places : m.places = ℓ.places
  tickets : ℓ.tickets.Perm m.tickets
  promises : ℓ.promises.Perm m.promises
  graves : m.graves = ℓ.graves
  born : m.born = ℓ.born

/-- Two ledgers that differ in the order of their charges alone. -/
theorem Same.of_charges (ℓ : Ledger ρ) {charges : List (Nat × Custody ρ)}
    (h : ℓ.charges.Perm charges) : ℓ.Same { ℓ with charges } where
  charter := rfl
  closed := rfl
  charges := h
  loans := .refl _
  places := rfl
  tickets := .refl _
  promises := .refl _
  graves := rfl
  born := rfl

end Ledger

end ObjectPool
