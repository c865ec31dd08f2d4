/-
  ObjectPool.Proofs.Views

  The calls on their way on a pool and the handles of its objects, and the ledger
  they make up. A change to one thread or to one handle shows in the views as one
  entry that comes, goes or changes; the order of the entries carries no meaning.

    * `World.points`, `World.lent` — the calls on a pool and its handles.
    * `Ledger.of` — their ledger, with each loan as the pool has it.
    * `Sound.renew` — what the ledger says of resources may be read off the pool.
-/

import Mathlib.Algebra.GroupWithZero.Nat
import Mathlib.Data.List.Perm.Basic
import ObjectPool.Proofs.Step
import ObjectPool.World

namespace ObjectPool

variable {ρ : Type}

/-! ## A list with one entry changed -/

section Lists

variable {α : Type} {l : List α} {i : Nat} {a : α}

theorem perm_cons_eraseIdx (h : l[i]? = some a) : l.Perm (a :: l.eraseIdx i) := by
  obtain ⟨hi, rfl⟩ := List.getElem?_eq_some_iff.mp h
  exact (List.getElem_cons_eraseIdx_perm hi).symm

theorem modify_perm (h : l[i]? = some a) (f : α → α) :
    (l.modify i f).Perm (f a :: l.eraseIdx i) := by
  rw [← List.eraseIdx_modify_of_eq f i l]
  refine perm_cons_eraseIdx ?_
  rw [List.getElem?_modify, h]
  simp

theorem set_perm (h : i < l.length) (a : α) : (l.set i a).Perm (a :: l.eraseIdx i) :=
  List.set_perm_cons_eraseIdx h a

/-- A list that holds one entry of a kind holds it at one place. -/
theorem eq_of_countP_le_one {k : α → Bool} {j : Nat} {b : α} (hl : l.countP k ≤ 1)
    (ha : l[i]? = some a) (hb : l[j]? = some b) (hka : k a = true) (hkb : k b = true) : i = j := by
  rw [(perm_cons_eraseIdx ha).countP_eq, List.countP_cons_of_pos hka] at hl
  -- taking out the one entry of the kind leaves none
  have hrest : (l.eraseIdx i).countP k = 0 := by omega
  refine Decidable.byContradiction fun hne => ?_
  have hmem : b ∈ l.eraseIdx i := List.mem_eraseIdx_iff_getElem?.mpr ⟨j, Ne.symm hne, hb⟩
  exact List.countP_eq_zero.mp hrest b hmem hkb

end Lists

/-! ## Calls and handles -/

/-- Where the calls on the pool `i` among the given ones stand. -/
def pointsOf (i : Nat) (l : List (Activity ρ)) : List (Point ρ) :=
  (l.filter fun a => decide (a.pool = i)).map (·.point)

/-- Where a call stands, if it is a call on the pool `i`. -/
def Activity.pointOn (i : Nat) (a : Activity ρ) : List (Point ρ) :=
  if a.pool = i then [a.point] else []

theorem Activity.pointOn_self (a : Activity ρ) : a.pointOn a.pool = [a.point] := if_pos rfl

theorem Activity.pointOn_of_ne {a : Activity ρ} {i : Nat} (h : i ≠ a.pool) : a.pointOn i = [] :=
  if_neg h.symm

@[simp] theorem pointsOf_nil (i : Nat) : pointsOf i ([] : List (Activity ρ)) = [] := rfl

theorem pointsOf_cons (i : Nat) (a : Activity ρ) (l : List (Activity ρ)) :
    pointsOf i (a :: l) = a.pointOn i ++ pointsOf i l := by
  by_cases h : a.pool = i <;> simp [pointsOf, Activity.pointOn, h]

theorem pointsOf_perm {l m : List (Activity ρ)} (h : l.Perm m) (i : Nat) :
    (pointsOf i l).Perm (pointsOf i m) := (h.filter _).map _

theorem mem_pointsOf {i : Nat} {pt : Point ρ} {l : List (Activity ρ)} :
    pt ∈ pointsOf i l ↔ (⟨i, pt⟩ : Activity ρ) ∈ l := by
  unfold pointsOf
  constructor
  · intro h
    obtain ⟨⟨j, q⟩, ha, rfl⟩ := List.mem_map.mp h
    obtain ⟨hl, hj⟩ := List.mem_filter.mp ha
    obtain rfl : j = i := of_decide_eq_true hj
    exact hl
  · intro h
    exact List.mem_map.mpr ⟨_, List.mem_filter.mpr ⟨h, decide_eq_true rfl⟩, rfl⟩

/-- The handles of objects of the pool `i` among the given ones. -/
def handlesOf (i : Nat) (l : List (Option Handle)) : List Handle :=
  l.filterMap fun h => h.filter fun x => decide (x.pool = i)

/-- A handle, if it is one of an object of the pool `i`. -/
def Handle.on (i : Nat) (x : Handle) : List Handle := if x.pool = i then [x] else []

theorem Handle.on_self (x : Handle) : x.on x.pool = [x] := if_pos rfl

theorem Handle.on_of_ne {x : Handle} {i : Nat} (h : i ≠ x.pool) : x.on i = [] := if_neg h.symm

theorem handlesOf_cons_some (i : Nat) (x : Handle) (l : List (Option Handle)) :
    handlesOf i (some x :: l) = x.on i ++ handlesOf i l := by
  rw [handlesOf, handlesOf, Handle.on, List.filterMap_cons]
  by_cases h : x.pool = i <;> simp [Option.filter, h]

theorem handlesOf_append (i : Nat) (l m : List (Option Handle)) :
    handlesOf i (l ++ m) = handlesOf i l ++ handlesOf i m := List.filterMap_append

theorem handlesOf_perm {l m : List (Option Handle)} (h : l.Perm m) (i : Nat) :
    (handlesOf i l).Perm (handlesOf i m) := h.filterMap _

theorem mem_handlesOf {i : Nat} {x : Handle} {l : List (Option Handle)} :
    x ∈ handlesOf i l ↔ some x ∈ l ∧ x.pool = i := by
  unfold handlesOf
  rw [List.mem_filterMap]
  constructor
  · rintro ⟨y, hy, hx⟩
    obtain ⟨rfl, hp⟩ := Option.filter_eq_some_iff.mp hx
    exact ⟨hy, of_decide_eq_true hp⟩
  · rintro ⟨hx, hp⟩
    exact ⟨some x, hx, Option.filter_eq_some_iff.mpr ⟨rfl, decide_eq_true hp⟩⟩

namespace World

variable {w : World ρ} {t i : Nat}

/-- Every call on its way. -/
def activities (w : World ρ) : List (Activity ρ) := w.threads.flatMap (·.stack)

/-- Where the calls on a pool stand. -/
def points (w : World ρ) (i : Nat) : List (Point ρ) := pointsOf i w.activities

/-- The handles of a pool's objects in the hands of borrowers. -/
def lent (w : World ρ) (i : Nat) : List Handle := handlesOf i w.handles

theorem mem_points {pt : Point ρ} :
    pt ∈ w.points i ↔ ∃ th ∈ w.threads, (⟨i, pt⟩ : Activity ρ) ∈ th.stack := by
  rw [points, mem_pointsOf, activities, List.mem_flatMap]

theorem mem_lent {x : Handle} : x ∈ w.lent i ↔ (∃ h, w.handle? h = some x) ∧ x.pool = i := by
  rw [lent, mem_handlesOf, List.mem_iff_getElem?]
  simp only [handle?, Option.join_eq_some_iff]

/-- No call on the pool `i` is on its way, apart from borrowers that wait. -/
def Quiet (w : World ρ) (i : Nat) : Prop := ∀ pt ∈ w.points i, ∃ b t, pt = .waiting b t

/-- A quiet pool has no call that would have anything of it. -/
theorem Quiet.flatMap_eq_nil {α : Type} (h : w.Quiet i) {f : Point ρ → List α}
    (hf : ∀ b t, f (.waiting b t) = []) : (w.points i).flatMap f = [] := by
  rw [List.flatMap_eq_nil_iff]
  intro pt hpt
  obtain ⟨b, t, rfl⟩ := h pt hpt
  exact hf b t

/-- The objects of the pool `i` that calls on their way have in a charge of a kind. -/
def inCharge (w : World ρ) (i : Nat) (kind : Custody ρ → Bool) : List Nat :=
  (((w.points i).flatMap Point.charges).filter fun x => kind x.2).map (·.1)

theorem mem_inCharge {kind : Custody ρ → Bool} {id : Nat} : id ∈ w.inCharge i kind ↔
    ∃ c, (id, c) ∈ (w.points i).flatMap Point.charges ∧ kind c = true := by
  unfold inCharge
  constructor
  · intro h
    obtain ⟨⟨x, c⟩, hmem, rfl⟩ := List.mem_map.mp h
    obtain ⟨hc, hk⟩ := List.mem_filter.mp hmem
    exact ⟨c, hc, hk⟩
  · rintro ⟨c, hc, hk⟩
    exact List.mem_map.mpr ⟨(id, c), List.mem_filter.mpr ⟨hc, hk⟩, rfl⟩

/-- An object is in a charge of a kind as often as what is said about it is of the kind. -/
theorem count_inCharge (w : World ρ) (i : Nat) (kind : Custody ρ → Bool) (id : Nat) :
    (w.inCharge i kind).count id =
      (claims id ((w.points i).flatMap Point.charges)).countP kind := by
  rw [inCharge, claims, List.countP_map, List.count, List.countP_map, List.countP_filter,
    List.countP_filter]
  refine List.countP_congr fun x _ => ?_
  simp [and_comm, beq_iff_eq]

theorem callers_eq (w : World ρ) (i : Nat) : w.callers i = (w.points i).length := by
  rw [callers, points, pointsOf, activities, List.length_map, ← List.countP_eq_length_filter]

theorem holders_eq (w : World ρ) (i : Nat) : w.holders i = (w.lent i).length := by
  rw [holders, lent, handlesOf, List.length_filterMap_eq_countP]
  refine List.countP_congr fun h _ => ?_
  cases h with
  | none => rfl
  | some x => by_cases hx : x.pool = i <;> simp [hx]

/-- A change to a thread shows in the calls of that thread alone. -/
theorem activities_onThread {th : Thread ρ} (h : w.threads[t]? = some th) :
    ∃ rest, w.activities.Perm (th.stack ++ rest) ∧
      ∀ f, (w.onThread t f).activities.Perm ((f th).stack ++ rest) := by
  refine ⟨(w.threads.eraseIdx t).flatMap (·.stack), ?_, fun f => ?_⟩
  · exact (perm_cons_eraseIdx h).flatMap_right _
  · exact (modify_perm h f).flatMap_right _

/-- A change to a thread that leaves its calls alone. -/
theorem points_onThread {f : Thread ρ → Thread ρ} (hf : ∀ th, (f th).stack = th.stack) (i : Nat) :
    (w.points i).Perm ((w.onThread t f).points i) := by
  cases h : w.threads[t]? with
  | none =>
    -- there is no such thread
    have hlen : w.threads.length ≤ t := List.getElem?_eq_none_iff.mp h
    have hsame : (w.onThread t f).threads = w.threads := List.modify_eq_self hlen
    rw [points, points, activities, activities, hsame]
  | some th =>
    obtain ⟨rest, hw, hf'⟩ := activities_onThread h
    have hnew := hf' f
    rw [hf] at hnew
    exact pointsOf_perm (hw.trans hnew.symm) i

theorem points_push {th : Thread ρ} (h : w.threads[t]? = some th) (a : Activity ρ) (i : Nat) :
    ((w.push t a).points i).Perm (a.pointOn i ++ w.points i) := by
  obtain ⟨rest, hw, hf⟩ := activities_onThread h
  have hp := (hf fun th => { th with stack := a :: th.stack }).trans (hw.symm.cons a)
  have hpoints := pointsOf_perm hp i
  rwa [pointsOf_cons] at hpoints

/-- The thread of a call on top of it. -/
theorem top?_eq_some {a : Activity ρ} (h : w.top? t = some a) :
    ∃ th rest, w.threads[t]? = some th ∧ th.stack = a :: rest := by
  obtain ⟨th, hth, ha⟩ := Option.bind_eq_some_iff.mp h
  obtain ⟨rest, hrest⟩ := List.head?_eq_some_iff.mp ha
  exact ⟨th, rest, hth, hrest⟩

theorem points_pop {a : Activity ρ} (h : w.top? t = some a) (i : Nat) :
    (w.points i).Perm (a.pointOn i ++ (w.pop t).points i) := by
  obtain ⟨th, rest, hth, hs⟩ := top?_eq_some h
  obtain ⟨others, hw, hf⟩ := activities_onThread hth
  have hpop := hf fun th => { th with stack := th.stack.tail }
  rw [hs] at hw hpop
  have hpoints := pointsOf_perm (hw.trans (hpop.symm.cons a)) i
  rwa [pointsOf_cons] at hpoints

theorem points_moveTo {a : Activity ρ} (h : w.top? t = some a) (pt : Point ρ) (i : Nat) :
    ((w.moveTo t pt).points i).Perm
      (Activity.pointOn i { a with point := pt } ++ (w.pop t).points i) := by
  obtain ⟨th, rest, hth, hs⟩ := top?_eq_some h
  obtain ⟨others, -, hf⟩ := activities_onThread hth
  have hpop := hf fun th => { th with stack := th.stack.tail }
  have hmove : (w.moveTo t pt).activities.Perm (_ ++ others) := hf _
  rw [hs] at hpop
  simp only [hs] at hmove
  have hpoints := pointsOf_perm (hmove.trans (hpop.symm.cons _)) i
  rwa [pointsOf_cons] at hpoints

/-- A handle that is set anew, or taken away. -/
theorem lent_set {h : Nat} {x : Handle} (hx : w.handle? h = some x) (v : Option Handle) (i : Nat) :
    ∃ rest, (w.lent i).Perm (x.on i ++ rest) ∧
      (handlesOf i (w.handles.set h v)).Perm ((v.elim [] (·.on i)) ++ rest) := by
  have hget : w.handles[h]? = some (some x) := Option.join_eq_some_iff.mp hx
  refine ⟨handlesOf i (w.handles.eraseIdx h), ?_, ?_⟩
  · have hp := handlesOf_perm (perm_cons_eraseIdx hget) i
    rwa [handlesOf_cons_some] at hp
  · have hlt : h < w.handles.length := (List.getElem?_eq_some_iff.mp hget).1
    have hp := handlesOf_perm (set_perm hlt v) i
    cases v with
    | none => exact hp
    | some y => rwa [handlesOf_cons_some] at hp

end World

/-! ## The ledger -/

/-- The ledger of the calls and handles of a pool, with each loan as the pool has it. -/
def Ledger.of (p : Pool ρ) (points : List (Point ρ)) (handles : List Handle) (graves : List Nat) :
    Ledger ρ where
  charter := p.charter
  closed := p.closed
  charges := points.flatMap Point.charges
  loans := ((points.flatMap Point.returns).map fun id => (id, ⟨false, p.slot? id⟩)) ++
    handles.map fun x => (x.object, ⟨x.guarded, p.slot? x.object⟩)
  places := (points.map Point.places).sum
  tickets := points.flatMap Point.tickets
  promises := points.flatMap Point.promises
  graves
  born := p.entries.length

namespace Ledger

variable {p q : Pool ρ} {pts pts' : List (Point ρ)} {hs hs' : List Handle} {gs : List Nat}
  {pt : Point ρ} {ℓ : Ledger ρ}

theorem of_cons : of p (pt :: pts) hs gs = (of p pts hs gs).add p.slot? pt := by
  simp [of, add, Nat.add_comm]

theorem of_perm (hp : pts.Perm pts') (hh : hs.Perm hs') :
    (of p pts hs gs).Same (of p pts' hs' gs) where
  charter := rfl
  closed := rfl
  charges := hp.flatMap_right _
  loans := ((hp.flatMap_right _).map _).append (hh.map _)
  places := ((hp.map _).sum_nat).symm
  tickets := hp.flatMap_right _
  promises := hp.flatMap_right _
  graves := rfl
  born := rfl

/-- The ledger with the pool's own account of what the borrowers have. -/
def renew (q : Pool ρ) (ℓ : Ledger ρ) : Ledger ρ :=
  { ℓ with
    charter := q.charter
    closed := q.closed
    born := q.entries.length
    loans := ℓ.loans.map fun x => (x.1, ⟨x.2.guarded, q.slot? x.1⟩) }

theorem renew_of : (of p pts hs gs).renew q = of q pts hs gs := by
  simp [renew, of, Function.comp_def]

theorem renew_add (slots : Nat → Option ρ) :
    (ℓ.add slots pt).renew q = (ℓ.renew q).add q.slot? pt := by
  simp [renew, add]

/-- One more handle is one more loan. -/
theorem of_lend (x : Handle) :
    ((of p pts hs gs).lend x.object ⟨x.guarded, p.slot? x.object⟩).Same
      (of p pts (x :: hs) gs) where
  charter := rfl
  closed := rfl
  charges := .refl _
  loans := List.perm_middle.symm
  places := rfl
  tickets := .refl _
  promises := .refl _
  graves := rfl
  born := rfl

theorem Same.symm {m : Ledger ρ} (h : ℓ.Same m) : m.Same ℓ where
  charter := h.charter.symm
  closed := h.closed.symm
  charges := h.charges.symm
  loans := h.loans.symm
  places := h.places.symm
  tickets := h.tickets.symm
  promises := h.promises.symm
  graves := h.graves.symm
  born := h.born.symm

end Ledger

/-- A loan as the slot of the object has it. -/
def Loan.renew (slot : Option ρ) (x : Loan ρ) : Loan ρ := ⟨x.guarded, slot⟩

theorem claims_renew (id : Nat) (p : Pool ρ) (ℓ : Ledger ρ) :
    claims id (ℓ.renew p).loans = (claims id ℓ.loans).map (Loan.renew (p.slot? id)) := by
  unfold Ledger.renew
  dsimp only
  -- by induction on the loans, each of which is about this object or another
  induction ℓ.loans with
  | nil => rfl
  | cons x l ih =>
    rw [List.map_cons, claims_cons, claims_cons, ih]
    by_cases h : x.1 = id
    · simp [h, Loan.renew]
    · simp [h]

theorem Stale.renew {l : List (Loan ρ)} (h : Stale l) (slot : Option ρ) :
    Stale (l.map (Loan.renew slot)) := by
  rcases h with rfl | ⟨r, rfl⟩
  · exact .inl rfl
  · exact .inr ⟨slot, rfl⟩

theorem Custody.Has.renew {c : Custody ρ} {v : Position ρ} (h : c.Has v) (slot : Option ρ) :
    c.Has { v with loans := v.loans.map (Loan.renew slot) } := by
  cases h with
  | seized r hs => exact .seized r (hs.renew _)
  | _ => constructor

/-- A loan says no more of the resource than the slot does. -/
theorem Position.Legal.renew {v : Position ρ} (h : v.Legal) :
    Legal { v with loans := v.loans.map (Loan.renew (v.shape.bind (·.slot))) } := by
  cases h with
  | unborn => exact .unborn
  | idle r => exact .idle r
  | lent g r => exact .lent g r
  | dead hs => exact .dead (hs.renew _)
  | @entrusted c v he =>
    have hrenew := he.renew (v.shape.bind (·.slot))
    exact .entrusted hrenew

namespace Pool

variable {p q : Pool ρ} {ℓ : Ledger ρ} {pts pts' : List (Point ρ)} {hs hs' : List Handle}
  {gs : List Nat}

theorem Sound.renew (h : p.Sound ℓ) : p.Sound (ℓ.renew p) := by
  refine { h with
    created := h.created.trans h.born.symm, born := rfl, charter := rfl, closed := fun hc => hc,
    objects := fun id => ?_ }
  -- the loans of an object say what its slot does, and so are the same anew
  have hv := (h.objects id).renew
  rw [position, claims_renew, slot?_eq_shape?]
  exact hv

theorem Sound.of_perm (h : p.Sound (.of p pts hs gs)) (hp : pts.Perm pts') (hh : hs.Perm hs') :
    p.Sound (.of p pts' hs' gs) :=
  h.of_same (Ledger.of_perm hp hh)

/-- A change to the references alone. -/
theorem Sound.of_references (h : p.Sound (.of p pts hs gs)) (hc : q.config = p.config)
    (hr : q.registry = p.registry) (he : q.entries = p.entries) (hn : q.counters = p.counters) :
    q.Sound (.of q pts hs gs) := by
  obtain ⟨config, registry, entries, counters, keeper, clones, gone⟩ := p
  obtain ⟨config', registry', entries', counters', keeper', clones', gone'⟩ := q
  obtain ⟨rfl, rfl, rfl, rfl⟩ := And.intro hc (And.intro hr (And.intro he hn))
  exact { h with charter := rfl }

end Pool

end ObjectPool
