/-
  ObjectPool.Proofs.Protocol.Obedience

  When the careers of a pool's objects agree with its books and its calls: idle objects
  were laid to rest, lent ones are active, and those in the charge of a call are as the
  call needs them (`Pool.Obeys`). A stretch keeps it so (`Passage.obeys`): what it asks
  for, takes back or hands out is a step of the automaton. An object that the factory
  has refused goes straight on to be destroyed (`Passage.refused`).
-/

import ObjectPool.Proofs.Ownership
import ObjectPool.Proofs.Protocol.Requests

namespace ObjectPool

variable {ρ : Type}

/-! ## One object -/

namespace Position.Legal

variable {v : Position ρ}

/-- An object in the charge of a call is in nobody else's, neither idle nor destroyed, and if it
    is listed as lent no borrower has it. -/
theorem of_charge (h : v.Legal) {c : Custody ρ} (hc : c ∈ v.charges) :
    v.charges = [c] ∧ v.idle = 0 ∧ v.graves = 0 ∧ (0 < v.active → v.loans = []) := by
  cases h with
  | unborn | idle | lent | dead => exact nomatch hc
  | @entrusted c' v he =>
    obtain rfl := List.mem_singleton.mp hc
    cases he with
    | seized r hs => exact ⟨rfl, rfl, rfl, fun ha => absurd ha (Nat.lt_irrefl 0)⟩
    | _ => exact ⟨rfl, rfl, rfl, fun _ => rfl⟩

/-- Of an object without a shape nobody knows anything. -/
theorem unborn_of_shape (h : v.Legal) (hs : v.shape = none) : v = ⟨none, 0, 0, 0, 0, [], []⟩ := by
  cases h with
  | unborn => rfl
  | idle | lent | dead => exact nomatch hs
  | entrusted he => cases he <;> exact nomatch hs

/-- An object that nobody has any more was destroyed. -/
theorem grave_of_free (h : v.Legal) (hs : v.shape ≠ none) (hc : v.charges = []) (hi : v.idle = 0)
    (ha : v.active = 0) : 0 < v.graves := by
  cases h with
  | unborn => exact absurd rfl hs
  | idle => exact nomatch hi
  | lent => exact nomatch ha
  | entrusted => exact nomatch hc
  | dead => exact Nat.one_pos

/-- A destroyed object is in nobody's charge and listed nowhere. -/
theorem of_grave (h : v.Legal) (hg : 0 < v.graves) :
    v.charges = [] ∧ v.idle = 0 ∧ v.active = 0 := by
  cases h with
  | dead => exact ⟨rfl, rfl, rfl⟩
  | unborn | idle | lent => exact absurd hg (Nat.lt_irrefl 0)
  | entrusted he => cases he <;> exact absurd hg (Nat.lt_irrefl 0)

end Position.Legal

namespace Pool.Sound

variable {p : Pool ρ} {ℓ : Ledger ρ} {id : Nat} {c : Custody ρ}

theorem claims_of_charge (h : p.Sound ℓ) (hc : (id, c) ∈ ℓ.charges) : claims id ℓ.charges = [c] :=
  ((h.objects id).of_charge (mem_claims.mpr hc)).1

theorem not_idle_of_charge (h : p.Sound ℓ) (hc : (id, c) ∈ ℓ.charges) : id ∉ p.registry.idle :=
  List.count_eq_zero.mp ((h.objects id).of_charge (mem_claims.mpr hc)).2.1

theorem not_grave_of_charge (h : p.Sound ℓ) (hc : (id, c) ∈ ℓ.charges) : id ∉ ℓ.graves :=
  List.count_eq_zero.mp ((h.objects id).of_charge (mem_claims.mpr hc)).2.2.1

theorem no_loan_of_charge (h : p.Sound ℓ) (hc : (id, c) ∈ ℓ.charges)
    (ha : id ∈ p.registry.active) : claims id ℓ.loans = [] :=
  ((h.objects id).of_charge (mem_claims.mpr hc)).2.2.2 (List.count_pos_iff.mpr ha)

/-- Of an object that the factory has not made nobody knows anything. -/
theorem of_unmade (h : p.Sound ℓ) (hid : p.entries.length ≤ id) :
    claims id ℓ.charges = [] ∧ id ∉ p.registry.idle ∧ id ∉ p.registry.active ∧
      id ∉ ℓ.graves := by
  have hv := (h.objects id).unborn_of_shape (shape?_eq_none_iff.mpr hid)
  exact ⟨congrArg Position.charges hv, List.count_eq_zero.mp (congrArg Position.idle hv),
    List.count_eq_zero.mp (congrArg Position.active hv),
    List.count_eq_zero.mp (congrArg Position.graves hv)⟩

theorem made_of_charge (h : p.Sound ℓ) (hc : (id, c) ∈ ℓ.charges) : id < p.entries.length := by
  refine Nat.lt_of_not_le fun hle => ?_
  exact claims_eq_nil_iff.mp (h.of_unmade hle).1 c hc

theorem of_grave (h : p.Sound ℓ) (hid : id ∈ ℓ.graves) :
    claims id ℓ.charges = [] ∧ id ∉ p.registry.idle ∧ id ∉ p.registry.active := by
  obtain ⟨hc, hi, ha⟩ := (h.objects id).of_grave (List.count_pos_iff.mpr hid)
  exact ⟨hc, List.count_eq_zero.mp hi, List.count_eq_zero.mp ha⟩

end Pool.Sound

/-! ## Requests and charges -/

section Charges

variable {c : Config} {pt : Point ρ} {id : Nat} {d : Callback} {st st' : Nat → Career}

/-- Whether the factory may be at work on an object in a charge. -/
def Custody.inService : Custody ρ → Bool
  | .lending | .returning | .trying | .stocking => true
  | .untried | .evicted | .drained | .seized _ => false

/-- What a charge says of an object on which the factory may be at work does not depend on its
    career. -/
theorem Custody.Permits.of_inService {x : Custody ρ} {a : Career} (h : x.Permits c a)
    (hx : x.inService = true) (b : Career) : x.Permits c b := by
  cases x with
  | lending | returning | stocking => trivial
  | trying => exact h
  | untried | evicted | drained | seized => exact nomatch hx

/-- The factory works only on objects that the call has in such a charge. -/
theorem Point.charge_of_asked (h : (id, .asked d) ∈ pt.asks) :
    ∃ x, (id, x) ∈ pt.charges ∧ x.inService = true := by
  have hid : ∀ y e, (id, Signal.asked d) ∈ [(y, Signal.asked e)] → id = y := by
    intro y e hy
    exact (Prod.mk.inj (List.mem_singleton.mp hy)).1
  cases pt with
  | activating y t =>
    obtain rfl := hid y _ h
    cases t <;> exact ⟨_, List.mem_cons_self .., rfl⟩
  | validating y k =>
    obtain rfl := hid y _ h
    rcases k with ⟨⟨b, fresh⟩ | ⟨tests, n⟩⟩ | s | answer <;> exact ⟨_, List.mem_cons_self .., rfl⟩
  | passivating y k =>
    obtain rfl := hid y _ h
    cases k <;> exact ⟨_, List.mem_cons_self .., rfl⟩
  | destroying => exact nomatch (Prod.mk.inj (List.mem_singleton.mp h)).2
  | _ => exact nomatch h

section Waits

variable {x y : Custody ρ}

/-- The factory is not at work on objects that wait in another charge. -/
theorem each_of_inService (hx : x.inService = true) (hy : y.inService = false) (ids : List Nat) :
    (id, x) ∉ each ids y := by
  intro hmem
  obtain ⟨z, -, heq⟩ := List.mem_map.mp hmem
  obtain ⟨-, rfl⟩ := Prod.mk.inj heq
  exact Bool.false_ne_true (hy.symm.trans hx)

theorem sweeping_of_inService (hx : x.inService = true) (out tests : List Nat) :
    (id, x) ∉ sweeping out tests := fun hmem =>
  (List.mem_append.mp hmem).elim (each_of_inService hx rfl out) (each_of_inService hx rfl tests)

theorem seizures_of_inService (hx : x.inService = true) (xs : List (Reclaimed ρ)) :
    (id, x) ∉ seizures xs := by
  intro hmem
  obtain ⟨z, -, heq⟩ := List.mem_map.mp hmem
  obtain ⟨-, rfl⟩ := Prod.mk.inj heq
  exact nomatch hx

/-- Of the objects under trial the factory is at work on the first. -/
theorem trying_of_inService (hx : x.inService = true) {z : Nat} {tests : List Nat}
    (h : (id, x) ∈ (z, .trying) :: each tests .untried) : id = z := by
  rcases List.mem_cons.mp h with heq | hmem
  · exact (Prod.mk.inj heq).1
  · exact absurd hmem (each_of_inService hx rfl tests)

end Waits

/-- The factory is at work on every object in such a charge. -/
theorem Point.asked_of_charge {x : Custody ρ} (h : (id, x) ∈ pt.charges)
    (hx : x.inService = true) : ∃ d, (id, .asked d) ∈ pt.asks := by
  have hone : ∀ (y : Nat) (z : Custody ρ), (id, x) ∈ [(y, z)] → id = y := by
    intro y z hmem
    exact (Prod.mk.inj (List.mem_singleton.mp hmem)).1
  cases pt with
  | activating y t =>
    refine ⟨.activate, List.mem_singleton.mpr (Prod.ext ?_ rfl)⟩
    cases t with
    | lend b fresh => exact hone _ _ h
    | test tests n => exact trying_of_inService hx h
  | validating y k =>
    refine ⟨.validate, List.mem_singleton.mpr (Prod.ext ?_ rfl)⟩
    rcases k with ⟨⟨b, fresh⟩ | ⟨tests, n⟩⟩ | s | answer
    · exact hone _ _ h
    · exact trying_of_inService hx h
    · exact hone _ _ h
    · exact hone _ _ h
  | passivating y k =>
    refine ⟨.passivate, List.mem_singleton.mpr (Prod.ext ?_ rfl)⟩
    cases k with
    | test tests n => exact trying_of_inService hx h
    | stock s => exact hone _ _ h
    | takeBack answer => exact hone _ _ h
  | destroying y r mode k =>
    cases k with
    | reclaim rest n s => exact absurd h (seizures_of_inService hx rest)
    | evict out tests n => exact absurd h (sweeping_of_inService hx out tests)
    | drain rest d => exact absurd h (each_of_inService hx rfl rest)
    | seek | reply | notStocked => exact nomatch h
  | evicting out tests n => exact absurd h (sweeping_of_inService hx out tests)
  | reclaiming rest n s => exact absurd h (seizures_of_inService hx rest)
  | reporting report y rest n s => exact absurd h (seizures_of_inService hx _)
  | draining rest d => exact absurd h (each_of_inService hx rfl rest)
  | joining k rest d => exact absurd h (each_of_inService hx rfl rest)
  | borrow | seek | waiting | add | prepare | filling | upkeep | takeBack | discard | clear
  | close | creating => exact nomatch h

/-- A call stands as it should as long as the objects in its charge stay where they are. -/
theorem Point.Fits.congr (h : pt.Fits c st) (hst : ∀ x ∈ pt.charges, st' x.1 = st x.1) :
    pt.Fits c st' := by
  refine ⟨fun x hx => ?_, fun id d hd => ?_⟩
  · rw [hst x hx]
    exact h.charges x hx
  · obtain ⟨x, hx, -⟩ := Point.charge_of_asked hd
    rw [hst _ hx]
    exact h.serving id d hd

/-- A callback is made on an object on which nobody is at work. -/
theorem Point.Admits.rest {a : Career} (hd : (id, .asked d) ∈ pt.asks) (h : pt.Admits a) :
    ∃ s, a = .rest s := by
  cases pt with
  | activating y t => rcases t with ⟨b, _ | _⟩ | ⟨tests, n⟩ <;> exact ⟨_, h⟩
  | validating y k => cases k <;> exact ⟨_, h⟩
  | passivating y k =>
    cases k with
    | stock s => exact h.elim (fun h => ⟨_, h⟩) fun h => ⟨_, h⟩
    | test | takeBack => exact ⟨_, h⟩
  | destroying => exact nomatch (Prod.mk.inj (List.mem_singleton.mp hd)).2
  | _ => exact nomatch hd

/-- What a call asks for at a point is about one object. -/
theorem Point.asks_cases (pt : Point ρ) : pt.asks = [] ∨ (∃ id d, pt.asks = [(id, .asked d)]) ∨
    ∃ id r mode k, pt = .destroying id r mode k := by
  cases pt with
  | activating | validating | passivating => exact .inr (.inl ⟨_, _, rfl⟩)
  | destroying => exact .inr (.inr ⟨_, _, _, _, rfl⟩)
  | _ => exact .inl rfl

/-- The factory begins to work on an object that is in one charge of the call. -/
theorem Point.Ready.callback (h : pt.Ready c st) (hask : pt.asks = [(id, .asked d)])
    (hc : ∀ x y, (id, x) ∈ pt.charges → (id, y) ∈ pt.charges → x = y) :
    ∃ a, Advances pt.asks st (Function.update st id a) ∧ pt.Fits c (Function.update st id a) := by
  have hmem : (id, .asked d) ∈ pt.asks := hask ▸ List.mem_singleton.mpr rfl
  have hadmits : pt.Admits (st id) := h.asks _ hmem
  obtain ⟨s, hs⟩ := hadmits.rest hmem
  rw [hs] at hadmits
  have hread : (st id).read (.asked d) = some (.busy s d) := by
    rw [hs, Career.read, Point.after_of_admits hmem hadmits]
    rfl
  obtain ⟨x, hx, hserve⟩ := Point.charge_of_asked hmem
  refine ⟨.busy s d, ?_, fun y hy => ?_, fun y e he => ?_⟩
  · rw [hask]
    exact .single hread
  · by_cases hyid : y.1 = id
    · obtain ⟨y, z⟩ := y
      obtain rfl : y = id := hyid
      obtain rfl := hc x z hx hy
      exact (h.charges _ hy).of_inService hserve _
    · rw [Function.update_of_ne hyid]
      exact h.charges y hy
  · rw [hask] at he
    obtain ⟨rfl, hsame⟩ := Prod.mk.inj (List.mem_singleton.mp he)
    obtain rfl := Signal.asked.inj hsame
    exact ⟨s, hadmits, Function.update_self ..⟩

/-- An object that the factory has refused is in no charge of a call that goes on. -/
theorem Point.Ready.ne_refused (h : pt.Ready c st) {x : Custody ρ} (hx : (id, x) ∈ pt.charges) :
    st id ≠ .refused := by
  intro hst
  have hpermits : x.Permits c (st id) := h.charges _ hx
  rw [hst] at hpermits
  cases hserve : x.inService with
  | true =>
    obtain ⟨d, hd⟩ := Point.asked_of_charge hx hserve
    obtain ⟨s, hs⟩ := (h.asks _ hd).rest hd
    exact nomatch hst.symm.trans hs
  | false =>
    cases x with
    | lending | returning | stocking | trying => exact nomatch hserve
    | untried => exact nomatch hpermits.2
    | evicted | drained | seized => exact nomatch hpermits

/-- A call makes the request for which it has come to a point, if it may; nothing happens to any
    other object. -/
theorem Point.Ready.request (h : pt.Ready c st)
    (hc : ∀ id d, (id, .asked d) ∈ pt.asks → ∀ x y, (id, x) ∈ pt.charges → (id, y) ∈ pt.charges →
      x = y) (hb : ∀ id ∈ pt.buried, claims id pt.charges = []) :
    ∃ st', Advances pt.asks st st' ∧ pt.Fits c st' ∧
      ∀ id, claims id pt.charges = [] → id ∉ pt.buried → st' id = st id := by
  rcases pt.asks_cases with hnone | ⟨id, d, hask⟩ | ⟨id, r, mode, k, rfl⟩
  · refine ⟨st, hnone ▸ .nil st, ⟨h.charges, fun id d hd => ?_⟩, fun _ _ _ => rfl⟩
    rw [hnone] at hd
    cases hd
  · have hmem : (id, .asked d) ∈ pt.asks := hask ▸ List.mem_singleton.mpr rfl
    obtain ⟨a, hadv, hfits⟩ := h.callback hask (hc id d hmem)
    obtain ⟨x, hx, -⟩ := Point.charge_of_asked hmem
    refine ⟨_, hadv, hfits, fun y hy _ => Function.update_of_ne ?_ _ _⟩
    rintro rfl
    exact claims_eq_nil_iff.mp hy x hx
  · -- the object is destroyed, which is in no charge any more
    have hread : (st id).read (.destroyed mode) = some .dead :=
      h.asks _ (List.mem_singleton.mpr rfl)
    refine ⟨_, .single hread, ⟨fun y hy => ?_, fun y e he => ?_⟩, fun y _ hy => ?_⟩
    · have hne : y.1 ≠ id := by
        rintro rfl
        exact claims_eq_nil_iff.mp (hb _ (List.mem_singleton.mpr rfl)) y.2 hy
      rw [Function.update_of_ne hne]
      exact h.charges y hy
    · cases (Prod.mk.inj (List.mem_singleton.mp he)).2
    · refine Function.update_of_ne (fun he => hy ?_) _ _
      exact List.mem_singleton.mpr he

/-- A call that ends gives a borrower what is ready for it, or nothing. -/
theorem Next.Ready.tell {r : Reply} (h : Next.Ready (ρ := ρ) c st (.finish r)) :
    Advances (Next.finish (ρ := ρ) r).tells st st := by
  cases r with
  | lent id =>
    refine Advances.stay ?_
    rw [h id rfl]
    rfl
  | done | made | failed => exact .nil _

end Charges

/-! ## One stretch -/

/-- The handles that a borrower of the pool `i` gets in a stretch. -/
def Next.handles (i : Nat) : Next ρ → List Handle
  | .go _ => []
  | .finish r => r.handles i

/-- A stretch leaves the pool in agreement with the calls and handles that there are then. -/
theorem Stretch.Sound.next {s : Stretch ρ} {q : Pool ρ} {pts : List (Point ρ)} {hs : List Handle}
    {gs : List Nat} {n : Nat} (h : s.Sound ((Ledger.of q pts hs gs).bear n)) (i : Nat) :
    s.pool.Sound (.of s.pool (s.next.points ++ pts) (s.next.handles i ++ hs) (s.buried ++ gs)) := by
  cases hn : s.next with
  | go pt => exact h.go hn
  | finish r =>
    rw [show s.buried = [] by rw [Stretch.buried, hn]]
    exact h.finish hn i

/-- The careers of a pool's objects agree with its books and with its calls. -/
structure Pool.Obeys (p : Pool ρ) (st : Nat → Career) (pts : List (Point ρ)) : Prop where
  unmade : ∀ id, p.entries.length ≤ id → st id = .unmade
  idle : ∀ id ∈ p.registry.idle, st id = .rest .passive
  /-- An object that is listed as lent and in nobody's charge is in the hands of a borrower. -/
  active : ∀ id ∈ p.registry.active, claims id (pts.flatMap Point.charges) = [] →
    st id = .rest .active
  calls : ∀ pt ∈ pts, pt.Fits p.config st

/-- The call at `pt` runs for the stretch `s` on the pool `p`, beside the calls at `pts`; `st` are
    the careers before it, and `st₁` those once the call knows what the factory has answered. -/
structure Passage (p : Pool ρ) (pt : Point ρ) (pts : List (Point ρ)) (hs : List Handle)
    (gs : List Nat) (st st₁ : Nat → Career) (granted : Bool) (i : Nat) (s : Stretch ρ) : Prop where
  before : p.Sound (.of p (pt :: pts) hs gs)
  after : s.pool.Sound (.of s.pool (s.next.points ++ pts) (s.next.handles i ++ hs) (s.buried ++ gs))
  obeys : p.Obeys st (pt :: pts)
  config : s.pool.config = p.config
  grown : p.entries.length ≤ s.pool.entries.length
  turn : s.Turn p pt granted
  ready : s.next.Ready p.config (seize (pt.takes s.next) st₁)
  /-- The factory has answered about an object in the charge of the call, or a new one. -/
  elsewhere : ∀ id, claims id pt.charges = [] → id < p.entries.length → st₁ id = st id
  unmade : ∀ id, s.pool.entries.length ≤ id → st₁ id = .unmade
  granted : granted = true → ∀ id k, pt = .passivating id k → st₁ id = .rest .passive
  /-- A pass over the lent objects takes them back from nobody but their borrowers. -/
  takes : ∀ id ∈ pt.takes s.next, id ∈ p.registry.active

namespace Passage

variable {p : Pool ρ} {pt : Point ρ} {pts : List (Point ρ)} {hs : List Handle} {gs : List Nat}
  {st st₁ : Nat → Career} {granted : Bool} {i id : Nat} {s : Stretch ρ}

theorem charges_cons (pt : Point ρ) (pts : List (Point ρ)) (id : Nat) :
    claims id ((pt :: pts).flatMap Point.charges) =
      claims id pt.charges ++ claims id (pts.flatMap Point.charges) := by
  rw [List.flatMap_cons, claims_append]

theorem charges_next (s : Stretch ρ) (pts : List (Point ρ)) (id : Nat) :
    claims id ((s.next.points ++ pts).flatMap Point.charges) =
      claims id s.next.charges ++ claims id (pts.flatMap Point.charges) := by
  cases s.next with
  | go pt => exact charges_cons pt pts id
  | finish r => rfl

/-- An object in the charge of another call is in no other charge before the stretch or after. -/
theorem others (h : Passage p pt pts hs gs st st₁ granted i s)
    (hid : claims id (pts.flatMap Point.charges) ≠ []) :
    claims id pt.charges = [] ∧ claims id s.next.charges = [] ∧ id ∉ s.buried ∧
      id < p.entries.length := by
  obtain ⟨c, hc⟩ := List.exists_mem_of_ne_nil _ hid
  have hbefore : (id, c) ∈ (Ledger.of p (pt :: pts) hs gs).charges := by
    refine mem_claims.mp ?_
    show c ∈ claims id ((pt :: pts).flatMap Point.charges)
    rw [charges_cons]
    exact List.mem_append_right _ hc
  have hafter : (id, c) ∈ (Ledger.of s.pool (s.next.points ++ pts) (s.next.handles i ++ hs)
      (s.buried ++ gs)).charges := by
    refine mem_claims.mp ?_
    show c ∈ claims id ((s.next.points ++ pts).flatMap Point.charges)
    rw [charges_next]
    exact List.mem_append_right _ hc
  -- each list of claims has one entry, which is that of the other call
  have hone : ∀ l : List (Custody ρ),
      l ++ claims id (pts.flatMap Point.charges) = [c] → l = [] := by
    intro l hl
    have hlen := congrArg List.length hl
    have hpos := List.length_pos_of_ne_nil hid
    rw [List.length_append, List.length_singleton] at hlen
    exact List.eq_nil_of_length_eq_zero (by omega)
  refine ⟨hone _ ?_, hone _ ?_, fun hb => ?_, h.before.made_of_charge hbefore⟩
  · rw [← charges_cons]
    exact h.before.claims_of_charge hbefore
  · rw [← charges_next]
    exact h.after.claims_of_charge hafter
  · exact h.after.not_grave_of_charge hafter (List.mem_append_left _ hb)

/-- What the call takes back from borrowers is in its charge after the stretch. -/
theorem charge_of_taken (hid : id ∈ pt.takes s.next) :
    ∃ r, (id, .seized r) ∈ s.next.charges := by
  unfold Point.takes at hid
  split at hid
  · cases hn : s.next with
    | finish r =>
      rw [hn] at hid
      exact nomatch hid
    | go pt' =>
      rw [hn] at hid
      cases pt' with
      | reclaiming xs n w =>
        obtain ⟨x, hx, rfl⟩ := List.mem_map.mp hid
        exact ⟨x.resource, List.mem_map.mpr ⟨x, hx, rfl⟩⟩
      | _ => exact nomatch hid
  · exact nomatch hid

/-- An object in the charge of the call is in the charge of no other one. -/
theorem free_of_charge (h : Passage p pt pts hs gs st st₁ granted i s) {c : Custody ρ}
    (hc : (id, c) ∈ pt.charges) : claims id (pts.flatMap Point.charges) = [] := by
  refine Decidable.byContradiction fun hne => ?_
  exact claims_eq_nil_iff.mp (h.others hne).1 c hc

theorem free_of_next (h : Passage p pt pts hs gs st st₁ granted i s) {c : Custody ρ}
    (hc : (id, c) ∈ s.next.charges) : claims id (pts.flatMap Point.charges) = [] := by
  refine Decidable.byContradiction fun hne => ?_
  exact claims_eq_nil_iff.mp (h.others hne).2.1 c hc

/-- A call that begins its pass over the lent objects has none in its charge yet. -/
theorem charges_of_takes {next : Next ρ} (hid : id ∈ pt.takes next) : pt.charges = [] := by
  unfold Point.takes at hid
  split at hid
  · rename_i hsweeps
    cases pt with
    | borrow b => rfl
    | evicting out tests n =>
      cases out with
      | nil =>
        cases tests with
        | nil => rfl
        | cons x tests => exact nomatch hsweeps
      | cons x out => exact nomatch hsweeps
    | _ => exact nomatch hsweeps
  · exact nomatch hid

/-- What the call takes back from borrowers was in their hands. -/
theorem active_of_taken (h : Passage p pt pts hs gs st st₁ granted i s)
    (hid : id ∈ pt.takes s.next) : st₁ id = .rest .active := by
  have hactive := h.takes id hid
  obtain ⟨r, hr⟩ := charge_of_taken hid
  have hnone : claims id pt.charges = [] := by
    rw [charges_of_takes hid]
    rfl
  have hmade : id < p.entries.length :=
    Nat.lt_of_not_le fun hle => (h.before.of_unmade hle).2.2.1 hactive
  rw [h.elsewhere id hnone hmade]
  refine h.obeys.active id hactive ?_
  rw [charges_cons, hnone, h.free_of_next hr]
  rfl

/-- Each object that is taken back is a charge of the call. -/
theorem count_takes_le (pt : Point ρ) (next : Next ρ) (id : Nat) :
    (pt.takes next).count id ≤ (claims id next.charges).length := by
  unfold Point.takes
  split
  · cases next with
    | finish r => exact Nat.zero_le _
    | go pt' =>
      cases pt' with
      | reclaiming xs n w =>
        show (xs.map (·.object)).count id ≤ (claims id (seizures xs)).length
        rw [claims, List.length_map, ← List.countP_eq_length_filter, seizures, List.countP_map,
          List.count, List.countP_map]
        exact List.countP_mono_left fun x _ hx => decide_eq_true (beq_iff_eq.mp hx)
      | _ => exact Nat.zero_le _
  · exact Nat.zero_le _

/-- An object in the charge of the call after the stretch is in no other charge then. -/
theorem claims_next (h : Passage p pt pts hs gs st st₁ granted i s) {c : Custody ρ}
    (hc : (id, c) ∈ s.next.charges) : claims id s.next.charges = [c] := by
  have hafter : (id, c) ∈ (Ledger.of s.pool (s.next.points ++ pts)
      (s.next.handles i ++ hs) (s.buried ++ gs)).charges := by
    refine mem_claims.mp ?_
    show _ ∈ claims id ((s.next.points ++ pts).flatMap Point.charges)
    rw [charges_next]
    exact List.mem_append_left _ (mem_claims.mpr hc)
  have hall : claims id ((s.next.points ++ pts).flatMap Point.charges) = [c] :=
    h.after.claims_of_charge hafter
  rwa [charges_next, h.free_of_next hc, List.append_nil] at hall

/-- What the stretch destroys is in no charge after it. -/
theorem claims_of_buried (h : Passage p pt pts hs gs st st₁ granted i s) (hid : id ∈ s.buried) :
    claims id s.next.charges = [] := by
  have hall : claims id ((s.next.points ++ pts).flatMap Point.charges) = [] :=
    (h.after.of_grave (List.mem_append_left _ hid)).1
  rw [charges_next] at hall
  exact (List.append_eq_nil_iff.mp hall).1

/-- No object is taken back twice. -/
theorem nodup_takes (h : Passage p pt pts hs gs st st₁ granted i s) : (pt.takes s.next).Nodup := by
  rw [List.nodup_iff_count]
  intro id
  refine Nat.le_trans (count_takes_le pt s.next id) ?_
  cases hl : claims id s.next.charges with
  | nil => exact Nat.zero_le _
  | cons c l =>
    have hone := h.claims_next (mem_claims.mp (hl ▸ List.mem_cons_self ..))
    rw [hl] at hone
    exact Nat.le_of_eq (congrArg List.length hone)

/-- The request of the call finds the careers as it needs them, and nothing happens to an object
    that is neither in the charge of the call after the stretch nor destroyed by it. -/
theorem request (h : Passage p pt pts hs gs st st₁ granted i s) :
    ∃ st', Advances (each (pt.takes s.next) .seized ++ s.next.tells) st₁ st' ∧
      (∀ pt', s.next = .go pt' → pt'.Fits p.config st') ∧
      ∀ id, claims id s.next.charges = [] → id ∉ s.buried → st' id = st₁ id := by
  have hseized := Advances.seize h.nodup_takes fun id hid => h.active_of_taken hid
  -- an object that was not taken back stays where it is
  have hstay : ∀ id, claims id s.next.charges = [] → seize (pt.takes s.next) st₁ id = st₁ id := by
    intro id hid
    refine if_neg fun hmem => ?_
    obtain ⟨r, hr⟩ := charge_of_taken hmem
    exact claims_eq_nil_iff.mp hid _ hr
  have hready := h.ready
  have hclaims : ∀ id c, (id, c) ∈ s.next.charges → claims id s.next.charges = [c] :=
    fun _ _ => h.claims_next
  have hgraves : ∀ id ∈ s.buried, claims id s.next.charges = [] := fun _ => h.claims_of_buried
  rw [Stretch.buried] at hgraves ⊢
  cases hn : s.next with
  | go pt' =>
    rw [hn] at hready hseized hstay hclaims hgraves
    obtain ⟨st', hadv, hfits, hrest⟩ := Point.Ready.request hready
      (fun id d _ x y hx hy => by
        have hone := (hclaims id x hx).symm.trans (hclaims id y hy)
        exact (List.cons.inj hone).1) hgraves
    refine ⟨st', hseized.append hadv, fun pt'' heq => ?_, fun id hid hb => ?_⟩
    · obtain rfl := Next.go.inj heq
      exact hfits
    · exact (hrest id hid hb).trans (hstay id hid)
  | finish r =>
    rw [hn] at hready hseized hstay
    refine ⟨_, hseized.append (Next.Ready.tell hready), fun pt' heq => ?_,
      fun id hid _ => hstay id hid⟩
    cases heq

/-- A call that goes on has nothing on loan. -/
theorem returns_next (h : Passage p pt pts hs gs st st₁ granted i s) :
    s.next.points.flatMap Point.returns = [] := by
  have hready := h.ready
  cases hn : s.next with
  | finish r => rfl
  | go pt' =>
    rw [hn] at hready
    exact (List.flatMap_singleton ..).trans (Point.Ready.returns hready)

/-- What a borrower gets is ready for it. -/
theorem active_of_handle (h : Passage p pt pts hs gs st st₁ granted i s) {x : Handle}
    (hx : x ∈ s.next.handles i) : st₁ x.object = .rest .active := by
  have hready := h.ready
  cases hn : s.next with
  | go pt' =>
    rw [hn] at hx
    exact nomatch hx
  | finish r =>
    rw [hn] at hx hready
    cases r with
    | lent y =>
      obtain rfl := List.mem_singleton.mp hx
      have hseize := hready y rfl
      unfold seize at hseize
      split at hseize
      · exact nomatch hseize
      · exact hseize
    | done | made | failed => exact nomatch hx

/-- An object that is on loan after the stretch was so before, unless a borrower has just got
    it. -/
theorem loan_cases (h : Passage p pt pts hs gs st st₁ granted i s) {x : Loan ρ}
    (hx : (id, x) ∈ (Ledger.of s.pool (s.next.points ++ pts) (s.next.handles i ++ hs)
      (s.buried ++ gs)).loans) :
    (∃ y, (id, y) ∈ (Ledger.of p (pt :: pts) hs gs).loans) ∨
      ∃ y ∈ s.next.handles i, y.object = id := by
  rcases List.mem_append.mp hx with hreturns | hhandles
  · obtain ⟨y, hy, heq⟩ := List.mem_map.mp hreturns
    obtain ⟨rfl, -⟩ := Prod.mk.inj heq
    rw [List.flatMap_append, h.returns_next, List.nil_append] at hy
    refine .inl ⟨_, List.mem_append_left _ (List.mem_map.mpr ⟨y, ?_, rfl⟩)⟩
    rw [List.flatMap_cons]
    exact List.mem_append_right _ hy
  · obtain ⟨y, hy, heq⟩ := List.mem_map.mp hhandles
    obtain ⟨rfl, -⟩ := Prod.mk.inj heq
    rcases List.mem_append.mp hy with hy | hy
    · exact .inr ⟨y, hy, rfl⟩
    · exact .inl ⟨_, List.mem_append_right _ (List.mem_map.mpr ⟨y, hy, rfl⟩)⟩

/-- An object that is lent and in nobody's charge after the stretch is ready for its borrower. -/
theorem active (h : Passage p pt pts hs gs st st₁ granted i s) (hid : id ∈ s.pool.registry.active)
    (hc : claims id ((s.next.points ++ pts).flatMap Point.charges) = []) :
    st₁ id = .rest .active := by
  obtain ⟨hnext, hpts⟩ := List.append_eq_nil_iff.mp ((charges_next s pts id).symm.trans hc)
  have hold : id ∈ p.registry.active := by
    rcases h.turn.active hid with hold | ⟨c, hmem⟩
    · exact hold
    · exact absurd hmem (claims_eq_nil_iff.mp hnext c)
  -- an object that is listed as lent and in no charge is on loan to somebody
  by_cases hpt : claims id pt.charges = []
  · -- the borrower had the object before
    have hmade : id < p.entries.length :=
      Nat.lt_of_not_le fun hle => (h.before.of_unmade hle).2.2.1 hold
    rw [h.elsewhere id hpt hmade]
    refine h.obeys.active id hold ?_
    rw [charges_cons, hpt, hpts]
    rfl
  · -- the call had the object in its charge, and a borrower has it now that had none before
    obtain ⟨c, hcharge⟩ := List.exists_mem_of_ne_nil _ hpt
    have hbefore : (id, c) ∈ (Ledger.of p (pt :: pts) hs gs).charges :=
      List.mem_append_left _ (mem_claims.mp hcharge)
    have hnone := h.before.no_loan_of_charge hbefore hold
    obtain ⟨x, hx⟩ := (h.after.objects id).loan_of_active (List.count_pos_iff.mpr hid) hc
    rcases h.loan_cases (mem_claims.mp hx) with ⟨y, hy⟩ | ⟨y, hy, rfl⟩
    · exact absurd hy (claims_eq_nil_iff.mp hnone y)
    · exact h.active_of_handle hy

/-- An object that is idle after the stretch was laid to rest. -/
theorem idle (h : Passage p pt pts hs gs st st₁ granted i s) (hid : id ∈ s.pool.registry.idle) :
    st₁ id = .rest .passive := by
  rcases h.turn.idle hid with hold | ⟨hg, k, hpt⟩
  · -- an idle object was in nobody's charge before
    have hfree : claims id pt.charges = [] := claims_eq_nil_iff.mpr fun c hc =>
      h.before.not_idle_of_charge (List.mem_append_left _ hc) hold
    have hmade : id < p.entries.length :=
      Nat.lt_of_not_le fun hle => (h.before.of_unmade hle).2.1 hold
    rw [h.elsewhere id hfree hmade]
    exact h.obeys.idle id hold
  · exact h.granted hg id k hpt

/-- The careers of the pool's objects agree with its books and its calls after the stretch. -/
theorem obeys_after (h : Passage p pt pts hs gs st st₁ granted i s) :
    ∃ st', Advances (each (pt.takes s.next) .seized ++ s.next.tells) st₁ st' ∧
      s.pool.Obeys st' (s.next.points ++ pts) := by
  obtain ⟨st', hadv, hfits, hrest⟩ := h.request
  -- what is in nobody's charge and not destroyed by the stretch stays where it is
  have hstay : ∀ id, claims id ((s.next.points ++ pts).flatMap Point.charges) = [] →
      id ∉ s.buried → st' id = st₁ id := by
    intro id hid hb
    rw [charges_next] at hid
    exact hrest id (List.append_eq_nil_iff.mp hid).1 hb
  have hburied : ∀ id, id ∈ s.pool.registry.idle ∨ id ∈ s.pool.registry.active → id ∉ s.buried := by
    intro id hid hb
    obtain ⟨-, hidle, hactive⟩ := h.after.of_grave (List.mem_append_left _ hb)
    exact hid.elim hidle hactive
  refine ⟨st', hadv, ⟨fun id hid => ?_, fun id hid => ?_, fun id hid hc => ?_, fun pt' hpt' => ?_⟩⟩
  · obtain ⟨hcharge, -, -, hgrave⟩ := h.after.of_unmade hid
    rw [hstay id hcharge fun hb => hgrave (List.mem_append_left _ hb)]
    exact h.unmade id hid
  · have hcharge : claims id ((s.next.points ++ pts).flatMap Point.charges) = [] :=
      claims_eq_nil_iff.mpr fun c hc => h.after.not_idle_of_charge hc hid
    rw [hstay id hcharge (hburied id (.inl hid))]
    exact h.idle hid
  · rw [hstay id hc (hburied id (.inr hid))]
    exact h.active hid hc
  · rw [h.config]
    rcases List.mem_append.mp hpt' with hpt' | hpt'
    · cases hn : s.next with
      | finish r =>
        rw [hn] at hpt'
        exact nomatch hpt'
      | go pt'' =>
        rw [hn] at hpt'
        obtain rfl := List.mem_singleton.mp hpt'
        exact hfits pt' hn
    · refine (h.obeys.calls pt' (List.mem_cons_of_mem _ hpt')).congr fun x hx => ?_
      have hne : claims x.1 (pts.flatMap Point.charges) ≠ [] :=
        List.ne_nil_of_mem (mem_claims.mpr (List.mem_flatMap.mpr ⟨pt', hpt', hx⟩))
      obtain ⟨hfree, hnext, hb, hmade⟩ := h.others hne
      rw [hrest x.1 hnext hb, h.elsewhere x.1 hfree hmade]

/-- An object that the factory has refused is in nobody's charge after the stretch. -/
theorem claims_of_refused (h : Passage p pt pts hs gs st st₁ granted i s) {c : Custody ρ}
    (hc : (id, c) ∈ pt.charges) (hst : st₁ id = .refused) (ht : pt.takes s.next = []) :
    claims id ((s.next.points ++ pts).flatMap Point.charges) = [] := by
  have hready := h.ready
  rw [ht, seize_nil] at hready
  have hnext : claims id s.next.charges = [] := by
    refine claims_eq_nil_iff.mpr fun x hx => ?_
    cases hn : s.next with
    | finish r =>
      rw [hn] at hx
      exact nomatch hx
    | go pt' =>
      rw [hn] at hx hready
      exact Point.Ready.ne_refused hready hx hst
  rw [charges_next, hnext, h.free_of_charge hc]
  rfl

/-- It has been destroyed in it, as nobody has it any more. -/
theorem buried_of_refused (h : Passage p pt pts hs gs st st₁ granted i s) {c : Custody ρ}
    (hc : (id, c) ∈ pt.charges) (hst : st₁ id = .refused) (ht : pt.takes s.next = []) :
    id ∈ s.buried := by
  have hbefore : (id, c) ∈ (Ledger.of p (pt :: pts) hs gs).charges := List.mem_append_left _ hc
  have hcharges := h.claims_of_refused hc hst ht
  -- an idle object or one on loan would be passive or active
  have hidle : id ∉ s.pool.registry.idle := fun hid => nomatch hst.symm.trans (h.idle hid)
  have hactive : id ∉ s.pool.registry.active :=
    fun hid => nomatch hst.symm.trans (h.active hid hcharges)
  have hmade : s.pool.shape? id ≠ none := fun hnone =>
    absurd (Nat.lt_of_lt_of_le (h.before.made_of_charge hbefore) h.grown)
      (Nat.not_lt_of_le (Pool.shape?_eq_none_iff.mp hnone))
  have hgrave := (h.after.objects id).grave_of_free hmade hcharges
    (List.count_eq_zero.mpr hidle) (List.count_eq_zero.mpr hactive)
  rcases List.mem_append.mp (List.count_pos_iff.mp hgrave) with hb | hg
  · exact hb
  · exact absurd hg (h.before.not_grave_of_charge hbefore)

/-- An object that the factory has refused goes to be destroyed in the same stretch. -/
theorem refused (h : Passage p pt pts hs gs st st₁ granted i s) {c : Custody ρ}
    (hc : (id, c) ∈ pt.charges) (hst : st₁ id = .refused) (ht : pt.takes s.next = []) :
    ∃ pt', s.next = .go pt' ∧ (id, .destroyed .normal) ∈ pt'.asks := by
  have hburied := h.buried_of_refused hc hst ht
  have hready := h.ready
  rw [ht, seize_nil] at hready
  unfold Stretch.buried at hburied
  cases hn : s.next with
  | finish r =>
    rw [hn] at hburied
    exact nomatch hburied
  | go pt' =>
    rw [hn] at hburied hready
    cases pt' with
    | destroying x r mode k =>
      obtain rfl := List.mem_singleton.mp hburied
      have hread : (st₁ id).read (.destroyed mode) = some .dead :=
        Point.Ready.asks hready _ (List.mem_singleton.mpr rfl)
      rw [hst] at hread
      obtain ⟨hmode, -⟩ := Career.read_refused hread
      obtain rfl := Signal.destroyed.inj hmode
      exact ⟨_, rfl, List.mem_singleton.mpr rfl⟩
    | _ => exact nomatch hburied

end Passage

end ObjectPool
