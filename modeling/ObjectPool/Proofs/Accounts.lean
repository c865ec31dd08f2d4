/-
  ObjectPool.Proofs.Accounts

  What a pool counts, against the calls of a run. Every object that was ever lent came back,
  or was taken away from its borrower, or was destroyed on request, or a borrower still has
  it; the counters say how many of each there were. Each of them moves in the stretch in
  which a call is settled, which may have to close the pool before it ends.

    * `World.inHands` — the objects that borrowers have.
    * `Run.length_inHands` — how many there are after a stretch.
    * `Accounts`, `Run.accounts` — the counters at every moment of a run.
    * `Balanced`, `counters_balanced` — the main statement.
-/

import ObjectPool.Proofs.Agreement
import ObjectPool.Proofs.LifeCycle
import ObjectPool.Proofs.Origins

namespace ObjectPool

variable {ρ : Type}

/-! ## The objects that borrowers have -/

namespace World

variable {w w' : World ρ} {e : Event ρ} {f : Effect ρ} {t i id : Nat} {a : Activity ρ} {q : Pool ρ}
  {s : Stretch ρ} {g : Nat → List Nat}

/-- The objects of the pool `i` that borrowers have, or that come back from them and were not
    looked at yet. -/
def inHands (w : World ρ) (i : Nat) : List Nat :=
  (w.activeOf i).filter fun id => (claims id ((w.points i).flatMap Point.charges)).isEmpty

/-- How many objects of the pool `i` were taken away from their borrowers and are to be
    destroyed. -/
def seized (w : World ρ) (i : Nat) : Nat := seizedIn ((w.points i).flatMap Point.charges)

theorem mem_inHands : id ∈ w.inHands i ↔
    id ∈ w.activeOf i ∧ claims id ((w.points i).flatMap Point.charges) = [] := by
  rw [inHands, List.mem_filter, List.isEmpty_iff]

theorem Sound.nodup_inHands (hw : w.Sound g) (i : Nat) : (w.inHands i).Nodup := by
  refine List.Nodup.filter _ ?_
  cases hp : w.pools[i]? with
  | none =>
    rw [activeOf, hp]
    exact .nil
  | some p =>
    rw [activeOf_eq hp]
    exact ((hw.pools i).agrees hp).active_nodup

/-- A borrower's object is in the state of the lent ones, and nobody readies it for another. -/
theorem Sound.mem_inHands_iff (hw : w.Sound g) : id ∈ w.inHands i ↔
    w.stateOf { pool := i, object := id } = .allocated ∧ id ∉ w.readied i := by
  rw [mem_inHands, ← hw.inUse_iff]
  constructor
  · intro h
    refine ⟨.inr h, fun hready => ?_⟩
    exact claims_eq_nil_iff.mp h.2 _ (mem_readied.mp hready)
  · rintro ⟨hready | h, hno⟩
    · exact absurd hready hno
    · exact h

theorem Spares.inHands (h : w.Spares w' i) : w'.inHands i = w.inHands i := by
  unfold World.inHands
  rw [h.activeOf]
  refine List.filter_congr fun id _ => ?_
  rw [Bool.eq_iff_iff, List.isEmpty_iff, List.isEmpty_iff]
  exact h.claims_charges id

theorem Spares.seized (h : w.Spares w' i) : w'.seized i = w.seized i :=
  h.calls.charges.countP_eq _ |>.symm

/-- What was taken away from its borrower is in the charge of a call before and after a stretch. -/
theorem Works.seized (h : w.Works e f t a q s) :
    f.world.seized a.pool + seizedIn a.point.charges =
      w.seized a.pool + seizedIn s.next.charges := by
  have hnext : (s.next.points ++ (w.pop t).points a.pool).flatMap Point.charges =
      s.next.charges ++ ((w.pop t).points a.pool).flatMap Point.charges := by
    cases s.next <;> rfl
  have hold := (h.stretches.points.flatMap_right Point.charges).countP_eq fun x => x.2.isSeized
  have hnew := h.lands.2.charges.countP_eq fun x => x.2.isSeized
  rw [List.flatMap_cons, List.countP_append] at hold
  rw [hnext, List.countP_append] at hnew
  unfold World.seized seizedIn
  omega

/-- An object that comes back and is not refused was with its borrower until then. -/
theorem Works.inHands_of_returns (h : w.Works e f t a q s) (hw : w.Sound g)
    (hid : id ∈ a.point.returns) (ha : id ∈ q.registry.active) : id ∈ w.inHands a.pool := by
  have hsound := h.before hw
  have hloan := Ledger.loan_of_returns q ((w.pop t).points a.pool) (w.lent a.pool) (g a.pool) hid
  have hlive : (q.stateOf id).isReclaimed = false :=
    Bool.not_eq_true _ |>.mp fun hrec => hsound.not_active_of_reclaimed hrec ha
  obtain ⟨v, -, hv⟩ := hsound.lent_of_loan hloan hlive
  have hnone : claims id ((a.point :: (w.pop t).points a.pool).flatMap Point.charges) = [] :=
    congrArg Position.charges hv
  refine mem_inHands.mpr ⟨activeOf_eq h.pool ▸ ha, ?_⟩
  have hperm : (claims id _).Perm (claims id _) :=
    claims_perm (h.stretches.points.flatMap_right Point.charges)
  rw [hnone] at hperm
  exact List.perm_nil.mp hperm

/-- How an object stands that a borrower has. -/
theorem Sound.of_inHands {p : Pool ρ} (hw : w.Sound g) (hp : w.pools[i]? = some p)
    (hid : id ∈ w.inHands i) : ∃ b r, p.position (.of p (w.points i) (w.lent i) (g i)) id =
      ⟨some ⟨.allocated, some r, b⟩, 1, 0, 1, 0, [⟨b, some r⟩], []⟩ := by
  obtain ⟨hs, hready⟩ := hw.mem_inHands_iff.mp hid
  exact (hw.allocated_cases hp hs).resolve_left hready

/-- A call ends with an object for a borrower only if it is a borrow. -/
theorem Works.errand_of_lent (h : w.Works e f t a q s) (hw : w.Sound g)
    (hn : s.next = .finish (.lent id)) : a.point.errand = .borrow := by
  have hlend : id ∈ s.next.lending := by
    rw [hn]
    exact List.mem_singleton.mpr rfl
  rcases h.reaches.lending id hlend with hold | hpromise | hpicks
  · obtain ⟨pool, point⟩ := a
    cases point with
    | activating x t =>
      cases t with
      | lend => rfl
      | test => cases hold
    | validating x c =>
      cases c with
      | trial t =>
        cases t with
        | lend => rfl
        | test => cases hold
      | stock | takeBack => cases hold
    | _ => cases hold
  · have hno := (h.before hw).promises _ (List.mem_append_left _ hpromise)
    cases hno
  · obtain ⟨pt, hgo⟩ := hpicks.readied
    rw [hn] at hgo
    cases hgo

/-- Nor does one that goes on with what it was about. -/
theorem Works.ne_lent_of_goes (h : w.Works e f t a q s) (hw : w.Sound g)
    (hg : a.point.errand.Goes s.next.errand) (id : Nat) : s.next ≠ .finish (.lent id) := by
  intro hn
  have hk := h.errand_of_lent hw hn
  rw [hk, hn] at hg
  have hno := hg.isLoan_eq_false fun he => by cases he
  cases hno

/-- A borrow that ends with an object leaves the books alone. -/
theorem Works.registry_of_lent (h : w.Works e f t a q s) (hw : w.Sound g)
    (hn : s.next = .finish (.lent id)) : s.pool.registry = q.registry := by
  cases h.counts with
  | lends _ _ _ _ ha _ => exact ha
  | passes hs | evicts _ _ hs | reclaims _ _ _ _ hs =>
    exact absurd hn (h.ne_lent_of_goes hw hs.goes id)
  | takesBack _ _ _ _ hs => exact absurd hn (h.ne_lent_of_goes hw hs.goes id)
  | exhausts _ _ _ _ hn' =>
    rw [hn] at hn'
    cases hn'
  | discards _ _ _ _ _ hn' =>
    rw [hn] at hn'
    rcases hn' with hn' | hn' <;> cases hn'
  | refuses x hpt _ _ _ =>
    have hk := h.errand_of_lent hw hn
    rcases Point.refusal_cases hpt with ⟨r, hpt, -⟩ | ⟨-, hpt | hpt⟩ <;>
    · rw [hpt] at hk
      cases hk
  | sweeps _ _ _ _ _ _ _ _ hn' =>
    rw [hn] at hn'
    cases hn'

/-- Who tries to take an object in a stretch. -/
theorem Works.tries (h : w.Works e f t a q s) (id : Nat) : Episode.tries a.pool id ⟨w, e, f⟩ =
    (decide (id ∈ a.point.returns) ||
      (a.point.sweeps && s.next.isPass && q.outstays w.now id)) := by
  unfold Episode.tries
  rw [h.retrieves, h.hunts]

theorem Works.tries_eq_false (h : w.Works e f t a q s) (hr : a.point.returns = [])
    (hp : (a.point.sweeps && s.next.isPass) = false) (id : Nat) :
    Episode.tries a.pool id ⟨w, e, f⟩ = false := by
  rw [h.tries, hr, hp]
  rfl

/-- A pass over the lent objects takes away those that borrowers have and that are overdue. -/
theorem Works.mem_overdue (h : w.Works e f t a q s) (hw : w.Sound g) {c : Abandonment}
    (hc : q.config.abandonment = some c) :
    id ∈ q.registry.active.filter (q.isAbandoned w.now c.timeout) ↔
      id ∈ w.inHands a.pool ∧ q.outstays w.now id = true := by
  have hout : q.outstays w.now id =
      (decide (c.timeout.nanos < (q.unusedFor w.now id).nanos) && !q.isHeld id) := by
    unfold Pool.outstays
    rw [hc]
    rfl
  rw [List.mem_filter, hout]
  constructor
  · rintro ⟨hactive, habandoned⟩
    unfold Pool.isAbandoned at habandoned
    simp only [Bool.and_eq_true] at habandoned
    obtain ⟨⟨⟨-, htime⟩, hloose⟩, hin⟩ := habandoned
    refine ⟨hw.mem_inHands_iff.mpr ⟨?_, fun hready => ?_⟩, Bool.and_eq_true_iff.mpr ⟨htime, hloose⟩⟩
    · rw [stateOf_of_pool (x := { pool := a.pool, object := id }) h.pool]
      exact (Pool.stateOf_eq_iff (s := .allocated) nofun).mpr hin
    · -- the factory works on an object that it readies
      obtain ⟨r, hv⟩ := hw.position_of_readied h.pool hready
      rw [Pool.isHeld_eq_shape?, show q.shape? id = _ from congrArg Position.shape hv] at hloose
      cases hloose
  · rintro ⟨hid, hout⟩
    obtain ⟨b, r, hv⟩ := hw.of_inHands h.pool hid
    obtain ⟨htracked, -, hactive, hin⟩ := Pool.of_lent hv
    obtain ⟨htime, hloose⟩ := Bool.and_eq_true_iff.mp hout
    refine ⟨hactive, ?_⟩
    unfold Pool.isAbandoned
    rw [decide_eq_true htracked, htime, hloose, hin]
    rfl

end World

/-- A call that is about a borrow has nothing that has just come back. -/
theorem Point.returns_of_borrow {pt : Point ρ} (h : pt.errand = .borrow) : pt.returns = [] := by
  cases pt with
  | takeBack id answer => cases answer <;> cases h
  | discard id => cases h
  | _ => rfl

/-- Nor has one that may begin a pass over the lent objects. -/
theorem Point.returns_of_sweeps {pt : Point ρ} (h : pt.sweeps = true) : pt.returns = [] := by
  cases pt with
  | takeBack | discard => cases h
  | _ => rfl

section Runs

variable {es : List (Episode ρ)} {w : World ρ} {e : Event ρ} {f : Effect ρ} {t i id : Nat}
  {a : Activity ρ} {q : Pool ρ} {s : Stretch ρ}

/-- After a stretch borrowers have the objects that nobody has tried to take from them, and the one
    with which the call has ended. -/
theorem Run.mem_inHands (run : Run es w) (hr : w.react e = some f) (h : w.Works e f t a q s) :
    id ∈ f.world.inHands a.pool ↔
      (id ∈ w.inHands a.pool ∧ Episode.tries a.pool id ⟨w, e, f⟩ = false) ∨
        s.next = .finish (.lent id) := by
  have hsound := (run.next hr).sound
  constructor
  · intro hid
    obtain ⟨hactive, hfree⟩ := World.mem_inHands.mp hid
    rw [h.activeOf] at hactive
    refine (run.lent_cases h hactive hfree).imp_left fun hold => ?_
    have hin := World.mem_inHands.mpr hold
    refine ⟨hin, Bool.not_eq_true _ |>.mp fun ht => ?_⟩
    obtain ⟨hs, hready⟩ := run.sound.mem_inHands_iff.mp hin
    exact (h.takes run.sound hs hready ht).1 (hsound.mem_inHands_iff.mp hid).1
  · rintro (⟨hin, ht⟩ | hn)
    · obtain ⟨hs, hready⟩ := run.sound.mem_inHands_iff.mp hin
      have hstays := World.react_stays run.sound hr hs hready ht
      refine hsound.mem_inHands_iff.mpr ⟨hstays, fun hnew => ?_⟩
      -- a borrower's object is not picked for another one
      have hpicks := (h.readied run.sound hnew).resolve_left hready
      obtain ⟨b, r, hv⟩ := run.sound.of_inHands h.pool hin
      obtain ⟨-, hidle, -, hlent⟩ := Pool.of_lent hv
      refine hpicks.free.elim hidle fun hle => ?_
      unfold Pool.isIn Pool.object? at hlent
      rw [List.getElem?_eq_none_iff.mpr hle] at hlent
      cases hlent
    · refine World.mem_inHands.mpr ⟨?_, run.claims_of_finish h hn⟩
      rw [h.activeOf, h.registry_of_lent run.sound hn]
      obtain ⟨r, hv⟩ := run.sound.position_of_readied h.pool (h.readied_of_finish run.sound hn)
      have hone : q.registry.active.count id = 1 := congrArg Position.active hv
      exact List.count_pos_iff.mp (Nat.lt_of_lt_of_eq Nat.one_pos hone.symm)

/-- If the objects `l` were taken from borrowers in a stretch, they have so many fewer. -/
theorem Run.length_inHands (run : Run es w) (hr : w.react e = some f) (h : w.Works e f t a q s)
    {l : List Nat} (hl : l.Nodup) (hmem : ∀ id, id ∈ l ↔
      id ∈ w.inHands a.pool ∧ Episode.tries a.pool id ⟨w, e, f⟩ = true)
    (hn : ∀ id, s.next ≠ .finish (.lent id)) :
    (f.world.inHands a.pool).length + l.length = (w.inHands a.pool).length := by
  have hnew := (run.next hr).sound.nodup_inHands a.pool
  have hiff : ∀ id, id ∈ f.world.inHands a.pool ↔
      id ∈ w.inHands a.pool ∧ Episode.tries a.pool id ⟨w, e, f⟩ = false := fun id =>
    (run.mem_inHands hr h).trans (or_iff_left (hn id))
  have hapart : (f.world.inHands a.pool ++ l).Nodup := by
    refine List.nodup_append.mpr ⟨hnew, hl, fun x hx y hy hxy => ?_⟩
    subst hxy
    exact nomatch ((hiff x).mp hx).2.symm.trans ((hmem x).mp hy).2
  have hperm : (f.world.inHands a.pool ++ l).Perm (w.inHands a.pool) := by
    refine (List.perm_ext_iff_of_nodup hapart (run.sound.nodup_inHands a.pool)).mpr fun id => ?_
    rw [List.mem_append, hiff, hmem]
    cases Episode.tries a.pool id ⟨w, e, f⟩ <;> simp
  rw [← hperm.length_eq, List.length_append]

/-- If nobody tries to take an object, borrowers have as many as before. -/
theorem Run.length_inHands_of_calm (run : Run es w) (hr : w.react e = some f)
    (h : w.Works e f t a q s)
    (ht : ∀ id ∈ w.inHands a.pool, Episode.tries a.pool id ⟨w, e, f⟩ = false)
    (hn : ∀ id, s.next ≠ .finish (.lent id)) :
    (f.world.inHands a.pool).length = (w.inHands a.pool).length := by
  refine run.length_inHands hr h (l := []) .nil (fun id => ⟨nofun, fun hid => ?_⟩) hn
  exact nomatch (ht id hid.1).symm.trans hid.2

/-- An object that comes back is the one that its borrower has no more. -/
theorem Run.length_inHands_of_returns (run : Run es w) (hr : w.react e = some f)
    (h : w.Works e f t a q s) (hpt : a.point.returns = [id]) (ha : id ∈ q.registry.active)
    (hp : a.point.sweeps = false) (hn : ∀ id, s.next ≠ .finish (.lent id)) :
    (f.world.inHands a.pool).length + 1 = (w.inHands a.pool).length := by
  have htries : ∀ x, Episode.tries a.pool x ⟨w, e, f⟩ = true ↔ x = id := by
    intro x
    rw [h.tries, hpt, hp]
    simp
  refine run.length_inHands hr h (l := [id]) (List.nodup_singleton id) (fun x => ?_) hn
  rw [List.mem_singleton, htries]
  refine ⟨fun hx => ⟨?_, hx⟩, And.right⟩
  subst hx
  exact h.inHands_of_returns run.sound (hpt ▸ List.mem_singleton.mpr rfl) ha

/-- A borrow that ends with an object is the one object more that a borrower has. -/
theorem Run.length_inHands_of_lent (run : Run es w) (hr : w.react e = some f)
    (h : w.Works e f t a q s) (hn : s.next = .finish (.lent id))
    (ht : ∀ x, Episode.tries a.pool x ⟨w, e, f⟩ = false) :
    (f.world.inHands a.pool).length = (w.inHands a.pool).length + 1 := by
  have hnot : id ∉ w.inHands a.pool := fun hid =>
    (run.sound.mem_inHands_iff.mp hid).2 (h.readied_of_finish run.sound hn)
  have hperm : (f.world.inHands a.pool).Perm (id :: w.inHands a.pool) := by
    refine (List.perm_ext_iff_of_nodup ((run.next hr).sound.nodup_inHands a.pool)
      (List.nodup_cons.mpr ⟨hnot, run.sound.nodup_inHands a.pool⟩)).mpr fun x => ?_
    rw [run.mem_inHands hr h, hn, ht, List.mem_cons]
    constructor
    · rintro (hx | hx)
      · exact .inr hx.1
      · exact .inl (Reply.lent.inj (Next.finish.inj hx)).symm
    · rintro (rfl | hx)
      · exact .inr rfl
      · exact .inl ⟨hx, rfl⟩
  exact hperm.length_eq

/-! ## Replies that are counted -/

/-- Whether an object was destroyed on request. -/
def Reply.isDisposal (r : Reply) : Bool := decide (r = .done ∨ r = .failed .closed)

/-- Whether a return was refused. -/
def Reply.isRefusal (r : Reply) : Bool := decide (r = .failed .invalidReturn)

/-- Whether a call runs to which an object of the pool `i` comes back that a borrower has let go, or
    that another pool has refused, after the pool took the object back itself. -/
def Episode.isStray (i : Nat) (e : Episode ρ) : Bool :=
  match e.call? with
  | some ⟨p, .takeBack id (some _)⟩ =>
    decide (p = i) && (e.before.stateOf { pool := i, object := id }).isReclaimed
  | _ => false

/-- Replies of a kind move a counter when they settle calls that began with an event of a kind. -/
def Counted (began : Event ρ → Bool) (reply : Reply → Bool) : Prop :=
  ∀ (o : Event ρ) (j : Nat) (r : Reply), began o = true → (o.errand j).settles r = true →
    reply r = false

theorem counted_loans (i : Nat) : Counted (Event.borrowsFrom (ρ := ρ) i) Reply.isLoan := by
  intro o j r ho hs
  rw [Event.errand_of_borrows ho] at hs
  exact Bool.not_eq_true' _ |>.mp (Bool.and_eq_true_iff.mp hs).1

theorem counted_exhausted (i : Nat) : Counted (Event.borrowsFrom (ρ := ρ) i) Reply.isExhausted := by
  intro o j r ho hs
  rw [Event.errand_of_borrows ho] at hs
  exact Bool.not_eq_true' _ |>.mp (Bool.and_eq_true_iff.mp hs).2

theorem counted_disposals (i : Nat) :
    Counted (Event.invalidatesAt (ρ := ρ) i) Reply.isDisposal := by
  intro o j r ho hs
  rw [Event.errand_of_invalidates ho] at hs
  split at hs <;> cases hs

theorem counted_refusals (i : Nat) : Counted (Event.returnsTo (ρ := ρ) i) Reply.isRefusal := by
  intro o j r ho hs
  rcases Event.errand_of_returns ho j with hk | hk
  · rw [hk] at hs
    split at hs
    · exact decide_eq_false (of_decide_eq_true (Bool.and_eq_true_iff.mp hs).2)
    · cases hs
  · rw [hk] at hs
    split at hs <;> cases hs

/-- What a call that began with `o` adds stays as it is if nothing is counted. -/
theorem due_of_goes {began : Event ρ → Bool} {reply : Reply → Bool} (hc : Counted began reply)
    {o : Event ρ} (ho : o.Course a) {k : Errand} (hg : a.point.errand.Goes k) :
    due began reply o k = due began reply o a.point.errand := by
  rcases hg with rfl | ⟨r, rfl, hs⟩
  · rfl
  · have hopen : a.point.errand.reply? = none := by
      cases hk : a.point.errand with
      | settled r' =>
        rw [hk] at hs
        cases hs
      | _ => rfl
    rw [ho.errand.eq_of_open hopen] at hs ⊢
    rw [ho.errand.eq_of_open hopen] at hopen
    unfold due
    rw [hopen]
    by_cases hb : began o = true
    · rw [show (Errand.settled r).reply? = some r from rfl, Option.any_some, hc o _ r hb hs]
      rfl
    · rw [Bool.not_eq_true] at hb
      rw [hb]
      rfl

/-- It stays as it is if the call was settled from the start. -/
theorem due_of_settled {began : Event ρ → Bool} {reply : Reply → Bool} {o : Event ρ}
    (ho : o.Course a) {k : Errand} (hk : a.point.errand.Leads k)
    (hs : began o = true → ∃ r, o.errand a.pool = .settled r) :
    due began reply o k = due began reply o a.point.errand := by
  by_cases hb : began o = true
  · obtain ⟨r, hr⟩ := hs hb
    have hsame : ∀ {k k' : Errand}, k = .settled r → k.Leads k' → k' = .settled r := by
      rintro k k' rfl (rfl | ⟨hno, -⟩)
      · rfl
      · cases hno
    have ha := hsame hr ho.errand
    rw [hsame ha hk, ha]
  · unfold due
    rw [Bool.not_eq_true] at hb
    rw [hb]
    rfl

/-! ## The counters at every moment -/

/-- What the pool `i` has counted, against the calls of a run and the objects that borrowers have. A
    call that has its reply counts, even if it has not ended yet. -/
structure Accounts (es : List (Episode ρ)) (w : World ρ) (i : Nat) : Prop where
  borrowed : (w.countersOf i).borrowed = replied (Event.borrowsFrom i) Reply.isLoan es w
  exhausted : (w.countersOf i).exhausted = replied (Event.borrowsFrom i) Reply.isExhausted es w
  /-- What was lent came back, was taken away, was destroyed on request, or a borrower has it. -/
  balance : (w.countersOf i).borrowed = (w.countersOf i).returned + (w.countersOf i).abandoned +
    replied (Event.invalidatesAt i) Reply.isDisposal es w + (w.inHands i).length + w.seized i
  invalidReturns : (w.countersOf i).invalidReturns =
    replied (Event.returnsTo i) Reply.isRefusal es w + es.countP (Episode.isStray i)
  destroyed : (w.countersOf i).evicted + (w.countersOf i).abandoned ≤ (w.countersOf i).destroyed

/-- No call on the pool `i` comes to have a reply that is counted. -/
structure SameCalls (es es' : List (Episode ρ)) (w w' : World ρ) (i : Nat) : Prop where
  loans : replied (Event.borrowsFrom i) Reply.isLoan es' w' =
    replied (Event.borrowsFrom i) Reply.isLoan es w
  exhausted : replied (Event.borrowsFrom i) Reply.isExhausted es' w' =
    replied (Event.borrowsFrom i) Reply.isExhausted es w
  disposals : replied (Event.invalidatesAt i) Reply.isDisposal es' w' =
    replied (Event.invalidatesAt i) Reply.isDisposal es w
  refusals : replied (Event.returnsTo i) Reply.isRefusal es' w' =
    replied (Event.returnsTo i) Reply.isRefusal es w

/-- A call that goes on with what it is about, or is settled with a reply that is not counted. -/
theorem Run.sameCalls_of_goes (run : Run es w) (h : w.Works e f t a q s)
    (hg : a.point.errand.Goes s.next.errand) (i : Nat) :
    SameCalls es (⟨w, e, f⟩ :: es) w f.world i := by
  obtain ⟨o, ho, hset⟩ := run.replied_works h
  have hsame : ∀ {began : Event ρ → Bool} {reply : Reply → Bool}, Counted began reply →
      replied began reply (⟨w, e, f⟩ :: es) f.world = replied began reply es w := by
    intro began reply hc
    have heq := hset began reply
    rw [due_of_goes hc ho hg] at heq
    exact Nat.add_right_cancel heq
  exact ⟨hsame (counted_loans i), hsame (counted_exhausted i), hsame (counted_disposals i),
    hsame (counted_refusals i)⟩

/-- A call on another pool was settled from the start, if the pool `i` was asked for it. -/
theorem Run.sameCalls_elsewhere (run : Run es w) (h : w.Works e f t a q s) (hi : a.pool ≠ i) :
    SameCalls es (⟨w, e, f⟩ :: es) w f.world i := by
  obtain ⟨o, ho, hset⟩ := run.replied_works h
  have hsame : ∀ {began : Event ρ → Bool} {reply : Reply → Bool},
      (began o = true → ∃ r, o.errand a.pool = .settled r) →
      replied began reply (⟨w, e, f⟩ :: es) f.world = replied began reply es w := by
    intro began reply hs
    have heq := hset began reply
    rw [due_of_settled ho h.counts.leads hs] at heq
    exact Nat.add_right_cancel heq
  have hborrow : o.borrowsFrom i = true → ∃ r, o.errand a.pool = .settled r :=
    fun hb => absurd (ho.pool i hb) hi
  refine ⟨hsame hborrow, hsame hborrow, hsame fun hb => ⟨.failed .invalidReturn, ?_⟩,
    hsame fun hb => ?_⟩
  · rw [Event.errand_of_invalidates hb, if_neg hi.symm]
  · rcases Event.errand_of_returns hb a.pool with hk | hk <;>
    · rw [if_neg hi.symm] at hk
      exact ⟨_, hk⟩

/-- A call that is settled in a stretch counts if it began with an event of the kind and has a reply
    of the kind. -/
theorem Run.replied_of_reply (run : Run es w) (h : w.Works e f t a q s) {r : Reply}
    (hk : a.point.errand.reply? = none) (hn : s.next.errand = .settled r) :
    ∃ o : Event ρ, o.Course a ∧ o.errand a.pool = a.point.errand ∧
      (∀ began reply, began o = true → reply r = true →
        replied began reply (⟨w, e, f⟩ :: es) f.world = replied began reply es w + 1) ∧
      ∀ began reply, reply r = false →
        replied began reply (⟨w, e, f⟩ :: es) f.world = replied began reply es w := by
  obtain ⟨o, ho, hset⟩ := run.replied_works h
  have hstep : ∀ began reply, replied began reply (⟨w, e, f⟩ :: es) f.world =
      replied began reply es w + if began o && reply r then 1 else 0 := by
    intro began reply
    have heq := hset began reply
    have hzero : due began reply o a.point.errand = 0 := by
      unfold due
      rw [hk, Option.any_none, Bool.and_false]
      rfl
    rw [hzero, hn] at heq
    exact heq
  refine ⟨o, ho, (ho.errand.eq_of_open hk).symm, fun began reply hb hr => ?_,
    fun began reply hr => ?_⟩
  · rw [hstep, hb, hr]
    rfl
  · rw [hstep, hr, Bool.and_false]
    rfl

/-- A borrow that is settled in a stretch with an object, or because there is none to be had. -/
theorem Run.replied_of_borrow (run : Run es w) (h : w.Works e f t a q s) {r : Reply}
    (hk : a.point.errand = .borrow) (hn : s.next.errand = .settled r)
    (hd : r.isDisposal = false) (hr : r.isRefusal = false) (reply : Reply → Bool)
    (hrep : reply r = true) :
    replied (Event.borrowsFrom a.pool) reply (⟨w, e, f⟩ :: es) f.world =
        replied (Event.borrowsFrom a.pool) reply es w + 1 ∧
      replied (Event.invalidatesAt a.pool) Reply.isDisposal (⟨w, e, f⟩ :: es) f.world =
        replied (Event.invalidatesAt a.pool) Reply.isDisposal es w ∧
      replied (Event.returnsTo a.pool) Reply.isRefusal (⟨w, e, f⟩ :: es) f.world =
        replied (Event.returnsTo a.pool) Reply.isRefusal es w ∧
      ∀ reply' : Reply → Bool, reply' r = false →
        replied (Event.borrowsFrom a.pool) reply' (⟨w, e, f⟩ :: es) f.world =
          replied (Event.borrowsFrom a.pool) reply' es w := by
  obtain ⟨o, ho, hok, hyes, hno⟩ := run.replied_of_reply h (by rw [hk]; rfl) hn
  obtain ⟨i, hi⟩ := Event.borrows_of_errand (hok.trans hk)
  have hbegan : o.borrowsFrom a.pool = true := by rwa [ho.pool i hi]
  exact ⟨hyes _ _ hbegan hrep, hno _ _ hd, hno _ _ hr, fun reply' h' => hno _ _ h'⟩

theorem World.Works.isStray_of_returns (h : w.Works e f t a q s) (hr : a.point.returns = [])
    (i : Nat) : Episode.isStray i ⟨w, e, f⟩ = false := by
  unfold Episode.isStray
  rw [h.call]
  obtain ⟨pool, point⟩ := a
  cases point with
  | takeBack id answer => cases hr
  | _ => rfl

/-- A call that takes an object back on behalf of nobody who asks gets to a stray one if the object
    is not lent any more. -/
theorem World.Works.isStray_of_takeBack (h : w.Works e f t a q s) {answer : Option Reply}
    (hpt : a.point = .takeBack id answer) : Episode.isStray a.pool ⟨w, e, f⟩ =
      (answer.isSome && (q.stateOf id).isReclaimed) := by
  have hstate : w.stateOf { pool := a.pool, object := id } = q.stateOf id :=
    stateOf_of_pool (x := { pool := a.pool, object := id }) h.pool
  unfold Episode.isStray
  rw [h.call]
  obtain ⟨pool, point⟩ := a
  obtain rfl : point = .takeBack id answer := hpt
  cases answer with
  | none => rfl
  | some r =>
    show (decide (pool = pool) && (w.stateOf { pool, object := id }).isReclaimed) = _
    rw [hstate, decide_eq_true rfl]
    rfl

theorem World.Works.isStray_of_discard (h : w.Works e f t a q s) (hpt : a.point = .discard id)
    (i : Nat) : Episode.isStray i ⟨w, e, f⟩ = false := by
  unfold Episode.isStray
  rw [h.call]
  obtain ⟨pool, point⟩ := a
  obtain rfl : point = .discard id := hpt
  rfl

/-- Where nothing of note happens to borrowers, no call comes to have a reply that is counted. -/
theorem Run.sameCalls_of_passes (run : Run es w) (hr : w.react e = some f)
    (h : w.Works e f t a q s) {c : Counters} {n : Nat} (hs : s.Passes c a.point.errand n)
    (hret : a.point.returns = []) (hp : (a.point.sweeps && s.next.isPass) = false) :
    SameCalls es (⟨w, e, f⟩ :: es) w f.world a.pool ∧
      (f.world.inHands a.pool).length = (w.inHands a.pool).length :=
  ⟨run.sameCalls_of_goes h hs.goes a.pool, run.length_inHands_of_calm hr h
    (fun id _ => h.tries_eq_false hret hp id) (h.ne_lent_of_goes run.sound hs.goes)⟩

/-- A call that gets to an object that is not lent any more leaves borrowers what they have. -/
theorem Run.length_inHands_of_refused (run : Run es w) (hr : w.react e = some f)
    (h : w.Works e f t a q s) (hpt : a.point.returns = [id])
    (hid : id ∉ q.registry.active ∨ q.isIn id .allocated = false)
    (hn : s.next = .finish a.point.refusal) :
    (f.world.inHands a.pool).length = (w.inHands a.pool).length := by
  refine run.length_inHands_of_calm hr h (fun x hx => Bool.not_eq_true _ |>.mp fun ht => ?_)
    fun x hx => ?_
  · have hpass : s.next.isPass = false := by
      rw [hn]
      rfl
    rw [h.tries, hpt, hpass, Bool.and_false, Bool.false_and, Bool.or_false] at ht
    obtain rfl := List.mem_singleton.mp (of_decide_eq_true ht)
    obtain ⟨b, r, hv⟩ := run.sound.of_inHands h.pool hx
    obtain ⟨-, -, hactive, hin⟩ := Pool.of_lent hv
    rcases hid with hout | hout
    · exact hout hactive
    · exact nomatch hout.symm.trans hin
  · have hk := h.errand_of_lent run.sound hx
    rcases Point.refusal_cases hpt with ⟨r, hpt, -⟩ | ⟨-, hpt | hpt⟩ <;>
    · rw [hpt] at hk
      cases hk

/-- A pass over the lent objects leaves the call with those that it takes from borrowers. -/
theorem Run.length_inHands_of_sweep (run : Run es w) (hr : w.react e = some f)
    (h : w.Works e f t a q s) {c : Abandonment} (hc : q.config.abandonment = some c)
    (hpt : a.point.sweeps = true) {n : Nat} {x : Sweeper}
    (hn : s.next = .go (.reclaiming (q.reclaimFrom w.now c.timeout q.registry.active).2 n x)) :
    (f.world.inHands a.pool).length + seizedIn s.next.charges = (w.inHands a.pool).length := by
  have hactive : q.registry.active.Nodup := ((run.sound.pools a.pool).agrees h.pool).active_nodup
  have hlen : seizedIn s.next.charges =
      (q.registry.active.filter (q.isAbandoned w.now c.timeout)).length := by
    rw [hn, ← Pool.objects_reclaimFrom hactive, List.length_map]
    exact seizedIn_seizures _
  have hpass : s.next.isPass = true := by
    rw [hn]
    rfl
  rw [hlen]
  refine run.length_inHands hr h (hactive.filter _) (fun id => ?_) fun id hlent => ?_
  · rw [h.mem_overdue run.sound hc, h.tries, Point.returns_of_sweeps hpt, hpt, hpass]
    rfl
  · rw [hn] at hlent
    cases hlent

/-- An object that is destroyed on request counts as one, and as nothing else. -/
theorem Run.replied_of_discard (run : Run es w) (h : w.Works e f t a q s)
    (hpt : a.point = .discard id)
    (hn : s.next.errand = .settled .done ∨ s.next.errand = .settled (.failed .closed)) :
    replied (Event.invalidatesAt a.pool) Reply.isDisposal (⟨w, e, f⟩ :: es) f.world =
        replied (Event.invalidatesAt a.pool) Reply.isDisposal es w + 1 ∧
      replied (Event.borrowsFrom a.pool) Reply.isLoan (⟨w, e, f⟩ :: es) f.world =
        replied (Event.borrowsFrom a.pool) Reply.isLoan es w ∧
      replied (Event.borrowsFrom a.pool) Reply.isExhausted (⟨w, e, f⟩ :: es) f.world =
        replied (Event.borrowsFrom a.pool) Reply.isExhausted es w ∧
      replied (Event.returnsTo a.pool) Reply.isRefusal (⟨w, e, f⟩ :: es) f.world =
        replied (Event.returnsTo a.pool) Reply.isRefusal es w := by
  have hdone : ∃ r : Reply, s.next.errand = .settled r ∧ r.isDisposal = true ∧
      r.isLoan = false ∧ r.isExhausted = false ∧ r.isRefusal = false := by
    rcases hn with hn | hn <;> exact ⟨_, hn, rfl, rfl, rfl, rfl⟩
  obtain ⟨r, hr, hd, hl, hx, hm⟩ := hdone
  obtain ⟨o, -, hok, hyes, hno⟩ := run.replied_of_reply h (by rw [hpt]; rfl) hr
  have hbegan := (Event.invalidates_of_errand (hok.trans (by rw [hpt]; rfl))).1
  exact ⟨hyes _ _ hbegan hd, hno _ _ hl, hno _ _ hx, hno _ _ hm⟩

/-- A call that brings an object back has none in its hands that was taken from a borrower. -/
theorem Point.seizedIn_of_returns {pt : Point ρ} (h : pt.returns = [id]) :
    seizedIn pt.charges = 0 := by
  rcases Point.refusal_cases h with ⟨r, rfl, -⟩ | ⟨-, rfl | rfl⟩ <;> rfl

/-- An object that comes back and is not lent any more: the call that was asked to take it back or
    to destroy it is refused, and a call that was not asked counts it as a stray. -/
theorem Run.replied_of_refusal (run : Run es w) (h : w.Works e f t a q s)
    (hpt : a.point.returns = [id]) (hid : id ∉ q.registry.active ∨ q.isIn id .allocated = false)
    (hn : s.next = .finish a.point.refusal) :
    replied (Event.borrowsFrom a.pool) Reply.isLoan (⟨w, e, f⟩ :: es) f.world =
        replied (Event.borrowsFrom a.pool) Reply.isLoan es w ∧
      replied (Event.borrowsFrom a.pool) Reply.isExhausted (⟨w, e, f⟩ :: es) f.world =
        replied (Event.borrowsFrom a.pool) Reply.isExhausted es w ∧
      replied (Event.invalidatesAt a.pool) Reply.isDisposal (⟨w, e, f⟩ :: es) f.world =
        replied (Event.invalidatesAt a.pool) Reply.isDisposal es w ∧
      replied (Event.returnsTo a.pool) Reply.isRefusal (⟨w, e, f⟩ :: es) f.world +
          (⟨w, e, f⟩ :: es).countP (Episode.isStray a.pool) =
        replied (Event.returnsTo a.pool) Reply.isRefusal es w +
          es.countP (Episode.isStray a.pool) + 1 := by
  rcases Point.refusal_cases hpt with ⟨r, hpt, hr⟩ | ⟨hr, hpt⟩
  · -- the object was let go, or refused by another pool
    obtain ⟨sl, sx, sd, sr⟩ := run.sameCalls_of_goes h (.inl (by rw [hn, hr, hpt]; rfl)) a.pool
    have hback : id ∈ a.point.returns := by rw [hpt]; exact List.mem_singleton.mpr rfl
    have hloan := Ledger.loan_of_returns q ((w.pop t).points a.pool) (w.lent a.pool)
      (graves es a.pool) hback
    have hrec : (q.stateOf id).isReclaimed = true := by
      refine Bool.not_eq_false _ |>.mp fun hlive => ?_
      obtain ⟨hactive, hin, -⟩ := (h.before run.sound).lent_of_live hloan hlive
      exact hid.elim (fun hout => hout hactive) fun hout => nomatch hout.symm.trans hin
    have hstray : (⟨w, e, f⟩ :: es).countP (Episode.isStray a.pool) =
        es.countP (Episode.isStray a.pool) + 1 :=
      List.countP_cons_of_pos ((h.isStray_of_takeBack hpt).trans (by rw [hrec]; rfl))
    exact ⟨sl, sx, sd, by omega⟩
  · have hopen : a.point.errand.reply? = none := by
      rcases hpt with hpt | hpt <;> rw [hpt] <;> rfl
    obtain ⟨o, -, hok, hyes, hno⟩ := run.replied_of_reply h hopen (by rw [hn, hr]; rfl)
    have hbegan : o.returnsTo a.pool = true := by
      rcases hpt with hpt | hpt
      · exact Event.returns_of_errand (hok.trans (by rw [hpt]; rfl))
      · exact (Event.invalidates_of_errand (hok.trans (by rw [hpt]; rfl))).2
    have sr := hyes _ Reply.isRefusal hbegan rfl
    have hquiet : Episode.isStray a.pool ⟨w, e, f⟩ = false := by
      rcases hpt with hpt | hpt
      · exact h.isStray_of_takeBack hpt
      · exact h.isStray_of_discard hpt _
    have hstray : (⟨w, e, f⟩ :: es).countP (Episode.isStray a.pool) =
        es.countP (Episode.isStray a.pool) :=
      List.countP_cons_of_neg (Bool.eq_false_iff.mp hquiet)
    exact ⟨hno _ _ rfl, hno _ _ rfl, hno _ _ rfl, by omega⟩

/-- A call runs for a stretch on its pool. -/
theorem Run.accounts_works (run : Run es w) (hr : w.react e = some f) (h : w.Works e f t a q s)
    (ih : Accounts es w a.pool) : Accounts (⟨w, e, f⟩ :: es) f.world a.pool := by
  have hnew : f.world.countersOf a.pool = s.pool.counters :=
    (h.countersOf a.pool).trans (if_pos rfl)
  have hold : w.countersOf a.pool = q.counters := World.countersOf_eq h.pool
  have hsame : Episode.isStray a.pool ⟨w, e, f⟩ = false →
      (⟨w, e, f⟩ :: es).countP (Episode.isStray a.pool) = es.countP (Episode.isStray a.pool) :=
    fun hno => List.countP_cons_of_neg (Bool.eq_false_iff.mp hno)
  have hseized := h.seized
  obtain ⟨ihb, ihx, ihbal, ihm, ihd⟩ := ih
  rw [hold] at ihb ihx ihbal ihm ihd
  cases h.counts with
  | passes hs hret hp =>
    obtain ⟨cb, cr, cx, cm, cv, ck, cd⟩ := hs.calm
    obtain ⟨⟨sl, sx, sd, sr⟩, hhands⟩ := run.sameCalls_of_passes hr h hs hret hp
    have hleft := hs.seized
    have hstray := hsame (h.isStray_of_returns hret _)
    refine ⟨?_, ?_, ?_, ?_, ?_⟩ <;> rw [hnew] <;> omega
  | lends id hk hs0 hc hreg hn =>
    obtain ⟨cb, cr, cx, cm, cv, ck, cd⟩ := hc
    have hret := Point.returns_of_borrow hk
    obtain ⟨sl, sd, sr, hno⟩ := run.replied_of_borrow h (r := .lent id) hk (by rw [hn]; rfl) rfl rfl
      Reply.isLoan rfl
    have sx := hno Reply.isExhausted rfl
    have hhands := run.length_inHands_of_lent hr h hn
      (h.tries_eq_false hret (by rw [hn]; exact Bool.and_false _))
    have hleft : seizedIn s.next.charges = 0 := by rw [hn]; rfl
    have hstray := hsame (h.isStray_of_returns hret _)
    dsimp only at cb cr cx cm cv ck cd
    refine ⟨?_, ?_, ?_, ?_, ?_⟩ <;> rw [hnew] <;> omega
  | exhausts d hk hs0 hc hn =>
    obtain ⟨cb, cr, cx, cm, cv, ck, cd⟩ := hc
    have hret := Point.returns_of_borrow hk
    obtain ⟨sx, sd, sr, hno⟩ := run.replied_of_borrow h (r := .failed (.exhausted d)) hk
      (by rw [hn]; rfl) rfl rfl Reply.isExhausted rfl
    have sl := hno Reply.isLoan rfl
    have hhands := run.length_inHands_of_calm hr h
      (fun id _ => h.tries_eq_false hret (by rw [hn]; exact Bool.and_false _) id)
      fun id hlent => by rw [hn] at hlent; cases hlent
    have hleft : seizedIn s.next.charges = 0 := by rw [hn]; rfl
    have hstray := hsame (h.isStray_of_returns hret _)
    dsimp only at cb cr cx cm cv ck cd
    refine ⟨?_, ?_, ?_, ?_, ?_⟩ <;> rw [hnew] <;> omega
  | takesBack id answer hpt hid hs =>
    obtain ⟨cb, cr, cx, cm, cv, ck, cd⟩ := hs.calm
    obtain ⟨sl, sx, sd, sr⟩ := run.sameCalls_of_goes h hs.goes a.pool
    have hhands := run.length_inHands_of_returns hr h (by rw [hpt]; rfl) hid (by rw [hpt]; rfl)
      (h.ne_lent_of_goes run.sound hs.goes)
    have hleft := hs.seized
    have hnone : seizedIn a.point.charges = 0 := by rw [hpt]; rfl
    have hlive : (q.stateOf id).isReclaimed = false :=
      Bool.not_eq_true _ |>.mp fun hrec => (h.before run.sound).not_active_of_reclaimed hrec hid
    have hstray := hsame ((h.isStray_of_takeBack hpt).trans (by rw [hlive, Bool.and_false]))
    dsimp only at cb cr cx cm cv ck cd
    refine ⟨?_, ?_, ?_, ?_, ?_⟩ <;> rw [hnew] <;> omega
  | discards id hpt hid hc hs hn =>
    obtain ⟨cb, cr, cx, cm, cv, ck, cd⟩ := hc
    obtain ⟨sd, sl, sx, sr⟩ := run.replied_of_discard h hpt hn
    have hhands := run.length_inHands_of_returns hr h (by rw [hpt]; rfl) hid (by rw [hpt]; rfl)
      fun x hlent => by rw [hlent] at hn; rcases hn with hn | hn <;> cases hn
    have hnone : seizedIn a.point.charges = 0 := by rw [hpt]; rfl
    have hstray := hsame (h.isStray_of_discard hpt _)
    refine ⟨?_, ?_, ?_, ?_, ?_⟩ <;> rw [hnew] <;> omega
  | refuses id hpt hid hc hn =>
    obtain ⟨cb, cr, cx, cm, cv, ck, cd⟩ := hc
    obtain ⟨sl, sx, sd, srefused⟩ := run.replied_of_refusal h hpt hid hn
    have hhands := run.length_inHands_of_refused hr h hpt hid hn
    have hnone := Point.seizedIn_of_returns hpt
    have hleft : seizedIn s.next.charges = 0 := by rw [hn]; rfl
    dsimp only at cb cr cx cm cv ck cd
    refine ⟨?_, ?_, ?_, ?_, ?_⟩ <;> rw [hnew] <;> omega
  | evicts hret hp hs =>
    obtain ⟨cb, cr, cx, cm, cv, ck, cd⟩ := hs.calm
    obtain ⟨⟨sl, sx, sd, sr⟩, hhands⟩ := run.sameCalls_of_passes hr h hs hret hp
    have hleft := hs.seized
    have hstray := hsame (h.isStray_of_returns hret _)
    dsimp only at cb cr cx cm cv ck cd
    refine ⟨?_, ?_, ?_, ?_, ?_⟩ <;> rw [hnew] <;> omega
  | sweeps c n x hc hpt hk hs hcount hn =>
    obtain ⟨sl, sx, sd, sr⟩ := run.sameCalls_of_goes h (.inl (by rw [hn]; exact hk)) a.pool
    have hhands := run.length_inHands_of_sweep hr h hc hpt hn
    have hstray := hsame (h.isStray_of_returns (Point.returns_of_sweeps hpt) _)
    refine ⟨?_, ?_, ?_, ?_, ?_⟩ <;> rw [hnew, hcount] <;> omega
  | reclaims n hret hp hs0 hs =>
    obtain ⟨cb, cr, cx, cm, cv, ck, cd⟩ := hs.calm
    obtain ⟨⟨sl, sx, sd, sr⟩, hhands⟩ := run.sameCalls_of_passes hr h hs hret hp
    have hleft := hs.seized
    have hstray := hsame (h.isStray_of_returns hret _)
    dsimp only at cb cr cx cm cv ck cd
    refine ⟨?_, ?_, ?_, ?_, ?_⟩ <;> rw [hnew] <;> omega

/-- A stretch of another call leaves the pool `i` with what it has counted, or one more return is
    refused. -/
theorem Accounts.spares (ih : Accounts es w i) (h : w.Spares f.world i) {n : Nat}
    (hc : f.world.countersOf i =
      { w.countersOf i with invalidReturns := (w.countersOf i).invalidReturns + n })
    (hstray : Episode.isStray i ⟨w, e, f⟩ = false)
    (sl : replied (Event.borrowsFrom i) Reply.isLoan (⟨w, e, f⟩ :: es) f.world =
      replied (Event.borrowsFrom i) Reply.isLoan es w)
    (sx : replied (Event.borrowsFrom i) Reply.isExhausted (⟨w, e, f⟩ :: es) f.world =
      replied (Event.borrowsFrom i) Reply.isExhausted es w)
    (sd : replied (Event.invalidatesAt i) Reply.isDisposal (⟨w, e, f⟩ :: es) f.world =
      replied (Event.invalidatesAt i) Reply.isDisposal es w)
    (sr : replied (Event.returnsTo i) Reply.isRefusal (⟨w, e, f⟩ :: es) f.world =
      replied (Event.returnsTo i) Reply.isRefusal es w + n) :
    Accounts (⟨w, e, f⟩ :: es) f.world i := by
  have hcount : (⟨w, e, f⟩ :: es).countP (Episode.isStray i) = es.countP (Episode.isStray i) :=
    List.countP_cons_of_neg (Bool.eq_false_iff.mp hstray)
  obtain ⟨ihb, ihx, ihbal, ihm, ihd⟩ := ih
  constructor
  · rw [hc, sl]
    exact ihb
  · rw [hc, sx]
    exact ihx
  · rw [hc, sd, h.inHands, h.seized]
    exact ihbal
  · rw [hc, sr, hcount]
    show (w.countersOf i).invalidReturns + n = _
    omega
  · rw [hc]
    exact ihd

/-- What a call adds that begins: a return that is refused at once. -/
theorem due_of_borrows (reply : Reply → Bool) (i j : Nat) :
    due (Event.borrowsFrom i) reply e (e.errand j) = 0 := by
  unfold due
  by_cases hb : e.borrowsFrom i = true
  · rw [Event.errand_of_borrows hb, show Errand.borrow.reply? = none from rfl, Option.any_none,
      Bool.and_false]
    rfl
  · exact if_neg fun h => hb (Bool.and_eq_true_iff.mp h).1

theorem due_of_invalidates (i j : Nat) :
    due (Event.invalidatesAt i) Reply.isDisposal e (e.errand j) = 0 := by
  unfold due
  by_cases hb : e.invalidatesAt i = true
  · have hno : (e.errand j).reply?.any Reply.isDisposal = false := by
      rw [Event.errand_of_invalidates hb]
      split <;> rfl
    rw [hno, Bool.and_false]
    rfl
  · exact if_neg fun h => hb (Bool.and_eq_true_iff.mp h).1

theorem due_of_returns (i j : Nat) : due (Event.returnsTo i) Reply.isRefusal e (e.errand j) =
    if e.returnsTo i = true ∧ j ≠ i then 1 else 0 := by
  unfold due
  refine if_congr ?_ rfl rfl
  rw [Bool.and_eq_true]
  refine and_congr_right fun hb => ?_
  rcases Event.errand_of_returns hb j with hk | hk <;>
  · rw [hk]
    by_cases hi : i = j
    · rw [if_pos hi]
      exact ⟨fun h => (by cases h), fun h => absurd hi.symm h⟩
    · rw [if_neg hi]
      exact ⟨fun _ => Ne.symm hi, fun _ => rfl⟩

/-- In an event the pool `i` counts what the calls on it have come to. -/
theorem Run.accounts_next (run : Run es w) (hr : w.react e = some f) (ih : Accounts es w i) :
    Accounts (⟨w, e, f⟩ :: es) f.world i := by
  rcases World.react_works hr with ⟨hspares, hcall⟩ | ⟨t, a, q, s, h⟩
  · have hstray : Episode.isStray i ⟨w, e, f⟩ = false := by
      unfold Episode.isStray
      rw [hcall]
    rcases World.react_opens hr with ⟨hopens, hidle⟩ | ⟨t, a, q, s, h⟩
    · rcases run.replied_opens hopens hidle with ⟨hc, hset⟩ | ⟨j, -, hc, hset⟩
      · exact ih.spares (hspares i) (n := 0) (hc i) hstray (hset _ _) (hset _ _) (hset _ _)
          (hset _ _)
      · refine ih.spares (hspares i) (n := if e.returnsTo i = true ∧ j ≠ i then 1 else 0) ?_ hstray
          ?_ ?_ ?_ ?_
        · rw [hc]
          split <;> rfl
        · rw [hset, due_of_borrows]
          rfl
        · rw [hset, due_of_borrows]
          rfl
        · rw [hset, due_of_invalidates]
          rfl
        · rw [hset, due_of_returns]
    · exact nomatch hcall.symm.trans h.call
  · by_cases hi : a.pool = i
    · subst hi
      exact run.accounts_works hr h ih
    · have hc : f.world.countersOf i = w.countersOf i := (h.countersOf i).trans (if_neg hi)
      have hstray : Episode.isStray i ⟨w, e, f⟩ = false := by
        refine Bool.not_eq_true _ |>.mp fun hs => ?_
        unfold Episode.isStray at hs
        rw [h.call] at hs
        obtain ⟨pool, point⟩ := a
        cases point with
        | takeBack id answer =>
          cases answer with
          | none => cases hs
          | some r => exact hi (of_decide_eq_true (Bool.and_eq_true_iff.mp hs).1)
        | _ => cases hs
      obtain ⟨sl, sx, sd, sr⟩ := run.sameCalls_elsewhere h hi
      exact ih.spares (h.spares (Ne.symm hi)) (n := 0) hc hstray sl sx sd sr

/-- At every moment of a run a pool has counted what the calls on it have come to. -/
theorem Run.accounts (run : Run es w) (i : Nat) : Accounts es w i := by
  induction run with
  | start => exact ⟨rfl, rfl, rfl, rfl, Nat.le_refl 0⟩
  | next run hr ih => exact run.accounts_next hr ih

/-! ## The counters when no call is on its way -/

theorem World.mem_points_of_stackOf (h : a ∈ w.stackOf t) : a.point ∈ w.points a.pool := by
  cases hth : w.threads[t]? with
  | none =>
    rw [World.stackOf, hth] at h
    exact absurd h List.not_mem_nil
  | some th =>
    rw [World.stackOf_eq hth] at h
    exact World.mem_points.mpr ⟨th, List.mem_of_getElem? hth, h⟩

/-- If each call on its way waits for an object, those with a reply have ended. -/
theorem replied_of_quiet (hq : ∀ j, w.Quiet j) (began : Event ρ → Bool) (reply : Reply → Bool) :
    replied began reply es w = answered began reply es := by
  refine Nat.add_eq_left.mpr (Finset.sum_eq_zero fun t _ => List.countP_eq_zero.mpr ?_)
  rintro ⟨o, a⟩ hx
  have hstack : a ∈ w.stackOf t := (List.of_mem_zip hx).2
  obtain ⟨b, n, hb⟩ := hq a.pool a.point (World.mem_points_of_stackOf hstack)
  show ¬ (began o && a.point.errand.reply?.any reply) = true
  rw [hb, show (Point.waiting (ρ := ρ) b n).errand.reply? = none from rfl, Option.any_none,
    Bool.and_false]
  exact Bool.false_ne_true

/-- If no call is on its way, borrowers have the objects that are listed as lent. -/
theorem World.Quiet.inHands (hq : w.Quiet i) : w.inHands i = w.activeOf i := by
  unfold World.inHands
  rw [hq.flatMap_eq_nil fun _ _ => rfl]
  exact List.filter_eq_self.mpr fun _ _ => rfl

/-- What the counters of the pool `i`, which is `p`, say about the calls that have ended and about
    the objects that are lent. -/
structure Balanced (es : List (Episode ρ)) (i : Nat) (p : Pool ρ) : Prop where
  /-- What was lent came back, was taken away from its borrower, was destroyed on request, or is
      lent still. -/
  balance : p.counters.borrowed = p.counters.returned + p.counters.abandoned +
    answered (Event.invalidatesAt i) Reply.isDisposal es + p.status.active
  /-- As many were lent as borrows have ended with an object. -/
  borrowed : p.counters.borrowed = answered (Event.borrowsFrom i) Reply.isLoan es
  exhausted : p.counters.exhausted = answered (Event.borrowsFrom i) Reply.isExhausted es
  /-- A return is refused to the caller that asks for it, or the object that comes back without a
      word, or from another pool, is one that the pool has taken away from its borrower. -/
  invalidReturns : p.counters.invalidReturns =
    answered (Event.returnsTo i) Reply.isRefusal es + es.countP (Episode.isStray i)
  destroyed : p.counters.evicted + p.counters.abandoned ≤ p.counters.destroyed

/-- Whenever each call on its way waits for an object, the counters of a pool balance. -/
theorem counters_balanced (run : Run es w) (hq : ∀ j, w.Quiet j) {p : Pool ρ}
    (hp : w.pools[i]? = some p) : Balanced es i p := by
  have h := run.accounts i
  have hcounters : w.countersOf i = p.counters := World.countersOf_eq hp
  have hactive : (w.inHands i).length = p.status.active := by
    rw [(hq i).inHands, World.activeOf_eq hp]
    rfl
  have hseized : w.seized i = 0 := by
    rw [World.seized, (hq i).flatMap_eq_nil fun _ _ => rfl]
    rfl
  obtain ⟨hb, hx, hbal, hm, hd⟩ := h
  rw [hcounters] at hb hx hbal hm hd
  rw [replied_of_quiet hq] at hb hx hbal hm
  rw [hactive, hseized] at hbal
  exact ⟨hbal, hb, hx, hm, hd⟩

end Runs

/-- Six objects are lent by a pool that may have two. The first comes back and is lent again to be
    destroyed, the next two are taken away from their borrowers and come back all the same, one of
    them by way of another pool. Two borrowers find nothing, and one of them waits. -/
def accountEvents : List (Event Nat) :=
  [.create { maxTotal := 2, abandonment := some { onUpkeep := true, timeout := ⟨10⟩ } },
    .create {}, .spawn, .spawn, .spawn,
    .begin 0 0 (.borrow none "first"), .step 0, .step 0, .answer 0 (.created (.ok 7)),
    .answer 0 (.activated 7 none),
    .begin 1 0 (.borrow none "second"), .step 1, .step 1, .answer 1 (.created (.ok 8)),
    .answer 1 (.activated 8 none),
    .begin 2 0 (.borrow (some ⟨0⟩) "third"), .step 2, .step 2,
    .giveBack 0 0 0, .step 0, .answer 0 (.passivated 7 none),
    .begin 0 0 (.borrow none "fourth"), .step 0, .step 0, .answer 0 (.activated 7 none),
    .invalidate 0 0 2, .step 0, .answer 0 (.destroyed none),
    .begin 0 0 (.borrow none "fifth"), .step 0, .step 0, .answer 0 (.created (.ok 9)),
    .answer 0 (.activated 9 none), .tick ⟨20⟩,
    .begin 2 0 .maintain, .step 2, .step 2, .step 2, .answer 2 (.destroyed none),
    .step 2, .answer 2 (.destroyed none), .step 2, .step 2,
    .giveBack 0 1 1, .step 0, .giveBack 0 0 3, .step 0,
    .begin 0 0 (.borrow none "sixth"), .step 0, .step 0, .answer 0 (.created (.ok 5)),
    .answer 0 (.activated 5 none),
    .begin 1 0 (.borrow none "seventh"), .step 1, .step 1, .answer 1 (.created (.ok 6)),
    .answer 1 (.activated 6 none),
    .begin 2 0 (.borrow none "eighth"), .step 2, .step 2]

theorem counters_balanced_of_both :
    ∃ p q, Run (episodes accountEvents) (reached accountEvents) ∧
      (∀ j, (reached accountEvents).Quiet j) ∧
      (reached accountEvents).pools[0]? = some p ∧ (reached accountEvents).pools[1]? = some q ∧
      p.counters =
        { created := 5, destroyed := 3, borrowed := 6, returned := 1, abandoned := 2,
          invalidReturns := 2, exhausted := 1 } ∧
      p.status = { active := 2, idle := 0, waiters := 1, maxTotal := 2 } ∧
      answered (Event.invalidatesAt 0) Reply.isDisposal (episodes accountEvents) = 1 ∧
      (episodes accountEvents).countP (Episode.isStray 0) = 1 ∧
      q.counters = { invalidReturns := 1 } ∧
      Balanced (episodes accountEvents) 0 p ∧ Balanced (episodes accountEvents) 1 q := by
  have hq : ∀ j, (reached accountEvents).Quiet j := by
    intro j pt hpt
    obtain ⟨th, hth, ha⟩ := World.mem_points.mp hpt
    have hone : (reached accountEvents).activities =
        [⟨0, .waiting { timeout := none, site := "eighth" } 0⟩] := rfl
    have hin := List.mem_flatMap.mpr ⟨th, hth, ha⟩
    rw [← World.activities, hone] at hin
    exact ⟨_, _, congrArg Activity.point (List.mem_singleton.mp hin)⟩
  refine ⟨_, _, Run.of_events rfl, hq, rfl, rfl, by decide +kernel, by decide +kernel,
    by decide +kernel, by decide +kernel, by decide +kernel, ?_, ?_⟩
  · exact counters_balanced (Run.of_events rfl) hq rfl
  · exact counters_balanced (Run.of_events rfl) hq rfl

end ObjectPool
