/-
  ObjectPool.Proofs.Origins

  How the calls of a run began, and with which replies they ended. The calls on a thread are
  listed with the events with which they began. From that event one knows what a call is
  about, until it is settled; then it has a reply, with which it ends sooner or later.

    * `origins`, `ended` — how the calls on a thread began, and which calls have ended.
    * `Event.Course` — what a call is about that began with an event.
    * `replied` — the calls that have their reply, whether they have ended yet or not.
    * `Run.replied_works` — how many there are of a kind once a call has run for a stretch.
-/

import Mathlib.Algebra.BigOperators.Group.Finset.Basic
import ObjectPool.Proofs.Calls
import ObjectPool.Proofs.Stretch.Counts

namespace ObjectPool

variable {ρ : Type}

/-! ## How calls begin -/

namespace Event

/-- Whether a borrow from the pool `i` begins. -/
def borrowsFrom (i : Nat) : Event ρ → Bool
  | .begin _ p (.borrow _ _) => decide (p = i)
  | _ => false

/-- Whether an object is to be destroyed by the pool `i`. -/
def invalidatesAt (i : Nat) : Event ρ → Bool
  | .invalidate _ p _ => decide (p = i)
  | _ => false

/-- Whether an object is returned to the pool `i`, to be kept or to be destroyed. -/
def returnsTo (i : Nat) : Event ρ → Bool
  | .giveBack _ p _ | .invalidate _ p _ => decide (p = i)
  | _ => false

/-- What a call on the pool `i` is about that begins with an event. The return of an object that
    another pool has lent is settled from the start. -/
def errand (i : Nat) : Event ρ → Errand
  | .begin _ _ (.borrow _ _) => .borrow
  | .giveBack _ p _ => if p = i then .giveBack else .settled (.failed .invalidReturn)
  | .invalidate _ p _ => if p = i then .invalidate else .settled (.failed .invalidReturn)
  | .letGo _ _ | .drop _ _ => .settled .done
  | _ => .other

variable {i j : Nat} {e : Event ρ}

theorem errand_giveBack (t p n j : Nat) : (giveBack (ρ := ρ) t p n).errand j =
    if p = j then .giveBack else .settled (.failed .invalidReturn) := rfl

theorem errand_invalidate (t p n j : Nat) : (invalidate (ρ := ρ) t p n).errand j =
    if p = j then .invalidate else .settled (.failed .invalidReturn) := rfl

theorem errand_of_borrows (h : e.borrowsFrom i = true) (j : Nat) : e.errand j = .borrow := by
  cases e with
  | begin t p o =>
    cases o with
    | borrow => rfl
    | _ => cases h
  | _ => cases h

theorem errand_of_invalidates (h : e.invalidatesAt i = true) (j : Nat) : e.errand j =
    if i = j then .invalidate else .settled (.failed .invalidReturn) := by
  cases e with
  | invalidate t p n =>
    obtain rfl : p = i := of_decide_eq_true h
    rfl
  | _ => cases h

theorem errand_of_returns (h : e.returnsTo i = true) (j : Nat) :
    e.errand j = (if i = j then .giveBack else .settled (.failed .invalidReturn)) ∨
      e.errand j = if i = j then .invalidate else .settled (.failed .invalidReturn) := by
  cases e with
  | giveBack t p n =>
    obtain rfl : p = i := of_decide_eq_true h
    exact .inl rfl
  | invalidate t p n =>
    obtain rfl : p = i := of_decide_eq_true h
    exact .inr rfl
  | _ => cases h

theorem borrows_of_errand (h : e.errand j = .borrow) : ∃ i, e.borrowsFrom i = true := by
  cases e with
  | begin t p o =>
    cases o with
    | borrow => exact ⟨p, decide_eq_true rfl⟩
    | _ => cases h
  | giveBack t p n =>
    rw [errand_giveBack] at h
    split at h <;> cases h
  | invalidate t p n =>
    rw [errand_invalidate] at h
    split at h <;> cases h
  | _ => cases h

theorem returns_of_errand (h : e.errand j = .giveBack) : e.returnsTo j = true := by
  cases e with
  | giveBack t p n =>
    rw [errand_giveBack] at h
    split at h
    · rename_i hp
      exact decide_eq_true hp
    · cases h
  | invalidate t p n =>
    rw [errand_invalidate] at h
    split at h <;> cases h
  | begin t p o => cases o <;> cases h
  | _ => cases h

theorem invalidates_of_errand (h : e.errand j = .invalidate) :
    e.invalidatesAt j = true ∧ e.returnsTo j = true := by
  cases e with
  | giveBack t p n =>
    rw [errand_giveBack] at h
    split at h <;> cases h
  | invalidate t p n =>
    rw [errand_invalidate] at h
    split at h
    · rename_i hp
      exact ⟨decide_eq_true hp, decide_eq_true hp⟩
    · cases h
  | begin t p o => cases o <;> cases h
  | _ => cases h

end Event

namespace Errand

/-- The reply of a call that is settled. -/
def reply? : Errand → Option Reply
  | .settled r => some r
  | _ => none

/-- A call stays with what it is about until it is settled, and then for good. -/
def Leads (k k' : Errand) : Prop := k' = k ∨ k.reply? = none ∧ ∃ r, k' = .settled r

theorem Leads.refl (k : Errand) : k.Leads k := .inl rfl

theorem Leads.settle {k : Errand} (h : k.reply? = none) (r : Reply) : k.Leads (.settled r) :=
  .inr ⟨h, r, rfl⟩

theorem Leads.trans {k k' k'' : Errand} (h : k.Leads k') (h' : k'.Leads k'') : k.Leads k'' := by
  rcases h with rfl | ⟨hk, r, rfl⟩
  · exact h'
  · rcases h' with rfl | ⟨hno, -⟩
    · exact .settle hk r
    · cases hno

/-- What is not settled was so from the start. -/
theorem Leads.eq_of_open {k k' : Errand} (h : k.Leads k') (hk : k'.reply? = none) : k' = k := by
  rcases h with rfl | ⟨-, r, rfl⟩
  · rfl
  · cases hk

theorem Goes.leads {k k' : Errand} (h : k.Goes k') : k.Leads k' := by
  rcases h with rfl | ⟨r, rfl, hs⟩
  · exact .refl _
  · refine .settle ?_ r
    cases k with
    | settled r' => cases hs
    | _ => rfl

end Errand

/-- A call to which an object comes back that is not lent any more gives its own reply, or it is
    about the return of the object. -/
theorem Point.refusal_cases {pt : Point ρ} {id : Nat} (h : pt.returns = [id]) :
    (∃ r, pt = .takeBack id (some r) ∧ pt.refusal = r) ∨
      pt.refusal = .failed .invalidReturn ∧ (pt = .takeBack id none ∨ pt = .discard id) := by
  cases pt with
  | takeBack x answer =>
    obtain rfl : x = id := (List.cons.inj h).1
    cases answer with
    | some r => exact .inl ⟨r, rfl, rfl⟩
    | none => exact .inr ⟨rfl, .inl rfl⟩
  | discard x =>
    obtain rfl : x = id := (List.cons.inj h).1
    exact .inr ⟨rfl, .inr rfl⟩
  | _ => cases h

/-- A call stays with what it is about in a stretch, or is settled. -/
theorem Stretch.Counts.leads {p : Pool ρ} {now : Instant} {pt : Point ρ} {s : Stretch ρ}
    (h : s.Counts p now pt) : pt.errand.Leads s.next.errand := by
  cases h with
  | passes h | evicts _ _ h | reclaims _ _ _ _ h => exact h.goes.leads
  | lends id hk _ _ _ hn | exhausts id hk _ _ hn =>
    rw [hk, hn]
    exact .settle rfl _
  | takesBack id answer hpt hid h => exact h.goes.leads
  | discards id hpt hid h hs hn =>
    rw [hpt]
    rcases hn with hn | hn <;>
    · rw [hn]
      exact .settle rfl _
  | refuses id hpt hid h hn =>
    rw [hn]
    rcases Point.refusal_cases hpt with ⟨r, rfl, -⟩ | ⟨-, rfl | rfl⟩
    · exact .refl _
    · exact .settle rfl _
    · exact .settle rfl _
  | sweeps a n w _ _ hk _ _ hn =>
    rw [hn]
    exact .inl hk

/-- What a call on its way is about that began with an event. -/
structure Event.Course (e : Event ρ) (a : Activity ρ) : Prop where
  pool : ∀ i, e.borrowsFrom i = true → a.pool = i
  errand : (e.errand a.pool).Leads a.point.errand

/-- One more return is refused. -/
def Counters.refuse (c : Counters) : Counters := { c with invalidReturns := c.invalidReturns + 1 }

namespace World

variable {w w' : World ρ} {e : Event ρ} {f : Effect ρ} {t u p i n : Nat} {a b : Activity ρ}
  {q : Pool ρ} {s : Stretch ρ} {x : Handle}

/-- What the pool `i` has counted. -/
def countersOf (w : World ρ) (i : Nat) : Counters := ((w.pools[i]?).map (·.counters)).getD {}

theorem countersOf_eq (hq : w.pools[i]? = some q) : w.countersOf i = q.counters := by
  rw [countersOf, hq]
  rfl

/-- A new pool has counted nothing. -/
theorem countersOf_append (hq : q.counters = {}) (hw : w'.pools = w.pools ++ [q]) (i : Nat) :
    w'.countersOf i = w.countersOf i := by
  unfold countersOf
  rw [hw]
  by_cases hlt : i < w.pools.length
  · rw [List.getElem?_append_left hlt]
  · rw [List.getElem?_append_right (Nat.le_of_not_lt hlt),
      List.getElem?_eq_none_iff.mpr (Nat.le_of_not_lt hlt)]
    cases i - w.pools.length with
    | zero => exact hq
    | succ k => rfl

/-- A change to a pool that counts nothing. -/
theorem countersOf_onPool {v : Pool ρ → Pool ρ} (hv : ∀ q, (v q).counters = q.counters)
    (p i : Nat) : (w.onPool p v).countersOf i = w.countersOf i := by
  unfold countersOf
  by_cases hi : i = p
  · subst hi
    cases hq : w.pools[i]? with
    | none =>
      have hnone : (w.onPool i v).pools[i]? = none := by
        show (w.pools.modify i v)[i]? = none
        rw [List.getElem?_modify, hq]
        rfl
      rw [hnone]
    | some q =>
      rw [pools_onPool_self hq]
      exact hv q
  · rw [pools_onPool_of_ne hi]

theorem countersOf_forsake (w : World ρ) (t p i : Nat) (r : Reply) :
    (w.forsake t p r).world.countersOf i = w.countersOf i := by
  rcases forsake_cases w t p r with ⟨q, -, -, hlast⟩ | ⟨-, hmore⟩
  · rw [hlast]
    exact countersOf_onPool (v := fun q => { q with gone := true }) (fun _ => rfl) p i
  · rw [hmore]

/-- A pool that refuses a return counts it. -/
theorem countersOf_refuse (hq : w.pools[p]? = some q) (i : Nat) :
    (w.onPool p fun q => (q.refuseReturn .done).pool).countersOf i =
      if p = i then (w.countersOf i).refuse else w.countersOf i := by
  unfold countersOf
  by_cases hi : i = p
  · subst hi
    rw [pools_onPool_self hq, hq, if_pos rfl]
    rfl
  · rw [pools_onPool_of_ne hi, if_neg (Ne.symm hi)]

theorem trackUse_counters (q : Pool ρ) (now : Instant) (id : Nat) (site : String) :
    (q.trackUse now id site).counters = q.counters := by
  unfold Pool.trackUse
  split
  · split <;> rfl
  · rfl

/-- What an event of the callers, or the thread of a background upkeep, does to the calls and to
    the counters: nothing, or a call begins. If an object is returned to a pool that has not lent
    it, that pool counts this at once. -/
inductive Opens (w : World ρ) (e : Event ρ) (f : Effect ρ) : Prop
  | rests (hs : ∀ u, f.world.stackOf u = w.stackOf u)
      (hc : ∀ i, f.world.countersOf i = w.countersOf i)
  | begins (t : Nat) (b : Activity ρ)
      (hs : ∀ u, f.world.stackOf u = if t = u then b :: w.stackOf u else w.stackOf u)
      (hb : b.point.errand = e.errand b.pool) (hp : ∀ i, e.borrowsFrom i = true → b.pool = i)
      (hc : ∀ i, f.world.countersOf i =
        if e.returnsTo i = true ∧ b.pool ≠ i then (w.countersOf i).refuse else w.countersOf i)

theorem Opens.of_push (hth : ∃ th, w.threads[t]? = some th)
    (hb : b.point.errand = e.errand b.pool) (hp : ∀ i, e.borrowsFrom i = true → b.pool = i)
    (hc : ∀ i, f.world.countersOf i =
      if e.returnsTo i = true ∧ b.pool ≠ i then (w.countersOf i).refuse else w.countersOf i)
    (hs : ∀ u, f.world.stackOf u = (w.push t b).stackOf u) : w.Opens e f :=
  .begins t b (fun u => (hs u).trans (stackOf_push hth b u)) hb hp hc

/-- A thread that gives up a reference to a pool may have to close it. -/
theorem opens_forsake (hth : ∃ th, w.threads[t]? = some th) (hs : ∀ u, w.stackOf u = w'.stackOf u)
    (hc : ∀ i, w.countersOf i = w'.countersOf i) :
    w'.Opens (.drop t p) (w.forsake t p .done) := by
  rcases forsake_cases w t p .done with ⟨q, -, -, hlast⟩ | ⟨-, hmore⟩
  · rw [hlast]
    refine .begins t ⟨p, .close (.release .done)⟩ (fun u => ?_) rfl (fun i hi => nomatch hi)
      fun i => ?_
    · rw [stackOf_push (w := w.markGone p) hth, ← hs]
      rfl
    · rw [if_neg fun h => nomatch h.1]
      exact (countersOf_onPool (v := fun q => { q with gone := true }) (fun _ => rfl) p i).trans
        (hc i)
  · rw [hmore]
    exact .rests hs hc

/-- A pool that has not lent an object refuses it, and the object goes back to the pool that has. -/
theorem opens_foreign {x : Handle} {n : Nat} (hth : ∃ th, w.threads[t]? = some th)
    (hq : w.pools[p]? = some q) (hp : x.pool ≠ p) (hret : ∀ i, e.returnsTo i = decide (p = i))
    (hno : ∀ i, e.borrowsFrom i = false)
    (he : e.errand x.pool = .settled (.failed .invalidReturn))
    (hf : f.world = ((w.surrender n).onPool p fun q => (q.refuseReturn .done).pool).push t
      ⟨x.pool, .takeBack x.object (some (.failed .invalidReturn))⟩) : w.Opens e f := by
  refine .of_push (w := w) (b := ⟨x.pool, .takeBack x.object (some (.failed .invalidReturn))⟩)
    hth he.symm (fun i hi => ?_) (fun i => ?_) fun u => ?_
  · rw [hno i] at hi
    cases hi
  · rw [hf, hret i]
    refine (countersOf_refuse (w := w.surrender n) hq i).trans ?_
    by_cases hi : p = i
    · subst hi
      rw [if_pos rfl, if_pos ⟨decide_eq_true rfl, hp⟩]
      rfl
    · rw [if_neg hi, if_neg fun h => hi (of_decide_eq_true h.1)]
      rfl
  · rw [hf]
    rfl

theorem Called.opens (hc : w.Called e f) : w.Opens e f := by
  have hsame : ∀ {v : Pool ρ → Pool ρ} {p : Nat}, (∀ q, (v q).counters = q.counters) →
      ∀ i, (w.onPool p v).countersOf i = w.countersOf i := fun hv i => countersOf_onPool hv _ i
  cases hc with
  | tick _ | notCreated _ | noAccess _ _ | noLock _ _ => exact .rests (fun _ => rfl) fun _ => rfl
  | spawn =>
    have hnew : ∀ th ∈ [({} : Thread ρ)], th.stack = [] := by simp
    exact .rests (stackOf_append hnew rfl) fun _ => rfl
  | create hw =>
    obtain ⟨keeper, ths, hths, rfl⟩ := create_cases hw
    exact .rests (stackOf_append hths rfl)
      (countersOf_append (q := { Pool.new _ with keeper }) rfl rfl)
  | clone _ _ =>
    exact .rests (fun _ => rfl)
      (hsame (v := fun q => { q with clones := q.clones + 1 }) fun _ => rfl)
  | @drop t p _ _ _ ht =>
    exact opens_forsake (w := w.onPool p fun q => { q with clones := q.clones - 1 })
      (thread_of_isFree ht) (fun _ => rfl)
      (hsame (v := fun q => { q with clones := q.clones - 1 }) fun _ => rfl)
  | @begin t p _ o _ _ ht =>
    refine .of_push (b := ⟨p, o.point⟩) (thread_of_isFree ht) ?_ (fun i hi => ?_) (fun i => ?_)
      fun _ => rfl
    · cases o <;> rfl
    · cases o with
      | borrow timeout site => exact of_decide_eq_true hi
      | _ => cases hi
    · exact (if_neg fun h => nomatch h.1).symm
  | @giveBack t p n q x hq _ ht _ _ =>
    unfold World.giveBack
    dsimp only
    split
    · rename_i hp
      refine .of_push (w := w) (b := ⟨p, .takeBack x.object none⟩) (thread_of_isFree ht) ?_
        (fun i hi => nomatch hi) (fun i => ?_) fun _ => rfl
      · exact (if_pos rfl).symm
      · exact (if_neg fun h => h.2 (of_decide_eq_true h.1)).symm
    · rename_i hp
      exact opens_foreign (thread_of_isFree ht) hq hp (fun _ => rfl) (fun _ => rfl)
        (if_neg (Ne.symm hp)) rfl
  | @invalidate t p n q x hq _ ht _ _ =>
    unfold World.invalidate
    dsimp only
    split
    · rename_i hp
      refine .of_push (w := w) (b := ⟨p, .discard x.object⟩) (thread_of_isFree ht) ?_
        (fun i hi => nomatch hi) (fun i => ?_) fun _ => rfl
      · exact (if_pos rfl).symm
      · exact (if_neg fun h => h.2 (of_decide_eq_true h.1)).symm
    · rename_i hp
      exact opens_foreign (thread_of_isFree ht) hq hp (fun _ => rfl) (fun _ => rfl)
        (if_neg (Ne.symm hp)) rfl
  | @letGo t n x ht _ _ =>
    exact .of_push (w := w) (b := ⟨x.pool, .takeBack x.object (some .done)⟩) (thread_of_isFree ht)
      rfl (fun i hi => nomatch hi) (fun i => (if_neg fun h => nomatch h.1).symm) fun _ => rfl
  | @access _ x site c r _ _ _ =>
    exact .rests (fun _ => rfl) (hsame (v := fun q =>
      (q.trackUse w.now x.object site).letGo x.object (c r)) fun q => trackUse_counters q _ _ _)
  | @lock _ x site _ _ _ _ =>
    exact .rests (fun _ => rfl) (hsame (v := fun q =>
      (q.trackUse w.now x.object site).hold x.object) fun q => trackUse_counters q _ _ _)
  | @unlock _ x c r _ _ _ =>
    exact .rests (fun _ => rfl) (hsame (v := Pool.letGo x.object (c r)) fun _ => rfl)
  | @markUsed _ x site _ =>
    refine .rests (fun _ => rfl) (hsame fun q => ?_)
    split
    · exact trackUse_counters q _ _ _
    · rfl

theorem opens_keeperStep {k : Keeper} (hth : ∃ th, w.threads[t]? = some th)
    (hk : w.keeperStep t k = some f) : w.Opens (.step t) f := by
  obtain ⟨th, hth⟩ := hth
  have henter : ∀ phase u, (w.enter t k phase).stackOf u = w.stackOf u := by
    intro phase u
    rw [enter, stackOf_onThread hth]
    split
    · rename_i htu
      subst htu
      exact (stackOf_eq hth).symm
    · rfl
  obtain ⟨world, notices, reply⟩ := f
  rcases (keeperStep_cases hk).2 with ⟨phase, hf⟩ | ⟨q, -, hf⟩
  · obtain rfl : world = _ := hf
    exact .rests (henter phase) fun _ => rfl
  · obtain rfl : world = _ := hf
    refine .begins t ⟨k.pool, .upkeep⟩ (fun u => ?_) rfl (fun i hi => ?_)
      fun i => (if_neg fun h => ?_).symm
    · refine (stackOf_push (w := w.enter t k .working) ⟨_, getElem?_onThread hth _⟩ _ u).trans ?_
      rw [henter]
    · cases hi
    · cases h.1

/-- What a call has counted once it has run for a stretch. -/
theorem Works.countersOf (h : w.Works e f t a q s) (i : Nat) :
    f.world.countersOf i = if a.pool = i then s.pool.counters else w.countersOf i := by
  have hpool : (w.onPool a.pool fun _ => s.pool).countersOf i =
      if a.pool = i then s.pool.counters else w.countersOf i := by
    by_cases hi : i = a.pool
    · subst hi
      rw [if_pos rfl]
      exact countersOf_eq (pools_onPool_self h.pool fun _ => s.pool)
    · rw [if_neg (Ne.symm hi)]
      unfold World.countersOf
      rw [pools_onPool_of_ne hi]
  rw [h.effect, ← hpool]
  cases hn : s.next with
  | go pt =>
    rw [apply_go hn]
    rfl
  | finish r =>
    rw [apply_finish hn]
    exact countersOf_forsake _ t a.pool i r

theorem Works.counts (h : w.Works e f t a q s) : s.Counts q w.now a.point := by
  rcases h.runs with ⟨-, hadv⟩ | ⟨c, -, hrsp⟩
  · exact Pool.advance_counts hadv
  · exact Pool.respond_counts hrsp

/-- In every event no call ends and one begins at most, or a call runs for a stretch. -/
theorem react_opens (hr : w.react e = some f) :
    (w.Opens e f ∧ ∀ t, Episode.thread? ⟨w, e, f⟩ = some t → w.stackOf t = []) ∨
      ∃ t a q s, w.Works e f t a q s := by
  cases react_happens hr with
  | called hc => exact .inl ⟨hc.opens, fun t ht => nomatch hc.thread?.symm.trans ht⟩
  | keeps event hth hidle hk =>
    subst event
    refine .inl ⟨opens_keeperStep ⟨_, hth⟩ hk, fun u hu => ?_⟩
    obtain rfl := Option.some.inj hu
    exact (stackOf_eq hth).trans hidle
  | works h => exact .inr ⟨_, _, _, _, h⟩

end World

/-! ## The calls of a run -/

/-- The events with which the calls on the thread `t` began, that of the innermost first. -/
def origins (t : Nat) : List (Episode ρ) → List (Event ρ)
  | [] => []
  | e :: es =>
    if (e.before.stackOf t).length < (e.after.stackOf t).length then e.event :: origins t es
    else if (e.after.stackOf t).length < (e.before.stackOf t).length then (origins t es).tail
    else origins t es

/-- The calls that have ended, the latest first: the event with which each began, and its reply. -/
def ended : List (Episode ρ) → List (Event ρ × Reply)
  | [] => []
  | e :: es =>
    match e.thread?.bind fun t => (origins t es).head?, e.effect.reply with
    | some o, some r => (o, r) :: ended es
    | _, _ => ended es

/-- How many of the calls that have ended began with an event of a kind, and had a reply of a
    kind. -/
def answered (began : Event ρ → Bool) (reply : Reply → Bool) (es : List (Episode ρ)) : Nat :=
  (ended es).countP fun x => began x.1 && reply x.2

/-- How many calls on the thread `t` began with an event of a kind, and have a reply of a kind
    ready. -/
def pending (began : Event ρ → Bool) (reply : Reply → Bool) (es : List (Episode ρ)) (w : World ρ)
    (t : Nat) : Nat :=
  ((origins t es).zip (w.stackOf t)).countP fun x =>
    began x.1 && x.2.point.errand.reply?.any reply

/-- How many calls began with an event of a kind, and have ended with a reply of a kind or have it
    ready. -/
def replied (began : Event ρ → Bool) (reply : Reply → Bool) (es : List (Episode ρ)) (w : World ρ) :
    Nat :=
  answered began reply es + ∑ t ∈ Finset.range w.threads.length, pending began reply es w t

section Origins

variable {es : List (Episode ρ)} {w : World ρ} {e : Event ρ} {f : Effect ρ} {t : Nat}
  {a b : Activity ρ} {q : Pool ρ} {s : Stretch ρ} {began : Event ρ → Bool} {reply : Reply → Bool}

theorem origins_of_eq (h : f.world.stackOf t = w.stackOf t) :
    origins t (⟨w, e, f⟩ :: es) = origins t es := by
  rw [origins, show Episode.after ⟨w, e, f⟩ = f.world from rfl, h, if_neg (Nat.lt_irrefl _),
    if_neg (Nat.lt_irrefl _)]

theorem origins_of_push (h : f.world.stackOf t = b :: w.stackOf t) :
    origins t (⟨w, e, f⟩ :: es) = e :: origins t es := by
  rw [origins, show Episode.after ⟨w, e, f⟩ = f.world from rfl, h, List.length_cons,
    if_pos (Nat.lt_succ_self _)]

theorem origins_of_pop (h : w.stackOf t = b :: f.world.stackOf t) :
    origins t (⟨w, e, f⟩ :: es) = (origins t es).tail := by
  rw [origins, show Episode.after ⟨w, e, f⟩ = f.world from rfl, h, List.length_cons,
    if_neg (Nat.not_lt_of_lt (Nat.lt_succ_self _)), if_pos (Nat.lt_succ_self _)]

theorem origins_of_turn {rest : List (Activity ρ)} (h : w.stackOf t = a :: rest)
    (h' : f.world.stackOf t = b :: rest) : origins t (⟨w, e, f⟩ :: es) = origins t es := by
  rw [origins, show Episode.after ⟨w, e, f⟩ = f.world from rfl, h, h', List.length_cons,
    List.length_cons, if_neg (Nat.lt_irrefl _), if_neg (Nat.lt_irrefl _)]

theorem ended_of_rests (h : ∀ t, Episode.thread? ⟨w, e, f⟩ = some t → origins t es = []) :
    ended (⟨w, e, f⟩ :: es) = ended es := by
  have hnone : (Episode.thread? ⟨w, e, f⟩).bind (fun t => (origins t es).head?) = none := by
    cases ht : Episode.thread? ⟨w, e, f⟩ with
    | none => rfl
    | some t =>
      rw [Option.bind_some, h t ht]
      rfl
  rw [ended, hnone]

/-- After a turn the call on top of a thread is about what the turn has led to, or it has ended. -/
theorem World.Works.turned (h : w.Works e f t a q s) : ∃ rest, w.stackOf t = a :: rest ∧
    ((∃ b : Activity ρ, f.reply = none ∧ b.pool = a.pool ∧ b.point.errand = s.next.errand ∧
        f.world.stackOf t = b :: rest) ∨
      ∃ r, f.reply = some r ∧ s.next.errand = .settled r ∧ f.world.stackOf t = rest) := by
  obtain ⟨rest, hstack, hturn⟩ := h.stackOf
  refine ⟨rest, hstack, ?_⟩
  rcases hturn with ⟨pt, hn, hr, hnew⟩ | ⟨r, hn, ⟨hr, hnew⟩ | ⟨hr, -, -, hnew⟩⟩
  · exact .inl ⟨⟨a.pool, pt⟩, hr, rfl, by rw [hn]; rfl, hnew⟩
  · exact .inr ⟨r, hr, by rw [hn]; rfl, hnew⟩
  · exact .inl ⟨⟨a.pool, .close (.release r)⟩, hr, rfl, by rw [hn]; rfl, hnew⟩

/-- Each call on a thread is about what the event has asked for with which it began. -/
theorem Run.courses (h : Run es w) (t : Nat) :
    List.Forall₂ Event.Course (origins t es) (w.stackOf t) := by
  induction h with
  | start => exact .nil
  | @next es w e f run react ih =>
    rcases World.react_opens react with ⟨hopens, -⟩ | ⟨u, a, q, s, h⟩
    · cases hopens with
      | rests hs _ => rwa [origins_of_eq (hs t), hs]
      | begins u b hs hb hp _ =>
        have hst := hs t
        split at hst
        · rw [origins_of_push hst, hst]
          exact .cons ⟨hp, hb ▸ .refl _⟩ ih
        · rwa [origins_of_eq hst, hst]
    · by_cases hu : u = t
      · subst hu
        obtain ⟨rest, hstack, hturn⟩ := h.turned
        rw [hstack] at ih
        obtain ⟨o, os, ho, hos, horigins⟩ := List.forall₂_cons_right_iff.mp ih
        rcases hturn with ⟨b, -, hpool, hb, hnew⟩ | ⟨r, -, -, hnew⟩
        · rw [origins_of_turn hstack hnew, hnew, horigins]
          refine .cons ⟨fun i hi => hpool.trans (ho.pool i hi), ?_⟩ hos
          rw [hpool, hb]
          exact ho.errand.trans h.counts.leads
        · rw [origins_of_pop (hnew ▸ hstack), hnew, horigins]
          exact hos
      · have hsame := h.stackOf_of_ne hu
        rwa [origins_of_eq hsame, hsame]

/-! ## Calls that are settled -/

/-- Whether a call that began with the event `o` counts among those with a reply of a kind. -/
def due (began : Event ρ → Bool) (reply : Reply → Bool) (o : Event ρ) (k : Errand) : Nat :=
  if began o && k.reply?.any reply then 1 else 0

theorem pending_cons {o : Event ρ} {os : List (Event ρ)} {rest : List (Activity ρ)}
    (ho : origins t es = o :: os) (hs : w.stackOf t = a :: rest) :
    pending began reply es w t = (os.zip rest).countP (fun x =>
      began x.1 && x.2.point.errand.reply?.any reply) + due began reply o a.point.errand := by
  rw [pending, ho, hs, List.zip_cons_cons, List.countP_cons]
  rfl

theorem replied_eq {n : Nat} (hn : w.threads.length ≤ n) : replied began reply es w =
    answered began reply es + ∑ t ∈ Finset.range n, pending began reply es w t := by
  refine congrArg (_ + ·) (Finset.eventually_constant_sum (fun u hu => ?_) hn).symm
  -- there is no call on a thread that is not there
  rw [pending, World.stackOf, List.getElem?_eq_none_iff.mpr hu]
  simp

/-- If something changes on one thread alone, it is the change of the whole. -/
theorem replied_step {es' : List (Episode ρ)} {w' : World ρ} {x y : Nat}
    (hother : ∀ u, t ≠ u → pending began reply es' w' u = pending began reply es w u)
    (hhere : answered began reply es' + pending began reply es' w' t + x =
      answered began reply es + pending began reply es w t + y) :
    replied began reply es' w' + x = replied began reply es w + y := by
  -- both sums go over the same threads, as many as there are in either world
  obtain ⟨n, hle, hle', ht⟩ : ∃ n, w.threads.length ≤ n ∧ w'.threads.length ≤ n ∧ t < n :=
    ⟨w.threads.length + w'.threads.length + (t + 1), by omega, by omega, by omega⟩
  have hrest : ∑ u ∈ (Finset.range n).erase t, pending began reply es' w' u =
      ∑ u ∈ (Finset.range n).erase t, pending began reply es w u :=
    Finset.sum_congr rfl fun u hu => hother u (Finset.ne_of_mem_erase hu).symm
  rw [replied_eq hle, replied_eq hle', ← Finset.add_sum_erase _ _ (Finset.mem_range.mpr ht),
    ← Finset.add_sum_erase _ (pending began reply es w) (Finset.mem_range.mpr ht), hrest]
  omega

theorem pending_of_eq (h : f.world.stackOf t = w.stackOf t) :
    pending began reply (⟨w, e, f⟩ :: es) f.world t = pending began reply es w t := by
  rw [pending, pending, origins_of_eq h, h]

/-- If no call runs, nothing is settled but a call that begins with its reply. -/
theorem Run.replied_opens (run : Run es w) (hopens : w.Opens e f)
    (hidle : ∀ t, Episode.thread? ⟨w, e, f⟩ = some t → w.stackOf t = []) :
    ((∀ i, f.world.countersOf i = w.countersOf i) ∧ ∀ began reply,
        replied began reply (⟨w, e, f⟩ :: es) f.world = replied began reply es w) ∨
      ∃ j, (∀ i, e.borrowsFrom i = true → j = i) ∧
        (∀ i, f.world.countersOf i = if e.returnsTo i = true ∧ j ≠ i then
          (w.countersOf i).refuse else w.countersOf i) ∧
        ∀ began reply, replied began reply (⟨w, e, f⟩ :: es) f.world =
          replied began reply es w + due began reply e (e.errand j) := by
  have hended : ∀ began reply, answered began reply (⟨w, e, f⟩ :: es) =
      answered began reply es := by
    intro began reply
    unfold answered
    rw [ended_of_rests fun t ht => ?_]
    have hcourses := run.courses t
    rw [hidle t ht] at hcourses
    exact List.forall₂_nil_right_iff.mp hcourses
  cases hopens with
  | rests hs hc =>
    refine .inl ⟨hc, fun began reply => ?_⟩
    refine replied_step (t := 0) (x := 0) (y := 0) (fun u _ => pending_of_eq (hs u)) ?_
    rw [hended, pending_of_eq (hs 0)]
  | begins t b hs hb hp hc =>
    refine .inr ⟨b.pool, hp, hc, fun began reply => ?_⟩
    refine replied_step (t := t) (x := 0) (fun u hu => pending_of_eq ((hs u).trans (if_neg hu))) ?_
    have hst : f.world.stackOf t = b :: w.stackOf t := (hs t).trans (if_pos rfl)
    rw [hended, pending_cons (origins_of_push hst) hst, hb, pending]
    omega

/-- A call that runs keeps its reply if it has one, and otherwise may be settled. -/
theorem Run.replied_works (run : Run es w) (h : w.Works e f t a q s) :
    ∃ o : Event ρ, o.Course a ∧ ∀ began reply,
      replied began reply (⟨w, e, f⟩ :: es) f.world + due began reply o a.point.errand =
        replied began reply es w + due began reply o s.next.errand := by
  obtain ⟨rest, hstack, hturn⟩ := h.turned
  have hcourses := run.courses t
  rw [hstack] at hcourses
  obtain ⟨o, os, ho, -, horigins⟩ := List.forall₂_cons_right_iff.mp hcourses
  refine ⟨o, ho, fun began reply => ?_⟩
  refine replied_step (t := t) (fun u hu => pending_of_eq (h.stackOf_of_ne hu)) ?_
  have hhead : (Episode.thread? ⟨w, e, f⟩).bind (fun t => (origins t es).head?) = some o := by
    rw [h.thread, Option.bind_some, horigins]
    rfl
  rw [pending_cons horigins hstack]
  rcases hturn with ⟨b, hr, -, hb, hnew⟩ | ⟨r, hr, hn, hnew⟩
  · -- the call goes on, or closes the pool first
    have hended : answered began reply (⟨w, e, f⟩ :: es) = answered began reply es := by
      unfold answered
      rw [ended, hhead, hr]
    rw [hended, pending_cons ((origins_of_turn hstack hnew).trans horigins) hnew, hb]
    omega
  · have hended : answered began reply (⟨w, e, f⟩ :: es) =
        answered began reply es + due began reply o s.next.errand := by
      unfold answered
      rw [ended, hhead, hr, List.countP_cons, hn]
      rfl
    have hpop : origins t (⟨w, e, f⟩ :: es) = os := by
      rw [origins_of_pop (hnew ▸ hstack), horigins]
      rfl
    rw [hended, pending, hpop, hnew]
    omega

end Origins

end ObjectPool
