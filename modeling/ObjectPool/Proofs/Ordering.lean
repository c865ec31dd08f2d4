/-
  ObjectPool.Proofs.Ordering

  In which order the idle objects of a pool stand, in every world that can be reached,
  and which of them a borrower gets. A borrower gets the first of the queue. What was
  returned, or made for the queue, goes to the front if the youngest object is lent
  first and to the back if the oldest is; what was tried out goes to the back. So the
  queue has the order in which its objects joined it as long as none has come back from
  a trial, and also if the oldest is lent first and nothing comes in between trials.
  That is the order of the times which the pool has noted of them, if no time goes by
  while one is on its way to the queue.

    * `entered` — the objects in the order in which they joined the queue.
    * `arranged` — the queue that joining it and coming back from trials make.
    * `react_lent` — a borrower gets the object that is first in the queue.
    * `Run.arranged`, `Run.settled` — how the idle objects stand.
    * `Run.entered_by_time` — they joined the queue one after the other.
    * `KeepsOrder`, `order_kept` — what follows for the idle objects of a pool.
-/

import ObjectPool.Proofs.IdleSince

namespace ObjectPool

variable {ρ : Type}

/-! ## Orders -/

/-- Some objects go to the end of a list, and leave the places that they had. -/
def toEnd (ids l : List Nat) : List Nat := l.filter (fun id => decide (id ∉ ids)) ++ ids

namespace HandOut

/-- A queue from the object that is idle for longest to the youngest, and back. -/
def oldestFirst (o : HandOut) (l : List Nat) : List Nat :=
  match o with
  | .lifo => l.reverse
  | .fifo => l

/-- Some objects join a queue, in this order, and leave the places that they had. -/
def enter (o : HandOut) (ids l : List Nat) : List Nat := o.oldestFirst (toEnd ids (o.oldestFirst l))

end HandOut

/-- The objects that have joined the idle queue of the pool `i`, in the order in which each did so
    for the last time. -/
def entered (es : List (Episode ρ)) (i : Nat) : List Nat :=
  es.foldr (fun e l => toEnd (e.joined i) l) []

/-- The same objects as they are lent: those that joined the queue entered it at the end of the
    youngest, and those that came back from a trial went to its end. -/
def arranged (o : HandOut) (es : List (Episode ρ)) (i : Nat) : List Nat :=
  es.foldr (fun e l => toEnd (e.putBack i) (o.enter (e.joined i) l)) []

section Orders

variable {o : HandOut} {n id : Nat} {l l' m joined back : List Nat}

theorem toEnd_nil (l : List Nat) : toEnd [] l = l := by simp [toEnd]

namespace HandOut

theorem oldestFirst_oldestFirst (o : HandOut) (l : List Nat) :
    o.oldestFirst (o.oldestFirst l) = l := by
  cases o with
  | lifo => exact List.reverse_reverse l
  | fifo => rfl

theorem mem_oldestFirst : id ∈ o.oldestFirst l ↔ id ∈ l := by
  cases o with
  | lifo => exact List.mem_reverse
  | fifo => exact .rfl

theorem sublist_oldestFirst (h : l.Sublist m) : (o.oldestFirst l).Sublist (o.oldestFirst m) := by
  cases o with
  | lifo => exact h.reverse
  | fifo => exact h

/-- An object that joins a queue is the youngest. -/
theorem oldestFirst_push (o : HandOut) (id : Nat) (l : List Nat) :
    o.oldestFirst (o.push id l) = o.oldestFirst l ++ [id] := by
  cases o with
  | lifo => exact List.reverse_cons
  | fifo => rfl

theorem enter_nil (o : HandOut) (l : List Nat) : o.enter [] l = l := by
  rw [enter, toEnd_nil, oldestFirst_oldestFirst]

end HandOut

theorem Registry.idleOldestFirst_eq (r : Registry) :
    r.idleOldestFirst = r.order.oldestFirst r.idle := by
  unfold idleOldestFirst HandOut.oldestFirst
  rfl

/-- A list stands in another one also when objects that it does not have have left their places. -/
theorem sublist_filter_not_mem {ids : List Nat} (h : l.Sublist m) (hids : ∀ id ∈ ids, id ∉ l) :
    l.Sublist (m.filter fun x => decide (x ∉ ids)) := by
  have hsame : l.filter (fun x => decide (x ∉ ids)) = l :=
    List.filter_eq_self.mpr fun x hx => decide_eq_true fun hmem => hids x hmem hx
  have hs := h.filter fun x => decide (x ∉ ids)
  rwa [hsame] at hs

theorem sublist_toEnd (h : l.Sublist m) (hid : id ∉ l) : (l ++ [id]).Sublist (toEnd [id] m) :=
  (sublist_filter_not_mem h (by simpa using hid)).append (.refl _)

theorem nodup_toEnd {ids : List Nat} (hids : ids.Nodup) (h : l.Nodup) : (toEnd ids l).Nodup := by
  refine List.nodup_append.mpr ⟨h.filter _, hids, fun x hx y hy hxy => ?_⟩
  exact of_decide_eq_true (List.mem_filter.mp hx).2 (hxy ▸ hy)

/-- What an event does to the queue it does to the order. -/
theorem IdleMoves.arranged (h : IdleMoves o n l l' joined back) (hs : l.Sublist m) :
    l'.Sublist (toEnd back (o.enter joined m)) := by
  cases h with
  | thin h =>
    rw [HandOut.enter_nil, toEnd_nil]
    exact h.trans hs
  | @join id hid hroom =>
    have hend := sublist_toEnd (HandOut.sublist_oldestFirst (o := o) hs)
      (fun hmem => hid (HandOut.mem_oldestFirst.mp hmem))
    rw [← HandOut.oldestFirst_push] at hend
    have hpush := HandOut.sublist_oldestFirst (o := o) hend
    rwa [HandOut.oldestFirst_oldestFirst, ← toEnd_nil (o.oldestFirst _)] at hpush
  | @putBack id hid =>
    rw [HandOut.enter_nil]
    exact sublist_toEnd hs hid

/-- A list that stands in one without repetitions is made of its members in that order. -/
theorem eq_filter_of_sublist (h : l.Sublist m) (hm : m.Nodup) :
    l = m.filter fun x => decide (x ∈ l) := by
  induction h with
  | slnil => rfl
  | @cons l m a h ih =>
    have ha : a ∉ l := fun hmem => (List.nodup_cons.mp hm).1 (h.mem hmem)
    rw [List.filter_cons_of_neg (by simpa using ha)]
    exact ih (List.nodup_cons.mp hm).2
  | @cons_cons l m a h ih =>
    obtain ⟨ha, hm⟩ := List.nodup_cons.mp hm
    have hsame : (m.filter fun x => decide (x ∈ a :: l)) = m.filter fun x => decide (x ∈ l) := by
      refine List.filter_congr fun x hx => ?_
      have hne : x ≠ a := fun hxa => ha (hxa ▸ hx)
      simp [hne]
    rw [List.filter_cons_of_pos (by simp), hsame, ← ih hm]

/-- Two lists that stand in one without repetitions have their common members in the same order. -/
theorem common_of_sublist (h : l.Sublist m) (h' : l'.Sublist m) (hm : m.Nodup) :
    (l.filter fun x => decide (x ∈ l')) = l'.filter fun x => decide (x ∈ l) := by
  calc (l.filter fun x => decide (x ∈ l'))
      = m.filter fun x => decide (x ∈ l') && decide (x ∈ l) := by
        conv_lhs => rw [eq_filter_of_sublist h hm, List.filter_filter]
    _ = m.filter fun x => decide (x ∈ l) && decide (x ∈ l') :=
        List.filter_congr fun x _ => Bool.and_comm ..
    _ = l'.filter fun x => decide (x ∈ l) := by
        conv_rhs => rw [eq_filter_of_sublist h' hm, List.filter_filter]

end Orders

/-! ## Which object a borrower gets -/

/-- The objects of the pool `i` that were idle before an episode and that a borrower's call has
    the factory ready after it. -/
def Episode.lent (i : Nat) (e : Episode ρ) : List Nat :=
  (e.before.idleOf i).filter fun id => decide (id ∈ (e.after.points i).flatMap Point.loan)

/-- An object that is readied for a borrower is in the charge of the call. -/
theorem Point.charge_of_loan {pt : Point ρ} {id : Nat} (h : id ∈ pt.loan) :
    (id, .lending) ∈ pt.charges := by
  unfold loan at h
  split at h
  · rw [List.mem_singleton.mp h]
    exact List.mem_singleton.mpr rfl
  · exact nomatch h

namespace World

variable {w : World ρ} {e : Event ρ} {f : Effect ρ} {i id : Nat} {g : Nat → List Nat}

/-- An idle object that a borrower gets was the next to be lent. -/
theorem react_lent (hw : w.Sound g) (hr : w.react e = some f)
    (hid : id ∈ Episode.lent i ⟨w, e, f⟩) : (w.idleOf i).head? = some id := by
  obtain ⟨hidle, hloan⟩ := List.mem_filter.mp hid
  obtain ⟨pt, hpt, hmem⟩ := List.mem_flatMap.mp (of_decide_eq_true hloan)
  have hcharge := Point.charge_of_loan hmem
  -- no call had the object before
  have hold : pt ∉ w.points i := fun hin => (hw.pools i).not_idle_of_point hin hcharge hidle
  have hnew : ∀ pts : List (Point ρ), (∀ pt ∈ pts, pt.Opens) → pt ∉ pts := by
    intro pts hopens hin
    rw [(hopens pt hin).charges] at hcharge
    exact nomatch hcharge
  rcases react_at hr i with ⟨hspares, -⟩ | ⟨t, a, q, s, h, rfl⟩
  · obtain ⟨new, hopens, hperm⟩ := hspares.calls
    rcases List.mem_append.mp (hperm.mem_iff.mpr hpt) with hin | hin
    · exact absurd hin (hnew new hopens)
    · exact absurd hin hold
  · obtain ⟨-, new, hopens, hperm⟩ := h.lands
    rcases List.mem_append.mp (hperm.mem_iff.mpr hpt) with hin | hin
    · exact absurd hin (hnew new hopens)
    · rcases List.mem_append.mp hin with hin | hin
      · have hnext : id ∈ s.next.loan := by
          cases hn : s.next with
          | go pt' =>
            rw [hn] at hin
            rwa [← List.mem_singleton.mp hin]
          | finish r =>
            rw [hn] at hin
            exact nomatch hin
        have htests : id ∉ a.point.trials :=
          fun ht => (hw.pools a.pool).not_idle (mem_inCharge_of_trials h.call_mem ht) hidle
        rw [idleOf_eq h.pool]
        exact (h.draws hw).loan hnext htests
      · exact absurd (h.stretches.points.mem_iff.mpr (.tail _ hin)) hold

end World

/-! ## How the idle objects stand -/

section Runs

variable {es : List (Episode ρ)} {w : World ρ} {i : Nat} {p : Pool ρ}

/-- The idle objects stand as trials leave them. -/
theorem Run.arranged (h : Run es w) (hp : w.pools[i]? = some p) :
    p.registry.idle.Sublist (arranged p.config.handOut es i) := by
  -- a pool keeps its order, so that each event moves the queue the same way
  induction h generalizing p with
  | start => exact nomatch hp
  | @next es w e f run react ih =>
    cases World.react_idle run.sound react hp with
    | new _ _ hi =>
      rw [hi]
      exact List.nil_sublist _
    | @moves p₀ hp₀ hc ho hm =>
      rw [run.handOut hp₀] at hm
      rw [hc]
      exact hm.arranged (ih hp₀)

/-- If nothing is put back, they stand as they joined the queue. -/
theorem arranged_eq (hb : ∀ e ∈ es, e.putBack i = []) (o : HandOut) :
    ObjectPool.arranged o es i = o.oldestFirst (entered es i) := by
  induction es with
  | nil => cases o <;> rfl
  | cons e es ih =>
    show toEnd (e.putBack i) (o.enter (e.joined i) (ObjectPool.arranged o es i)) = _
    rw [hb e (List.mem_cons_self ..), toEnd_nil, ih fun x hx => hb x (List.mem_cons_of_mem _ hx),
      HandOut.enter, HandOut.oldestFirst_oldestFirst]
    rfl

theorem Run.ordered (h : Run es w) (hp : w.pools[i]? = some p) (hb : ∀ e ∈ es, e.putBack i = []) :
    p.registry.idleOldestFirst.Sublist (entered es i) := by
  have hs := HandOut.sublist_oldestFirst (o := p.config.handOut) (h.arranged hp)
  rwa [arranged_eq hb, HandOut.oldestFirst_oldestFirst, ← h.handOut hp,
    ← Registry.idleOldestFirst_eq] at hs

theorem Run.nodup_entered (h : Run es w) (i : Nat) : (entered es i).Nodup := by
  induction h with
  | start => exact .nil
  | @next es w e f run react ih =>
    refine nodup_toEnd ?_ ih
    exact ((run.next react).sound.pools i).nodup_idle.filter _

end Runs

/-! ## Trials that nothing comes in between -/

namespace Episode

/-- The objects of the pool `i` that are under trial after an episode and were not before. -/
def tried (i : Nat) (e : Episode ρ) : List Nat :=
  (e.after.inCharge i Custody.isTest).filter
    fun id => decide (id ∉ e.before.inCharge i Custody.isTest)

/-- If objects of the pool `i` are under trial, nothing joins the idle ones and no other trial
    begins. -/
def Apart (i : Nat) (e : Episode ρ) : Prop :=
  e.before.inCharge i Custody.isTest = [] ∨ (e.joined i = [] ∧ e.tried i = [])

instance (i : Nat) (e : Episode ρ) : Decidable (e.Apart i) :=
  inferInstanceAs (Decidable (_ ∨ _ ∧ _))

/-- While objects of the pool `i` are under trial, no other call on it runs. -/
def Alone (i : Nat) (e : Episode ρ) : Prop :=
  ∀ a, e.call? = some a → a.pool = i →
    ∀ id ∈ e.before.inCharge i Custody.isTest, id ∈ a.point.trials

end Episode

theorem eq_of_perm_of_length_le {α : Type} {l l' : List α} (h : l.Perm l') (hl : l'.length ≤ 1) :
    l = l' := by
  match l', hl with
  | [], _ => exact List.perm_nil.mp h
  | [x], _ => exact List.perm_singleton.mp h

/-- If the oldest object is lent first, trials that nothing comes in between leave the objects in
    their order. -/
theorem IdleMoves.settled {n : Nat} {l l' m joined back tests tests' : List Nat}
    (h : IdleMoves .fifo n l l' joined back) (hs : (l ++ tests).Sublist m)
    (hj : joined ≠ [] → tests = []) (ht : tests'.Sublist tests)
    (hb : ∀ id ∈ back, tests = id :: tests') : (l' ++ tests').Sublist (toEnd joined m) := by
  cases h with
  | thin h =>
    rw [toEnd_nil]
    exact (h.append ht).trans hs
  | @join id hid hroom =>
    obtain rfl := hj (List.cons_ne_nil _ _)
    rw [List.sublist_nil.mp ht, List.append_nil]
    rw [List.append_nil] at hs
    exact sublist_toEnd hs hid
  | @putBack id hid =>
    rw [hb id (List.mem_singleton.mpr rfl)] at hs
    rwa [toEnd_nil, List.append_assoc]

namespace World

variable {w : World ρ} {e : Event ρ} {f : Effect ρ} {t i : Nat} {a : Activity ρ} {q : Pool ρ}
  {s : Stretch ρ} {g : Nat → List Nat} {m : List Nat}

/-- One call at most has objects under trial, and behind the idle ones these stand in order. -/
structure Settled (w : World ρ) (i : Nat) (m : List Nat) : Prop where
  one : (w.rounds i).length ≤ 1
  order : (w.idleOf i ++ (w.rounds i).flatten).Sublist m

theorem rounds_eq_nil (h : w.inCharge i Custody.isTest = []) : w.rounds i = [] := by
  refine List.eq_nil_iff_forall_not_mem.mpr fun l hl => ?_
  have hne : l ≠ [] := by simpa using (List.mem_filter.mp hl).2
  obtain ⟨x, hx⟩ := List.exists_mem_of_ne_nil l hne
  rw [← flatten_rounds] at h
  exact List.not_mem_nil (h ▸ List.mem_flatten.mpr ⟨l, hl, hx⟩)

/-- Nothing comes in between the trials of a call that runs alone. -/
theorem react_apart (hw : w.Sound g) (hr : w.react e = some f)
    (ha : Episode.Alone i ⟨w, e, f⟩) : Episode.Apart i ⟨w, e, f⟩ := by
  have htried : (∀ id ∈ f.world.inCharge i Custody.isTest, id ∈ w.inCharge i Custody.isTest) →
      Episode.tried i ⟨w, e, f⟩ = [] := fun hold =>
    List.filter_eq_nil_iff.mpr fun id hid hb => of_decide_eq_true hb (hold id hid)
  rcases react_at hr i with ⟨hspares, -⟩ | ⟨t, a, q, s, h, rfl⟩
  · exact .inr ⟨hspares.joined, htried fun id hid => hspares.tests.mp hid⟩
  · have hall := ha a h.call rfl
    by_cases htests : a.point.trials = []
    · rw [htests] at hall
      exact .inl (List.eq_nil_iff_forall_not_mem.mpr fun id hid => List.not_mem_nil (hall id hid))
    · refine .inr ⟨?_, htried fun id hid => ?_⟩
      · exact List.eq_nil_iff_forall_not_mem.mpr fun id hid =>
          htests (h.trials_of_joined hid)
      · have hsub := (h.draws hw).trials.resolve_right fun hsweep => htests hsweep.1
        rcases h.tests hid with hnext | hold
        · exact mem_inCharge_of_trials h.call_mem (hsub.mem hnext)
        · exact hold

theorem Spares.settled (h : w.Spares f.world i) (hs : w.Settled i m) :
    f.world.Settled i (toEnd (Episode.joined i ⟨w, e, f⟩) m) := by
  have hrounds := eq_of_perm_of_length_le h.rounds hs.one
  refine ⟨hrounds ▸ hs.one, ?_⟩
  rw [hrounds, h.idleOf, h.joined, toEnd_nil]
  exact hs.order

/-- The sweep begins trials when nothing else is under trial. -/
theorem Works.rounds_of_sweep (h : w.Works e f t a q s) (hw : w.Sound g)
    (ha : Episode.Apart a.pool ⟨w, e, f⟩) {x : Nat} (hx : x ∈ s.next.trials)
    (hold : x ∈ w.idleOf a.pool) : w.rounds a.pool = [] := by
  refine rounds_eq_nil (ha.resolve_right fun hnone => ?_)
  obtain ⟨others, -, hafter⟩ := h.rounds
  have htested : x ∈ f.world.inCharge a.pool Custody.isTest := by
    rw [← flatten_rounds]
    refine hafter.flatten.mem_iff.mpr ?_
    rw [List.flatten_append, flatten_roundsOf]
    exact List.mem_append_left _ hx
  have htried : x ∈ Episode.tried a.pool ⟨w, e, f⟩ := by
    refine List.mem_filter.mpr ⟨htested, decide_eq_true fun htest => ?_⟩
    exact (hw.pools a.pool).not_idle htest hold
  exact List.not_mem_nil (hnone.2 ▸ htried)

/-- The sweep begins trials of objects that stand in order, and leaves none idle. -/
theorem Works.settled_sweep (h : w.Works e f t a q s) (hw : w.Sound g)
    (ho : q.registry.order = .fifo) (ha : Episode.Apart a.pool ⟨w, e, f⟩)
    (hs : w.Settled a.pool m) (htests : a.point.trials = []) (hnext : s.next.trials ≠ []) :
    f.world.Settled a.pool (toEnd (Episode.joined a.pool ⟨w, e, f⟩) m) := by
  obtain ⟨-, hsub, hempty⟩ := (h.draws hw).trials.resolve_left fun hk =>
    hnext (List.sublist_nil.mp (htests ▸ hk))
  rw [Registry.idleOldestFirst_eq, ho] at hsub
  have hold : s.next.trials.Sublist (w.idleOf a.pool) := idleOf_eq h.pool ▸ hsub
  have hidle : f.world.idleOf a.pool = [] := h.idleOf.trans (hempty hnext)
  have hjoined : Episode.joined a.pool ⟨w, e, f⟩ = [] :=
    newcomers_eq_nil fun id hid => nomatch hidle ▸ hid
  -- no other call has anything under trial
  obtain ⟨x, hx⟩ := List.exists_mem_of_ne_nil _ hnext
  obtain ⟨others, hbefore, hafter⟩ := h.rounds
  rw [h.rounds_of_sweep hw ha hx (hold.mem hx)] at hbefore
  obtain rfl := (List.append_eq_nil_iff.mp (List.nil_perm.mp hbefore)).2
  rw [roundsOf_next, if_neg hnext, List.append_nil] at hafter
  have hrounds := List.perm_singleton.mp hafter
  refine ⟨hrounds ▸ Nat.le_refl 1, ?_⟩
  rw [hrounds, hidle, hjoined, toEnd_nil, List.nil_append, List.flatten_singleton]
  exact hold.trans ((List.sublist_append_left ..).trans hs.order)

/-- The one call that tries objects out takes them in order, and puts each back behind the idle
    ones. -/
theorem Works.settled_round (h : w.Works e f t a q s) (hw : w.Sound g)
    (ho : q.registry.order = .fifo) (ha : Episode.Apart a.pool ⟨w, e, f⟩)
    (hs : w.Settled a.pool m) (htests : a.point.trials ≠ []) :
    f.world.Settled a.pool (toEnd (Episode.joined a.pool ⟨w, e, f⟩) m) := by
  obtain ⟨others, hbefore, hafter⟩ := h.rounds
  rw [roundsOf_singleton, if_neg htests] at hbefore
  obtain rfl : others = [] := by
    have hone := hs.one
    rw [hbefore.length_eq, List.length_append, List.length_singleton] at hone
    exact List.eq_nil_of_length_eq_zero (by omega)
  have hrounds := List.perm_singleton.mp hbefore
  rw [List.append_nil] at hafter
  have hle : (roundsOf s.next.points).length ≤ 1 := by
    rw [roundsOf_next]
    split <;> simp
  have hrounds' := eq_of_perm_of_length_le hafter hle
  have hsub := (h.draws hw).trials.resolve_right fun hsweep => htests hsweep.1
  have hm := h.idle hw
  rw [ho] at hm
  have horder := hs.order
  rw [hrounds, List.flatten_singleton] at horder
  -- what the call puts back is the first that it had under trial
  refine ⟨hrounds' ▸ hle, ?_⟩
  rw [hrounds', flatten_roundsOf]
  refine hm.settled horder (fun hj => ?_) hsub fun id hid => h.putBack hw hid
  have hnone := ha.resolve_right fun hnone => hj hnone.1
  rwa [← flatten_rounds, hrounds, List.flatten_singleton] at hnone

/-- A call that tries nothing out, before the stretch or after, leaves the trials of others
    alone. -/
theorem Works.settled_beside (h : w.Works e f t a q s) (hw : w.Sound g)
    (ho : q.registry.order = .fifo) (ha : Episode.Apart a.pool ⟨w, e, f⟩)
    (hs : w.Settled a.pool m) (htests : a.point.trials = []) (hnext : s.next.trials = []) :
    f.world.Settled a.pool (toEnd (Episode.joined a.pool ⟨w, e, f⟩) m) := by
  obtain ⟨others, hbefore, hafter⟩ := h.rounds
  rw [roundsOf_singleton, if_pos htests] at hbefore
  rw [roundsOf_next, if_pos hnext] at hafter
  have hrounds := eq_of_perm_of_length_le (hafter.trans hbefore.symm) hs.one
  have hm := h.idle hw
  rw [ho] at hm
  refine ⟨hrounds ▸ hs.one, ?_⟩
  rw [hrounds]
  refine hm.settled hs.order (fun hj => ?_) (.refl _) fun id hid =>
    nomatch htests.symm.trans (h.putBack hw hid)
  rw [flatten_rounds]
  exact ha.resolve_right fun hnone => hj hnone.1

/-- A stretch keeps the objects in order. -/
theorem Works.settled (h : w.Works e f t a q s) (hw : w.Sound g) (ho : q.registry.order = .fifo)
    (ha : Episode.Apart a.pool ⟨w, e, f⟩) (hs : w.Settled a.pool m) :
    f.world.Settled a.pool (toEnd (Episode.joined a.pool ⟨w, e, f⟩) m) := by
  by_cases htests : a.point.trials = []
  · by_cases hnext : s.next.trials = []
    · exact h.settled_beside hw ho ha hs htests hnext
    · exact h.settled_sweep hw ho ha hs htests hnext
  · exact h.settled_round hw ho ha hs htests

theorem react_settled (hw : w.Sound g) (hr : w.react e = some f)
    (ho : ∀ p, w.pools[i]? = some p → p.registry.order = .fifo)
    (ha : Episode.Apart i ⟨w, e, f⟩) (hs : w.Settled i m) :
    f.world.Settled i (toEnd (Episode.joined i ⟨w, e, f⟩) m) := by
  rcases react_at hr i with ⟨hspares, -⟩ | ⟨t, a, q, s, h, rfl⟩
  · exact hspares.settled hs
  · exact h.settled hw (ho q h.pool) ha hs

end World

section Runs

variable {es new old : List (Episode ρ)} {w w' : World ρ} {i : Nat} {p p' : Pool ρ}

/-- If nothing comes in between trials, the oldest objects are lent first as they were. -/
theorem Run.settled (h : Run es w) (ho : ∀ p, w.pools[i]? = some p → p.config.handOut = .fifo)
    (ha : ∀ e ∈ es, e.Apart i) : w.Settled i (entered es i) := by
  induction h with
  | start => exact ⟨Nat.zero_le _, .refl _⟩
  | @next es w e f run react ih =>
    have hbefore : ∀ p, w.pools[i]? = some p → p.config.handOut = .fifo := by
      intro p hp
      obtain ⟨p', hp', hc⟩ := World.react_config run.sound react hp
      rw [← hc]
      exact ho p' hp'
    refine World.react_settled run.sound react (fun p hp => ?_) (ha _ (List.mem_cons_self ..))
      (ih hbefore fun x hx => ha x (List.mem_cons_of_mem _ hx))
    rw [run.handOut hp]
    exact hbefore p hp

/-- Nothing comes between the idle objects and the order in which they joined the queue. -/
inductive Undisturbed (es : List (Episode ρ)) (i : Nat) (c : Config) : Prop
  /-- Idle objects are not tried out, -/
  | untested (ht : c.testWhileIdle = false)
  /-- or none has been put back after a trial, -/
  | kept (hb : ∀ e ∈ es, e.putBack i = [])
  /-- or the oldest is lent first and nothing has come in between trials. -/
  | apart (ho : c.handOut = .fifo) (ha : ∀ e ∈ es, e.Apart i)

theorem Run.in_order (h : Run es w) (hp : w.pools[i]? = some p) (ho : Undisturbed es i p.config) :
    p.registry.idleOldestFirst.Sublist (entered es i) := by
  have hconfig : ∀ {r : Config → Prop}, r p.config → ∀ p', w.pools[i]? = some p' → r p'.config :=
    fun hr p' hp' => Option.some.inj (hp.symm.trans hp') ▸ hr
  cases ho with
  | untested ht =>
    exact h.ordered hp (h.putBack_eq_nil (hconfig (r := fun c => c.testWhileIdle = false) ht))
  | kept hb => exact h.ordered hp hb
  | apart hf ha =>
    have hs := (h.settled (hconfig (r := fun c => c.handOut = .fifo) hf) ha).order
    rw [World.idleOf_eq hp] at hs
    rw [Registry.idleOldestFirst_eq, h.handOut hp, hf]
    exact (List.sublist_append_left ..).trans hs

/-- Objects stand as they joined the queue until one of them joins it again. -/
theorem sublist_entered_append {l : List Nat} (h : l.Sublist (entered old i))
    (hj : ∀ e ∈ new, ∀ id ∈ e.joined i, id ∉ l) : l.Sublist (entered (new ++ old) i) := by
  induction new with
  | nil => exact h
  | cons e new ih =>
    have hs := ih fun x hx => hj x (List.mem_cons_of_mem _ hx)
    have hout := sublist_filter_not_mem hs (hj e (List.mem_cons_self ..))
    exact hout.trans (List.sublist_append_left ..)

theorem Undisturbed.of_append {c : Config} (h : Undisturbed (new ++ old) i c) :
    Undisturbed old i c := by
  cases h with
  | untested ht => exact .untested ht
  | kept hb => exact .kept fun e he => hb e (List.mem_append_right _ he)
  | apart ho ha => exact .apart ho fun e he => ha e (List.mem_append_right _ he)

/-- The object that is lent next has joined the queue last of all, or first of all. -/
theorem Run.lent (h : Run es w) (hp : w.pools[i]? = some p) (ho : Undisturbed es i p.config)
    {id x : Nat} (hid : p.registry.idle.head? = some id) (hx : x ∈ p.registry.idle)
    (hne : x ≠ id) : (p.config.handOut.oldestFirst [id, x]).Sublist (entered es i) := by
  obtain ⟨rest, hrest⟩ := List.head?_eq_some_iff.mp hid
  have hpair : [id, x].Sublist p.registry.idle := by
    rw [hrest] at hx ⊢
    exact (List.singleton_sublist.mpr ((List.mem_cons.mp hx).resolve_left hne)).cons_cons id
  have hs := h.in_order hp ho
  rw [Registry.idleOldestFirst_eq, h.handOut hp] at hs
  exact (HandOut.sublist_oldestFirst hpair).trans hs

/-! ## When they joined the queue -/

/-- One object came back, or was made, no later than another. -/
def Pool.NoLater (p : Pool ρ) (x y : Nat) : Prop :=
  ∃ a b, p.returnTimes[x]? = some a ∧ p.returnTimes[y]? = some b ∧ a.nanos ≤ b.nanos

theorem exists_joinedAt?_of_mem {id : Nat} (h : id ∈ entered es i) :
    ∃ a, joinedAt? es i id = some a := by
  induction es with
  | nil => exact nomatch h
  | cons e es ih =>
    by_cases hid : id ∈ e.joined i
    · exact ⟨_, joinedAt?_cons_of_mem hid⟩
    · rw [joinedAt?_cons_of_not_mem hid]
      rcases List.mem_append.mp h with h | h
      · exact ih (List.mem_filter.mp h).1
      · exact absurd h hid

/-- The objects joined the queue in this order, by the clock. -/
theorem Run.entered_by_time (h : Run es w) (i : Nat) : (entered es i).Pairwise fun x y =>
    ∃ a b, joinedAt? es i x = some a ∧ joinedAt? es i y = some b ∧ a.nanos ≤ b.nanos := by
  induction h with
  | start => exact .nil
  | @next es w e f run react ih =>
    -- what did not join the queue just now did so before
    have hold : ∀ {x : Nat}, x ∈ (entered es i).filter
        (fun id => decide (id ∉ Episode.joined i ⟨w, e, f⟩)) →
        x ∈ entered es i ∧ joinedAt? (⟨w, e, f⟩ :: es) i x = joinedAt? es i x := by
      intro x hx
      obtain ⟨hmem, hnot⟩ := List.mem_filter.mp hx
      exact ⟨hmem, joinedAt?_cons_of_not_mem (of_decide_eq_true hnot)⟩
    refine List.pairwise_append.mpr ⟨?_, ?_, fun x hx y hy => ?_⟩
    · refine (ih.sublist List.filter_sublist).imp_of_mem fun hx hy hle => ?_
      rwa [(hold hx).2, (hold hy).2]
    · exact List.pairwise_of_forall_mem_list fun x hx y hy =>
        ⟨_, _, joinedAt?_cons_of_mem hx, joinedAt?_cons_of_mem hy, Nat.le_refl _⟩
    · obtain ⟨a, ha⟩ := exists_joinedAt?_of_mem (hold hx).1
      exact ⟨a, _, (hold hx).2.trans ha, joinedAt?_cons_of_mem hy, run.joinedAt?_le ha⟩

/-- They are listed by the times that the pool has noted of them. -/
theorem Run.by_time (h : Run es w) (hp : w.pools[i]? = some p) (ho : Undisturbed es i p.config)
    (ht : ∀ e ∈ es, e.Timeless i) : p.registry.idleOldestFirst.Pairwise p.NoLater := by
  refine ((h.entered_by_time i).sublist (h.in_order hp ho)).imp_of_mem fun hx hy hle => ?_
  obtain ⟨a, ha, hja⟩ := h.returnTime?_of_idle hp ht (Registry.mem_idleOldestFirst.mp hx)
  obtain ⟨b, hb, hjb⟩ := h.returnTime?_of_idle hp ht (Registry.mem_idleOldestFirst.mp hy)
  obtain ⟨a', b', ha', hb', hle⟩ := hle
  obtain rfl := Option.some.inj (hja.symm.trans ha')
  obtain rfl := Option.some.inj (hjb.symm.trans hb')
  exact ⟨a, b, ha, hb, hle⟩

/-! ## Main statement -/

/-- How the idle objects of the pool `i` stand, and which of them borrowers get. -/
structure KeepsOrder (es : List (Episode ρ)) (w : World ρ) (i : Nat) (p : Pool ρ) : Prop where
  /-- A borrower that gets an idle object in what happens next gets the first of the queue. -/
  takes : ∀ e f, w.react e = some f → ∀ id ∈ Episode.lent i ⟨w, e, f⟩,
    p.registry.idle.head? = some id
  /-- In the queue the youngest or the oldest objects come first, as the settings say, but those
      that came back from a trial went to its end. -/
  arranged : p.registry.idle.Sublist (arranged p.config.handOut es i)
  /-- Nothing comes in between trials if the call that makes them runs alone on the pool. -/
  alone : p.config.handOut = .fifo → (∀ e ∈ es, e.Alone i) → Undisturbed es i p.config
  /-- They stand as they joined the queue if trials do not come in between. -/
  in_order : Undisturbed es i p.config → p.registry.idleOldestFirst.Sublist (entered es i)
  /-- Of each the pool has noted the time at which it joined them for the last time, if no time goes
      by while an object is on its way to the queue. -/
  noted : (∀ e ∈ es, e.Timeless i) → ∀ id ∈ p.registry.idle,
    ∃ τ, p.returnTimes[id]? = some τ ∧ joinedAt? es i id = some τ
  /-- If both is so, they are listed by these times, the earliest first. -/
  by_time : Undisturbed es i p.config → (∀ e ∈ es, e.Timeless i) →
    p.registry.idleOldestFirst.Pairwise p.NoLater
  /-- If trials do not come in between, a borrower gets the one that has joined last, -/
  youngest : Undisturbed es i p.config → p.config.handOut = .lifo → ∀ e f, w.react e = some f →
    ∀ id ∈ Episode.lent i ⟨w, e, f⟩, ∀ x ∈ p.registry.idle, x ≠ id → [x, id].Sublist (entered es i)
  /-- or the one that has joined first, -/
  oldest : Undisturbed es i p.config → p.config.handOut = .fifo → ∀ e f, w.react e = some f →
    ∀ id ∈ Episode.lent i ⟨w, e, f⟩, ∀ x ∈ p.registry.idle, x ≠ id → [id, x].Sublist (entered es i)
  /-- and those that were idle before and have not joined the queue again stand as they did. -/
  steady : Undisturbed es i p.config → ∀ new old w' p', es = new ++ old → Run old w' →
    w'.pools[i]? = some p' → (∀ e ∈ new, ∀ id ∈ e.joined i, id ∉ p'.registry.idleOldestFirst) →
    (p'.registry.idleOldestFirst.filter fun id => decide (id ∈ p.registry.idleOldestFirst)) =
      p.registry.idleOldestFirst.filter fun id => decide (id ∈ p'.registry.idleOldestFirst)

/-- In every run the idle objects stand as they joined the queue, but for those that were tried
    out. -/
theorem order_kept (h : Run es w) (hp : w.pools[i]? = some p) : KeepsOrder es w i p := by
  have hhead : ∀ e f, w.react e = some f → ∀ id ∈ Episode.lent i ⟨w, e, f⟩,
      p.registry.idle.head? = some id := fun e f hr id hid =>
    World.idleOf_eq hp ▸ World.react_lent h.sound hr hid
  refine ⟨hhead, h.arranged hp, fun hf ha => .apart hf fun e he => ?_, h.in_order hp,
    fun ht id hid => h.returnTime?_of_idle hp ht hid, h.by_time hp,
    fun ho hl e f hr id hid x hx hne => ?_, fun ho hf e f hr id hid x hx hne => ?_,
    fun ho new old w' p' hes h' hp' hj => ?_⟩
  · obtain ⟨es', run, react⟩ := h.of_mem he
    exact World.react_apart run.sound react (ha e he)
  · have hs := h.lent hp ho (hhead e f hr id hid) hx hne
    rwa [hl] at hs
  · have hs := h.lent hp ho (hhead e f hr id hid) hx hne
    rwa [hf] at hs
  · subst hes
    obtain ⟨p₀, hp₀, hc⟩ := h.config_append h' hp'
    obtain rfl := Option.some.inj (hp.symm.trans hp₀)
    have hbefore := h'.in_order hp' (hc ▸ ho.of_append)
    exact common_of_sublist (sublist_entered_append hbefore hj) (h.in_order hp ho)
      (h.nodup_entered i)

end Runs

/-- Two objects of a pool are lent and then returned, one after the other. -/
def returnedEvents (c : Config) : List (Event Nat) :=
  [.create c, .spawn,
    .begin 0 0 (.borrow none "first"), .step 0, .step 0, .answer 0 (.created (.ok 7)),
    .answer 0 (.activated 7 none),
    .begin 0 0 (.borrow none "second"), .step 0, .step 0, .answer 0 (.created (.ok 8)),
    .answer 0 (.activated 8 none),
    .tick ⟨5⟩, .giveBack 0 0 0, .step 0, .answer 0 (.passivated 7 none),
    .tick ⟨9⟩, .giveBack 0 0 1, .step 0, .answer 0 (.passivated 8 none)]

/-- A borrower comes, and is about to look for an object. -/
def lookEvents : List (Event Nat) := [.begin 0 0 (.borrow none "third"), .step 0]

/-- Both objects are tried out before the borrower comes. -/
def triedOutEvents (c : Config) : List (Event Nat) :=
  returnedEvents c ++ [.begin 0 0 .maintain, .step 0,
    .step 0, .answer 0 (.activated 7 none), .answer 0 (.validated true),
    .answer 0 (.passivated 7 none),
    .step 0, .answer 0 (.activated 8 none), .answer 0 (.validated true),
    .answer 0 (.passivated 8 none), .step 0, .step 0] ++ lookEvents

/-- The pool lends the oldest object first, and tries idle objects out. -/
def oldestFirstEvents : List (Event Nat) :=
  triedOutEvents { handOut := .fifo, testWhileIdle := true }

/-- The pool lends the youngest object first. -/
def youngestFirstEvents : List (Event Nat) := returnedEvents {} ++ lookEvents

/-- The pool lends the youngest object first, and tries idle objects out. -/
def reversedEvents : List (Event Nat) := triedOutEvents { testWhileIdle := true }

/-- The objects stand in order through a round of trials, and the borrower gets the oldest; without
    trials it gets the youngest if that is to be lent first. -/
theorem order_kept_both_ways :
    (∃ p f, Run (episodes oldestFirstEvents) (reached oldestFirstEvents) ∧
      (reached oldestFirstEvents).pools[0]? = some p ∧
      Undisturbed (episodes oldestFirstEvents) 0 p.config ∧
      (∀ e ∈ episodes oldestFirstEvents, e.Timeless 0) ∧
      (episodes oldestFirstEvents).flatMap (Episode.putBack 0) = [1, 0] ∧
      p.registry.idleOldestFirst = [0, 1] ∧ p.returnTimes = [⟨5⟩, ⟨9⟩] ∧
      (reached oldestFirstEvents).react (.step 0) = some f ∧
      Episode.lent 0 ⟨reached oldestFirstEvents, .step 0, f⟩ = [0] ∧
      KeepsOrder (episodes oldestFirstEvents) (reached oldestFirstEvents) 0 p) ∧
    ∃ p f, Run (episodes youngestFirstEvents) (reached youngestFirstEvents) ∧
      (reached youngestFirstEvents).pools[0]? = some p ∧
      Undisturbed (episodes youngestFirstEvents) 0 p.config ∧
      (∀ e ∈ episodes youngestFirstEvents, e.Timeless 0) ∧
      p.registry.idleOldestFirst = [0, 1] ∧ p.returnTimes = [⟨5⟩, ⟨9⟩] ∧
      (reached youngestFirstEvents).react (.step 0) = some f ∧
      Episode.lent 0 ⟨reached youngestFirstEvents, .step 0, f⟩ = [1] ∧
      KeepsOrder (episodes youngestFirstEvents) (reached youngestFirstEvents) 0 p := by
  refine ⟨⟨_, _, Run.of_events rfl, rfl, .apart rfl ?_, ?_, by decide +kernel, by decide +kernel,
    rfl, rfl, by decide +kernel, order_kept (Run.of_events rfl) rfl⟩,
    ⟨_, _, Run.of_events rfl, rfl, .untested rfl, ?_, by decide +kernel, rfl, rfl,
      by decide +kernel, order_kept (Run.of_events rfl) rfl⟩⟩
  · decide +kernel
  · decide +kernel
  · decide +kernel

/-- The object that joined the queue first is listed as the youngest, against the times that the
    pool has noted, and is lent first. -/
theorem first_returned_lent_first :
    ∃ p f, Run (episodes reversedEvents) (reached reversedEvents) ∧
      (reached reversedEvents).pools[0]? = some p ∧ p.config.handOut = .lifo ∧
      entered (episodes reversedEvents) 0 = [0, 1] ∧ p.registry.idleOldestFirst = [1, 0] ∧
      p.returnTimes = [⟨5⟩, ⟨9⟩] ∧ (reached reversedEvents).react (.step 0) = some f ∧
      Episode.lent 0 ⟨reached reversedEvents, .step 0, f⟩ = [0] :=
  ⟨_, _, Run.of_events rfl, rfl, rfl, by decide +kernel, by decide +kernel, rfl, rfl,
    by decide +kernel⟩

end ObjectPool
