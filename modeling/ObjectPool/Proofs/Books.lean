/-
  ObjectPool.Proofs.Books

  What the books of a pool promise as a whole, whatever the single objects do:
  the places held are those of the objects on their way, no more objects are
  tracked and made than the pool may have, a closed pool has no idle objects, and
  the line holds the ticket of every borrower that waits, once.

  `Registry.Awake` is the promise that no borrower waits in vain: as long as
  something can be had while others are in line, some borrower was woken that has
  not looked again. Waking restores it whatever happened before, so each change
  that frees something has it by its last step.
-/

import ObjectPool.Registry

namespace ObjectPool

/-! ## The line -/

namespace WaitLine

/-- The tickets in line and those woken, together, are the given ones. -/
structure Holds (l : WaitLine) (tickets : List Nat) : Prop where
  perm : (l.queue ++ l.woken).Perm tickets
  nodup : tickets.Nodup
  issued : ∀ t ∈ tickets, t < l.issued

variable {l : WaitLine} {t : Nat} {ts : List Nat}

theorem Holds.of_perm (h : l.Holds ts) {us : List Nat} (hp : ts.Perm us) : l.Holds us :=
  ⟨h.perm.trans hp, hp.nodup_iff.mp h.nodup, fun t ht => h.issued t (hp.mem_iff.mpr ht)⟩

theorem Holds.mem_iff (h : l.Holds ts) : t ∈ ts ↔ t ∈ l.queue ∨ t ∈ l.woken := by
  rw [← h.perm.mem_iff, List.mem_append]

theorem Holds.nodup_append (h : l.Holds ts) : (l.queue ++ l.woken).Nodup :=
  h.perm.nodup_iff.mpr h.nodup

/-- A ticket is in line or was woken, and never both. -/
theorem Holds.not_mem_both (h : l.Holds ts) (hq : t ∈ l.queue) : t ∉ l.woken :=
  fun hw => (List.nodup_append.mp h.nodup_append).2.2 t hq t hw rfl

theorem Holds.wakeNext (h : l.Holds ts) : l.wakeNext.Holds ts := by
  refine ⟨?_, h.nodup, fun t ht => (wakeNext_issued l).symm ▸ h.issued t ht⟩
  refine List.Perm.trans ?_ h.perm
  rw [wakeNext_queue, wakeNext_woken]
  cases l.queue with
  | nil => simp
  | cons t rest => exact List.perm_middle

theorem Holds.wakeAll (h : l.Holds ts) : l.wakeAll.Holds ts := ⟨h.perm, h.nodup, h.issued⟩

theorem Holds.enter (h : l.Holds ts) : l.enter.Holds (l.issued :: ts) := by
  refine ⟨?_, ?_, ?_⟩
  · -- the new ticket stands between the queue and the woken ones
    rw [enter_queue, enter_woken, List.append_assoc]
    exact List.perm_middle.trans (h.perm.cons _)
  · -- a ticket that was issued is smaller than the next one
    exact List.nodup_cons.mpr ⟨fun ht => Nat.lt_irrefl _ (h.issued _ ht), h.nodup⟩
  · intro t ht
    show t < l.issued + 1
    rcases List.mem_cons.mp ht with rfl | ht
    · exact Nat.lt_succ_self _
    · exact Nat.lt_succ_of_lt (h.issued t ht)

/-- Taking a ticket out of a list that has it once. -/
theorem filter_ne_perm {s : List Nat} (hp : s.Perm (t :: ts)) (hn : (t :: ts).Nodup) :
    (s.filter (· ≠ t)).Perm ts := by
  have hts : ts.filter (· ≠ t) = ts := by
    rw [List.filter_eq_self]
    intro u hu
    simpa using fun he : u = t => (List.nodup_cons.mp hn).1 (he ▸ hu)
  have hf := hp.filter (· ≠ t)
  rwa [List.filter_cons_of_neg (by simp), hts] at hf

theorem Holds.leave (h : l.Holds (t :: ts)) : (l.leave t).Holds ts := by
  refine ⟨?_, (List.nodup_cons.mp h.nodup).2, fun u hu => h.issued u (List.mem_cons_of_mem _ hu)⟩
  show (l.queue.filter (· ≠ t) ++ l.woken.filter (· ≠ t)).Perm ts
  rw [← List.filter_append]
  exact filter_ne_perm h.perm h.nodup

theorem Holds.reenter (h : l.Holds (t :: ts)) (ht : t ∈ l.woken) :
    (l.reenter t).Holds (t :: ts) := by
  refine ⟨?_, h.nodup, h.issued⟩
  -- a woken ticket is not in the queue, so that the filter leaves the queue alone
  have hq : l.queue.filter (· ≠ t) = l.queue := by
    rw [List.filter_eq_self]
    intro u hu
    simpa using fun he : u = t => h.not_mem_both (he ▸ hu) ht
  have hf := filter_ne_perm h.perm h.nodup
  rw [List.filter_append, hq] at hf
  exact hf.cons t

end WaitLine

/-! ## The books as a whole -/

namespace Registry

/-- If something can be had while others are in line, somebody was woken for it. -/
def Awake (r : Registry) : Prop :=
  r.closed = false → r.available = true → r.line.queue ≠ [] → r.line.woken ≠ []

/-- The books in order, apart from waking: `places` are held, and the borrowers that
    wait have `tickets`. -/
structure Tidy (r : Registry) (places : Nat) (tickets : List Nat) : Prop where
  creating : r.creating = places
  within : r.total ≤ r.capacity
  shut : r.closed = true → r.idle = []
  line : r.line.Holds tickets

/-- The books in order. -/
structure Orderly (r : Registry) (places : Nat) (tickets : List Nat) : Prop
    extends r.Tidy places tickets where
  awake : r.Awake

variable {r s : Registry} {n : Nat} {ts : List Nat} {id : Nat}

/-! ## Waking -/

/-- After the first in line is woken nobody waits in vain. -/
theorem awake_wakeNext (r : Registry) : r.wakeNext.Awake := by
  intro _ _ hq
  rw [wakeNext_line, WaitLine.wakeNext_queue] at hq
  rw [wakeNext_line, WaitLine.wakeNext_woken]
  cases hl : r.line.queue with
  | nil => simp [hl] at hq
  | cons t rest => simp

/-- After the first in line is woken if there is something to be had, nobody waits
    in vain. -/
theorem awake_wakeIfAvailable (r : Registry) : r.wakeIfAvailable.Awake := by
  unfold wakeIfAvailable
  split
  · exact awake_wakeNext r
  · -- nothing is to be had, and nobody needs to be woken
    rename_i h
    exact fun _ ha => absurd ha h

theorem Tidy.wakeNext (h : r.Tidy n ts) : r.wakeNext.Orderly n ts :=
  ⟨⟨h.creating, h.within, h.shut, h.line.wakeNext⟩, awake_wakeNext r⟩

theorem Tidy.wakeIfAvailable (h : r.Tidy n ts) : r.wakeIfAvailable.Orderly n ts := by
  refine ⟨?_, awake_wakeIfAvailable r⟩
  unfold Registry.wakeIfAvailable
  split
  · exact h.wakeNext.toTidy
  · exact h

/-- What can be had while a pool is open: an idle object, or a free place. -/
theorem available_iff (ho : r.closed = false) :
    r.available = true ↔ r.idle ≠ [] ∨ r.total < r.capacity := by
  simp [available, ho]

/-- With no more idle objects and no more free places than before, nobody comes to
    wait in vain. -/
theorem Awake.mono (h : r.Awake) (hline : s.line = r.line) (hclosed : s.closed = r.closed)
    (hcap : s.capacity = r.capacity) (hidle : s.idle ≠ [] → r.idle ≠ [])
    (htotal : r.total ≤ s.total) : s.Awake := by
  intro ho ha hq
  rw [hline] at hq ⊢
  refine h (hclosed ▸ ho) ?_ hq
  rcases (available_iff ho).mp ha with hi | hlt
  · exact (available_iff (hclosed ▸ ho)).mpr (.inl (hidle hi))
  · exact (available_iff (hclosed ▸ ho)).mpr (.inr (by omega))

/-! ## Borrowers in line -/

theorem Tidy.leave {t : Nat} (h : r.Tidy n (t :: ts)) :
    Tidy { r with line := r.line.leave t } n ts :=
  ⟨h.creating, h.within, h.shut, h.line.leave⟩

/-- A borrower that was not woken leaves the line, and nobody misses it. -/
theorem Orderly.leave_of_mem {t : Nat} (h : r.Orderly n (t :: ts)) (hq : t ∈ r.line.queue) :
    Orderly { r with line := r.line.leave t } n ts := by
  refine ⟨h.toTidy.leave, ?_⟩
  intro ho ha hne
  -- the borrower was in the queue and not woken
  have hwoken : (r.line.leave t).woken = r.line.woken := by
    show r.line.woken.filter (· ≠ t) = r.line.woken
    rw [List.filter_eq_self]
    intro u hu
    simpa using fun he : u = t => h.line.not_mem_both hq (he ▸ hu)
  have hqueue : r.line.queue ≠ [] := List.ne_nil_of_mem hq
  exact hwoken ▸ h.awake ho ha hqueue

/-- A borrower leaves the line of a closed pool. -/
theorem Orderly.leave_of_closed {t : Nat} (h : r.Orderly n (t :: ts)) (hc : r.closed = true) :
    Orderly { r with line := r.line.leave t } n ts :=
  ⟨h.toTidy.leave, fun ho => absurd (hc.symm.trans ho) (by decide)⟩

/-- A borrower that finds nothing goes in line. Behind others it need not have looked:
    then somebody was woken for what there is. -/
theorem Orderly.enter (h : r.Orderly n ts) (hn : r.line.queue = [] → r.available = false) :
    Orderly { r with line := r.line.enter } n (r.line.issued :: ts) := by
  refine ⟨⟨h.creating, h.within, h.shut, h.line.enter⟩, ?_⟩
  intro ho ha _
  show r.line.woken ≠ []
  -- the queue was not empty, for an empty one lets the borrower look
  refine h.awake ho ha fun hq => ?_
  exact absurd ((hn hq).symm.trans ha) (by decide)

/-- A woken borrower that finds nothing goes back in line. -/
theorem Orderly.reenter {t : Nat} (h : r.Orderly n (t :: ts)) (ht : t ∈ r.line.woken)
    (hn : r.available = false) : Orderly { r with line := r.line.reenter t } n (t :: ts) :=
  ⟨⟨h.creating, h.within, h.shut, h.line.reenter ht⟩,
    fun _ ha => absurd (hn.symm.trans ha) (by decide)⟩

/-! ## Lists that stand for sets -/

theorem length_adjoin_le (id : Nat) (l : List Nat) : (adjoin id l).length ≤ l.length + 1 := by
  unfold adjoin; split <;> simp

theorem length_adjoin_of_not_mem {l : List Nat} (h : id ∉ l) :
    (adjoin id l).length = l.length + 1 := by simp [adjoin, h]

theorem count_adjoin_of_ne {x : Nat} (h : x ≠ id) (l : List Nat) :
    (adjoin id l).count x = l.count x := by
  unfold adjoin
  split
  · rfl
  · rw [List.count_append, List.count_singleton]
    simp [Ne.symm h]

theorem count_adjoin_of_count_eq_zero {l : List Nat} (h : l.count id = 0) :
    (adjoin id l).count id = 1 := by
  have hn : id ∉ l := List.count_eq_zero.mp h
  rw [adjoin, if_neg hn, List.count_append, h, List.count_singleton_self]

theorem count_without_of_ne {x : Nat} (h : x ≠ id) (l : List Nat) :
    (without id l).count x = l.count x := by
  unfold without
  rw [List.count_filter]
  simpa using h

@[simp] theorem count_without_self (id : Nat) (l : List Nat) : (without id l).count id = 0 := by
  rw [List.count_eq_zero]
  simp

/-! ## Places -/

theorem hasRoom_iff : r.hasRoom = true ↔ r.closed = false ∧ r.total < r.capacity := by
  simp [hasRoom]

theorem Orderly.reserve (h : r.Orderly n ts) (hr : r.hasRoom = true) :
    r.reserve.Orderly (n + 1) ts := by
  obtain ⟨-, hlt⟩ := hasRoom_iff.mp hr
  refine ⟨⟨?_, ?_, h.shut, h.line⟩, ?_⟩
  · show r.creating + 1 = n + 1
    rw [h.creating]
  · show r.tracked.length + (r.creating + 1) ≤ r.capacity
    unfold total at hlt
    omega
  · refine h.awake.mono rfl rfl rfl (fun hi => hi) ?_
    show r.tracked.length + r.creating ≤ r.tracked.length + (r.creating + 1)
    omega

theorem Tidy.cancelReservation (h : r.Tidy (n + 1) ts) : r.cancelReservation.Orderly n ts := by
  have hc := h.creating
  have hw := h.within
  refine Tidy.wakeNext ⟨?_, ?_, h.shut, h.line⟩
  · show r.creating - 1 = n
    omega
  · show r.tracked.length + (r.creating - 1) ≤ r.capacity
    unfold total at hw
    omega

/-! ## Objects -/

theorem Orderly.registerActive (h : r.Orderly (n + 1) ts) (hid : id ∉ r.tracked) :
    (r.registerActive id).Orderly n ts := by
  have hc := h.creating
  have hw := h.within
  -- the place becomes the object, so that the total stays
  have ht : (r.registerActive id).total = r.total := by
    show (adjoin id r.tracked).length + (r.creating - 1) = r.tracked.length + r.creating
    rw [length_adjoin_of_not_mem hid]
    omega
  refine ⟨⟨?_, ?_, h.shut, h.line⟩, ?_⟩
  · show r.creating - 1 = n
    omega
  · rw [ht]
    exact hw
  · exact h.awake.mono rfl rfl rfl (fun hi => hi) (Nat.le_of_eq ht.symm)

/-- An object that joins the idle ones of an open pool finds the books in order. -/
theorem Tidy.pushIdle (h : r.Tidy n ts) (ho : r.closed = false) :
    (r.pushIdle id).Orderly n ts := by
  refine Tidy.wakeNext ⟨h.creating, h.within, ?_, h.line⟩
  intro hc
  exact absurd (ho.symm.trans hc) (by decide)

theorem Tidy.registerIdle (h : r.Tidy (n + 1) ts) (ho : r.closed = false) :
    (r.registerIdle id).Orderly n ts := by
  have hc := h.creating
  have hw := h.within
  refine Tidy.pushIdle ⟨?_, ?_, h.shut, h.line⟩ ho
  · show r.creating - 1 = n
    omega
  · have hl := length_adjoin_le id r.tracked
    show (adjoin id r.tracked).length + (r.creating - 1) ≤ r.capacity
    unfold total at hw
    omega

theorem Tidy.checkin (h : r.Tidy n ts) (ho : r.closed = false) : (r.checkin id).Orderly n ts :=
  Tidy.pushIdle (r := { r with active := without id r.active })
    ⟨h.creating, h.within, h.shut, h.line⟩ ho

theorem Tidy.restoreIdle (h : r.Tidy n ts) (ho : r.closed = false) :
    (r.restoreIdle id).Orderly n ts := by
  refine Tidy.wakeNext ⟨h.creating, h.within, ?_, h.line⟩
  intro hc
  exact absurd (ho.symm.trans hc) (by decide)

/-- With fewer idle objects the books stay in order. -/
theorem Orderly.shrinkIdle (h : r.Orderly n ts) (active : List Nat) {idle : List Nat}
    (hi : idle ≠ [] → r.idle ≠ []) : Orderly { r with idle, active } n ts := by
  refine ⟨⟨h.creating, h.within, ?_, h.line⟩, ?_⟩
  · intro hc
    exact Classical.byContradiction fun hne => hi hne (h.shut hc)
  · exact h.awake.mono rfl rfl rfl hi (Nat.le_refl _)

theorem Orderly.removeIdle (h : r.Orderly n ts) : (r.removeIdle id).Orderly n ts :=
  h.shrinkIdle r.active fun hne he => hne (by rw [he]; rfl)

theorem Orderly.detach (h : r.Orderly n ts) : (r.detach id).Orderly n ts := by
  unfold Registry.detach
  split
  · -- an object that leaves gives its place free, and somebody is woken for it
    have hl : (without id r.tracked).length ≤ r.tracked.length := List.length_filter_le _ _
    have hw := h.within
    refine Tidy.wakeNext ⟨h.creating, ?_, ?_, h.line⟩
    · show (without id r.tracked).length + r.creating ≤ r.capacity
      unfold total at hw
      omega
    · intro hc
      show (if id ∈ r.active then r.idle else without id r.idle) = []
      rw [h.shut hc]
      exact ite_self _
  · exact h

/-- Once no idle object is tracked the books are in order, also in a pool that was
    just closed. -/
theorem orderly_drainIdle (hc : r.creating = n) (hw : r.total ≤ r.capacity)
    (hl : r.line.Holds ts) (ha : r.Awake) : r.drainIdle.Orderly n ts := by
  have hle : (r.tracked.filter (· ∉ r.drained)).length ≤ r.tracked.length :=
    List.length_filter_le _ _
  have htidy : Tidy { r with idle := [], tracked := r.tracked.filter (· ∉ r.drained) } n ts := by
    refine ⟨hc, ?_, fun _ => rfl, hl⟩
    show (r.tracked.filter (· ∉ r.drained)).length + r.creating ≤ r.capacity
    unfold total at hw
    omega
  rw [Registry.drainIdle]
  by_cases hd : r.drained = []
  · -- nothing leaves the books, so there is nothing new to wake anybody for
    have ht : r.tracked.filter (· ∉ r.drained) = r.tracked := by simp [hd]
    rw [if_pos (by simp [hd])]
    refine ⟨htidy, ha.mono rfl rfl rfl (fun hi => absurd rfl hi) ?_⟩
    show r.tracked.length + r.creating ≤ (r.tracked.filter (· ∉ r.drained)).length + r.creating
    exact Nat.le_of_eq (by rw [ht])
  · rw [if_neg (by simp [hd])]
    exact htidy.wakeNext

/-- Besides the idle and the tracked objects only the line may change. -/
theorem drainIdle_eq (r : Registry) :
    r.drainIdle = { r with
      idle := [], tracked := r.tracked.filter (· ∉ r.drained), line := r.drainIdle.line } := by
  rw [Registry.drainIdle]
  cases r.drained.isEmpty <;> rfl

theorem Orderly.drainIdle (h : r.Orderly n ts) : r.drainIdle.Orderly n ts :=
  orderly_drainIdle h.creating h.within h.line h.awake

theorem Orderly.close (h : r.Orderly n ts) : r.close.drainIdle.Orderly n ts :=
  orderly_drainIdle h.creating h.within h.line.wakeAll fun ho => nomatch ho

end Registry

end ObjectPool
