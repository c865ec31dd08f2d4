/-
  ObjectPool.Proofs.Stretch.Seizure

  What a pass over the lent objects comes to as a whole. It takes away exactly the objects that
  are lent, that nobody works on and that went unused for too long, and the order in which it goes
  through them makes no difference to the pool: what it takes leaves the books, as many
  borrowers are woken as objects are taken, and nothing else happens.

    * `objects` — the numbers of objects that were taken away.
    * `Pool.takeAwayAll` — several objects are taken from their borrowers.
    * `Pool.reclaimFrom_eq` — a pass is that, for the objects that are overdue.
    * `Pool.Seizes` — what a pass takes and what it leaves.
    * `Sound.seizes`, `Sound.reclaimFrom_perm` — in whatever order.
-/

import Mathlib.Logic.Function.Iterate
import ObjectPool.Proofs.Stretch.Capture
import ObjectPool.Proofs.Stretch.Sweep

namespace ObjectPool

variable {ρ : Type}

/-- The last sign of life of an object from its borrower, written out. -/
theorem Entry.lastActive_nanos (y : Entry ρ) : y.lastActive.nanos =
    max y.lastBorrow.nanos ((y.lastUse.map fun u => u.time.nanos).getD 0) := by
  unfold Entry.lastActive
  cases y.lastUse with
  | none => exact (Nat.max_zero _).symm
  | some u => exact Nat.max_comm ..

/-- The numbers of objects that were taken away. -/
def objects (xs : List (Reclaimed ρ)) : List Nat := xs.map (·.object)

theorem objects_append (xs ys : List (Reclaimed ρ)) :
    objects (xs ++ ys) = objects xs ++ objects ys := List.map_append

/-! ## Waking several borrowers -/

namespace WaitLine

theorem iterate_wakeNext_queue (n : Nat) (l : WaitLine) :
    (wakeNext^[n] l).queue = l.queue.drop n := by
  induction n generalizing l with
  | zero => rfl
  | succ n ih =>
    rw [Function.iterate_succ_apply, ih, wakeNext_queue]
    cases l.queue with
    | nil => simp
    | cons t rest => rfl

theorem iterate_wakeNext_woken (n : Nat) (l : WaitLine) :
    (wakeNext^[n] l).woken = (l.queue.take n).reverse ++ l.woken := by
  induction n generalizing l with
  | zero => rfl
  | succ n ih =>
    rw [Function.iterate_succ_apply, ih, wakeNext_queue, wakeNext_woken]
    cases l.queue with
    | nil => simp
    | cons t rest => simp

end WaitLine

/-! ## Several objects are taken away -/

namespace Pool

variable {p : Pool ρ} {ℓ : Ledger ρ} {now : Instant} {timeout : Duration} {id x : Nat}
  {out ids : List Nat}

/-- Several objects are taken away from their borrowers, in order. -/
def takeAwayAll (out : List Nat) (p : Pool ρ) : Pool ρ := out.foldl (fun q id => q.takeAway id) p

theorem takeAwayAll_cons (id : Nat) (out : List Nat) (p : Pool ρ) :
    p.takeAwayAll (id :: out) = (p.takeAway id).takeAwayAll out := rfl

theorem object?_takeAwayAll (h : out.Nodup) (p : Pool ρ) (x : Nat) :
    (p.takeAwayAll out).object? x =
      if x ∈ out then (p.object? x).map Entry.seized else p.object? x := by
  induction out generalizing p with
  | nil => simp [takeAwayAll]
  | cons id out ih =>
    obtain ⟨hid, hout⟩ := List.nodup_cons.mp h
    rw [takeAwayAll_cons, ih hout, object?_takeAway]
    by_cases hx : id = x
    · subst hx
      rw [if_neg hid, if_pos rfl, if_pos (List.mem_cons_self ..)]
    · rw [if_neg hx]
      simp only [List.mem_cons, Ne.symm hx, false_or]

/-- What is taken away leaves the books, and a borrower is woken for each. -/
theorem registry_takeAwayAll (h : out.Nodup)
    (hlent : ∀ id ∈ out, id ∈ p.registry.tracked ∧ id ∈ p.registry.active) :
    (p.takeAwayAll out).registry =
      { p.registry with
        tracked := p.registry.tracked.filter (· ∉ out)
        active := p.registry.active.filter (· ∉ out)
        line := WaitLine.wakeNext^[out.length] p.registry.line } := by
  induction out generalizing p with
  | nil =>
    have hall : ∀ l : List Nat, l.filter (· ∉ ([] : List Nat)) = l :=
      fun l => List.filter_eq_self.mpr fun x _ => decide_eq_true List.not_mem_nil
    simp only [hall]
    rfl
  | cons id out ih =>
    obtain ⟨hid, hout⟩ := List.nodup_cons.mp h
    obtain ⟨htracked, hactive⟩ := hlent id (List.mem_cons_self ..)
    -- what is listed is taken off all lists at once
    have hone : (p.takeAway id).registry =
        { p.registry with
          tracked := Registry.without id p.registry.tracked
          active := Registry.without id p.registry.active
          line := p.registry.line.wakeNext } := by
      show p.registry.detach id = _
      unfold Registry.detach
      rw [if_pos htracked, if_pos hactive]
      rfl
    -- the others are listed as before, since no object comes twice
    have hrest : ∀ x ∈ out, x ∈ (p.takeAway id).registry.tracked ∧
        x ∈ (p.takeAway id).registry.active := by
      intro x hx
      have hne : x ≠ id := fun he => hid (he ▸ hx)
      obtain ⟨ht, ha⟩ := hlent x (List.mem_cons_of_mem _ hx)
      rw [hone]
      exact ⟨Registry.mem_without.mpr ⟨ht, hne⟩, Registry.mem_without.mpr ⟨ha, hne⟩⟩
    have hfilter : ∀ l : List Nat, (Registry.without id l).filter (· ∉ out) =
        l.filter (· ∉ id :: out) := by
      intro l
      unfold Registry.without
      rw [List.filter_filter]
      exact List.filter_congr fun x _ => by simp [Bool.and_comm]
    rw [takeAwayAll_cons, ih hout hrest, hone]
    simp only [hfilter, List.length_cons, Function.iterate_succ_apply]

/-- All else stays as it is. -/
theorem takeAwayAll_rest (out : List Nat) (p : Pool ρ) :
    (p.takeAwayAll out).config = p.config ∧ (p.takeAwayAll out).counters = p.counters ∧
      (p.takeAwayAll out).keeper = p.keeper ∧ (p.takeAwayAll out).clones = p.clones ∧
      (p.takeAwayAll out).gone = p.gone := by
  induction out generalizing p with
  | nil => exact ⟨rfl, rfl, rfl, rfl, rfl⟩
  | cons id out ih => exact ih (p.takeAway id)

/-- The order in which objects are taken away makes no difference. -/
theorem takeAwayAll_perm {out' : List Nat} (hp : out.Perm out') (h : out.Nodup)
    (hlent : ∀ id ∈ out, id ∈ p.registry.tracked ∧ id ∈ p.registry.active) :
    p.takeAwayAll out = p.takeAwayAll out' := by
  have h' : out'.Nodup := hp.nodup_iff.mp h
  have hlent' : ∀ id ∈ out', id ∈ p.registry.tracked ∧ id ∈ p.registry.active :=
    fun id hid => hlent id (hp.mem_iff.mpr hid)
  have hfilter : ∀ l : List Nat, l.filter (· ∉ out) = l.filter (· ∉ out') :=
    fun l => List.filter_congr fun x _ => decide_eq_decide.mpr (not_congr hp.mem_iff)
  -- only the number of the objects tells how many borrowers are woken
  have hregistry : (p.takeAwayAll out).registry = (p.takeAwayAll out').registry := by
    rw [registry_takeAwayAll h hlent, registry_takeAwayAll h' hlent', hp.length_eq]
    simp only [hfilter]
  -- each entry is changed at most once, and by itself
  have hentries : (p.takeAwayAll out).entries = (p.takeAwayAll out').entries := by
    refine List.ext_getElem? fun x => ?_
    have hobject : (p.takeAwayAll out).object? x = (p.takeAwayAll out').object? x := by
      rw [object?_takeAwayAll h, object?_takeAwayAll h']
      simp only [hp.mem_iff]
    exact hobject
  obtain ⟨hc, hn, hk, hl, hg⟩ := takeAwayAll_rest out p
  obtain ⟨hc', hn', hk', hl', hg'⟩ := takeAwayAll_rest out' p
  -- nothing else of the pool is changed, so that the two agree part by part
  generalize p.takeAwayAll out = q at *
  generalize p.takeAwayAll out' = q' at *
  obtain ⟨config, registry, entries, counters, keeper, clones, gone⟩ := q
  obtain ⟨config', registry', entries', counters', keeper', clones', gone'⟩ := q'
  dsimp only at *
  subst hc hn hk hl hg hc' hn' hk' hl' hg' hregistry hentries
  rfl

/-! ## A pass -/

/-- A pass takes away the objects that are overdue, each with its resource. -/
theorem reclaimFrom_eq (h : ids.Nodup) (p : Pool ρ) : p.reclaimFrom now timeout ids =
    (p.takeAwayAll (ids.filter (p.isAbandoned now timeout)),
      (ids.filter (p.isAbandoned now timeout)).map fun id =>
        ⟨id, p.slot? id, p.unusedFor now id⟩) := by
  induction ids generalizing p with
  | nil => rfl
  | cons id ids ih =>
    obtain ⟨hid, hids⟩ := List.nodup_cons.mp h
    rw [reclaimFrom]
    split
    · rename_i htake
      -- what is taken first does not concern the others
      have hother : ∀ x ∈ ids, (p.takeAway id).object? x = p.object? x := by
        intro x hx
        rw [object?_takeAway, if_neg fun he => hid (by rwa [he])]
      have hfilter : ids.filter ((p.takeAway id).isAbandoned now timeout) =
          ids.filter (p.isAbandoned now timeout) :=
        List.filter_congr fun x hx => isAbandoned_takeAway_of_ne fun he => hid (by rwa [he])
      rw [ih hids, List.filter_cons_of_pos htake, hfilter]
      refine Prod.ext rfl (congrArg (_ :: ·) (List.map_congr_left fun x hx => ?_))
      have hsame := hother x (List.mem_filter.mp hx).1
      unfold slot? unusedFor
      rw [hsame]
    · rename_i htake
      rw [ih hids, List.filter_cons_of_neg htake]

/-- What a pass over the lent objects takes from the pool `p`, the list `xs`, and the pool `q` that
    it leaves. -/
structure Seizes (p : Pool ρ) (now : Instant) (timeout : Duration) (q : Pool ρ)
    (xs : List (Reclaimed ρ)) : Prop where
  /-- Taken is what is lent, allocated and not being worked on, and showed no sign of life, neither
      a borrow nor a use, for longer than the timeout. -/
  exact : ∀ id, id ∈ objects xs ↔ id ∈ p.registry.active ∧ ∃ y, p.object? id = some y ∧
    y.state = .allocated ∧ y.held = false ∧ timeout.nanos < now.nanos -
      max y.lastBorrow.nanos ((y.lastUse.map fun u => u.time.nanos).getD 0)
  once : (objects xs).Nodup
  /-- Its resource is taken out of its slot. -/
  taken : ∀ x ∈ xs, (∃ v, p.slot? x.object = some v ∧ x.resource = some v) ∧
    ∃ y, q.object? x.object = some y ∧ y.state = .abandoned ∧ y.slot = none
  /-- It leaves the books. -/
  tracked : q.registry.tracked = p.registry.tracked.filter (· ∉ objects xs)
  active : q.registry.active = p.registry.active.filter (· ∉ objects xs)
  /-- A borrower is woken for each, the first in line first. -/
  queue : q.registry.line.queue = p.registry.line.queue.drop xs.length
  woken : q.registry.line.woken =
    (p.registry.line.queue.take xs.length).reverse ++ p.registry.line.woken
  /-- Nothing else happens. -/
  idle : q.registry.idle = p.registry.idle
  creating : q.registry.creating = p.registry.creating
  closed : q.closed = p.closed
  others : ∀ id, id ∉ objects xs → q.object? id = p.object? id
  counters : q.counters = p.counters

theorem isAbandoned_iff (htracked : id ∈ p.registry.tracked) :
    p.isAbandoned now timeout id = true ↔ ∃ y, p.object? id = some y ∧ y.state = .allocated ∧
      y.held = false ∧ timeout.nanos < now.nanos -
        max y.lastBorrow.nanos ((y.lastUse.map fun u => u.time.nanos).getD 0) := by
  unfold isAbandoned unusedFor isHeld isIn
  cases hy : p.object? id with
  | none => simp
  | some y =>
    -- the time since the last sign of life, with the default for an object never used
    have hspan : (now.since y.lastActive).nanos = now.nanos -
        max y.lastBorrow.nanos ((y.lastUse.map fun u => u.time.nanos).getD 0) := by
      rw [← y.lastActive_nanos]
      rfl
    simp only [htracked, hspan, decide_true, Bool.true_and, Option.any_some, Bool.and_eq_true,
      decide_eq_true_eq, Bool.not_eq_true', Entry.isIn, Option.some.injEq, exists_eq_left']
    constructor
    · rintro ⟨⟨ht, hh⟩, hs⟩
      exact ⟨hs, hh, ht⟩
    · rintro ⟨hs, hh, ht⟩
      exact ⟨⟨ht, hh⟩, hs⟩

/-- A lent object is listed once, and tracked. -/
theorem Sound.active_listed (h : p.Sound ℓ) (id : Nat) : p.registry.active.count id ≤ 1 ∧
    (id ∈ p.registry.active → id ∈ p.registry.tracked) := by
  have hv := h.objects id
  rw [← List.count_pos_iff, ← List.count_pos_iff]
  show (p.position ℓ id).active ≤ 1 ∧ (0 < (p.position ℓ id).active → 0 < (p.position ℓ id).tracked)
  generalize p.position ℓ id = v at hv
  cases hv with
  | unborn | idle | lent | dead => simp
  | entrusted he => cases he <;> simp

theorem Sound.nodup_active (h : p.Sound ℓ) : p.registry.active.Nodup :=
  List.nodup_iff_count.mpr fun id => (h.active_listed id).1

theorem Sound.listed_of_isAbandoned (h : p.Sound ℓ) (hid : p.isAbandoned now timeout id = true) :
    id ∈ p.registry.tracked ∧ id ∈ p.registry.active := by
  obtain ⟨v, hf⟩ := h.lent_of_isAbandoned hid
  exact ⟨(of_lent hf.here).1, (of_lent hf.here).2.2.1⟩

/-- A pass over the lent objects, in whatever order it goes through them. -/
theorem Sound.seizes (h : p.Sound ℓ) (now : Instant) (timeout : Duration)
    (hids : ids.Perm p.registry.active) :
    p.Seizes now timeout (p.reclaimFrom now timeout ids).1 (p.reclaimFrom now timeout ids).2 := by
  have hnodup : ids.Nodup := hids.nodup_iff.mpr h.nodup_active
  have hout : (ids.filter (p.isAbandoned now timeout)).Nodup := hnodup.filter _
  have hbooks := registry_takeAwayAll hout fun id hid =>
    h.listed_of_isAbandoned (List.mem_filter.mp hid).2
  have hobject := object?_takeAwayAll hout p
  obtain ⟨-, hcounters, -⟩ := takeAwayAll_rest (ids.filter (p.isAbandoned now timeout)) p
  -- a pass is a filter and one removal, so that each part reads off one of the two
  rw [reclaimFrom_eq hnodup p]
  have hobjects : ObjectPool.objects ((ids.filter (p.isAbandoned now timeout)).map fun id =>
      (⟨id, p.slot? id, p.unusedFor now id⟩ : Reclaimed ρ)) =
        ids.filter (p.isAbandoned now timeout) := by
    rw [ObjectPool.objects, List.map_map]
    exact List.map_id _
  refine ⟨fun id => ?_, ?_, fun x hx => ?_, ?_, ?_, ?_, ?_, ?_, ?_, ?_, fun id hid => ?_, ?_⟩
  · rw [hobjects, List.mem_filter, hids.mem_iff]
    refine and_congr_right fun hid => isAbandoned_iff ?_
    exact (h.active_listed id).2 hid
  · rw [hobjects]
    exact hout
  · obtain ⟨id, hid, rfl⟩ := List.mem_map.mp hx
    obtain ⟨v, hf⟩ := h.lent_of_isAbandoned (List.mem_filter.mp hid).2
    have hslot : p.slot? id = some v := hf.slot?
    obtain ⟨y, hy, -⟩ := Option.bind_eq_some_iff.mp hslot
    refine ⟨⟨v, hslot, hslot⟩, y.seized, ?_, y.seized_state, rfl⟩
    rw [hobject, if_pos hid, hy]
    rfl
  · rw [hobjects, hbooks]
  · rw [hobjects, hbooks]
  · rw [hbooks, List.length_map, WaitLine.iterate_wakeNext_queue]
  · rw [hbooks, List.length_map, WaitLine.iterate_wakeNext_woken]
  · rw [hbooks]
  · rw [hbooks]
  · unfold Pool.closed
    rw [hbooks]
  · rw [hobjects] at hid
    rw [hobject, if_neg hid]
  · exact hcounters

/-- The order in which a pass goes through the lent objects makes no difference to the pool, and it
    takes the same objects. -/
theorem Sound.reclaimFrom_perm (h : p.Sound ℓ) (now : Instant) (timeout : Duration)
    (hids : ids.Perm p.registry.active) :
    (p.reclaimFrom now timeout ids).1 = (p.reclaimFrom now timeout p.registry.active).1 ∧
      (p.reclaimFrom now timeout ids).2.Perm
        (p.reclaimFrom now timeout p.registry.active).2 := by
  have hactive := h.nodup_active
  have hnodup : ids.Nodup := hids.nodup_iff.mpr hactive
  have hperm := hids.filter (p.isAbandoned now timeout)
  rw [reclaimFrom_eq hnodup p, reclaimFrom_eq hactive p]
  exact ⟨takeAwayAll_perm hperm (hnodup.filter _) fun id hid =>
    h.listed_of_isAbandoned (List.mem_filter.mp hid).2, hperm.map _⟩

end Pool

end ObjectPool
