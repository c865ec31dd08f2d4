/-
  ObjectPool.Proofs.Stretch.Culling

  Which idle objects a sweep removes. The sweep decides on one object after the
  other, with a count of the idle objects that goes down at each eviction. What
  comes of it is a choice from the queue as it was, given here in closed form for
  each rule, by induction on the queue with the count as it then stands.

    * `Eviction.culls` — those that a rule removes from a list.
    * `culls_timeToLive`, `culls_idleTimeout`, `mem_culls_iff` — the closed forms.
    * `culls_spares`, `culls_keeps` — what a rule leaves.
    * `Pool.Culled` — what a sweep makes of a pool.
    * `Sweepable.evict` — a sweep removes those that its rule does.
-/

import ObjectPool.Proofs.Stretch.Trials
import ObjectPool.Proofs.Stretch.Counts

namespace ObjectPool

/-- A list without repetition has as many of the members of a part of it as this part is long. -/
theorem countP_mem_of_sublist {l out : List Nat} (h : out.Sublist l) (hl : l.Nodup) :
    l.countP (fun x => decide (x ∈ out)) = out.length := by
  rw [List.countP_eq_length_filter]
  refine List.Perm.length_eq ?_
  refine (List.perm_ext_iff_of_nodup (hl.filter _) (h.nodup hl)).mpr fun x => ?_
  rw [List.mem_filter, decide_eq_true_iff]
  exact ⟨And.right, fun hx => ⟨h.mem hx, hx⟩⟩

namespace Eviction

/-! ## The choice of a rule -/

/-- Whether an object of some age has outlived the time to live, if the rule has one. -/
def outlived : Eviction → Duration → Bool
  | timeToLive ttl, age => decide (ttl.nanos < age.nanos)
  | combined ttl _, age => decide (ttl.nanos < age.nanos)
  | never, _ | idleTimeout _, _ => false

/-- Those of some idle objects that a rule removes one after the other, with a reserve of `m` to
    keep and `left` idle objects counted before the first. -/
def culls (rule : Eviction) (m : Nat) (age idleTime : Nat → Duration) (left : Nat) :
    List Nat → List Nat
  | [] => []
  | id :: rest =>
    if rule.evicts ⟨age id, idleTime id, left, m⟩ then
      id :: rule.culls m age idleTime (left - 1) rest
    else rule.culls m age idleTime left rest

variable {rule : Eviction} {m left id : Nat} {age idleTime : Nat → Duration}
  {ids pre post : List Nat} {c : Candidate}

/-- An object that has not outlived its time goes only while more than the reserve are left. -/
theorem spare_of_evicts (h : rule.evicts c = true) (hage : rule.outlived c.age = false) :
    c.minIdle < c.idleCount := by
  have hspare : ∀ {timeout : Duration}, outstayed timeout c = true → c.minIdle < c.idleCount :=
    fun ho => of_decide_eq_true (Bool.and_eq_true_iff.mp ho).2
  cases rule with
  | never => exact nomatch h
  | timeToLive => exact nomatch hage.symm.trans h
  | idleTimeout => exact hspare h
  | combined =>
    rcases Bool.or_eq_true_iff.mp h with hold | ho
    · exact nomatch hage.symm.trans hold
    · exact hspare ho

theorem culls_sublist (rule : Eviction) (m left : Nat) (age idleTime : Nat → Duration)
    (ids : List Nat) : (rule.culls m age idleTime left ids).Sublist ids := by
  induction ids generalizing left with
  | nil => exact .refl _
  | cons id rest ih =>
    rw [culls]
    split
    · exact (ih (left - 1)).cons_cons id
    · exact (ih left).cons id

/-- What goes from the second part of a list, goes with the count that the first part has left. -/
theorem culls_append : rule.culls m age idleTime left (pre ++ post) =
    rule.culls m age idleTime left pre ++
      rule.culls m age idleTime (left - (rule.culls m age idleTime left pre).length) post := by
  induction pre generalizing left with
  | nil => rfl
  | cons id pre ih =>
    rw [List.cons_append, culls, culls]
    split
    · rw [ih, List.cons_append, List.length_cons, Nat.sub_sub, Nat.add_comm 1]
    · exact ih

/-! ## Closed forms -/

theorem culls_never (m left : Nat) (age idleTime : Nat → Duration) (ids : List Nat) :
    never.culls m age idleTime left ids = [] := by
  induction ids generalizing left with
  | nil => rfl
  | cons id rest ih => exact ih left

/-- By age alone, whatever the reserve. -/
theorem culls_timeToLive (ttl : Duration) (m left : Nat) (age idleTime : Nat → Duration)
    (ids : List Nat) : (timeToLive ttl).culls m age idleTime left ids =
      ids.filter fun id => decide (ttl.nanos < (age id).nanos) := by
  induction ids generalizing left with
  | nil => rfl
  | cons id rest ih => rw [culls, ih, ih, List.filter_cons]; rfl

/-- By idle time alone, the first ones, as many as there are beyond the reserve. -/
theorem culls_idleTimeout (timeout : Duration) (m left : Nat) (age idleTime : Nat → Duration)
    (ids : List Nat) : (idleTimeout timeout).culls m age idleTime left ids =
      (ids.filter fun id => decide (timeout.nanos < (idleTime id).nanos)).take (left - m) := by
  induction ids generalizing left with
  | nil => exact List.take_nil.symm
  | cons id rest ih =>
    rw [culls, ih, ih, List.filter_cons]
    by_cases hlong : timeout.nanos < (idleTime id).nanos
    · by_cases hspare : m < left
      · have hgoes : (idleTimeout timeout).evicts ⟨age id, idleTime id, left, m⟩ = true := by
          simp [evicts, outstayed, hlong, hspare]
        have hcount : left - m = (left - 1 - m) + 1 := by omega
        rw [if_pos hgoes, if_pos (decide_eq_true hlong), hcount, List.take_succ_cons]
      · have hstays : (idleTimeout timeout).evicts ⟨age id, idleTime id, left, m⟩ = false := by
          simp [evicts, outstayed, hspare]
        have hnone : left - m = 0 := by omega
        rw [if_neg (Bool.eq_false_iff.mp hstays), hnone, List.take_zero, List.take_zero]
    · have hstays : (idleTimeout timeout).evicts ⟨age id, idleTime id, left, m⟩ = false := by
        simp [evicts, outstayed, hlong]
      rw [if_neg (Bool.eq_false_iff.mp hstays), if_neg (by simpa using hlong)]

/-- How many of the first part of a list go. -/
theorem length_culls_pre (hids : (pre ++ post).Nodup) :
    (rule.culls m age idleTime left pre).length =
      pre.countP fun x => decide (x ∈ rule.culls m age idleTime left (pre ++ post)) := by
  have hsub := culls_sublist rule m left age idleTime pre
  have hmem : ∀ x ∈ pre, x ∈ rule.culls m age idleTime left (pre ++ post) ↔
      x ∈ rule.culls m age idleTime left pre := by
    intro x hx
    rw [culls_append, List.mem_append, or_iff_left]
    intro hpost
    exact (List.nodup_append.mp hids).2.2 x hx x
      ((culls_sublist rule m _ age idleTime post).mem hpost) rfl
  rw [← countP_mem_of_sublist hsub (List.nodup_append.mp hids).1]
  exact List.countP_congr fun x hx => by rw [decide_eq_true_iff, decide_eq_true_iff, hmem x hx]

/-- An object goes if the rule removes it, with those counted that are left after the evictions
    before it. -/
theorem mem_culls_iff (hids : (pre ++ id :: post).Nodup) :
    id ∈ rule.culls m age idleTime left (pre ++ id :: post) ↔
      rule.evicts ⟨age id, idleTime id, left - pre.countP fun x =>
        decide (x ∈ rule.culls m age idleTime left (pre ++ id :: post)), m⟩ = true := by
  have hapart := (List.nodup_append.mp hids).2
  have hpre : id ∉ rule.culls m age idleTime left pre := fun hid =>
    hapart.2 id ((culls_sublist rule m left age idleTime pre).mem hid) id (.head _) rfl
  have hpost : ∀ n, id ∉ rule.culls m age idleTime n post := fun n hid =>
    (List.nodup_cons.mp hapart.1).1 ((culls_sublist rule m n age idleTime post).mem hid)
  rw [← length_culls_pre hids, culls_append, List.mem_append, or_iff_right hpre, culls]
  split
  · rename_i h
    exact iff_of_true (.head _) h
  · rename_i h
    exact iff_of_false (hpost _) h

/-- Not all that stand before an object are left, but at least the object itself is. -/
theorem countP_culls_lt (hleft : (pre ++ id :: post).length ≤ left) :
    (pre.countP fun x => decide (x ∈ rule.culls m age idleTime left (pre ++ id :: post))) <
      left := by
  have hle : (pre.countP fun x =>
      decide (x ∈ rule.culls m age idleTime left (pre ++ id :: post))) ≤ pre.length :=
    List.countP_le_length
  rw [List.length_append, List.length_cons] at hleft
  omega

/-! ## What a rule leaves -/

/-- Apart from those that have outlived their time, no more go than the reserve allows. -/
theorem culls_spares (hleft : ids.length ≤ left) :
    min m left ≤ left - (rule.culls m age idleTime left ids).length +
      ids.countP fun id => rule.outlived (age id) := by
  induction ids generalizing left with
  | nil => exact Nat.le_trans (Nat.min_le_right ..) (Nat.le_add_right ..)
  | cons id rest ih =>
    rw [List.length_cons] at hleft
    have hrest := (culls_sublist rule m (left - 1) age idleTime rest).length_le
    rw [culls, List.countP_cons]
    by_cases hgoes : rule.evicts ⟨age id, idleTime id, left, m⟩ = true
    · have hbound := ih (show rest.length ≤ left - 1 by omega)
      rw [if_pos hgoes, List.length_cons]
      cases hage : rule.outlived (age id) with
      | true =>
        rw [if_pos rfl]
        omega
      | false =>
        have hspare : m < left := spare_of_evicts hgoes hage
        rw [if_neg Bool.false_ne_true]
        omega
    · have hbound := ih (show rest.length ≤ left by omega)
      rw [if_neg hgoes]
      omega

/-- When an object goes that has not outlived its time, the reserve is left, except for those behind
    it that have. -/
theorem culls_spares_after (hids : (pre ++ id :: post).Nodup)
    (hleft : (pre ++ id :: post).length ≤ left)
    (hid : id ∈ rule.culls m age idleTime left (pre ++ id :: post))
    (hage : rule.outlived (age id) = false) :
    m ≤ left - (rule.culls m age idleTime left (pre ++ id :: post)).length +
      post.countP fun x => rule.outlived (age x) := by
  have hgoes := (mem_culls_iff hids).mp hid
  have hspare := spare_of_evicts hgoes hage
  have hpre := culls_sublist rule m left age idleTime pre
  rw [← length_culls_pre hids] at hgoes hspare
  generalize hn : (rule.culls m age idleTime left pre).length = n at hgoes hspare
  rw [culls_append, hn, culls, if_pos hgoes, List.length_append, List.length_cons, hn]
  rw [List.length_append, List.length_cons] at hleft
  have hlen := hn ▸ hpre.length_le
  have hbound : min m (left - n - 1) ≤
      left - n - 1 - (rule.culls m age idleTime (left - n - 1) post).length +
        post.countP fun x => rule.outlived (age x) := culls_spares (by omega)
  have hpost := (culls_sublist rule m (left - n - 1) age idleTime post).length_le
  have hmin : min m (left - n - 1) = m := Nat.min_eq_left (Nat.le_sub_one_of_lt hspare)
  omega

/-- If none that has outlived its time stands behind one that goes without having done so, the
    reserve is kept, as far as there are objects that have not outlived their time. -/
theorem culls_keeps (hids : ids.Nodup) (hbehind : ∀ pre id post, ids = pre ++ id :: post →
      id ∈ rule.culls m age idleTime ids.length ids → rule.outlived (age id) = false →
      ∀ x ∈ post, rule.outlived (age x) = false) :
    min m (ids.countP fun id => !rule.outlived (age id)) ≤
      ids.length - (rule.culls m age idleTime ids.length ids).length := by
  have hsub := culls_sublist rule m ids.length age idleTime ids
  by_cases hsoft : ∃ id ∈ rule.culls m age idleTime ids.length ids, rule.outlived (age id) = false
  · obtain ⟨id, hid, hage⟩ := hsoft
    obtain ⟨pre, post, rfl⟩ := List.append_of_mem (hsub.mem hid)
    have hkept := culls_spares_after hids (Nat.le_refl _) hid hage
    have hnone : (post.countP fun x => rule.outlived (age x)) = 0 :=
      List.countP_eq_zero.mpr fun x hx =>
        Bool.eq_false_iff.mp (hbehind pre id post rfl hid hage x hx)
    rw [hnone, Nat.add_zero] at hkept
    exact Nat.le_trans (Nat.min_le_left ..) hkept
  · -- all that go have outlived their time
    have hgone : (rule.culls m age idleTime ids.length ids).length ≤
        ids.countP fun id => rule.outlived (age id) := by
      have hold : ∀ id ∈ rule.culls m age idleTime ids.length ids, rule.outlived (age id) = true :=
        fun id hid => Bool.not_eq_false _ |>.mp fun hage => hsoft ⟨id, hid, hage⟩
      rw [← List.countP_eq_length.mpr hold]
      exact hsub.countP_le
    have hall := List.length_eq_countP_add_countP (fun id => rule.outlived (age id)) (l := ids)
    simp only [Bool.not_eq_true, Bool.decide_eq_false] at hall
    omega

end Eviction

namespace Pool

variable {ρ : Type} {p q q' : Pool ρ} {ℓ : Ledger ρ} {now : Instant} {left id : Nat}
  {ids out out' tests tests' : List Nat}

/-! ## What a sweep looks at -/

/-- The time since a stamp on an object. -/
def elapsed (p : Pool ρ) (now : Instant) (stamp : Entry ρ → Instant) (id : Nat) : Duration :=
  ((p.object? id).map fun e => now.since (stamp e)).getD .zero

/-- How old an object is. -/
def ageOf (p : Pool ρ) (now : Instant) : Nat → Duration := p.elapsed now Entry.createdAt

/-- How long ago an object was returned. -/
def idleFor (p : Pool ρ) (now : Instant) : Nat → Duration := p.elapsed now Entry.lastReturn

/-- Those of some idle objects that the settings of a pool have removed, with `left` idle objects
    counted. -/
def culled (p : Pool ρ) (now : Instant) (left : Nat) (ids : List Nat) : List Nat :=
  p.config.eviction.culls p.config.minIdle (p.ageOf now) (p.idleFor now) left ids

/-- The objects `ids` are distinct, and idle as far as the books and the objects themselves say. -/
structure Sweepable (p : Pool ρ) (ids : List Nat) : Prop where
  nodup : ids.Nodup
  tracked : ∀ id ∈ ids, id ∈ p.registry.tracked
  unlent : ∀ id ∈ ids, id ∉ p.registry.active
  state : ∀ id ∈ ids, p.isIn id .idle = true

theorem idleOldestFirst_perm (r : Registry) : r.idleOldestFirst.Perm r.idle := by
  unfold Registry.idleOldestFirst
  split
  · exact List.reverse_perm _
  · exact .refl _

theorem Sweepable.oldestFirst (h : p.Sweepable p.registry.idle) :
    p.Sweepable p.registry.idleOldestFirst where
  nodup := (idleOldestFirst_perm _).nodup_iff.mpr h.nodup
  tracked id hid := h.tracked id ((idleOldestFirst_perm _).mem_iff.mp hid)
  unlent id hid := h.unlent id ((idleOldestFirst_perm _).mem_iff.mp hid)
  state id hid := h.state id ((idleOldestFirst_perm _).mem_iff.mp hid)

theorem Sweepable.of_sublist (h : p.Sweepable ids) (hsub : tests.Sublist ids) :
    p.Sweepable tests where
  nodup := hsub.nodup h.nodup
  tracked id hid := h.tracked id (hsub.mem hid)
  unlent id hid := h.unlent id (hsub.mem hid)
  state id hid := h.state id (hsub.mem hid)

/-- What is left of a list behind its first object, after a step that leaves the others alone. -/
theorem Sweepable.rest (h : p.Sweepable (id :: ids))
    (ht : ∀ x, x ≠ id → x ∈ p.registry.tracked → x ∈ q.registry.tracked)
    (ha : ∀ x ∈ q.registry.active, x ∈ p.registry.active)
    (hs : ∀ x, x ≠ id → q.isIn x .idle = p.isIn x .idle) : q.Sweepable ids := by
  obtain ⟨hnotin, hnodup⟩ := List.nodup_cons.mp h.nodup
  have hne : ∀ x ∈ ids, x ≠ id := fun x hx he => hnotin (he ▸ hx)
  exact ⟨hnodup, fun x hx => ht x (hne x hx) (h.tracked x (.tail _ hx)),
    fun x hx hact => h.unlent x (.tail _ hx) (ha x hact),
    fun x hx => (hs x (hne x hx)).trans (h.state x (.tail _ hx))⟩

theorem elapsed_setState {stamp : Entry ρ → Instant}
    (hstamp : ∀ s e, stamp (Entry.become s e) = stamp e) (p : Pool ρ) (now : Instant) (id : Nat)
    (s : Lifecycle) : (p.setState id s).elapsed now stamp = p.elapsed now stamp := by
  funext x
  unfold elapsed setState
  rw [object?_modify]
  split
  · cases p.object? x with
    | none => rfl
    | some e => simp only [Option.map_some, Option.getD_some, hstamp]
  · rfl

/-- The states of objects have no part in the choice. -/
theorem culled_setState (p : Pool ρ) (now : Instant) (id left : Nat) (s : Lifecycle)
    (ids : List Nat) : (p.setState id s).culled now left ids = p.culled now left ids := by
  have hage : (p.setState id s).ageOf now = p.ageOf now :=
    elapsed_setState (fun s e => by unfold Entry.become; split <;> rfl) p now id s
  have hidle : (p.setState id s).idleFor now = p.idleFor now :=
    elapsed_setState (fun s e => by unfold Entry.become; split <;> rfl) p now id s
  unfold culled
  rw [hage, hidle]
  rfl

/-- What the sweep knows of an object, in terms of the pool. -/
theorem candidate_eq {e : Entry ρ} (he : p.object? id = some e) (now : Instant) (left : Nat) :
    p.candidate now e left = ⟨p.ageOf now id, p.idleFor now id, left, p.config.minIdle⟩ := by
  unfold candidate ageOf idleFor elapsed
  rw [he]
  rfl

theorem isIn_setState_of_ne {x : Nat} (hx : x ≠ id) (p : Pool ρ) (s k : Lifecycle) :
    (p.setState id s).isIn x k = p.isIn x k := by
  rw [isIn_eq_shape?, isIn_eq_shape?, shape?_setState, if_neg (Ne.symm hx)]

theorem stateOf_setState_of_ne {x : Nat} (hx : x ≠ id) (p : Pool ρ) (s : Lifecycle) :
    (p.setState id s).stateOf x = p.stateOf x := by
  rw [stateOf_eq_shape?, stateOf_eq_shape?, shape?_setState, if_neg (Ne.symm hx)]

/-- The object is there. -/
theorem stateOf_setState_self {k : Lifecycle} (h : p.isIn id k = true) (s s' : Lifecycle) :
    ((p.setState id s').setState id s).stateOf id = s := by
  rw [isIn_eq_shape?] at h
  rw [stateOf_eq_shape?, shape?_setState, if_pos rfl, shape?_setState, if_pos rfl]
  cases hv : p.shape? id with
  | none => rw [hv] at h; exact nomatch h
  | some v => rfl

/-! ## What a sweep makes of a pool -/

/-- The pool once the next object is removed. -/
def remove (id : Nat) (p : Pool ρ) : Pool ρ :=
  ((p.setState id .evictionTest).setState id .invalid).detach id

/-- The pool once the next object is taken out to be tried out. -/
def setApart (id : Nat) (p : Pool ρ) : Pool ρ :=
  ((p.setState id .evictionTest).setState id .validation).book (Registry.removeIdle id)

/-- The pool once the next object was looked at and left. -/
def lookAt (id : Nat) (p : Pool ρ) : Pool ρ := (p.setState id .evictionTest).setState id .idle

/-- The objects `out` were taken out of the pool `p` to be destroyed and the objects `tests` out of
    the idle queue to be tried out, which has led to the pool `q`. -/
structure Culled (p q : Pool ρ) (out tests : List Nat) : Prop where
  config : q.config = p.config
  counters : q.counters = p.counters
  closed : q.registry.closed = p.registry.closed
  active : q.registry.active = p.registry.active
  creating : q.registry.creating = p.registry.creating
  tracked : q.registry.tracked = p.registry.tracked.filter fun x => decide (x ∉ out)
  idle : q.registry.idle = p.registry.idle.filter fun x => decide (x ∉ out ∧ x ∉ tests)
  states : ∀ x, q.stateOf x =
    if x ∈ out then .invalid else if x ∈ tests then .validation else p.stateOf x

namespace Culled

theorem refl (p : Pool ρ) : p.Culled p [] [] where
  config := rfl
  counters := rfl
  closed := rfl
  active := rfl
  creating := rfl
  tracked := (List.filter_eq_self.mpr fun _ _ => decide_eq_true List.not_mem_nil).symm
  idle := (List.filter_eq_self.mpr fun _ _ =>
    decide_eq_true ⟨List.not_mem_nil, List.not_mem_nil⟩).symm
  states x := by rw [if_neg List.not_mem_nil, if_neg List.not_mem_nil]

/-- Two parts of a sweep, if the second tries out nothing that the first has removed. -/
theorem trans (h : p.Culled q out tests) (h' : q.Culled q' out' tests')
    (happart : ∀ x ∈ out, x ∉ tests') : p.Culled q' (out ++ out') (tests ++ tests') where
  config := h'.config.trans h.config
  counters := h'.counters.trans h.counters
  closed := h'.closed.trans h.closed
  active := h'.active.trans h.active
  creating := h'.creating.trans h.creating
  tracked := by
    rw [h'.tracked, h.tracked, List.filter_filter]
    refine List.filter_congr fun x _ => ?_
    simp only [List.mem_append, not_or, Bool.decide_and, Bool.and_comm]
  idle := by
    rw [h'.idle, h.idle, List.filter_filter]
    refine List.filter_congr fun x _ => ?_
    rw [← Bool.decide_and, decide_eq_decide, List.mem_append, List.mem_append]
    tauto
  states x := by
    rw [h'.states x, h.states x]
    by_cases hout : x ∈ out
    · have hnot := happart x hout
      simp [hout, hnot]
    · by_cases hout' : x ∈ out'
      · simp [hout']
      · by_cases htests' : x ∈ tests' <;> simp [hout, hout', htests']

/-- The next object is removed. -/
theorem evicted (ht : id ∈ p.registry.tracked) (ha : id ∉ p.registry.active)
    (hs : p.isIn id .idle = true) :
    p.Culled (p.remove id) [id] [] := by
  have hbooks : (p.remove id).registry =
      { p.registry with
        tracked := Registry.without id p.registry.tracked
        active := Registry.without id p.registry.active
        idle := Registry.without id p.registry.idle }.wakeNext := by
    show p.registry.detach id = _
    rw [Registry.detach, if_pos ht, if_neg ha]
  refine ⟨rfl, rfl, by rw [hbooks]; rfl, ?_, by rw [hbooks]; rfl, ?_, ?_, fun x => ?_⟩
  · rw [hbooks]
    exact List.filter_eq_self.mpr fun x hx => decide_eq_true fun he => ha (he ▸ hx)
  · rw [hbooks]
    exact List.filter_congr fun x _ => by simp
  · rw [hbooks]
    exact List.filter_congr fun x _ => by simp
  · by_cases hx : x = id
    · subst hx
      rw [if_pos (List.mem_singleton.mpr rfl)]
      exact stateOf_setState_self hs .invalid .evictionTest
    · rw [if_neg (by simpa using hx), if_neg List.not_mem_nil]
      exact (stateOf_setState_of_ne hx _ _).trans (stateOf_setState_of_ne hx _ _)

/-- The next object is to be tried out. -/
theorem tested (hs : p.isIn id .idle = true) :
    p.Culled (p.setApart id) [] [id] where
  config := rfl
  counters := rfl
  closed := rfl
  active := rfl
  creating := rfl
  tracked := (List.filter_eq_self.mpr fun _ _ => decide_eq_true List.not_mem_nil).symm
  idle := List.filter_congr fun x _ => by simp
  states x := by
    rw [if_neg List.not_mem_nil]
    by_cases hx : x = id
    · subst hx
      rw [if_pos (List.mem_singleton.mpr rfl)]
      exact stateOf_setState_self hs .validation .evictionTest
    · rw [if_neg (by simpa using hx)]
      exact (stateOf_setState_of_ne hx _ _).trans (stateOf_setState_of_ne hx _ _)

/-- The next object stays as it is. -/
theorem kept (hs : p.isIn id .idle = true) :
    p.Culled (p.lookAt id) [] [] where
  config := rfl
  counters := rfl
  closed := rfl
  active := rfl
  creating := rfl
  tracked := (refl p).tracked
  idle := (refl p).idle
  states x := by
    rw [if_neg List.not_mem_nil, if_neg List.not_mem_nil]
    by_cases hx : x = id
    · subst hx
      exact (stateOf_setState_self hs ..).trans ((stateOf_eq_iff (by decide)).mpr hs).symm
    · exact (stateOf_setState_of_ne hx _ _).trans (stateOf_setState_of_ne hx _ _)

end Culled

/-- Those that the settings have tried out of those that are not removed. -/
def tried (p : Pool ρ) (out ids : List Nat) : List Nat :=
  if p.config.testWhileIdle then ids.filter fun x => decide (x ∉ out) else []

theorem tried_cons_self (p : Pool ρ) (hid : id ∉ ids) :
    p.tried (id :: out) (id :: ids) = p.tried out ids := by
  unfold tried
  rw [List.filter_cons_of_neg (by simp)]
  have hsame :
      (ids.filter fun x => decide (x ∉ id :: out)) = ids.filter fun x => decide (x ∉ out) :=
    List.filter_congr fun x hx => by
      have hne : x ≠ id := fun he => hid (he ▸ hx)
      simp [hne]
  rw [hsame]

theorem tried_cons_of_not_mem (p : Pool ρ) (hid : id ∉ out) :
    p.tried out (id :: ids) = (if p.config.testWhileIdle then [id] else []) ++ p.tried out ids := by
  unfold tried
  rw [List.filter_cons_of_pos (by simpa using hid)]
  split <;> rfl

/-- Whether the settings have an object removed, with `left` idle objects counted. -/
def removes (p : Pool ρ) (now : Instant) (left id : Nat) : Bool :=
  p.config.eviction.evicts ⟨p.ageOf now id, p.idleFor now id, left, p.config.minIdle⟩

theorem culled_cons (p : Pool ρ) (now : Instant) (left id : Nat) (ids : List Nat) :
    p.culled now left (id :: ids) =
      if p.removes now left id then id :: p.culled now (left - 1) ids
      else p.culled now left ids := rfl

/-- One step of the sweep. -/
theorem Sweepable.sortIdle_cons (h : p.Sweepable (id :: ids)) (now : Instant) (left : Nat) :
    p.sortIdle now left (id :: ids) =
      if p.removes now left id then
        let s := (p.remove id).sortIdle now (left - 1) ids
        { s with out := id :: s.out }
      else if p.config.testWhileIdle then
        let s := (p.setApart id).sortIdle now left ids
        { s with tests := id :: s.tests }
      else (p.lookAt id).sortIdle now left ids := by
  have ht := h.tracked id (.head _)
  obtain ⟨e, he, hin⟩ := (Option.any_eq_true _ _).mp (h.state id (.head _))
  rw [Pool.sortIdle, he]
  dsimp only
  rw [if_neg (by simp [ht, hin]), candidate_eq he]
  rfl

theorem tried_sublist (p : Pool ρ) (out ids : List Nat) : (p.tried out ids).Sublist ids := by
  unfold tried
  split
  · exact List.filter_sublist
  · exact List.nil_sublist _

theorem not_mem_of_mem_tried {x : Nat} (hx : x ∈ p.tried out ids) : x ∉ out := by
  unfold tried at hx
  split at hx
  · exact of_decide_eq_true (List.mem_filter.mp hx).2
  · exact nomatch hx

/-- The sweep, by induction on the objects still to be looked at: it removes those that the settings
    have removed, and has the others tried out or leaves them. -/
theorem Sweepable.sortIdle (h : p.Sweepable ids) (now : Instant) (left : Nat) :
    (p.sortIdle now left ids).out = p.culled now left ids ∧
      (p.sortIdle now left ids).tests = p.tried (p.culled now left ids) ids ∧
      p.Culled (p.sortIdle now left ids).pool (p.culled now left ids)
        (p.tried (p.culled now left ids) ids) := by
  induction ids generalizing p left with
  | nil =>
    have hnone : p.tried (p.culled now left []) [] = [] := ite_self _
    rw [hnone]
    exact ⟨rfl, rfl, .refl p⟩
  | cons id rest ih =>
    have hs := h.state id (.head _)
    obtain ⟨hnotin, -⟩ := List.nodup_cons.mp h.nodup
    have hlook : ∀ (s : Lifecycle) (x : Nat), x ≠ id →
        ((p.setState id .evictionTest).setState id s).isIn x .idle = p.isIn x .idle :=
      fun s x hx => (isIn_setState_of_ne hx _ _ _).trans (isIn_setState_of_ne hx _ _ _)
    have hchoice : ∀ (s : Lifecycle) (n : Nat),
        ((p.setState id .evictionTest).setState id s).culled now n rest = p.culled now n rest :=
      fun s n => (culled_setState ..).trans (culled_setState ..)
    have hstays : ∀ n, id ∉ p.culled now n rest := fun n hid =>
      hnotin ((Eviction.culls_sublist ..).mem hid)
    rw [h.sortIdle_cons, p.culled_cons]
    by_cases hgoes : p.removes now left id = true
    · have hstep : p.Culled (p.remove id) [id] [] :=
        .evicted (h.tracked id (.head _)) (h.unlent id (.head _)) hs
      have hrest : (p.remove id).Sweepable rest :=
        h.rest (fun x hx hx' => Registry.mem_detach_tracked.mpr ⟨hx', hx⟩)
          (fun x hx => hstep.active ▸ hx) (hlook .invalid)
      obtain ⟨hout, htests, hculled⟩ := ih hrest (left - 1)
      rw [show (p.remove id).culled now (left - 1) rest = _ from hchoice .invalid _]
        at hout htests hculled
      rw [if_pos hgoes, if_pos hgoes, p.tried_cons_self hnotin]
      refine ⟨congrArg (id :: ·) hout, htests, hstep.trans hculled fun x hx hxt => ?_⟩
      exact hnotin ((tried_sublist ..).mem (List.mem_singleton.mp hx ▸ hxt))
    · rw [if_neg hgoes, if_neg hgoes, p.tried_cons_of_not_mem (hstays left)]
      by_cases htest : p.config.testWhileIdle = true
      · have hstep : p.Culled (p.setApart id) [] [id] := .tested hs
        have hrest : (p.setApart id).Sweepable rest :=
          h.rest (fun x _ hx' => hx') (fun x hx => hx) (hlook .validation)
        obtain ⟨hout, htests, hculled⟩ := ih hrest left
        rw [show (p.setApart id).culled now left rest = _ from hchoice .validation _]
          at hout htests hculled
        rw [if_pos htest, if_pos htest]
        exact ⟨hout, congrArg (id :: ·) htests, hstep.trans hculled fun x hx => nomatch hx⟩
      · have hstep : p.Culled (p.lookAt id) [] [] := .kept hs
        have hrest : (p.lookAt id).Sweepable rest :=
          h.rest (fun x _ hx' => hx') (fun x hx => hx) (hlook .idle)
        obtain ⟨hout, htests, hculled⟩ := ih hrest left
        rw [show (p.lookAt id).culled now left rest = _ from hchoice .idle _]
          at hout htests hculled
        rw [if_neg htest, if_neg htest]
        exact ⟨hout, htests, hstep.trans hculled fun x hx => nomatch hx⟩

/-- The idle sweep of a pool: it removes those that the settings have removed, looking at the one
    idle for longest first and counting them all, and has the others tried out or leaves them. -/
theorem Sweepable.evict (h : p.Sweepable p.registry.idle) (now : Instant) :
    ∃ q, p.evict now = q.go (.evicting
        (p.culled now p.registry.idle.length p.registry.idleOldestFirst)
        (p.tried (p.culled now p.registry.idle.length p.registry.idleOldestFirst)
          p.registry.idleOldestFirst)
        (p.culled now p.registry.idle.length p.registry.idleOldestFirst).length) ∧
      p.Culled q (p.culled now p.registry.idle.length p.registry.idleOldestFirst)
        (p.tried (p.culled now p.registry.idle.length p.registry.idleOldestFirst)
          p.registry.idleOldestFirst) := by
  obtain ⟨hout, htests, hculled⟩ := h.oldestFirst.sortIdle now p.registry.idle.length
  unfold Pool.evict
  split
  · -- without a rule and without trials there is nothing to do
    rename_i hnone
    have hchoice : p.culled now p.registry.idle.length p.registry.idleOldestFirst = [] := by
      unfold Pool.culled
      rw [hnone.1]
      exact Eviction.culls_never ..
    have hnotests : p.tried [] p.registry.idleOldestFirst = [] := by
      unfold Pool.tried
      rw [hnone.2]
      rfl
    rw [hchoice, hnotests]
    exact ⟨p, rfl, .refl p⟩
  · dsimp only
    rw [hout, htests]
    exact ⟨_, rfl, hculled⟩

/-- What is left: the idle objects, and those that are tried out. -/
theorem Culled.length_left (h : p.Culled q out (p.tried out p.registry.idleOldestFirst))
    (hnodup : p.registry.idle.Nodup) (hsub : out.Sublist p.registry.idleOldestFirst) :
    q.registry.idle.length + (p.tried out p.registry.idleOldestFirst).length =
      p.registry.idle.length - out.length := by
  have hperm := idleOldestFirst_perm p.registry
  have hgone : p.registry.idle.countP (fun x => decide (x ∈ out)) = out.length :=
    (hperm.countP_eq _).symm.trans (countP_mem_of_sublist hsub (hperm.nodup_iff.mpr hnodup))
  have hrest : (p.registry.idle.filter fun x => decide (x ∉ out)).length =
      p.registry.idle.length - out.length := by
    have hall := List.length_eq_countP_add_countP (fun x => decide (x ∈ out))
      (l := p.registry.idle)
    simp only [decide_eq_true_eq] at hall
    rw [← List.countP_eq_length_filter]
    omega
  rw [h.idle]
  unfold tried
  split
  · -- those that are not removed are all tried out
    have hnone : (p.registry.idle.filter fun x => decide (x ∉ out ∧
        x ∉ p.registry.idleOldestFirst.filter fun x => decide (x ∉ out))) = [] := by
      refine List.filter_eq_nil_iff.mpr fun x hx => ?_
      simp [hperm.mem_iff, hx]
    rw [hnone, List.length_nil, Nat.zero_add, (hperm.filter _).length_eq, hrest]
  · rw [← hrest]
    simp

end Pool

namespace World

theorem Agrees.sweepable {ρ : Type} {w : World ρ} {i : Nat} {p : Pool ρ} (h : w.Agrees i p) :
    p.Sweepable p.registry.idle where
  nodup := h.idle_nodup
  tracked _ hid := h.tracked.mem_iff.mpr (List.mem_append_left _ (List.mem_append_left _ hid))
  unlent := h.disjoint
  state := h.idle

end World

end ObjectPool
