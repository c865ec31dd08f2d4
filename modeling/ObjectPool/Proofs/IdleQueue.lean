/-
  ObjectPool.Proofs.IdleQueue

  What an event does to the idle queue of a pool. Most events only take from it. An
  object that was returned, or made for the queue, joins it at the end where the
  youngest stand, and only below the ceiling. One that was tried out goes back to the
  end that is lent last, whatever is idle by then.

    * `Episode.joined`, `Episode.putBack` — which objects an episode brings.
    * `World.rounds` — what each call has under trial.
    * `IdleMoves`, `react_idle` — what an event does to the queue.
    * `Run.handOut`, `Run.putBack_eq_nil` — the order is the one in the settings, and
      nothing is put back unless the settings say that idle objects are tried out.
-/

import ObjectPool.Proofs.Agreement
import ObjectPool.Proofs.Protocol.History
import ObjectPool.Proofs.Stretch.Trials

namespace ObjectPool

variable {ρ : Type}

/-! ## Which objects become idle -/

/-- The objects of a list that are not in either of two others. -/
def newcomers (l tests l' : List Nat) : List Nat :=
  l'.filter fun id => decide (id ∉ l ∧ id ∉ tests)

/-- The objects of a list that are in another one. -/
def among (l' tests : List Nat) : List Nat := tests.filter fun id => decide (id ∈ l')

namespace Episode

/-- The objects of the pool `i` that are idle after an episode and were neither idle nor tried
    out before. -/
def joined (i : Nat) (e : Episode ρ) : List Nat :=
  newcomers (e.before.idleOf i) (e.before.inCharge i Custody.isTest) (e.after.idleOf i)

/-- The objects of the pool `i` that were tried out and are idle after an episode. -/
def putBack (i : Nat) (e : Episode ρ) : List Nat :=
  among (e.after.idleOf i) (e.before.inCharge i Custody.isTest)

end Episode

/-- What an event does to the idle queue of a pool with the order `o` and the ceiling `n`, with
    the objects that join it and those that are put back. -/
inductive IdleMoves (o : HandOut) (n : Nat) (l : List Nat) :
    List Nat → List Nat → List Nat → Prop
  | thin {l' : List Nat} (h : l'.Sublist l) : IdleMoves o n l l' [] []
  | join {id : Nat} (hid : id ∉ l) (hroom : l.length < n) : IdleMoves o n l (o.push id l) [id] []
  | putBack {id : Nat} (hid : id ∉ l) : IdleMoves o n l (l ++ [id]) [] [id]

/-! ## Queues -/

section Queues

variable {l l' tests : List Nat} {id x : Nat} {o : HandOut}

theorem newcomers_eq_nil (h : ∀ id ∈ l', id ∈ l ∨ id ∈ tests) : newcomers l tests l' = [] := by
  refine List.filter_eq_nil_iff.mpr fun id hid hb => ?_
  obtain ⟨hl, ht⟩ := of_decide_eq_true hb
  exact (h id hid).elim hl ht

theorem among_eq_nil (h : ∀ id ∈ tests, id ∉ l') : among l' tests = [] :=
  List.filter_eq_nil_iff.mpr fun id hid hb => h id hid (of_decide_eq_true hb)

/-- An object that is pushed is the one newcomer. -/
theorem newcomers_push (hl : id ∉ l) (ht : id ∉ tests) :
    newcomers l tests (o.push id l) = [id] := by
  have hold : newcomers l tests l = [] := newcomers_eq_nil fun _ hx => .inl hx
  have hnew : newcomers l tests [id] = [id] := by simp [newcomers, hl, ht]
  have happend : ∀ a b, newcomers l tests (a ++ b) = newcomers l tests a ++ newcomers l tests b :=
    fun _ _ => List.filter_append ..
  cases o with
  | lifo => rw [HandOut.push, ← List.singleton_append, happend, hold, hnew, List.append_nil]
  | fifo => rw [HandOut.push, happend, hold, hnew, List.nil_append]

/-- Of the objects that were tried out the one that goes back is the only one. -/
theorem among_append (hl : ∀ x ∈ tests, x ∉ l) (ht : tests.count id = 1) :
    among (l ++ [id]) tests = [id] := by
  have hsame : among (l ++ [id]) tests = tests.filter (· == id) := by
    refine List.filter_congr fun x hx => ?_
    have hx := hl x hx
    by_cases hid : x = id <;> simp [hid, hx]
  rw [hsame, List.filter_beq, ht]
  rfl

end Queues

/-- An object that is laid to rest, but not after a trial, is in another charge. -/
theorem Rest.charge (id : Nat) {k : Rest} (hk : k.isTest = false) :
    ∃ c, (id, c) ∈ (Point.passivating (ρ := ρ) id k).charges ∧ c.isTest = false := by
  cases k with
  | test => exact nomatch hk
  | stock | takeBack => exact ⟨_, List.mem_singleton.mpr rfl, rfl⟩

/-! ## Objects under trial -/

/-- The objects that calls have under trial, call by call. -/
def roundsOf (pts : List (Point ρ)) : List (List Nat) :=
  (pts.map Point.trials).filter fun l => !l.isEmpty

section Rounds

variable {pts pts' : List (Point ρ)} {pt : Point ρ} {next : Next ρ}

theorem roundsOf_append : roundsOf (pts ++ pts') = roundsOf pts ++ roundsOf pts' := by
  rw [roundsOf, List.map_append, List.filter_append]
  rfl

theorem roundsOf_perm (h : pts.Perm pts') : (roundsOf pts).Perm (roundsOf pts') :=
  (h.map _).filter _

theorem roundsOf_singleton (pt : Point ρ) :
    roundsOf [pt] = if pt.trials = [] then [] else [pt.trials] := by
  unfold roundsOf
  rw [List.map_singleton, List.filter_singleton]
  cases pt.trials <;> rfl

theorem roundsOf_next (next : Next ρ) :
    roundsOf next.points = if next.trials = [] then [] else [next.trials] := by
  cases next with
  | go pt => exact roundsOf_singleton pt
  | finish r => rfl

theorem flatten_roundsOf (next : Next ρ) : (roundsOf next.points).flatten = next.trials := by
  rw [roundsOf_next]
  split
  · rename_i h
    rw [h, List.flatten_nil]
  · exact List.flatten_singleton

/-- A call that begins tries nothing out. -/
theorem roundsOf_opens (h : ∀ pt ∈ pts, pt.Opens) : roundsOf pts = [] := by
  refine List.filter_eq_nil_iff.mpr fun l hl => ?_
  obtain ⟨pt, hpt, rfl⟩ := List.mem_map.mp hl
  rw [← pt.trials_eq, (h pt hpt).charges]
  exact Bool.false_ne_true

end Rounds

namespace World

variable {w : World ρ} {e : Event ρ} {f : Effect ρ} {t i id : Nat} {a : Activity ρ} {q : Pool ρ}
  {s : Stretch ρ} {g : Nat → List Nat} {gs : List Nat} {kind : Custody ρ → Bool}

/-! ## Objects in the charge of a call -/

/-- An object in the charge of a call is not idle. -/
theorem SoundAt.not_idle (h : w.SoundAt i gs) (hid : id ∈ w.inCharge i kind) :
    id ∉ w.idleOf i := by
  obtain ⟨c, hc, -⟩ := mem_inCharge.mp hid
  cases hq : w.pools[i]? with
  | none =>
    rw [(h.housed hq).1] at hc
    exact nomatch hc
  | some q =>
    rw [idleOf_eq hq]
    exact (h.sound q hq).not_idle_of_charge hc

/-- An object that a call has in its charge is in charges of its kind once or not at all. -/
theorem SoundAt.count_inCharge (h : w.SoundAt i gs) {pt : Point ρ} {c : Custody ρ}
    (hpt : pt ∈ w.points i) (hc : (id, c) ∈ pt.charges) (kind : Custody ρ → Bool) :
    (w.inCharge i kind).count id = if kind c then 1 else 0 := by
  have hall : (id, c) ∈ (w.points i).flatMap Point.charges := List.mem_flatMap.mpr ⟨pt, hpt, hc⟩
  cases hq : w.pools[i]? with
  | none =>
    rw [(h.housed hq).1] at hpt
    exact nomatch hpt
  | some q =>
    have hclaims : claims id ((w.points i).flatMap Point.charges) = [c] :=
      (h.sound q hq).claims_of_charge hall
    rw [World.count_inCharge, hclaims, List.countP_cons, List.countP_nil, Nat.zero_add]

theorem SoundAt.not_idle_of_point (h : w.SoundAt i gs) {pt : Point ρ} {c : Custody ρ}
    (hpt : pt ∈ w.points i) (hc : (id, c) ∈ pt.charges) : id ∉ w.idleOf i :=
  have hall : id ∈ w.inCharge i fun _ => true :=
    mem_inCharge.mpr ⟨c, List.mem_flatMap.mpr ⟨pt, hpt, hc⟩, rfl⟩
  h.not_idle hall

/-- An object that a call has in another charge is in none of the kind. -/
theorem SoundAt.not_inCharge (h : w.SoundAt i gs) {pt : Point ρ} {c : Custody ρ}
    (hpt : pt ∈ w.points i) (hc : (id, c) ∈ pt.charges) (hk : kind c = false) :
    id ∉ w.inCharge i kind := by
  refine List.count_eq_zero.mp ?_
  rw [h.count_inCharge hpt hc, hk]
  rfl

/-- What a call has under trial is in a charge of that kind. -/
theorem mem_inCharge_of_trials {pt : Point ρ} (hpt : pt ∈ w.points i) (hid : id ∈ pt.trials) :
    id ∈ w.inCharge i Custody.isTest := by
  rw [← pt.trials_eq] at hid
  obtain ⟨⟨x, c⟩, hmem, rfl⟩ := List.mem_map.mp hid
  obtain ⟨hc, hk⟩ := List.mem_filter.mp hmem
  exact mem_inCharge.mpr ⟨c, List.mem_flatMap.mpr ⟨pt, hpt, hc⟩, hk⟩

theorem SoundAt.nodup_idle (h : w.SoundAt i gs) : (w.idleOf i).Nodup := by
  cases hp : w.pools[i]? with
  | some p =>
    rw [idleOf_eq hp]
    exact (h.agrees hp).idle_nodup
  | none =>
    rw [idleOf, hp]
    exact .nil

/-- The objects that the calls on the pool `i` have under trial, call by call. -/
def rounds (w : World ρ) (i : Nat) : List (List Nat) := roundsOf (w.points i)

/-- The objects under trial are those of all the calls. -/
theorem flatten_rounds (w : World ρ) (i : Nat) :
    (w.rounds i).flatten = w.inCharge i Custody.isTest := by
  rw [rounds, roundsOf, List.flatten_filter_not_isEmpty, inCharge, List.filter_flatMap,
    List.map_flatMap, ← List.flatMap_def]
  refine List.flatMap_congr fun pt _ => ?_
  exact pt.trials_eq.symm

theorem Spares.rounds (h : w.Spares f.world i) : (f.world.rounds i).Perm (w.rounds i) := by
  obtain ⟨new, hopens, hperm⟩ := h.calls
  have hrounds := roundsOf_perm hperm.symm
  rwa [roundsOf_append, roundsOf_opens hopens, List.nil_append] at hrounds

theorem Spares.tests (h : w.Spares f.world i) :
    id ∈ f.world.inCharge i Custody.isTest ↔ id ∈ w.inCharge i Custody.isTest := by
  rw [← flatten_rounds, ← flatten_rounds]
  exact h.rounds.flatten.mem_iff

/-- Only the call that runs for a stretch may begin or end trials. -/
theorem Works.rounds (h : w.Works e f t a q s) : ∃ others : List (List Nat),
    (w.rounds a.pool).Perm (roundsOf [a.point] ++ others) ∧
      (f.world.rounds a.pool).Perm (roundsOf s.next.points ++ others) := by
  refine ⟨roundsOf ((w.pop t).points a.pool), ?_, ?_⟩
  · rw [← roundsOf_append]
    exact roundsOf_perm h.stretches.points
  · obtain ⟨-, new, hopens, hperm⟩ := h.lands
    have hrounds := roundsOf_perm hperm.symm
    rwa [roundsOf_append, roundsOf_append, roundsOf_opens hopens, List.nil_append] at hrounds

/-- What a stretch draws from the idle queue of its pool. -/
theorem Works.draws (h : w.Works e f t a q s) (hw : w.Sound g) : s.Draws q a.point := by
  rcases h.runs with ⟨-, hs⟩ | ⟨r, -, hs⟩
  · exact Pool.advance_draws ((hw.pools a.pool).sound q h.pool) hs
  · exact Pool.respond_draws hs

/-- What is under trial after a stretch is so for the call that ran, or was so before. -/
theorem Works.tests (h : w.Works e f t a q s) (hid : id ∈ f.world.inCharge a.pool Custody.isTest) :
    id ∈ s.next.trials ∨ id ∈ w.inCharge a.pool Custody.isTest := by
  rw [← flatten_rounds] at hid ⊢
  obtain ⟨others, hbefore, hafter⟩ := h.rounds
  have hin := hafter.flatten.mem_iff.mp hid
  rw [List.flatten_append, flatten_roundsOf] at hin
  rcases List.mem_append.mp hin with hnext | hother
  · exact .inl hnext
  · refine .inr (hbefore.flatten.mem_iff.mpr ?_)
    rw [List.flatten_append]
    exact List.mem_append_right _ hother

/-- An object under trial was so before the event, or idle. -/
theorem react_trials (hw : w.Sound g) (hr : w.react e = some f)
    (hid : id ∈ f.world.inCharge i Custody.isTest) :
    id ∈ w.idleOf i ∨ id ∈ w.inCharge i Custody.isTest := by
  rcases react_at hr i with ⟨hspares, -⟩ | ⟨t, a, q, s, h, rfl⟩
  · exact .inr (hspares.tests.mp hid)
  · rcases h.tests hid with hnext | hold
    · rcases (h.draws hw).trials with hs | ⟨-, hs, -⟩
      · exact .inr (mem_inCharge_of_trials h.call_mem (hs.mem hnext))
      · rw [idleOf_eq h.pool]
        exact .inl (Registry.mem_idleOldestFirst.mp (hs.mem hnext))
    · exact .inr hold

/-! ## What an event does to the queue -/

/-- An event that only takes from the queue brings nothing. -/
theorem SoundAt.idle_thin (h : w.SoundAt i gs) {o : HandOut} {n : Nat}
    (hs : (f.world.idleOf i).Sublist (w.idleOf i)) :
    IdleMoves o n (w.idleOf i) (f.world.idleOf i) (Episode.joined i ⟨w, e, f⟩)
      (Episode.putBack i ⟨w, e, f⟩) := by
  have hjoined : Episode.joined i ⟨w, e, f⟩ = [] := newcomers_eq_nil fun id hid => .inl (hs.mem hid)
  have hback : Episode.putBack i ⟨w, e, f⟩ = [] :=
    among_eq_nil fun id hid hmem => h.not_idle hid (hs.mem hmem)
  rw [hjoined, hback]
  exact .thin hs

/-- An event that pushes an object brings that one. -/
theorem SoundAt.idle_join (h : w.SoundAt i gs) {o : HandOut} {n : Nat} (hid : id ∉ w.idleOf i)
    (ht : id ∉ w.inCharge i Custody.isTest) (hroom : (w.idleOf i).length < n)
    (hf : f.world.idleOf i = o.push id (w.idleOf i)) :
    IdleMoves o n (w.idleOf i) (f.world.idleOf i) (Episode.joined i ⟨w, e, f⟩)
      (Episode.putBack i ⟨w, e, f⟩) := by
  show IdleMoves o n _ _ (newcomers _ _ (f.world.idleOf i)) (among (f.world.idleOf i) _)
  rw [hf, newcomers_push hid ht, among_eq_nil fun x hx hmem => ?_]
  · exact .join hid hroom
  · rcases HandOut.mem_push.mp hmem with rfl | hmem
    · exact ht hx
    · exact h.not_idle hx hmem

/-- An event after which an object stands last that was tried out puts that one back. -/
theorem SoundAt.idle_putBack (h : w.SoundAt i gs) {o : HandOut} {n : Nat}
    (hid : (w.inCharge i Custody.isTest).count id = 1)
    (hf : f.world.idleOf i = w.idleOf i ++ [id]) :
    IdleMoves o n (w.idleOf i) (f.world.idleOf i) (Episode.joined i ⟨w, e, f⟩)
      (Episode.putBack i ⟨w, e, f⟩) := by
  have htest : id ∈ w.inCharge i Custody.isTest := List.count_pos_iff.mp (hid ▸ Nat.one_pos)
  show IdleMoves o n _ _ (newcomers _ _ (f.world.idleOf i)) (among (f.world.idleOf i) _)
  rw [hf, among_append (fun x hx => h.not_idle hx) hid, newcomers_eq_nil fun x hx => ?_]
  · exact .putBack (h.not_idle htest)
  · rcases List.mem_append.mp hx with hx | hx
    · exact .inl hx
    · rw [List.mem_singleton.mp hx]
      exact .inr htest

/-- What a stretch does to the idle queue of its pool. -/
theorem Works.idle (h : w.Works e f t a q s) (hw : w.Sound g) :
    IdleMoves q.registry.order q.config.maxIdle (w.idleOf a.pool) (f.world.idleOf a.pool)
      (Episode.joined a.pool ⟨w, e, f⟩) (Episode.putBack a.pool ⟨w, e, f⟩) := by
  have hat := hw.pools a.pool
  have hidle := idleOf_eq h.pool
  have hthin : s.pool.registry.idle.Sublist q.registry.idle →
      IdleMoves q.registry.order q.config.maxIdle (w.idleOf a.pool) (f.world.idleOf a.pool)
        (Episode.joined a.pool ⟨w, e, f⟩) (Episode.putBack a.pool ⟨w, e, f⟩) := by
    intro hs
    refine hat.idle_thin ?_
    rwa [h.idleOf, hidle]
  cases h.turn with
  | thin hs => exact hthin hs.idle
  | enter hs _ _ _ => exact hthin hs.idle
  | wait hs _ _ _ => exact hthin hs.idle
  | @join id k r hpoint hk hg hroom hr hi hs ht =>
    obtain ⟨c, hc, hkind⟩ := hpoint ▸ Rest.charge (ρ := ρ) id hk
    refine hat.idle_join (hat.not_idle_of_point h.call_mem hc)
      (hat.not_inCharge h.call_mem hc hkind) (hidle ▸ hroom) ?_
    rw [h.idleOf, hs, hidle, Registry.pushIdle_idle, hi, hr.order]
  | @restore id n tests hpoint hg hs hn =>
    have hc : (id, .trying) ∈ a.point.charges := hpoint ▸ List.mem_cons_self ..
    refine hat.idle_putBack (hat.count_inCharge h.call_mem hc _) ?_
    rw [h.idleOf, hs, hidle]
    rfl

/-- An object that is put back is the first that its call had under trial. -/
theorem Works.putBack (h : w.Works e f t a q s) (hw : w.Sound g)
    (hid : id ∈ Episode.putBack a.pool ⟨w, e, f⟩) : a.point.trials = id :: s.next.trials := by
  have hat := hw.pools a.pool
  obtain ⟨htest, hin⟩ := List.mem_filter.mp hid
  have hold : id ∉ q.registry.idle := idleOf_eq h.pool ▸ hat.not_idle htest
  have hnew : id ∈ s.pool.registry.idle := h.idleOf ▸ of_decide_eq_true hin
  cases h.turn with
  | thin hs => exact absurd (hs.idle.mem hnew) hold
  | enter hs _ _ _ | wait hs _ _ _ => exact absurd (hs.idle.mem hnew) hold
  | @join x k r hpoint hk hg hroom hr hi hs ht =>
    -- what joins the queue was in another charge
    rw [hs, Registry.mem_pushIdle, hi] at hnew
    obtain rfl := hnew.resolve_right hold
    obtain ⟨c, hc, hkind⟩ := hpoint ▸ Rest.charge (ρ := ρ) id hk
    exact absurd htest (hat.not_inCharge h.call_mem hc hkind)
  | @restore x n tests hpoint hg hs hn =>
    rw [hs] at hnew
    obtain rfl := List.mem_singleton.mp ((List.mem_append.mp hnew).resolve_left hold)
    rw [hpoint, hn]
    rfl

theorem Spares.joined (h : w.Spares f.world i) : Episode.joined i ⟨w, e, f⟩ = [] :=
  newcomers_eq_nil fun _ hid => .inl (h.idleOf ▸ hid)

/-- A call that brings an object to the idle ones has just laid it to rest, but not after a
    trial. -/
theorem Works.joined (h : w.Works e f t a q s) (hid : id ∈ Episode.joined a.pool ⟨w, e, f⟩) :
    ∃ k : Rest, k.isTest = false ∧ a.point = .passivating id k := by
  obtain ⟨hin, hb⟩ := List.mem_filter.mp hid
  obtain ⟨hold, htest⟩ := of_decide_eq_true hb
  rw [show (Episode.before ⟨w, e, f⟩).idleOf a.pool = _ from idleOf_eq h.pool] at hold
  have hnew : id ∈ s.pool.registry.idle := h.idleOf ▸ hin
  cases h.turn with
  | thin hs => exact absurd (hs.idle.mem hnew) hold
  | enter hs _ _ _ | wait hs _ _ _ => exact absurd (hs.idle.mem hnew) hold
  | @join x k r hpoint hk hg hroom hr hi hs ht =>
    rw [hs, Registry.mem_pushIdle, hi] at hnew
    obtain rfl := hnew.resolve_right hold
    exact ⟨k, hk, hpoint⟩
  | @restore x n tests hpoint hg hs hn =>
    rw [hs] at hnew
    obtain rfl := List.mem_singleton.mp ((List.mem_append.mp hnew).resolve_left hold)
    refine absurd (mem_inCharge_of_trials h.call_mem ?_) htest
    rw [hpoint]
    exact List.mem_cons_self ..

/-- Such a call has nothing under trial. -/
theorem Works.trials_of_joined (h : w.Works e f t a q s)
    (hid : id ∈ Episode.joined a.pool ⟨w, e, f⟩) : a.point.trials = [] := by
  obtain ⟨k, hk, hpoint⟩ := h.joined hid
  rw [hpoint]
  cases k with
  | test => exact nomatch hk
  | stock | takeBack => rfl

/-- What an event does to a pool that is there after it: it had the same settings before and its
    idle queue moves, or it is new. -/
inductive IdleAt (w : World ρ) (e : Event ρ) (f : Effect ρ) (i : Nat) (p' : Pool ρ) : Prop
  | moves {p : Pool ρ} (hp : w.pools[i]? = some p) (hc : p'.config = p.config)
      (ho : p'.registry.order = p.registry.order)
      (hm : IdleMoves p.registry.order p.config.maxIdle p.registry.idle p'.registry.idle
        (Episode.joined i ⟨w, e, f⟩) (Episode.putBack i ⟨w, e, f⟩))
  | new (hp : w.pools[i]? = none) (ho : p'.registry.order = p'.config.handOut)
      (hi : p'.registry.idle = [])

theorem react_idle (hw : w.Sound g) (hr : w.react e = some f) {p' : Pool ρ}
    (hp' : f.world.pools[i]? = some p') : w.IdleAt e f i p' := by
  rcases react_at hr i with ⟨hspares, -⟩ | ⟨t, a, q, s, h, rfl⟩
  · have hsame := hspares.idleOf
    rcases hspares.books with hbooks | ⟨hnone, c, p, hp, hnew, -⟩
    · obtain ⟨p, hp, hb⟩ := hbooks.before hp'
      have hthin := (hw.pools i).idle_thin (e := e) (o := p.registry.order) (n := p.config.maxIdle)
        (by rw [hsame])
      rw [idleOf_eq hp, idleOf_eq hp'] at hthin
      exact .moves hp hb.config (congrArg Registry.order hb.registry) hthin
    · obtain rfl := Option.some.inj (hp.symm.trans hp')
      refine .new hnone ?_ (congrArg Registry.idle hnew.registry)
      rw [hnew.registry, hnew.config]
      rfl
  · obtain ⟨⟨p, hp, hb⟩, -⟩ := h.lands
    obtain rfl := Option.some.inj (hp.symm.trans hp')
    have hm := h.idle hw
    rw [idleOf_eq h.pool, idleOf_eq hp'] at hm
    exact .moves h.pool (hb.config.trans (h.config hw))
      ((congrArg Registry.order hb.registry).trans h.turn.order) hm

end World

/-! ## In every run -/

variable {es : List (Episode ρ)} {w : World ρ} {i : Nat} {p : Pool ρ}

/-- Idle objects are lent in the order that the settings name. -/
theorem Run.handOut (h : Run es w) (hp : w.pools[i]? = some p) :
    p.registry.order = p.config.handOut := by
  induction h generalizing p with
  | start => exact nomatch hp
  | next run react ih =>
    cases World.react_idle run.sound react hp with
    | moves hold hc ho _ => rw [ho, hc, ih hold]
    | new _ ho _ => exact ho

/-- Objects are tried out only if the settings say so. -/
theorem Run.tests (h : Run es w) (hp : w.pools[i]? = some p) {id : Nat}
    (hid : id ∈ w.inCharge i Custody.isTest) : p.config.testWhileIdle = true := by
  obtain ⟨st, -, ho, -⟩ := h.obeys i
  obtain ⟨c, hc, hkind⟩ := World.mem_inCharge.mp hid
  obtain ⟨pt, hpt, hmem⟩ := List.mem_flatMap.mp hc
  have hpermits : c.Permits p.config (st id) := ((ho.pool p hp).calls pt hpt).charges _ hmem
  cases c with
  | trying => exact hpermits
  | untried => exact hpermits.1
  | lending | returning | stocking | evicted | drained | seized => exact nomatch hkind

/-- Nothing is put back if the settings do not say that idle objects are tried out. -/
theorem Run.putBack_eq_nil (h : Run es w)
    (ht : ∀ p, w.pools[i]? = some p → p.config.testWhileIdle = false) :
    ∀ e ∈ es, e.putBack i = [] := by
  induction h with
  | start => exact fun e he => nomatch he
  | @next es w e f run react ih =>
    -- the pool had the same settings before, if it was there
    have hold : ∀ p, w.pools[i]? = some p → p.config.testWhileIdle = false := by
      intro p hp
      obtain ⟨p', hp', hc⟩ := World.react_config run.sound react hp
      rw [← hc]
      exact ht p' hp'
    intro x hx
    rcases List.mem_cons.mp hx with rfl | hx
    · refine among_eq_nil fun id hid => ?_
      cases hp : w.pools[i]? with
      | some p => exact nomatch (hold p hp).symm.trans (run.tests hp hid)
      | none =>
        obtain ⟨c, hc, -⟩ := World.mem_inCharge.mp hid
        rw [((run.sound.pools i).housed hp).1] at hc
        exact nomatch hc
    · exact ih hold x hx

end ObjectPool
