/-
  ObjectPool.Proofs.Frame

  What an event leaves alone. The books of a pool and the calls on it stay as they are
  unless one of these calls runs for a stretch; at most a call begins, which has nothing
  yet. What a stretch does shows in its own pool alone.

    * `World.Spares` — an event leaves a pool alone.
    * `World.Works` — a call runs for a stretch in an event.
    * `Works.spares`, `Works.lands` — the other pools, and the call's own one.
    * `react_at` — every event leaves a pool alone, or a call on it runs for a stretch.
    * `Run.valid` — the settings of every pool are valid.
-/

import ObjectPool.Proofs.Roster
import ObjectPool.Proofs.Stretch.Turn

namespace ObjectPool

variable {ρ : Type}

/-- Nothing has happened to the books of a pool. -/
structure Pool.SameBooks (p p' : Pool ρ) : Prop where
  config : p'.config = p.config
  registry : p'.registry = p.registry
  entries : p'.entries.length = p.entries.length

theorem Pool.SameBooks.refl (p : Pool ρ) : p.SameBooks p := ⟨rfl, rfl, rfl⟩

theorem Pool.SameBooks.trans {p p' p'' : Pool ρ} (h : p.SameBooks p') (h' : p'.SameBooks p'') :
    p.SameBooks p'' :=
  ⟨h'.config.trans h.config, h'.registry.trans h.registry, h'.entries.trans h.entries⟩

/-- A call that begins at a point has no object and no ticket, asks for nothing yet, and is in no
    idle sweep. -/
structure Point.Opens (pt : Point ρ) : Prop where
  request : pt.isRequest = false
  charges : pt.charges = []
  tickets : pt.tickets = []
  agenda : pt.agenda? = none

theorem Opening.opens (o : Opening) : (o.point (ρ := ρ)).Opens := by
  cases o <;> exact ⟨rfl, rfl, rfl, rfl⟩

theorem Point.TakesBack.opens {id : Nat} {pt : Point ρ} (h : pt.TakesBack id) : pt.Opens := by
  cases h <;> exact ⟨rfl, rfl, rfl, rfl⟩

namespace World

variable {w w' w'' : World ρ} {t p i n : Nat} {q : Pool ρ} {f : Effect ρ} {a : Activity ρ}
  {e : Event ρ} {s : Stretch ρ} {x : Handle}

/-- Nothing has happened to the books of the pool `i`. -/
def SameBooks (w w' : World ρ) (i : Nat) : Prop :=
  Option.Rel Pool.SameBooks (w.pools[i]?) (w'.pools[i]?)

/-- On the pool `i` there are the calls `pts`, and perhaps one that begins. -/
def Calls (w : World ρ) (i : Nat) (pts : List (Point ρ)) : Prop :=
  ∃ new : List (Point ρ), (∀ pt ∈ new, pt.Opens) ∧ (new ++ pts).Perm (w.points i)

/-- Nothing happens to the pool `i` but that it is made, with valid settings, or that a call on it
    begins. -/
structure Spares (w w' : World ρ) (i : Nat) : Prop where
  books : w.SameBooks w' i ∨
    (w.pools[i]? = none ∧ ∃ c p', w'.pools[i]? = some p' ∧ (Pool.new c).SameBooks p' ∧
      c.fault? = none)
  calls : w'.Calls i (w.points i)

/-- The line of the pool `i`. -/
def lineOf (w : World ρ) (i : Nat) : WaitLine := ((w.pools[i]?).map (·.registry.line)).getD {}

/-- The idle objects of the pool `i`, the next to be lent first. -/
def idleOf (w : World ρ) (i : Nat) : List Nat := ((w.pools[i]?).map (·.registry.idle)).getD []

theorem lineOf_eq (hq : w.pools[i]? = some q) : w.lineOf i = q.registry.line := by
  rw [lineOf, hq]
  rfl

theorem idleOf_eq (hq : w.pools[i]? = some q) : w.idleOf i = q.registry.idle := by
  rw [idleOf, hq]
  rfl

/-! ## Small changes -/

theorem SameBooks.of_eq (h : w'.pools[i]? = w.pools[i]?) : w.SameBooks w' i := by
  unfold SameBooks
  rw [h]
  cases w.pools[i]? with
  | none => exact .none
  | some p => exact .some (.refl p)

theorem SameBooks.trans (h : w.SameBooks w' i) (h' : w'.SameBooks w'' i) : w.SameBooks w'' i := by
  unfold SameBooks at h h' ⊢
  generalize w.pools[i]? = u, w'.pools[i]? = v, w''.pools[i]? = v' at h h' ⊢
  cases h with
  | none => exact h'
  | some hp =>
    cases h' with
    | some hp' => exact .some (hp.trans hp')

theorem SameBooks.pool {p : Pool ρ} (h : w.SameBooks w' i) (hp : w.pools[i]? = some p) :
    ∃ p', w'.pools[i]? = some p' ∧ p.SameBooks p' := by
  unfold SameBooks at h
  rw [hp] at h
  generalize w'.pools[i]? = v at h
  cases h with
  | some hb => exact ⟨_, rfl, hb⟩

theorem SameBooks.before {p' : Pool ρ} (h : w.SameBooks w' i) (hp : w'.pools[i]? = some p') :
    ∃ p, w.pools[i]? = some p ∧ p.SameBooks p' := by
  unfold SameBooks at h
  rw [hp] at h
  generalize w.pools[i]? = v at h
  cases h with
  | some hb => exact ⟨_, rfl, hb⟩

theorem SameBooks.none (h : w.SameBooks w' i) (hp : w'.pools[i]? = none) :
    w.pools[i]? = none := by
  unfold SameBooks at h
  rw [hp] at h
  generalize w.pools[i]? = v at h
  cases h with
  | none => rfl

theorem sameBooks_onPool {u : Pool ρ → Pool ρ} (hu : ∀ q : Pool ρ, q.SameBooks (u q))
    (w : World ρ) (p i : Nat) : w.SameBooks (w.onPool p u) i := by
  by_cases hi : i = p
  · subst hi
    unfold SameBooks
    cases hq : w.pools[i]? with
    | none =>
      rw [show (w.onPool i u).pools = w.pools.modify i u from rfl, List.getElem?_modify, hq]
      exact .none
    | some q =>
      rw [pools_onPool_self hq]
      exact .some (hu q)
  · exact .of_eq (pools_onPool_of_ne hi u)

/-- A change to a pool that leaves it as it is. -/
theorem onPool_eq_self {i : Nat} {v : Pool ρ → Pool ρ} (hv : ∀ q, w.pools[i]? = some q → v q = q) :
    w.onPool i v = w := by
  unfold World.onPool
  congr 1
  refine List.ext_getElem? fun j => ?_
  rw [List.getElem?_modify]
  by_cases hj : i = j
  · subst hj
    cases hq : w.pools[i]? with
    | none => rfl
    | some q => simp [hv q hq]
  · simp [hj]

/-- A thread on which something has changed. -/
theorem getElem?_onThread {th : Thread ρ} (hth : w.threads[t]? = some th)
    (u : Thread ρ → Thread ρ) : (w.onThread t u).threads[t]? = some (u th) := by
  show (w.threads.modify t u)[t]? = _
  rw [List.getElem?_modify, hth]
  simp

theorem Calls.of_perm {pts : List (Point ρ)} (h : pts.Perm (w.points i)) : w.Calls i pts :=
  ⟨[], (fun _ hpt => nomatch hpt), h⟩

/-- A call begins on a thread. -/
theorem calls_push (hth : ∃ th, w.threads[t]? = some th) (ha : a.point.Opens) (i : Nat) :
    (w.push t a).Calls i (w.points i) := by
  obtain ⟨th, hth⟩ := hth
  refine ⟨a.pointOn i, fun pt hpt => ?_, (points_push hth a i).symm⟩
  unfold Activity.pointOn at hpt
  split at hpt
  · rw [List.mem_singleton.mp hpt]
    exact ha
  · exact nomatch hpt

/-- A thread gives up a reference to a pool, which may be closed then. -/
theorem forsake_spares (hth : ∃ th, w.threads[t]? = some th) (p : Nat) (r : Reply) (i : Nat) :
    w.SameBooks (w.forsake t p r).world i ∧ (w.forsake t p r).world.Calls i (w.points i) := by
  rcases forsake_cases w t p r with ⟨q, -, -, hlast⟩ | ⟨-, hmore⟩
  · rw [hlast]
    have hmark : ∀ q : Pool ρ, q.SameBooks { q with gone := true } := fun _ => ⟨rfl, rfl, rfl⟩
    exact ⟨sameBooks_onPool hmark w p i,
      calls_push (w := w.markGone p) (a := ⟨p, .close (.release r)⟩) hth ⟨rfl, rfl, rfl, rfl⟩ i⟩
  · rw [hmore]
    exact ⟨.of_eq rfl, .of_perm (.refl _)⟩

theorem trackUse_books (q : Pool ρ) (now : Instant) (id : Nat) (site : String) :
    q.SameBooks (q.trackUse now id site) := by
  unfold Pool.trackUse
  split
  · split
    · exact ⟨rfl, rfl, List.length_modify ..⟩
    · exact .refl q
  · exact .refl q

theorem PartsWith.spares (h : w.PartsWith t n x w') (hth : ∃ th, w.threads[t]? = some th)
    (i : Nat) : w.Spares w' i := by
  -- the object goes to the pool of its handle, or a foreign pool only counts the refusal
  cases h with
  | own hpt =>
    exact ⟨.inl (.of_eq rfl), calls_push (w := w.surrender n) hth hpt.opens i⟩
  | foreign p hpt =>
    have hrefuse : ∀ q : Pool ρ, q.SameBooks (q.refuseReturn .done).pool := fun _ => ⟨rfl, rfl, rfl⟩
    exact ⟨.inl (sameBooks_onPool hrefuse (w.surrender n) p i),
      calls_push (w := (w.surrender n).onPool p fun q => (q.refuseReturn .done).pool) hth
        hpt.opens i⟩

/-- A change to a pool or to the handles begins no call. -/
theorem spares_onPool {u : Pool ρ → Pool ρ} (hu : ∀ q : Pool ρ, q.SameBooks (u q))
    (w : World ρ) (p i : Nat) : w.Spares (w.onPool p u) i :=
  ⟨.inl (sameBooks_onPool hu w p i), .of_perm (.refl _)⟩

/-- A new pool has no books to speak of, and no calls. -/
theorem create_spares {c : Config} {notices : List (Nat × Notice)}
    (hw : w.create c = .ok (w', notices)) (i : Nat) : w.Spares w' i := by
  obtain ⟨keeper, ths, hths, rfl⟩ := create_cases hw
  refine ⟨?_, .of_perm ?_⟩
  · by_cases hlt : i < w.pools.length
    · exact .inl (.of_eq (List.getElem?_append_left hlt))
    · have hnone : w.pools[i]? = none := List.getElem?_eq_none_iff.mpr (Nat.le_of_not_lt hlt)
      -- the new pool is the last, and behind it there is none before or after
      by_cases hi : i = w.pools.length
      · subst hi
        exact .inr ⟨hnone, c, _, List.getElem?_concat_length, ⟨rfl, rfl, rfl⟩, fault?_of_create hw⟩
      · refine .inl (.of_eq ?_)
        rw [hnone]
        refine List.getElem?_eq_none_iff.mpr ?_
        rw [List.length_append, List.length_singleton]
        omega
  · rw [points, points, activities, activities, activities_append hths]
    exact .refl _

namespace Spares

/-- What can be read off the books of a pool that is left alone stays as it is, if it is nothing
    for a new pool. -/
theorem view {α : Type} {v : Registry → α} {d : α} (hv : ∀ c, v (Pool.new (ρ := ρ) c).registry = d)
    (h : w.Spares w' i) : ((w'.pools[i]?).map fun p => v p.registry).getD d =
      ((w.pools[i]?).map fun p => v p.registry).getD d := by
  rcases h.books with hbooks | ⟨hnone, c, p, hp, hnew, -⟩
  · cases hp' : w'.pools[i]? with
    | none => rw [hbooks.none hp']
    | some p' =>
      obtain ⟨p, hp, hsame⟩ := hbooks.before hp'
      rw [hp, Option.map_some, Option.map_some, hsame.registry]
  · rw [hp, hnone, Option.map_some, hnew.registry]
    exact hv c

theorem lineOf (h : w.Spares w' i) : w'.lineOf i = w.lineOf i :=
  h.view (v := Registry.line) fun _ => rfl

theorem idleOf (h : w.Spares w' i) : w'.idleOf i = w.idleOf i :=
  h.view (v := Registry.idle) fun _ => rfl

end Spares

/-! ## Events without a stretch -/

theorem thread_of_isFree (h : w.isFree t = true) : ∃ th, w.threads[t]? = some th := by
  obtain ⟨th, hth, -⟩ := (Option.any_eq_true _ _).mp h
  exact ⟨th, hth⟩

/-- An event of the callers leaves every pool alone. -/
theorem Called.spares (hc : w.Called e f) (i : Nat) : w.Spares f.world i := by
  have hsame : ∀ {u : World ρ}, u.pools = w.pools → u.threads = w.threads → w.Spares u i := by
    intro u hpools hthreads
    refine ⟨.inl (.of_eq (hpools ▸ rfl)), .of_perm ?_⟩
    rw [points, points, activities, activities, hthreads]
  have huse : ∀ (id : Nat) (site : String) (u : Pool ρ → Pool ρ),
      (∀ q : Pool ρ, q.SameBooks (u q)) →
        ∀ q : Pool ρ, q.SameBooks (u (q.trackUse w.now id site)) :=
    fun id site u hu q => (trackUse_books q w.now id site).trans (hu _)
  cases hc with
  | tick _ | notCreated _ | noAccess _ _ | noLock _ _ => exact hsame rfl rfl
  | spawn =>
    refine ⟨.inl (.of_eq rfl), .of_perm ?_⟩
    rw [points, points, World.spawn, activities, activities, activities_append (by simp)]
    exact .refl _
  | create hw => exact create_spares hw i
  | clone _ _ =>
    exact spares_onPool (u := fun q => { q with clones := q.clones + 1 })
      (fun _ => ⟨rfl, rfl, rfl⟩) w _ i
  | @drop t p _ _ _ ht =>
    have hdrop : ∀ q : Pool ρ, q.SameBooks { q with clones := q.clones - 1 } :=
      fun _ => ⟨rfl, rfl, rfl⟩
    obtain ⟨hbooks, hcalls⟩ := forsake_spares
      (w := w.onPool p fun q => { q with clones := q.clones - 1 }) (thread_of_isFree ht) p .done i
    exact ⟨.inl ((sameBooks_onPool hdrop w p i).trans hbooks), hcalls⟩
  | begin _ _ ht =>
    exact ⟨.inl (.of_eq rfl), calls_push (thread_of_isFree ht) (Opening.opens _) i⟩
  | giveBack _ _ ht _ _ => exact (giveBack_parts ..).spares (thread_of_isFree ht) i
  | invalidate _ _ ht _ _ => exact (invalidate_parts ..).spares (thread_of_isFree ht) i
  | letGo ht _ _ => exact (letGo_parts ..).spares (thread_of_isFree ht) i
  | @access _ x site c r _ _ _ =>
    exact spares_onPool
      (huse x.object site (Pool.letGo x.object (c r)) fun _ => ⟨rfl, rfl, List.length_modify ..⟩)
      w x.pool i
  | @lock _ x site _ _ _ _ =>
    have hspares := spares_onPool
      (huse x.object site (Pool.hold x.object) fun _ => ⟨rfl, rfl, List.length_modify ..⟩)
      w x.pool i
    exact ⟨hspares.books, hspares.calls⟩
  | @unlock _ x c r _ _ _ =>
    have hspares := spares_onPool (u := Pool.letGo x.object (c r))
      (fun _ => ⟨rfl, rfl, List.length_modify ..⟩) w x.pool i
    exact ⟨hspares.books, hspares.calls⟩
  | @markUsed _ x site _ =>
    refine spares_onPool (fun q => ?_) w x.pool i
    split
    · exact trackUse_books q w.now x.object site
    · exact .refl q

/-- The thread of a background upkeep leaves every pool alone between two rounds. -/
theorem keeperStep_spares {k : Keeper} (hth : ∃ th, w.threads[t]? = some th)
    (hk : w.keeperStep t k = some f) (i : Nat) : w.Spares f.world i := by
  have hmark : ∀ phase, (w.points i).Perm ((w.enter t k phase).points i) :=
    fun phase => points_onThread
      (f := fun th => { th with keeper := some { k with phase } }) (fun _ => rfl) i
  rcases (keeperStep_cases hk).2 with ⟨phase, hf⟩ | ⟨q, -, hf⟩
  · rw [hf]
    exact ⟨.inl (.of_eq rfl), .of_perm (hmark phase)⟩
  · rw [hf]
    obtain ⟨th, hth⟩ := hth
    obtain ⟨new, hnew, hperm⟩ := calls_push (w := w.enter t k .working) (a := ⟨k.pool, .upkeep⟩)
      ⟨_, getElem?_onThread hth _⟩ ⟨rfl, rfl, rfl, rfl⟩ i
    exact ⟨.inl (.of_eq rfl), new, hnew, ((hmark .working).append_left new).trans hperm⟩

end World

/-! ## A call runs for a stretch -/

/-- The call that ran in an episode. -/
def Episode.call? (e : Episode ρ) : Option (Activity ρ) := e.thread?.bind e.before.top?

/-- Whether the factory has laid an object to rest in an event. -/
def Event.grants : Event ρ → Bool
  | .answer _ r => r.grants
  | _ => false

/-- How many objects an event brings to a call at a point. -/
def Event.births (pt : Point ρ) : Event ρ → Nat
  | .answer _ r => pt.births r
  | _ => 0

namespace World

variable {w w' : World ρ} {t i : Nat} {q : Pool ρ} {f : Effect ρ} {a : Activity ρ} {e : Event ρ}
  {s : Stretch ρ} {g : Nat → List Nat}

/-- In an event the call `a` on top of the thread `t` runs for the stretch `s` on its pool `q`. -/
structure Works (w : World ρ) (e : Event ρ) (f : Effect ρ) (t : Nat) (a : Activity ρ) (q : Pool ρ)
    (s : Stretch ρ) : Prop where
  top : w.top? t = some a
  pool : w.pools[a.pool]? = some q
  runs : (e = .step t ∧ q.advance w.now t w.hasEnded a.point = some s) ∨
    ∃ r, e = .answer t r ∧ q.respond w.now a.point r = some s
  effect : f = w.apply t a.pool s

namespace Works

theorem thread (h : w.Works e f t a q s) : Episode.thread? ⟨w, e, f⟩ = some t := by
  rcases h.runs with ⟨rfl, -⟩ | ⟨r, rfl, -⟩ <;> rfl

theorem call (h : w.Works e f t a q s) : Episode.call? ⟨w, e, f⟩ = some a := by
  rw [Episode.call?, h.thread]
  exact h.top

/-- A call leaves the other pools alone. -/
theorem spares (h : w.Works e f t a q s) (hi : i ≠ a.pool) : w.Spares f.world i := by
  have hpop := points_pop h.top i
  rw [Activity.pointOn_of_ne hi] at hpop
  have hpool : (w.onPool a.pool fun _ => s.pool).pools[i]? = w.pools[i]? :=
    pools_onPool_of_ne hi _
  obtain ⟨th, rest, hth, -⟩ := top?_eq_some h.top
  rw [h.effect]
  cases hn : s.next with
  | go pt =>
    rw [apply_go hn]
    have hmove := points_moveTo (w := w.onPool a.pool fun _ => s.pool) h.top pt i
    rw [show Activity.pointOn i { a with point := pt } = [] from if_neg (Ne.symm hi)] at hmove
    exact ⟨.inl (.of_eq hpool), .of_perm (hpop.trans hmove.symm)⟩
  | finish r =>
    -- the thread may give up the last reference to the pool, whose closing begins then
    rw [apply_finish hn]
    obtain ⟨hbooks, new, hnew, hperm⟩ := forsake_spares
      (w := ((w.onPool a.pool fun _ => s.pool).pop t).handOver a.pool r)
      ⟨_, getElem?_onThread hth _⟩ a.pool r i
    exact ⟨.inl (.trans (.of_eq hpool) hbooks), new, hnew, (hpop.append_left new).trans hperm⟩

theorem turn (h : w.Works e f t a q s) : s.Turn q a.point e.grants := by
  rcases h.runs with ⟨rfl, hs⟩ | ⟨r, rfl, hs⟩
  · exact Pool.advance_turn hs
  · exact Pool.respond_turn hs

theorem stretches (h : w.Works e f t a q s) : w.Stretches t a q s (e.births a.point) := by
  refine ⟨h.top, h.pool, fun ℓ hℓ => ?_, fun c hpt => ?_⟩
  · rcases h.runs with ⟨rfl, hs⟩ | ⟨r, rfl, hs⟩
    · exact Pool.advance_sound hℓ hs
    · exact Pool.respond_sound hℓ hs
  · rcases h.runs with ⟨rfl, hs⟩ | ⟨r, rfl, hs⟩
    · rw [hpt] at hs
      obtain rfl := Option.some.inj hs
      exact q.closed_close t c
    · rw [hpt] at hs
      exact nomatch hs

theorem call_mem (h : w.Works e f t a q s) : a.point ∈ w.points a.pool :=
  h.stretches.points.mem_iff.mpr (.head _)

/-- The pool has the settings that it had. -/
theorem config (h : w.Works e f t a q s) (hw : w.Sound g) : s.pool.config = q.config :=
  congrArg Charter.config (h.stretches.rest hw).charter_eq

/-- What a stretch leaves behind in its own pool: the books that it has come to, the call at its
    next point, and the other calls. -/
theorem lands (h : w.Works e f t a q s) :
    (∃ p', f.world.pools[a.pool]? = some p' ∧ s.pool.SameBooks p') ∧
      f.world.Calls a.pool (s.next.points ++ (w.pop t).points a.pool) := by
  obtain ⟨th, rest, hth, -⟩ := top?_eq_some h.top
  have hself := pools_onPool_self h.pool fun _ => s.pool
  rw [h.effect]
  cases hn : s.next with
  | go pt =>
    rw [apply_go hn]
    refine ⟨⟨s.pool, hself, .refl _⟩, .of_perm ?_⟩
    have hmove := points_moveTo (w := w.onPool a.pool fun _ => s.pool) h.top pt a.pool
    rw [show Activity.pointOn a.pool { a with point := pt } = [pt] from if_pos rfl] at hmove
    exact hmove.symm
  | finish r =>
    rw [apply_finish hn]
    obtain ⟨hbooks, hcalls⟩ := forsake_spares
      (w := ((w.onPool a.pool fun _ => s.pool).pop t).handOver a.pool r)
      ⟨_, getElem?_onThread hth _⟩ a.pool r a.pool
    exact ⟨hbooks.pool hself, hcalls⟩

/-- The line of the pool once a call has run for a stretch. -/
theorem lineOf (h : w.Works e f t a q s) :
    f.world.lineOf a.pool = s.pool.registry.line := by
  obtain ⟨⟨p', hp', hbooks⟩, -⟩ := h.lands
  rw [lineOf_eq hp', hbooks.registry]

theorem idleOf (h : w.Works e f t a q s) :
    f.world.idleOf a.pool = s.pool.registry.idle := by
  obtain ⟨⟨p', hp', hbooks⟩, -⟩ := h.lands
  rw [idleOf_eq hp', hbooks.registry]

end Works

/-! ## Every event -/

/-- What happens in an event. -/
inductive Happens (w : World ρ) (e : Event ρ) (f : Effect ρ) : Prop
  /-- A caller does something. -/
  | called (call : w.Called e f)
  /-- The thread of a background upkeep goes on between two rounds. -/
  | keeps {t : Nat} {th : Thread ρ} {k : Keeper} (event : e = .step t)
      (thread : w.threads[t]? = some th) (idle : th.stack = []) (step : w.keeperStep t k = some f)
  /-- A call runs for a stretch. -/
  | works {t : Nat} {a : Activity ρ} {q : Pool ρ} {s : Stretch ρ} (works : w.Works e f t a q s)

theorem react_happens (hr : w.react e = some f) : w.Happens e f := by
  rcases react_cases hr with hc | ⟨t, rfl, hs⟩ | ⟨t, r, rfl, hs⟩
  · exact .called hc
  · rcases step_runs hs with ⟨a, q, s, ha, hq, hadv, hf⟩ | ⟨th, k, hth, hidle, hk⟩
    · exact .works ⟨ha, hq, .inl ⟨rfl, hadv⟩, hf⟩
    · exact .keeps rfl hth hidle hk
  · obtain ⟨a, q, s, ha, hq, hrsp, hf⟩ := answer_runs hs
    exact .works ⟨ha, hq, .inr ⟨r, rfl, hrsp⟩, hf⟩

/-- An event leaves all pools alone and no call goes on, or a call runs for a stretch. -/
theorem react_works (hr : w.react e = some f) :
    ((∀ i, w.Spares f.world i) ∧ Episode.call? ⟨w, e, f⟩ = none) ∨
      ∃ t a q s, w.Works e f t a q s := by
  cases react_happens hr with
  | called hc =>
    refine .inl ⟨hc.spares, ?_⟩
    rw [Episode.call?, hc.thread?]
    rfl
  | @keeps t th k event hth hidle hk =>
    -- a thread between two rounds of upkeep has no call
    refine .inl ⟨keeperStep_spares ⟨th, hth⟩ hk, ?_⟩
    subst event
    show w.top? t = none
    rw [top?, hth, Option.bind_some, hidle]
    rfl
  | works h => exact .inr ⟨_, _, _, _, h⟩

/-- An event leaves a pool alone and no call on it goes on, or a call on it runs for a stretch. -/
theorem react_at (hr : w.react e = some f) (i : Nat) :
    (w.Spares f.world i ∧ ∀ a, Episode.call? ⟨w, e, f⟩ = some a → a.pool ≠ i) ∨
      ∃ t a q s, w.Works e f t a q s ∧ a.pool = i := by
  rcases react_works hr with ⟨hspares, hcall⟩ | ⟨t, a, q, s, h⟩
  · refine .inl ⟨hspares i, fun a ha => ?_⟩
    rw [hcall] at ha
    exact nomatch ha
  · by_cases hi : a.pool = i
    · exact .inr ⟨t, a, q, s, h, hi⟩
    · refine .inl ⟨h.spares (Ne.symm hi), fun b hb => ?_⟩
      obtain rfl := Option.some.inj (h.call.symm.trans hb)
      exact hi

/-- A pool keeps its settings. -/
theorem react_config (hw : w.Sound g) (hr : w.react e = some f) (hq : w.pools[i]? = some q) :
    ∃ q', f.world.pools[i]? = some q' ∧ q'.config = q.config := by
  rcases react_at hr i with ⟨hspares, -⟩ | ⟨t, a, q', s, h, rfl⟩
  · rcases hspares.books with hbooks | ⟨hnone, -⟩
    · obtain ⟨q', hq', hb⟩ := hbooks.pool hq
      exact ⟨q', hq', hb.config⟩
    · exact nomatch hnone.symm.trans hq
  · obtain rfl := Option.some.inj (h.pool.symm.trans hq)
    obtain ⟨⟨p, hp, hb⟩, -⟩ := h.lands
    exact ⟨p, hp, hb.config.trans (h.config hw)⟩

end World

/-- A pool keeps its settings in a run. -/
theorem Run.config_append {new old : List (Episode ρ)} {w w' : World ρ} {i : Nat} {p' : Pool ρ}
    (h : Run (new ++ old) w) (h' : Run old w') (hp : w'.pools[i]? = some p') :
    ∃ p, w.pools[i]? = some p ∧ p.config = p'.config := by
  induction new generalizing w with
  | nil => exact ⟨p', h.unique h' ▸ hp, rfl⟩
  | cons e new ih =>
    cases h with
    | next run react =>
      obtain ⟨p₀, hp₀, hc₀⟩ := ih run
      obtain ⟨p, hp, hc⟩ := World.react_config run.sound react hp₀
      exact ⟨p, hp, hc.trans hc₀⟩

/-- The settings of every pool in a run are valid. -/
theorem Run.valid {es : List (Episode ρ)} {w : World ρ} {i : Nat} {p : Pool ρ} (h : Run es w)
    (hp : w.pools[i]? = some p) : p.config.fault? = none := by
  induction h generalizing p with
  | start => exact nomatch hp
  | next run react ih =>
    rcases World.react_at react i with ⟨hspares, -⟩ | ⟨t, a, q, s, h, rfl⟩
    · rcases hspares.books with hbooks | ⟨-, c, p', hp', hnew, hvalid⟩
      · obtain ⟨q, hq, hsame⟩ := hbooks.before hp
        exact hsame.config ▸ ih hq
      · obtain rfl := Option.some.inj (hp'.symm.trans hp)
        exact hnew.config ▸ hvalid
    · obtain ⟨⟨p', hp', hsame⟩, -⟩ := h.lands
      obtain rfl := Option.some.inj (hp'.symm.trans hp)
      rw [hsame.config, h.config run.sound]
      exact ih h.pool

end ObjectPool
