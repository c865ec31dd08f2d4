/-
  ObjectPool.Proofs.Preparation

  Why a call ends that fills the reserve of a pool, whatever other calls do to the pool meanwhile.
  It looks whether the reserve lacks an object, has one made, and looks again when it is ready,
  whether the idle ones may be one more. Others may have filled them in between. Then the new object
  is destroyed and the call fails as if the pool were exhausted, although its reserve is full. It
  fails for no other reason but that the pool is closed or that the factory refuses an object.

    * `FoundLacking`, `Crowded` — what happens between the two looks.
    * `GivenUp` — why a new object is destroyed.
    * `Preparing`, `Prepared` — how far such a call has come, and how it ends.
    * `preparation_ends_for_cause` — the main statement.
    * `exhausted_by_full_reserve` — the run in which others have filled the reserve.
-/

import ObjectPool.Proofs.Replenishment

namespace ObjectPool

variable {ρ : Type}

/-! ## Between two looks -/

section Looks

variable {t d i : Nat} {since es : List (Episode ρ)} {w : World ρ} {e : Episode ρ}
  {a : Activity ρ} {p q : Pool ρ} {s : Stretch ρ} {c : Config} {fault : Option PoolError}
  {err : PoolError} {g : Nat → List Nat}

/-- Another call than the one on the thread `t` with `d` calls below it puts an object among the
    idle ones of the pool `i`. -/
structure Episode.OthersStock (t d i : Nat) (e : Episode ρ) : Prop where
  works : ∃ a, e.call? = some a ∧ a.pool = i
  others : e.runs t d = false
  more : (e.before.idleOf i).length < (e.after.idleOf i).length

/-- The pool `i` has fewer idle objects than its reserve is to have. -/
def World.LacksIdle (w : World ρ) (i : Nat) : Prop :=
  ∃ p, w.pools[i]? = some p ∧ p.registry.idle.length < p.config.minIdle

/-- The pool `i` is closed. -/
def World.IsShut (w : World ρ) (i : Nat) : Prop := ∃ p, w.pools[i]? = some p ∧ p.closed = true

theorem World.IsShut.react {ev : Event ρ} {f : Effect ρ} (h : w.IsShut i)
    (hr : w.react ev = some f) : f.world.IsShut i := by
  obtain ⟨p, hp, hclosed⟩ := h
  obtain ⟨p', hp', hfades⟩ := World.react_fades hr hp hclosed
  exact ⟨p', hp', hfades.closed⟩

/-- A turn of a call on the pool `i` after which the pool lacks an idle object. -/
theorem Episode.IsTurn.lacksIdle (h : e.IsTurn t d a q s) (hi : a.pool = i)
    (hlacks : s.pool.registry.idle.length < s.pool.config.minIdle) : e.after.LacksIdle i := by
  obtain ⟨p', hp', hsame⟩ := h.pools
  refine ⟨p', hi ▸ hp', ?_⟩
  rcases hsame with rfl | rfl
  · exact hlacks
  · exact hlacks

/-- A call looks at the pool `i`, which is open: its reserve lacks an object and there is room for
    one more. -/
structure Episode.FindsLacking (t d i : Nat) (e : Episode ρ) : Prop where
  runs : e.runs t d = true
  pool : ∃ p, e.before.pools[i]? = some p ∧ p.closed = false ∧
    p.registry.idle.length < p.config.minIdle ∧ p.registry.hasRoom = true

/-- A call has a new object ready for the pool `i`, which is open: its idle ones may not be more. -/
structure Episode.FindsFull (t d i : Nat) (e : Episode ρ) : Prop where
  runs : e.runs t d = true
  pool : ∃ p, e.before.pools[i]? = some p ∧ p.closed = false ∧
    p.config.maxIdle ≤ p.registry.idle.length

/-- A call has found the reserve of the pool `i` lacking, and `since` has happened then. The reserve
    lacks an object still if no other call has put one there. -/
structure FoundLacking (t d i : Nat) (since es : List (Episode ρ)) (w : World ρ) : Prop where
  look : ∃ look before, es = since ++ look :: before ∧ look.FindsLacking t d i
  lacks : (∀ e ∈ since, ¬e.OthersStock t d i) → w.LacksIdle i

/-- Between two looks of a call at the pool `i` others have filled its reserve, and all the room
    that there is for idle objects. -/
def Crowded (t d i : Nat) (es : List (Episode ρ)) : Prop :=
  ∃ newer full since look before, es = newer ++ full :: (since ++ look :: before) ∧
    look.FindsLacking t d i ∧ full.FindsFull t d i ∧ ∃ e ∈ since, e.OthersStock t d i

theorem Crowded.cons (h : Crowded t d i es) (e : Episode ρ) : Crowded t d i (e :: es) := by
  obtain ⟨newer, full, since, look, before, rfl, hrest⟩ := h
  exact ⟨e :: newer, full, since, look, before, rfl, hrest⟩

namespace FoundLacking

/-- The call has just looked. -/
theorem of_look (es : List (Episode ρ)) (ht : e.IsTurn t d a q s) (hi : a.pool = i)
    (hopen : q.closed = false) (short : q.registry.idle.length < q.config.minIdle)
    (room : q.registry.hasRoom = true) (hidle : s.pool.registry.idle = q.registry.idle)
    (hcfg : s.pool.config = q.config) :
    FoundLacking t d i [] (e :: es) e.after := by
  have hq : e.before.pools[i]? = some q := hi ▸ ht.works.pool
  refine ⟨⟨e, es, rfl, ht.runs, q, hq, hopen, short, room⟩, fun _ => ht.lacksIdle hi ?_⟩
  rw [hidle, hcfg]
  exact short

/-- While the call rests, only others can fill the reserve. -/
theorem rests (h : FoundLacking t d i since es e.before) (hw : e.before.Sound g)
    (hr : e.before.react e.event = some e.effect) (still : e.runs t d = false) :
    FoundLacking t d i (e :: since) (e :: es) e.after := by
  obtain ⟨look, before, rfl, hlook⟩ := h.look
  refine ⟨⟨look, before, rfl, hlook⟩, fun hnone => ?_⟩
  obtain ⟨p, hp, hlacks⟩ := h.lacks fun x hx => hnone x (.tail _ hx)
  obtain ⟨p', hp', hcfg⟩ := World.react_config hw hr hp
  -- the idle ones get more only in a turn of another call on the pool
  have hle : (e.after.idleOf i).length ≤ (e.before.idleOf i).length := by
    rcases World.react_at hr i with ⟨hspares, -⟩ | ⟨u, a, q, s, hworks, hi⟩
    · exact Nat.le_of_eq (congrArg List.length hspares.idleOf)
    · exact Nat.le_of_not_lt fun hlt => hnone e (.head _) ⟨⟨a, hworks.call, hi⟩, still, hlt⟩
  have hafter : e.after.idleOf i = p'.registry.idle := World.idleOf_eq hp'
  rw [hafter, World.idleOf_eq hp] at hle
  refine ⟨p', hp', ?_⟩
  rw [hcfg]
  exact Nat.lt_of_le_of_lt hle hlacks

/-- A turn of the call does nothing to the reserve before the new object is ready. -/
theorem turn (h : FoundLacking t d i since es e.before) (ht : e.IsTurn t d a q s)
    (hi : a.pool = i) (hreg : s.pool.registry = q.registry) (hcfg : s.pool.config = q.config) :
    FoundLacking t d i (e :: since) (e :: es) e.after := by
  obtain ⟨look, before, rfl, hlook⟩ := h.look
  refine ⟨⟨look, before, rfl, hlook⟩, fun hnone => ?_⟩
  obtain ⟨p, hp, hlacks⟩ := h.lacks fun x hx => hnone x (.tail _ hx)
  obtain rfl : p = q := Option.some.inj (hp.symm.trans (hi ▸ ht.works.pool))
  refine ht.lacksIdle hi ?_
  rw [hreg, hcfg]
  exact hlacks

end FoundLacking

/-! ## Why a new object is given up -/

/-- Why a call gives up a new object that has a fault or none, with the error with which it ends. -/
inductive GivenUp (t d i : Nat) (es : List (Episode ρ)) (w : World ρ) (fault : Option PoolError) :
    PoolError → Prop
  | shut (shut : w.IsShut i) : GivenUp t d i es w fault .closed
  | unfit {err : PoolError} (faulty : fault = some err) : GivenUp t d i es w fault err
  | crowded (crowded : Crowded t d i es) : GivenUp t d i es w fault (.exhausted .zero)

theorem GivenUp.next (h : GivenUp t d i es e.before fault err)
    (hr : e.before.react e.event = some e.effect) : GivenUp t d i (e :: es) e.after fault err := by
  cases h with
  | shut shut => exact .shut (shut.react hr)
  | unfit faulty => exact .unfit faulty
  | crowded crowded => exact .crowded (crowded.cons e)

/-- The reserve is below the ceiling, so that the idle objects are too many for a new one only if
    others have filled them. -/
theorem FoundLacking.givenUp (h : FoundLacking t d i since es e.before)
    (hvalid : q.config.minIdle ≤ q.config.maxIdle) (ht : e.IsTurn t d a q s) (hi : a.pool = i)
    (hu : q.Unwanted fault err) : GivenUp t d i (e :: es) e.after fault err := by
  have hq : e.before.pools[i]? = some q := hi ▸ ht.works.pool
  cases hu with
  | shut closed =>
    have hshut : e.before.IsShut i := ⟨q, hq, closed⟩
    exact .shut (hshut.react ht.react)
  | unfit _ _ faulty => exact .unfit faulty
  | full isOpen full =>
    obtain ⟨look, before, rfl, hlook⟩ := h.look
    have hothers : ∃ x ∈ since, x.OthersStock t d i := by
      by_contra hnone
      obtain ⟨p, hp, hlacks⟩ := h.lacks fun x hx hstock => hnone ⟨x, hx, hstock⟩
      obtain rfl := Option.some.inj (hp.symm.trans hq)
      omega
    exact .crowded
      ⟨[], e, since, look, before, rfl, hlook, ⟨ht.runs, q, hq, isOpen, full⟩, hothers⟩

end Looks

/-! ## How far a call has come -/

theorem Registry.mem_registerIdle (r : Registry) (id : Nat) : id ∈ (r.registerIdle id).idle :=
  mem_pushIdle.mpr (.inl rfl)

/-- What the factory has done for the new object `id`, with the fault that it has found. -/
inductive Config.Tried (c : Config) (id : Nat) : Option PoolError → List Deed → Prop
  | fine : Tried c id none (c.passed id)
  | faulty {err : PoolError} {ds : List Deed} (rejects : c.Rejects id err ds) :
      Tried c id (some err) ds

/-- An object is laid to rest in an episode and is among the idle ones of the pool `i` then. -/
structure Episode.Stocks (i id : Nat) (e : Episode ρ) : Prop where
  deed : e.deed? = some (.laidToRest id none)
  idle : id ∈ e.after.idleOf i

/-- How far a call has come that fills the reserve of the pool `i`, in the episodes `es`: it has
    made the objects `ids`, and the factory has done `ds` for it in all. -/
inductive Preparing (c : Config) (t d i : Nat) (es : List (Episode ρ)) (w : World ρ) :
    List Nat → List Deed → Point ρ → Prop
  | begins : Preparing c t d i es w [] [] .prepare
  | looks (ids : List Nat) :
      Preparing c t d i es w ids (ids.flatMap c.passed) (.filling .prepare ids.length)
  | makes {ids : List Nat} {since : List (Episode ρ)} (found : FoundLacking t d i since es w) :
      Preparing c t d i es w ids (ids.flatMap c.passed)
        (.creating (.stock (.fill .prepare ids.length)))
  | checks {ids : List Nat} {since : List (Episode ρ)} (id : Nat) (test : c.testOnCreate = true)
      (found : FoundLacking t d i since es w) :
      Preparing c t d i es w ids (ids.flatMap c.passed ++ [.made none])
        (.validating id (.stock (.fill .prepare ids.length)))
  | lays {ids : List Nat} {since : List (Episode ρ)} (id : Nat)
      (found : FoundLacking t d i since es w) :
      Preparing c t d i es w ids
        (ids.flatMap c.passed ++ .made none :: if c.testOnCreate then [.checked id true] else [])
        (.passivating id (.stock (.fill .prepare ids.length)))
  | fails {ids : List Nat} {id : Nat} {err : PoolError} {fault : Option PoolError} {ds : List Deed}
      (v : ρ) (tried : c.Tried id fault ds) (givenUp : GivenUp t d i es w fault err) :
      Preparing c t d i es w ids (ids.flatMap c.passed ++ ds)
        (.destroying id v .normal (.notStocked (.fill .prepare ids.length) err))

/-- What such a call has come to in the end, when `es` had happened: the objects that it has made,
    what the factory has done for it, and the result. -/
inductive Prepared (c : Config) (t d i : Nat) (es : List (Episode ρ)) (w : World ρ) :
    List Nat → List Deed → Except PoolError Nat → Prop
  /-- It has found nothing left to do. -/
  | enough {ids : List Nat} {p : Pool ρ} (pool : w.pools[i]? = some p)
      (reason : p.closed = true ∨ p.config.minIdle ≤ p.registry.idle.length ∨
        p.registry.hasRoom = false) :
      Prepared c t d i es w ids (ids.flatMap c.passed) (.ok ids.length)
  | shutOut (shut : w.IsShut i) : Prepared c t d i es w [] [] (.error .closed)
  | refused {ids : List Nat} {id : Nat} {err : PoolError} {ds : List Deed}
      (refuses : c.Refuses id err ds) :
      Prepared c t d i es w ids (ids.flatMap c.passed ++ ds) (.error err)
  | shut {ids : List Nat} {id : Nat} {fault : Option PoolError} {ds : List Deed}
      (tried : c.Tried id fault ds) (shut : w.IsShut i) :
      Prepared c t d i es w ids (ids.flatMap c.passed ++ (ds ++ [.destroyed id .normal]))
        (.error .closed)
  | crowded {ids : List Nat} {id : Nat} {fault : Option PoolError} {ds : List Deed}
      (tried : c.Tried id fault ds) (crowded : Crowded t d i es) :
      Prepared c t d i es w ids (ids.flatMap c.passed ++ (ds ++ [.destroyed id .normal]))
        (.error (.exhausted .zero))

section Stages

variable {c : Config} {t d i id : Nat} {es ts older : List (Episode ρ)} {w : World ρ}
  {ids : List Nat} {ds : List Deed} {pt : Point ρ} {e : Episode ρ} {a : Activity ρ} {q : Pool ρ}
  {s : Stretch ρ} {g : Nat → List Nat} {err : PoolError} {fault : Option PoolError}

/-- An object that was given up is destroyed, and the call ends. -/
theorem GivenUp.prepared (h : GivenUp t d i es w fault err) (tried : c.Tried id fault ds)
    (ids : List Nat) :
    Prepared c t d i es w ids (ids.flatMap c.passed ++ (ds ++ [.destroyed id .normal]))
      (.error err) := by
  cases h with
  | shut shut => exact .shut tried shut
  | crowded crowded => exact .crowded tried crowded
  | unfit faulty =>
    subst faulty
    cases tried with
    | faulty rejects => exact .refused (.rejected rejects)

namespace Preparing

theorem supplies (h : Preparing c t d i es w ids ds pt) :
    pt = .prepare ∨ pt.Supplies (.fill .prepare ids.length) := by
  cases h with
  | begins => exact .inl rfl
  | looks => exact .inr (.asks (k := .fill .prepare ids.length))
  | makes => exact .inr .makes
  | checks id => exact .inr (.checks id)
  | lays id => exact .inr (.lays id)
  | fails v => exact .inr (.fails _ v _)

/-- While the call rests. -/
theorem rests (h : Preparing c t d i es e.before ids ds pt) (hw : e.before.Sound g)
    (hr : e.before.react e.event = some e.effect) (still : e.runs t d = false) :
    Preparing c t d i (e :: es) e.after ids ds pt := by
  cases h with
  | begins => exact .begins
  | looks ids => exact .looks ids
  | makes found => exact .makes (found.rests hw hr still)
  | checks id test found => exact .checks id test (found.rests hw hr still)
  | lays id found => exact .lays id (found.rests hw hr still)
  | fails v tried givenUp => exact .fails v tried (givenUp.next hr)

/-- The first turn of the call. -/
theorem first (ht : e.IsTurn t d a q s) (hi : a.pool = i) (hpt : a.point = .prepare) :
    (s.next = .go (.filling .prepare 0) ∧ e.deed? = none) ∨
      (e.Finishes t d i (Filler.prepare.reply (.error .closed)) ∧ e.deed? = none ∧
        e.before.IsShut i) := by
  have hcases := ht.cases
  have hq : e.before.pools[i]? = some q := hi ▸ ht.works.pool
  have hfinishes : ∀ {r : Reply}, s.next = .finish r → e.Finishes t d i r := fun hn =>
    hi ▸ ht.finishes hn
  obtain ⟨j, pt⟩ := a
  obtain rfl : pt = .prepare := hpt
  rcases hcases with ⟨hdeed, hs⟩ | ⟨r, -, -, hs⟩
  · have hprepare : s = q.prepare := by
      cases hs
      rfl
    unfold Pool.prepare at hprepare
    split at hprepare
    · rename_i hclosed
      exact .inr ⟨hfinishes (hprepare ▸ rfl), hdeed, q, hq, hclosed⟩
    · exact .inl ⟨hprepare ▸ rfl, hdeed⟩
  · cases hs

/-- What a turn of the call makes of it. -/
theorem turn (h : Preparing c t d i es e.before ids ds a.point) (hw : e.before.Sound g)
    (ht : e.IsTurn t d a q s) (hi : a.pool = i) (hc : q.config = c)
    (hvalid : c.minIdle ≤ c.maxIdle) :
    (∃ ids' pt, s.next = .go pt ∧
      Preparing c t d i (e :: es) e.after ids' (ds ++ e.deed?.toList) pt ∧
      ∀ id ∈ ids', id ∈ ids ∨ e.Stocks i id) ∨
    ∃ x, e.Finishes t d i (Filler.prepare.reply x) ∧
      Prepared c t d i es e.before ids (ds ++ e.deed?.toList) x := by
  have hcfg := ht.works.config hw
  have hq : e.before.pools[i]? = some q := hi ▸ ht.works.pool
  have hrefills := fun hpt => ht.refills (f := .prepare) (m := ids.length) hw hpt
  -- the first turn is none of the loop's
  have hfirst := first ht hi
  have hends : ∀ {x : Except PoolError Nat}, s.Tells .prepare x →
      e.Finishes t d i (Filler.prepare.reply x) := fun htells => hi ▸ ht.finishes htells.next
  have hidle : e.after.idleOf i = s.pool.registry.idle := hi ▸ ht.works.idleOf
  have hold : ∀ id ∈ ids, id ∈ ids ∨ e.Stocks i id := fun id hid => .inl hid
  subst hc
  generalize hdeed : e.deed? = deed at hrefills hfirst ⊢
  generalize a.point = pt at h hrefills hfirst
  cases h with
  | begins =>
    rcases hfirst rfl with ⟨hnext, rfl⟩ | ⟨hends, rfl, hshut⟩
    · exact .inl ⟨[], _, hnext, .looks [], hold⟩
    · exact .inr ⟨_, hends, .shutOut hshut⟩
  | looks =>
    cases hrefills (.asks (k := .fill .prepare ids.length)) with
    | enough reason tells same =>
      rw [Option.toList_none, List.append_nil]
      exact .inr ⟨_, hends tells, .enough hq reason⟩
    | reserves isOpen short room next books =>
      rw [Option.toList_none, List.append_nil]
      have hsame : s.pool.registry.idle = q.registry.idle := by
        rw [books]
        rfl
      have hfound := FoundLacking.of_look es ht hi isOpen short room hsame hcfg
      exact .inl ⟨ids, _, next, .makes hfound, hold⟩
  | makes found =>
    cases hrefills .makes with
    | unmade reason tells books =>
      have hrefuses : q.config.Refuses q.entries.length _ _ := .unmade reason
      exact .inr ⟨_, hends tells, .refused hrefuses⟩
    | made next confined =>
      -- the books do not tell of a new object yet, so that the last look still counts
      have hfound := found.turn ht hi confined.registry hcfg
      -- without a test the object is laid to rest at once
      by_cases htest : q.config.testOnCreate = true
      · rw [if_pos htest] at next
        exact .inl ⟨ids, _, next, .checks _ htest hfound, hold⟩
      · rw [if_neg htest] at next
        have hlays : Preparing q.config t d i (e :: es) e.after ids _ _ :=
          .lays q.entries.length hfound
        rw [if_neg htest] at hlays
        exact .inl ⟨ids, _, next, hlays, hold⟩
  | checks id test found =>
    rw [List.append_assoc]
    cases hrefills (.checks id) with
    | fit next same =>
      have hlays : Preparing q.config t d i (e :: es) e.after ids _ _ :=
        .lays id (found.turn ht hi (congrArg Pool.registry same) hcfg)
      rw [if_pos test] at hlays
      exact .inl ⟨ids, _, next, hlays, hold⟩
    | unfit unwanted next confined =>
      have hgives := found.givenUp hvalid ht hi unwanted
      exact .inl ⟨ids, _, next, .fails _ (.faulty (.unfit test)) hgives, hold⟩
  | lays id found =>
    rw [List.append_assoc]
    cases hrefills (.lays id) with
    | joins isOpen room next confined =>
      have hlooks : Preparing q.config t d i (e :: es) e.after _ _ _ := .looks (ids ++ [id])
      rw [List.flatMap_append, List.flatMap_singleton, List.length_append] at hlooks
      refine .inl ⟨ids ++ [id], _, next, hlooks, fun x hx => ?_⟩
      rcases List.mem_append.mp hx with hx | hx
      · exact .inl hx
      · obtain rfl := List.mem_singleton.mp hx
        refine .inr ⟨hdeed, ?_⟩
        rw [hidle, confined.registry]
        exact Registry.mem_registerIdle ..
    | spare refusal unwanted next confined =>
      -- an object that was laid to rest may be given up without a fault of its own
      have hgives := found.givenUp hvalid ht hi unwanted
      cases refusal with
      | none => exact .inl ⟨ids, _, next, .fails _ .fine hgives, hold⟩
      | some reason =>
        exact .inl ⟨ids, _, next, .fails _ (.faulty (.stiff reason)) hgives, hold⟩
  | fails v tried givenUp =>
    rw [List.append_assoc]
    cases hrefills (.fails _ v _) with
    | unstocked tells same => exact .inr ⟨_, hends tells, givenUp.prepared tried ids⟩

end Preparing

end Stages

/-! ## Main statement -/

section Runs

variable {es later older ts : List (Episode ρ)} {w w₀ : World ρ} {t d i : Nat} {p₀ : Pool ρ}
  {e : Episode ρ} {a : Activity ρ} {q : Pool ρ} {s : Stretch ρ} {g : Nat → List Nat} {c : Config}

/-- A call on its way that fills the reserve of the pool `i`, with the turns `ts` that it has had
    and the objects `ids` that it has made. -/
structure Preparation (c : Config) (t d i : Nat) (es ts : List (Episode ρ)) (w : World ρ)
    (a : Activity ρ) (ids : List Nat) : Prop where
  pool : a.pool = i
  stage : Preparing c t d i es w ids (deeds ts) a.point
  joined : ∀ id ∈ ids, ∃ e ∈ ts, e.Stocks i id

/-- The turn with which it ends. -/
structure Preparation.LastTurn (c : Config) (t d i : Nat) (es ts : List (Episode ρ))
    (e : Episode ρ) (ids : List Nat) (x : Except PoolError Nat) : Prop where
  finishes : e.Finishes t d i (Filler.prepare.reply x)
  outcome : Prepared c t d i es e.before ids (deeds (e :: ts)) x
  joined : ∀ id ∈ ids, ∃ e ∈ ts, e.Stocks i id

theorem Preparation.turn {ids : List Nat} (h : Preparation c t d i es ts e.before a ids)
    (hw : e.before.Sound g) (ht : e.IsTurn t d a q s) (hc : q.config = c)
    (hvalid : c.minIdle ≤ c.maxIdle) :
    (∃ pt, s.next = .go pt ∧ ∃ ids', Preparation c t d i (e :: es) (e :: ts) e.after ⟨a.pool, pt⟩
      ids') ∨ ∃ x, LastTurn c t d i es ts e ids x := by
  rcases h.stage.turn hw ht h.pool hc hvalid with
    ⟨ids', pt, hnext, hstage, hids⟩ | ⟨x, hends, houtcome⟩
  · rw [← deeds_cons] at hstage
    refine .inl ⟨pt, hnext, ids', h.pool, hstage, fun id hid => ?_⟩
    rcases hids id hid with hold | hnew
    · obtain ⟨e', he', hstocks⟩ := h.joined id hold
      exact ⟨e', .tail _ he', hstocks⟩
    · exact ⟨e, .head _, hnew⟩
  · rw [← deeds_cons] at houtcome
    exact .inr ⟨x, hends, houtcome, h.joined⟩

/-- A call that fills the reserve of the pool `i`, which has the settings `c`, has made the objects
    `ids` and stands at `pt`; `later` is what has happened since it began. -/
structure PreparationGoesOn (c : Config) (t d i : Nat) (later : List (Episode ρ)) (w : World ρ)
    (ids : List Nat) (pt : Point ρ) : Prop where
  callAt : w.callAt t d = some ⟨i, pt⟩
  going : answer? t d later = none
  stage : Preparing c t d i later w ids (deeds (turns t d later)) pt
  joined : ∀ id ∈ ids, ∃ e ∈ turns t d later, e.Stocks i id
  /-- It waits for nothing but the factory. -/
  goesOn : pt.isRequest = false → (w.step t).isSome = true
  /-- When it looks and nothing is left to do, it ends with the number of these objects. -/
  stops : ∀ p f, pt = .filling .prepare ids.length → w.pools[i]? = some p →
    p.closed = true ∨ p.config.minIdle ≤ p.registry.idle.length ∨ p.registry.hasRoom = false →
    w.react (.step t) = some f → Episode.Finishes t d i (.made ids.length) ⟨w, .step t, f⟩

/-- Such a call has its last turn in the episode `e`, with the result `x`. -/
structure PreparationEnds (c : Config) (t d i : Nat) (older : List (Episode ρ)) (e : Episode ρ)
    (ids : List Nat) (x : Except PoolError Nat) : Prop where
  finishes : e.Finishes t d i (Filler.prepare.reply x)
  first : answer? t d older = none
  outcome : Prepared c t d i older e.before ids (deeds (turns t d (e :: older))) x
  joined : ∀ id ∈ ids, ∃ e' ∈ turns t d older, e'.Stocks i id

theorem Preparation.goesOn {ids : List Nat} (h : Preparation c t d i later ts w a ids)
    (hcourse : w₀.Course t d later ts w a) (hw : w₀.Sound g) :
    PreparationGoesOn c t d i later w ids a.point := by
  obtain ⟨hts, hnone⟩ := hcourse.turns_eq
  have hsound := hcourse.sound hw
  have hcall := hcourse.callAt hw
  have hsupplies := h.stage.supplies
  have hi := h.pool
  refine ⟨hi ▸ hcall, hnone, hts.symm ▸ h.stage, hts.symm ▸ h.joined, fun hreq => ?_,
    fun p f hpt hp hreason hr => ?_⟩
  · refine hsound.step_isSome hcall hreq fun p _ => ?_
    generalize a.point = pt at hsupplies hreq
    rcases hsupplies with rfl | hsupplies
    · rfl
    · cases hsupplies with
      | asks => rfl
      | makes | checks | lays | fails => exact nomatch hreq
  · obtain ⟨q, s, hturn⟩ := hsound.turn_of_step hcall (by rw [hpt]; rfl) hr
    obtain rfl := Option.some.inj (hp.symm.trans (hi ▸ hturn.works.pool))
    have hrefills := hturn.refills (f := .prepare) (m := ids.length) hsound
      (hpt ▸ .asks (k := .fill .prepare ids.length))
    rw [hpt] at hrefills
    generalize Episode.deed? _ = deed at hrefills
    cases hrefills with
    | enough _ tells => exact hi ▸ hturn.finishes tells.next
    | reserves isOpen short room =>
      rcases hreason with hclosed | hfull | hnoroom
      · exact absurd (isOpen.symm.trans hclosed) Bool.false_ne_true
      · exact absurd short (Nat.not_lt_of_le hfull)
      · exact absurd (hnoroom.symm.trans room) Bool.false_ne_true

/-- In every run a call that fills the reserve of a pool ends with the number of objects that it has
    made and laid to rest there, once nothing is left to do; or with an error, for which there is a
    cause: the pool is closed, or the factory has refused an object of this call, or others have
    put so many among the idle ones between two looks of the call that there may be no more. -/
theorem preparation_ends_for_cause (h₀ : Run es w₀) (hp₀ : w₀.pools[i]? = some p₀)
    (ha : w₀.callAt t d = some ⟨i, .prepare⟩) (h : Run (later ++ es) w) :
    (∃ ids pt, PreparationGoesOn p₀.config t d i later w ids pt) ∨
      ∃ newer e older ids x, later = newer ++ e :: older ∧
        PreparationEnds p₀.config t d i older e ids x := by
  have hvalid := Config.minIdle_le_of_valid (h₀.valid hp₀)
  have hstart : Preparation p₀.config t d i [] [] w₀ ⟨i, .prepare⟩ [] :=
    ⟨rfl, .begins, List.forall_mem_nil _⟩
  rcases (h₀.leads h).follow
    (fun older ts w a => ∃ ids, Preparation p₀.config t d i older ts w a ids)
    (fun older ts e _ => ∃ ids x, Preparation.LastTurn p₀.config t d i older ts e ids x) h₀.sound
    ha ⟨[], hstart⟩
    (fun hcourse _ hr still ⟨ids, hway⟩ =>
      ⟨ids, hway.pool, hway.stage.rests (hcourse.sound h₀.sound) hr still, hway.joined⟩)
    (fun hcourse _ hturn ⟨ids, hway⟩ => by
      -- the pool has the settings that it had
      obtain ⟨q', hq', hconfig⟩ := hcourse.leads.config h₀.sound hp₀
      obtain rfl := Option.some.inj (hq'.symm.trans (hway.pool ▸ hturn.works.pool))
      rcases hway.turn (hcourse.sound h₀.sound) hturn hconfig hvalid with hgoes | ⟨x, hends⟩
      · exact .inl hgoes
      · exact .inr ⟨ids, x, hends⟩) with
    ⟨ts, a, hcourse, ids, hway⟩ | ⟨newer, e, older, ts, a, rfl, hcourse, ids, x, hends⟩
  · exact .inl ⟨ids, _, hway.goesOn hcourse h₀.sound⟩
  · have hturns := hcourse.turns_cons hends.finishes.1
    obtain ⟨hts, hnone⟩ := hcourse.turns_eq
    exact .inr ⟨newer, e, older, ids, x, rfl, hends.finishes, hnone, hturns.symm ▸ hends.outcome,
      hts.symm ▸ hends.joined⟩

end Runs

/-- The reserve of a pool is one object, which is also the most that may be idle. It is lent when a
    call begins that fills the reserve. -/
def lentReserveEvents : List (Event Nat) :=
  [.create { maxTotal := 2, maxIdle := 1, minIdle := 1 }, .spawn, .begin 0 0 (.borrow none "first"),
    .step 0, .step 0, .answer 0 (.created (.ok 7)), .answer 0 (.activated 7 none),
    .begin 0 0 .prepare]

/-- While the factory makes an object for the call, the borrower returns the one that he has. -/
def refilledEvents : List (Event Nat) :=
  lentReserveEvents ++ [.step 0, .step 0, .giveBack 0 0 0, .step 0, .answer 0 (.passivated 7 none),
    .answer 0 (.created (.ok 8)), .answer 0 (.passivated 8 none), .answer 0 (.destroyed none)]

theorem preparation_ends_for_cause_when_refilled :
    ∃ p, Run (episodes lentReserveEvents) (reached lentReserveEvents) ∧
      (reached lentReserveEvents).pools[0]? = some p ∧
      (reached lentReserveEvents).callAt 0 0 = some ⟨0, .prepare⟩ ∧
      Run ((episodes refilledEvents).take 8 ++ episodes lentReserveEvents)
        (reached refilledEvents) ∧
      answer? 0 0 ((episodes refilledEvents).take 8) = some (.failed (.exhausted .zero)) ∧
      ((∃ ids pt, PreparationGoesOn p.config 0 0 0 ((episodes refilledEvents).take 8)
        (reached refilledEvents) ids pt) ∨
      ∃ newer e older ids x, (episodes refilledEvents).take 8 = newer ++ e :: older ∧
        PreparationEnds p.config 0 0 0 older e ids x) :=
  have h₀ : Run (episodes lentReserveEvents) (reached lentReserveEvents) := Run.of_events rfl
  have hall : Run (episodes refilledEvents) (reached refilledEvents) := Run.of_events rfl
  have h : Run ((episodes refilledEvents).take 8 ++ episodes lentReserveEvents)
      (reached refilledEvents) := hall
  ⟨_, h₀, rfl, rfl, h, by decide +kernel, preparation_ends_for_cause h₀ rfl rfl h⟩

/-- The call fails as if the pool were exhausted, though the pool is open and has its reserve, and
    the factory has refused nothing. -/
theorem exhausted_by_full_reserve :
    ∃ p, Run (episodes refilledEvents) (reached refilledEvents) ∧
      (reached lentReserveEvents).callAt 0 0 = some ⟨0, .prepare⟩ ∧
      answer? 0 0 ((episodes refilledEvents).take 8) = some (.failed (.exhausted .zero)) ∧
      deeds (turns 0 0 ((episodes refilledEvents).take 8)) =
        [.made none, .laidToRest 1 none, .destroyed 1 .normal] ∧
      (reached refilledEvents).pools[0]? = some p ∧ p.closed = false ∧ p.config.minIdle = 1 ∧
      p.registry.idle = [0] :=
  ⟨_, Run.of_events rfl, rfl, by decide +kernel, by decide +kernel, rfl, rfl, rfl, rfl⟩

end ObjectPool
