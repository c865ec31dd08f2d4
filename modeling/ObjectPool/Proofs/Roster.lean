/-
  ObjectPool.Proofs.Roster

  What an event does to the objects of a pool and to the handles. Objects are only
  ever added, by the factory, each with the next number. An event of the callers
  leaves the objects alone, or changes the one of a handle; a handle stays one of
  the same object as long as it is there.

    * `World.entriesOf` — the objects of a pool, by number.
    * `Called.entries`, `apply_entries` — what an event does to them.
    * `Run.births` — the numbers of the objects that the factory made.
-/

import ObjectPool.Proofs.Invariant

namespace ObjectPool

variable {ρ : Type}

namespace World

/-- Every object that ever was in the pool `i`, at the place of its number. -/
def entriesOf (w : World ρ) (i : Nat) : List (Entry ρ) := ((w.pools[i]?).map (·.entries)).getD []

variable {w w' : World ρ} {g : Nat → List Nat} {i t p n : Nat} {q : Pool ρ} {f : Effect ρ}
  {a : Activity ρ} {x y : Handle} {s : Stretch ρ} {e : Event ρ}

theorem entriesOf_eq (hq : w.pools[i]? = some q) : w.entriesOf i = q.entries := by
  rw [entriesOf, hq]
  rfl

theorem resource?_eq (w : World ρ) (x : Handle) :
    w.resource? x = ((w.entriesOf x.pool)[x.object]?).bind (·.slot) := by
  unfold resource? entriesOf
  cases w.pools[x.pool]? <;> rfl

theorem stateOf_eq (w : World ρ) (x : Handle) :
    w.stateOf x = (((w.entriesOf x.pool)[x.object]?).map (·.state)).getD .invalid := by
  unfold stateOf entriesOf
  cases w.pools[x.pool]? with
  | none => rfl
  | some q =>
    show q.stateOf x.object = ((q.entries[x.object]?).map (·.state)).getD .invalid
    unfold Pool.stateOf Pool.object?
    cases q.entries[x.object]? <;> rfl

/-! ## The objects -/

theorem entriesOf_onPool (w : World ρ) (p i : Nat) (u : Pool ρ → Pool ρ) :
    (w.onPool p u).entriesOf i =
      if i = p then ((w.pools[p]?).map fun q => (u q).entries).getD [] else w.entriesOf i := by
  unfold entriesOf onPool
  dsimp only
  rw [List.getElem?_modify]
  by_cases hi : i = p
  · subst hi
    cases w.pools[i]? <;> simp
  · rw [if_neg hi]
    simp [Ne.symm hi]

/-- A change to a pool that leaves its objects alone. -/
theorem entriesOf_onPool_of_eq {u : Pool ρ → Pool ρ} (hu : ∀ q, (u q).entries = q.entries)
    (w : World ρ) (p i : Nat) : (w.onPool p u).entriesOf i = w.entriesOf i := by
  rw [entriesOf_onPool]
  split
  · rename_i hi
    rw [hi, entriesOf]
    simp only [hu]
  · rfl

theorem entriesOf_forsake (w : World ρ) (t p : Nat) (r : Reply) (i : Nat) :
    (w.forsake t p r).world.entriesOf i = w.entriesOf i := by
  rcases forsake_cases w t p r with ⟨q, -, -, hlast⟩ | ⟨-, hmore⟩
  · rw [hlast]
    exact entriesOf_onPool_of_eq (u := fun q => { q with gone := true }) (fun _ => rfl) w p i
  · rw [hmore]

/-- A stretch shows in the objects of its own pool alone. -/
theorem apply_entries (hq : w.pools[p]? = some q) (i : Nat) :
    (w.apply t p s).world.entriesOf i = if i = p then s.pool.entries else w.entriesOf i := by
  have hset := entriesOf_onPool w p i fun _ => s.pool
  rw [hq] at hset
  cases hn : s.next with
  | go pt =>
    rw [apply_go hn]
    exact hset
  | finish r =>
    rw [apply_finish hn]
    exact (entriesOf_forsake (((w.onPool p fun _ => s.pool).pop t).handOver p r) t p r i).trans hset

theorem keeperStep_entries {k : Keeper} (hk : w.keeperStep t k = some f) (i : Nat) :
    f.world.entriesOf i = w.entriesOf i := by
  rcases (keeperStep_cases hk).2 with ⟨phase, hf⟩ | ⟨q, -, hf⟩
  · rw [hf]
    rfl
  · rw [hf]
    rfl

/-- A new pool has no objects. -/
theorem create_entries {c : Config} {notices : List (Nat × Notice)}
    (hw : w.create c = .ok (w', notices)) (i : Nat) : w'.entriesOf i = w.entriesOf i := by
  obtain ⟨keeper, ths, -, rfl⟩ := create_cases hw
  rw [entriesOf, entriesOf, List.getElem?_append]
  split
  · rfl
  · rename_i hlt
    rw [List.getElem?_eq_none_iff.mpr (Nat.le_of_not_lt hlt)]
    cases i - w.pools.length with
    | zero => rfl
    | succ k => rfl

/-- A handle that leaves its borrower's hands leaves the object as it is. -/
theorem PartsWith.entries (h : w.PartsWith t n x w') (i : Nat) :
    w'.entriesOf i = w.entriesOf i := by
  cases h with
  | own _ => rfl
  | foreign p _ =>
    exact entriesOf_onPool_of_eq (u := fun q => (q.refuseReturn .done).pool) (fun _ => rfl)
      (w.surrender n) p i

/-- A change to the object of a handle shows there alone. -/
theorem entriesOf_modify (hq : w.pools[p]? = some q) {v : Pool ρ → Pool ρ} {id : Nat}
    {u : Entry ρ → Entry ρ} (hv : (v q).entries = q.entries.modify id u) (i : Nat) :
    (w.onPool p v).entriesOf i =
      if i = p then (w.entriesOf i).modify id u else w.entriesOf i := by
  rw [entriesOf_onPool, hq]
  split
  · rename_i hi
    subst hi
    rw [entriesOf_eq hq]
    exact hv
  · rfl

/-- A use is noted beside the resource. -/
theorem trackUse_entries (q : Pool ρ) (now : Instant) (id : Nat) (site : String) :
    ∃ u : Entry ρ → Entry ρ, (q.trackUse now id site).entries = q.entries.modify id u ∧
      ∀ y, (u y).slot = y.slot := by
  unfold Pool.trackUse
  split
  · split
    · exact ⟨_, rfl, fun _ => rfl⟩
    · exact ⟨fun y => y, (List.modify_id _ _).symm, fun _ => rfl⟩
  · exact ⟨fun y => y, (List.modify_id _ _).symm, fun _ => rfl⟩

end World

/-- Two handles of the same object. -/
structure Handle.Alike (x y : Handle) : Prop where
  pool : y.pool = x.pool
  object : y.object = x.object

/-- The handle through which an event changes a resource, with the change. -/
def Event.change? : Event ρ → Option (Nat × (ρ → ρ))
  | .access n _ c | .unlock n c => some (n, c)
  | _ => none

/-- The handle through which an event changes a resource. -/
def Event.changes (e : Event ρ) : Option Nat := (e.change?).map (·.1)

namespace World

variable {w w' : World ρ} {g : Nat → List Nat} {i t p n : Nat} {q : Pool ρ} {f : Effect ρ}
  {a : Activity ρ} {x y : Handle} {s : Stretch ρ} {e : Event ρ}

/-- What an event does to the object of a handle: it changes the resource by an access through
    the handle, or something beside the resource. -/
inductive Uses (w : World ρ) (e : Event ρ) (n : Nat) (x : Handle) (u : Entry ρ → Entry ρ) : Prop
  | change {c : ρ → ρ} {r : ρ} (he : e.change? = some (n, c)) (hr : w.resource? x = some r)
      (hu : ∀ y, (u y).slot = some (c r)) : Uses w e n x u
  | beside (hu : ∀ y, (u y).slot = y.slot) : Uses w e n x u

/-- An event of the callers leaves the objects alone, or uses the one of a handle. -/
theorem Called.entries (hc : w.Called e f) :
    (∀ i, f.world.entriesOf i = w.entriesOf i) ∨
      ∃ n x u, w.handle? n = some x ∧ w.Uses e n x u ∧
        ∀ i, f.world.entriesOf i =
          if i = x.pool then (w.entriesOf i).modify x.object u else w.entriesOf i := by
  cases hc with
  | tick _ | spawn | notCreated _ | begin _ _ _ | noAccess _ _ | noLock _ _ =>
    exact .inl fun i => rfl
  | create hw => exact .inl (create_entries hw)
  | clone _ _ =>
    exact .inl (entriesOf_onPool_of_eq (u := fun q => { q with clones := q.clones + 1 })
      (fun _ => rfl) w _)
  | @drop t p _ _ _ _ =>
    refine .inl fun i => ?_
    have hsame := entriesOf_onPool_of_eq (u := fun q => { q with clones := q.clones - 1 })
      (fun _ => rfl) w p i
    exact (entriesOf_forsake _ t p .done i).trans hsame
  | giveBack _ _ _ _ _ => exact .inl (giveBack_parts ..).entries
  | invalidate _ _ _ _ _ => exact .inl (invalidate_parts ..).entries
  | letGo _ _ _ => exact .inl (letGo_parts ..).entries
  | @access n x site c r hx hg hr =>
    obtain ⟨q, hq, -⟩ := slot?_of_resource? hr
    -- the use is noted and the resource changed, both in the same object
    obtain ⟨u, hu, -⟩ := trackUse_entries q w.now x.object site
    refine .inr ⟨n, x, (fun y => { u y with held := false, slot := some (c r) }), hx,
      .change rfl hr fun _ => rfl, ?_⟩
    refine entriesOf_modify
      (v := fun q => (q.trackUse w.now x.object site).letGo x.object (c r)) hq ?_
    show ((q.trackUse w.now x.object site).entries.modify x.object _) = _
    rw [hu, List.modify_modify_eq]
    rfl
  | @lock n x site r hx hg hr =>
    obtain ⟨q, hq, -⟩ := slot?_of_resource? hr
    obtain ⟨u, hu, hslot⟩ := trackUse_entries q w.now x.object site
    refine .inr ⟨n, x, (fun y => { u y with held := true }), hx, .beside hslot, ?_⟩
    refine entriesOf_modify (v := fun q => (q.trackUse w.now x.object site).hold x.object) hq ?_
    show ((q.trackUse w.now x.object site).entries.modify x.object _) = _
    rw [hu, List.modify_modify_eq]
    rfl
  | @unlock n x c r hx hg hr =>
    obtain ⟨q, hq, -⟩ := slot?_of_resource? hr
    exact .inr ⟨n, x, _, hx, .change rfl hr fun _ => rfl,
      entriesOf_modify (v := Pool.letGo x.object (c r)) hq rfl⟩
  | @markUsed n x site hx =>
    cases hq : w.pools[x.pool]? with
    | none =>
      refine .inl fun i => ?_
      rw [World.markUsed, entriesOf_onPool, hq, entriesOf]
      split
      · rename_i hi
        rw [hi, hq]
        rfl
      · rfl
    | some q =>
      obtain ⟨u, hu, hslot⟩ := trackUse_entries q w.now x.object site
      by_cases hc : q.isHeld x.object = false ∧ (q.slot? x.object).isSome
      · refine .inr ⟨n, x, u, hx, .beside hslot, entriesOf_modify hq ?_⟩
        rw [if_pos hc]
        exact hu
      · refine .inr ⟨n, x, fun y => y, hx, .beside fun _ => rfl, entriesOf_modify hq ?_⟩
        rw [if_neg hc]
        exact (List.modify_id _ _).symm

/-! ## New objects -/

theorem Stretches.length_entries (hs : w.Stretches t a q s n) (h : w.Sound g) :
    s.pool.entries.length = q.entries.length + n := (hs.rest h).born_eq

/-- The factory makes one object at a time, and it gets the next number. -/
theorem born_cases (w : World ρ) (e : Event ρ) (f : Effect ρ) (i : Nat) :
    Episode.born i ⟨w, e, f⟩ = [] ∨
      ∃ r, Episode.born i ⟨w, e, f⟩ = [((w.entriesOf i).length, r)] := by
  unfold Episode.born
  split
  · split
    · split
      · rename_i r _ _ p _ _ hp
        subst hp
        refine .inr ⟨r, ?_⟩
        unfold entriesOf
        cases w.pools[p]? <;> rfl
      · exact .inl rfl
    · exact .inl rfl
  · exact .inl rfl

/-- An answer of the factory brings the objects that the call on top of the thread waits for. -/
theorem length_born_answer {r : Response ρ} (ht : w.top? t = some a) (i : Nat) :
    (Episode.born i ⟨w, .answer t r, f⟩).length =
      if i = a.pool then a.point.births r else 0 := by
  obtain ⟨p, pt⟩ := a
  have hnone : ∀ n, n = 0 → ([] : List (Nat × ρ)).length = if i = p then n else 0 := by
    rintro n rfl
    exact (ite_self _).symm
  cases r with
  | created c =>
    cases c with
    | ok r =>
      unfold Episode.born
      dsimp only
      rw [ht]
      cases pt with
      | creating m =>
        dsimp only [Point.births]
        by_cases hi : i = p
        · rw [if_pos hi.symm, if_pos hi]
          rfl
        · rw [if_neg (Ne.symm hi), if_neg hi]
          rfl
      | _ => exact hnone _ rfl
    | error e => exact hnone _ (by cases pt <;> rfl)
  | _ => exact hnone _ (by cases pt <;> rfl)

/-- The objects of a pool grow by those that the factory made. -/
theorem react_length (h : w.Sound g) (hr : w.react e = some f) (i : Nat) :
    (f.world.entriesOf i).length =
      (w.entriesOf i).length + (Episode.born i ⟨w, e, f⟩).length := by
  rcases react_cases hr with hc | ⟨t, rfl, hs⟩ | ⟨t, r, rfl, hs⟩
  · have hborn : Episode.born i ⟨w, e, f⟩ = [] := by cases hc <;> rfl
    rw [hborn]
    rcases hc.entries with hsame | ⟨n, x, u, -, -, hu⟩
    · rw [hsame]
      rfl
    · rw [hu]
      split
      · rw [List.length_modify]
        rfl
      · rfl
  · rcases step_cases hs with ⟨a, q, s, ha, rfl⟩ | ⟨th, k, -, -, hk⟩
    · rw [apply_entries ha.pool]
      split
      · rename_i hi
        subst hi
        rw [entriesOf_eq ha.pool, ha.length_entries h]
        rfl
      · rfl
    · rw [keeperStep_entries hk]
      rfl
  · obtain ⟨a, q, s, ha, rfl⟩ := answer_cases hs
    rw [apply_entries ha.pool, length_born_answer ha.top]
    split
    · rename_i hi
      subst hi
      rw [entriesOf_eq ha.pool, ha.length_entries h]
    · rfl

/-! ## Handles -/

theorem forsake_handles (w : World ρ) (t p : Nat) (r : Reply) :
    (w.forsake t p r).world.handles = w.handles := by
  rcases forsake_cases w t p r with ⟨q, -, -, hlast⟩ | ⟨-, hmore⟩
  · rw [hlast]
    rfl
  · rw [hmore]

/-- A stretch adds a handle at the end, if at all. -/
theorem apply_handles (w : World ρ) (t p : Nat) (s : Stretch ρ) :
    ∃ new, (w.apply t p s).world.handles = w.handles ++ new := by
  cases hn : s.next with
  | go pt =>
    refine ⟨[], ?_⟩
    rw [apply_go hn, List.append_nil]
    rfl
  | finish r =>
    refine ⟨(r.handles p).map some, ?_⟩
    rw [apply_finish hn]
    exact forsake_handles (((w.onPool p fun _ => s.pool).pop t).handOver p r) t p r

theorem keeperStep_handles {k : Keeper} (hk : w.keeperStep t k = some f) :
    f.world.handles = w.handles := by
  rcases (keeperStep_cases hk).2 with ⟨phase, hf⟩ | ⟨q, -, hf⟩
  · rw [hf]
    rfl
  · rw [hf]
    rfl

theorem PartsWith.handles (h : w.PartsWith t n x w') : w'.handles = w.handles.set n none := by
  cases h with
  | own _ => rfl
  | foreign _ _ => rfl

/-- An event of the callers leaves the handles alone, or takes one away, or marks it as one
    that is worked with. -/
theorem Called.handles (hc : w.Called e f) :
    f.world.handles = w.handles ∨ ∃ n x v, w.handle? n = some x ∧
      (∀ y, v = some y → x.Alike y) ∧ f.world.handles = w.handles.set n v := by
  cases hc with
  | tick _ | spawn | notCreated _ | begin _ _ _ | clone _ _ | noAccess _ _ | noLock _ _
  | access _ _ _ | markUsed _ => exact .inl rfl
  | create hw =>
    obtain ⟨keeper, ths, -, rfl⟩ := create_cases hw
    exact .inl rfl
  | drop _ _ _ => exact .inl (forsake_handles ..)
  | giveBack _ _ _ hx _ =>
    exact .inr ⟨_, _, none, hx, (fun y hy => nomatch hy), (giveBack_parts ..).handles⟩
  | invalidate _ _ _ hx _ =>
    exact .inr ⟨_, _, none, hx, (fun y hy => nomatch hy), (invalidate_parts ..).handles⟩
  | letGo _ hx _ => exact .inr ⟨_, _, none, hx, (fun y hy => nomatch hy), (letGo_parts ..).handles⟩
  | @lock n x site r hx _ _ =>
    refine .inr ⟨n, x, some { x with guarded := true }, hx, fun y hy => ?_, rfl⟩
    obtain rfl := Option.some.inj hy
    exact ⟨rfl, rfl⟩
  | @unlock n x u r hx _ _ =>
    refine .inr ⟨n, x, some { x with guarded := false }, hx, fun y hy => ?_, rfl⟩
    obtain rfl := Option.some.inj hy
    exact ⟨rfl, rfl⟩

theorem handle?_append {l : List (Option Handle)} (hl : f.world.handles = w.handles ++ l)
    (hx : w.handle? n = some x) : f.world.handle? n = some x := by
  have hget : w.handles[n]? = some (some x) := Option.join_eq_some_iff.mp hx
  have hlt : n < w.handles.length := (List.getElem?_eq_some_iff.mp hget).1
  rw [handle?, hl, List.getElem?_append_left hlt]
  exact hx

/-- A handle stays one of the same object. -/
theorem react_handle (hr : w.react e = some f) (hx : w.handle? n = some x)
    (hy : f.world.handle? n = some y) : x.Alike y := by
  -- new handles come after those there are
  have hadd : ∀ l, f.world.handles = w.handles ++ l → x.Alike y := by
    intro l hl
    obtain rfl := Option.some.inj ((handle?_append hl hx).symm.trans hy)
    exact ⟨rfl, rfl⟩
  rcases react_cases hr with hc | ⟨t, rfl, hs⟩ | ⟨t, r, rfl, hs⟩
  · rcases hc.handles with hsame | ⟨m, z, v, hz, hv, hset⟩
    · exact hadd [] (hsame.trans (List.append_nil _).symm)
    · by_cases hm : m = n
      · -- the handle is set anew, as one of the same object
        subst hm
        obtain rfl := Option.some.inj (hz.symm.trans hx)
        have hget : w.handles[m]? = some (some z) := Option.join_eq_some_iff.mp hx
        have hlt : m < w.handles.length := (List.getElem?_eq_some_iff.mp hget).1
        rw [handle?, hset, List.getElem?_set_self hlt] at hy
        exact hv y hy
      · rw [handle?, hset, List.getElem?_set_ne hm] at hy
        obtain rfl := Option.some.inj (hx.symm.trans hy)
        exact ⟨rfl, rfl⟩
  · rcases step_cases hs with ⟨a, q, s, -, rfl⟩ | ⟨th, k, -, -, hk⟩
    · obtain ⟨l, hl⟩ := apply_handles w t a.pool s
      exact hadd l hl
    · exact hadd [] ((keeperStep_handles hk).trans (List.append_nil _).symm)
  · obtain ⟨a, q, s, -, rfl⟩ := answer_cases hs
    obtain ⟨l, hl⟩ := apply_handles w t a.pool s
    exact hadd l hl

end World

/-! ## Along a run -/

/-- The factory made the objects of a pool one after the other, each with a number of its own. -/
theorem Run.births_eq {es : List (Episode ρ)} {w : World ρ} (h : Run es w) (i : Nat) :
    (births es i).map (·.1) = (List.range (w.entriesOf i).length).reverse := by
  -- an event brings one object at most, and that one has the next number
  induction h with
  | start => rfl
  | @next es w e f run react ih =>
    have hlen := World.react_length run.sound react i
    have hcons : births (⟨w, e, f⟩ :: es) i = Episode.born i ⟨w, e, f⟩ ++ births es i := rfl
    rw [hcons, List.map_append, ih, hlen]
    rcases World.born_cases w e f i with hborn | ⟨r, hborn⟩
    · rw [hborn]
      rfl
    · rw [hborn, List.length_singleton, List.range_succ, List.reverse_append]
      rfl

end ObjectPool
