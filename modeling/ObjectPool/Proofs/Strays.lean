/-
  ObjectPool.Proofs.Strays

  A world in which a pool has refused one more return. Nothing in it depends on how many returns
  a pool has refused, so whatever can happen in a world can happen in this one as well, and leaves
  the same behind but for this one number.

    * `World.countStray` — one more return is refused by a pool.
    * `step_countStray`, `answer_countStray` — a call goes on.
    * `react_countStray` — every event.
-/

import ObjectPool.Proofs.Run
import ObjectPool.Proofs.Effect
import ObjectPool.Proofs.Stretch.Disregards

namespace ObjectPool

variable {ρ : Type}

/-! ## Changes to lists that commute -/

section Lists

variable {α : Type} {l m : List α} {i j : Nat} {u v : α → α}

theorem modify_comm_of_ne (h : i ≠ j) (l : List α) :
    (l.modify i u).modify j v = (l.modify j v).modify i u := by
  refine List.ext_getElem? fun k => ?_
  simp only [List.getElem?_modify]
  by_cases hi : i = k <;> by_cases hj : j = k <;> simp_all

theorem modify_eq_modify_modify {z : α → α} (h : ∀ x, l[i]? = some x → z x = v (u x)) :
    l.modify i z = (l.modify i u).modify i v := by
  refine List.ext_getElem? fun k => ?_
  simp only [List.getElem?_modify]
  by_cases hi : i = k
  · subst hi
    cases hx : l[i]? with
    | none => simp
    | some x => simpa using h x hx
  · simp [hi]

theorem modify_modify {u' v' : α → α} (h : ∀ x, l[i]? = some x → v (u x) = v' (u' x)) :
    (l.modify i u).modify i v = (l.modify i u').modify i v' :=
  (modify_eq_modify_modify (z := v ∘ u) (u := u) fun _ _ => rfl).symm.trans
    (modify_eq_modify_modify h)

theorem modify_congr (h : ∀ x, l[i]? = some x → u x = v x) : l.modify i u = l.modify i v :=
  (modify_eq_modify_modify (u := v) (v := id) h).trans (List.modify_id ..)

theorem modify_append (h : i < l.length) : l.modify i u ++ m = (l ++ m).modify i u := by
  induction l generalizing i with
  | nil => exact absurd h (Nat.not_lt_zero i)
  | cons x l ih =>
    cases i with
    | zero => rfl
    | succ i =>
      rw [List.modify_succ_cons, List.cons_append, List.cons_append, List.modify_succ_cons,
        ih (Nat.lt_of_succ_lt_succ h)]

end Lists

/-! ## One more return is refused -/

theorem Pool.trackUse_countStray (p : Pool ρ) (now : Instant) (id : Nat) (site : String) :
    p.countStray.trackUse now id site = (p.trackUse now id site).countStray := by
  simp only [Pool.trackUse, countStray_config]
  split
  · split <;> rfl
  · rfl

/-- One more return is refused by the pool `p`. -/
def World.countStray (p : Nat) (w : World ρ) : World ρ := w.onPool p Pool.countStray

def Effect.countStray (p : Nat) (f : Effect ρ) : Effect ρ :=
  { f with world := f.world.countStray p }

namespace World

section Strays

variable {w : World ρ} {p i t n : Nat} {x : Handle} {a : Activity ρ}

/-- What one sees of a pool, unless one looks at the number of returns that were refused. -/
theorem view_countStray {α : Type} {v : Pool ρ → α}
    (h : ∀ q : Pool ρ, v q.countStray = v q) (w : World ρ) (p i : Nat) :
    ((w.countStray p).pools[i]?).map v = (w.pools[i]?).map v := by
  show ((w.pools.modify p Pool.countStray)[i]?).map v = _
  rw [List.getElem?_modify]
  cases w.pools[i]? with
  | none => rfl
  | some q =>
    by_cases hi : p = i
    · simp [hi, h]
    · simp [hi]

theorem onPool_countStray {u : Pool ρ → Pool ρ}
    (h : ∀ q : Pool ρ, u q.countStray = (u q).countStray) (w : World ρ) (p i : Nat) :
    (w.countStray p).onPool i u = (w.onPool i u).countStray p := by
  refine congrArg (fun ps => { w with pools := ps }) ?_
  by_cases hi : p = i
  · subst hi
    exact modify_modify fun q _ => h q
  · exact modify_comm_of_ne hi w.pools

theorem references_countStray (w : World ρ) (p i : Nat) :
    (w.countStray p).references i = w.references i := by
  have hclones := view_countStray (v := Pool.clones) (fun _ => rfl) w p i
  unfold references
  rw [hclones]
  rfl

theorem owned_countStray (w : World ρ) (p i : Nat) : (w.countStray p).owned i = w.owned i := by
  have hview := view_countStray (v := fun q => decide (0 < q.clones)) (fun _ => rfl) w p i
  have hany : ∀ o : Option (Pool ρ), o.any (fun q => decide (0 < q.clones)) =
      (o.map fun q => decide (0 < q.clones)).getD false := fun o => by cases o <;> rfl
  unfold owned
  rw [hany, hany, hview]

theorem forsake_countStray (w : World ρ) (p t i : Nat) (r : Reply) :
    (w.countStray p).forsake t i r = (w.forsake t i r).countStray p := by
  have hgone := view_countStray (v := Pool.gone) (fun _ => rfl) w p i
  have hmark := onPool_countStray (u := fun q => { q with gone := true }) (fun _ => rfl) w p i
  simp only [forsake, references_countStray, hgone, hmark]
  split <;> rfl

theorem resource?_countStray (w : World ρ) (p : Nat) (x : Handle) :
    (w.countStray p).resource? x = w.resource? x := by
  have hslot := view_countStray (v := (Pool.slot? · x.object)) (fun _ => rfl) w p x.pool
  have hbind : ∀ o : Option (Pool ρ), o.bind (·.slot? x.object) =
      (o.map (·.slot? x.object)).join := fun o => by cases o <;> rfl
  unfold resource?
  rw [hbind, hbind, hslot]

theorem create_countStray (hp : p < w.pools.length) (c : Config) :
    (w.countStray p).create c = (w.create c).map fun x => (x.1.countStray p, x.2) := by
  have hlen : (w.countStray p).pools.length = w.pools.length := List.length_modify ..
  have hpools : ∀ q : Pool ρ, (w.countStray p).pools ++ [q] =
      (w.pools ++ [q]).modify p Pool.countStray := fun q => modify_append hp
  unfold create
  dsimp only
  split
  · rfl
  · simp only [hlen, hpools]
    split <;> rfl

theorem keeperStep_countStray (w : World ρ) (p t : Nat) (k : Keeper) :
    (w.countStray p).keeperStep t k = (w.keeperStep t k).map (Effect.countStray p) := by
  have hview := view_countStray (v := Pool.keeper) (fun _ => rfl) w p k.pool
  have hbind : ∀ o : Option (Pool ρ), o.bind (·.keeper) = (o.map (·.keeper)).join :=
    fun o => by cases o <;> rfl
  have hnow : (w.countStray p).now = w.now := (rfl)
  unfold keeperStep
  simp only [hbind, hview, hnow]
  cases k.phase with
  | resting wake =>
    dsimp only
    split
    · rfl
    · split <;> rfl
  | _ => rfl

/-- What a stretch leaves behind of the pool that has refused one more return, or of another. -/
theorem apply_countStray (w : World ρ) (p t i : Nat) (s : Stretch ρ) :
    (w.countStray p).apply t i (if p = i then s.countStray else s) =
      (w.apply t i s).countStray p := by
  -- the stretch goes on from the other pool as from this one
  have hstretch : ∃ s' : Stretch ρ, (if p = i then s.countStray else s) = s' ∧ s'.next = s.next ∧
      s'.notices = s.notices ∧ (w.countStray p).onPool i (fun _ => s'.pool) =
        (w.onPool i fun _ => s.pool).countStray p := by
    by_cases hi : p = i
    · subst hi
      refine ⟨s.countStray, if_pos rfl, rfl, rfl, congrArg (fun ps => { w with pools := ps }) ?_⟩
      refine List.ext_getElem? fun k => ?_
      simp only [countStray, onPool, List.getElem?_modify]
      cases w.pools[k]? with
      | none => rfl
      | some q =>
        by_cases hk : p = k
        · simp [hk, Stretch.countStray]
        · simp [hk]
    · exact ⟨s, if_neg hi, rfl, rfl,
        congrArg (fun ps => { w with pools := ps }) (modify_comm_of_ne hi w.pools)⟩
  obtain ⟨s', hs', hnext, hnotices, hpools⟩ := hstretch
  rw [hs']
  cases hn : s.next with
  | go pt =>
    rw [apply_go hn, apply_go (hnext.trans hn), hpools, hnotices]
    rfl
  | finish r =>
    rw [apply_finish hn, apply_finish (hnext.trans hn), hpools, hnotices]
    have hforsake := forsake_countStray (((w.onPool i fun _ => s.pool).pop t).handOver i r) p t i r
    exact congrArg (fun f : Effect ρ => { f with notices := s.notices.map fun n => (i, n) })
      hforsake

theorem getElem?_countStray (w : World ρ) (p i : Nat) : (w.countStray p).pools[i]? =
    (w.pools[i]?).map fun q => if p = i then q.countStray else q := List.getElem?_modify ..

/-- A call goes on by itself in both worlds, or in neither. -/
theorem step_countStray (w : World ρ) (p t : Nat) :
    (w.countStray p).step t = (w.step t).map (Effect.countStray p) := by
  unfold step
  show (w.threads[t]?).bind _ = _
  cases w.threads[t]? with
  | none => rfl
  | some th =>
    simp only [Option.bind_eq_bind, Option.bind_some]
    cases th.stack with
    | nil =>
      cases th.keeper with
      | none => rfl
      | some k => exact keeperStep_countStray w p t k
    | cons a rest =>
      dsimp only
      rw [getElem?_countStray]
      cases w.pools[a.pool]? with
      | none => rfl
      | some q =>
        have hadvance : (if p = a.pool then q.countStray else q).advance w.now t w.hasEnded
            a.point = (q.advance w.now t w.hasEnded a.point).map fun s =>
              if p = a.pool then s.countStray else s := by
          split
          · exact Pool.advance_countStray q w.now t w.hasEnded a.point
          · exact Option.map_id'.symm
        show ((if p = a.pool then q.countStray else q).advance w.now t w.hasEnded a.point).bind _ =
          ((q.advance w.now t w.hasEnded a.point).bind _).map _
        rw [hadvance]
        cases q.advance w.now t w.hasEnded a.point with
        | none => rfl
        | some s => exact congrArg some (apply_countStray w p t a.pool s)

/-- The factory can answer a call in both worlds, or in neither. -/
theorem answer_countStray (w : World ρ) (p t : Nat) (c : Response ρ) :
    (w.countStray p).answer t c = (w.answer t c).map (Effect.countStray p) := by
  unfold answer
  show (w.top? t).bind _ = _
  cases w.top? t with
  | none => rfl
  | some a =>
    simp only [Option.bind_eq_bind, Option.bind_some]
    rw [getElem?_countStray]
    cases w.pools[a.pool]? with
    | none => rfl
    | some q =>
      have hrespond : (if p = a.pool then q.countStray else q).respond w.now a.point c =
          (q.respond w.now a.point c).map fun s => if p = a.pool then s.countStray else s := by
        split
        · exact Pool.respond_countStray q w.now a.point c
        · exact Option.map_id'.symm
      show ((if p = a.pool then q.countStray else q).respond w.now a.point c).bind _ =
        ((q.respond w.now a.point c).bind _).map _
      rw [hrespond]
      cases q.respond w.now a.point c with
      | none => rfl
      | some s => exact congrArg some (apply_countStray w p t a.pool s)

/-! ### What the callers do -/

theorem drop_countStray (w : World ρ) (p t i : Nat) :
    (w.countStray p).drop t i = (w.drop t i).countStray p := by
  have hclones := onPool_countStray (u := fun q => { q with clones := q.clones - 1 })
    (fun _ => rfl) w p i
  unfold drop
  rw [hclones, forsake_countStray]

theorem refuse_countStray (w : World ρ) (p i : Nat) :
    ((w.countStray p).onPool i fun q => (q.refuseReturn .done).pool) =
      (w.onPool i fun q => (q.refuseReturn .done).pool).countStray p :=
  onPool_countStray (u := fun q => (q.refuseReturn .done).pool) (fun _ => rfl) w p i

theorem giveBack_countStray (w : World ρ) (p t i n : Nat) (x : Handle) :
    (w.countStray p).giveBack t i n x = (w.giveBack t i n x).countStray p := by
  have hrefuse := refuse_countStray (w.surrender n) p i
  unfold giveBack
  dsimp only
  split
  · rfl
  · exact congrArg (fun w' : World ρ =>
      ({ world := w'.push t ⟨x.pool, .takeBack x.object (some (.failed .invalidReturn))⟩
         notices := [(i, .foreignReturn x.pool x.object)] } : Effect ρ)) hrefuse

theorem invalidate_countStray (w : World ρ) (p t i n : Nat) (x : Handle) :
    (w.countStray p).invalidate t i n x = (w.invalidate t i n x).countStray p := by
  have hrefuse := refuse_countStray (w.surrender n) p i
  unfold invalidate
  dsimp only
  split
  · rfl
  · exact congrArg (fun w' : World ρ =>
      ({ world := w'.push t
          ⟨x.pool, .takeBack x.object (some (.failed .invalidReturn))⟩ } : Effect ρ)) hrefuse

theorem access_countStray (w : World ρ) (p : Nat) (x : Handle) (site : String) (u : ρ → ρ) :
    (w.countStray p).access x site u =
      (w.access x site u).map fun y => (y.1, y.2.countStray p) := by
  unfold access
  rw [resource?_countStray]
  cases w.resource? x with
  | none => rfl
  | some v =>
    have huse := onPool_countStray
      (u := fun q => (q.trackUse w.now x.object site).letGo x.object (u v))
      (fun q => congrArg (Pool.letGo x.object (u v)) (q.trackUse_countStray w.now x.object site))
      w p x.pool
    exact congrArg (fun w' => Except.ok (u v, w')) huse

theorem lock_countStray (w : World ρ) (p n : Nat) (x : Handle) (site : String) :
    (w.countStray p).lock n x site = (w.lock n x site).map fun y => (y.1, y.2.countStray p) := by
  unfold lock
  rw [resource?_countStray]
  cases w.resource? x with
  | none => rfl
  | some v =>
    have huse := onPool_countStray (u := fun q => (q.trackUse w.now x.object site).hold x.object)
      (fun q => congrArg (Pool.hold x.object) (q.trackUse_countStray w.now x.object site))
      w p x.pool
    exact congrArg (fun w' : World ρ => Except.ok (v,
      { w' with handles := w.handles.set n (some { x with guarded := true }) })) huse

theorem unlock_countStray (w : World ρ) (p n : Nat) (x : Handle) (u : ρ → ρ) :
    (w.countStray p).unlock n x u = (w.unlock n x u).map fun y => (y.1, y.2.countStray p) := by
  unfold unlock
  rw [resource?_countStray]
  cases w.resource? x with
  | none => rfl
  | some v =>
    have hgo := onPool_countStray (u := Pool.letGo x.object (u v)) (fun _ => rfl) w p x.pool
    exact congrArg (fun w' : World ρ => some (u v,
      { w' with handles := w.handles.set n (some { x with guarded := false }) })) hgo

theorem markUsed_countStray (w : World ρ) (p : Nat) (x : Handle) (site : String) :
    (w.countStray p).markUsed x site = (w.markUsed x site).countStray p := by
  refine onPool_countStray (fun q => ?_) w p x.pool
  have htrack := q.trackUse_countStray w.now x.object site
  show (if q.isHeld x.object = false ∧ (q.slot? x.object).isSome then _ else _) = _
  split
  · exact htrack
  · rfl

/-- Whatever happens in a world happens as well if one of its pools has refused one more return. -/
theorem react_countStray (hp : p < w.pools.length) (e : Event ρ) :
    (w.countStray p).react e = (w.react e).map (Effect.countStray p) := by
  have hfree : ∀ t, (w.countStray p).isFree t = w.isFree t := fun _ => rfl
  have hloose : ∀ n, (w.countStray p).loose? n = w.loose? n := fun _ => rfl
  cases e with
  | tick now =>
    show (if w.now.nanos ≤ now.nanos then _ else none) = _
    unfold react
    dsimp only
    split <;> rfl
  | spawn => rfl
  | create c =>
    simp only [react, create_countStray hp]
    cases w.create c <;> rfl
  | clone i =>
    have hclones := onPool_countStray (u := fun q => { q with clones := q.clones + 1 })
      (fun _ => rfl) w p i
    simp only [react, owned_countStray, hclones]
    split <;> rfl
  | drop t i =>
    simp only [react, owned_countStray, hfree, drop_countStray]
    split <;> rfl
  | begin t i o =>
    simp only [react, owned_countStray, hfree]
    split <;> rfl
  | giveBack t i n =>
    simp only [react, owned_countStray, hfree, hloose]
    split
    · cases w.loose? n with
      | none => rfl
      | some x => exact congrArg some (giveBack_countStray w p t i n x)
    · rfl
  | invalidate t i n =>
    simp only [react, owned_countStray, hfree, hloose]
    split
    · cases w.loose? n with
      | none => rfl
      | some x => exact congrArg some (invalidate_countStray w p t i n x)
    · rfl
  | letGo t n =>
    simp only [react, hfree, hloose]
    split
    · cases w.loose? n <;> rfl
    · rfl
  | access n site u =>
    simp only [react, hloose]
    cases w.loose? n with
    | none => rfl
    | some x =>
      simp only [Option.map_some, access_countStray]
      cases w.access x site u <;> rfl
  | lock n site =>
    simp only [react, hloose]
    cases w.loose? n with
    | none => rfl
    | some x =>
      simp only [Option.map_some, lock_countStray]
      cases w.lock n x site <;> rfl
  | unlock n u =>
    show ((w.handle? n).filter _).bind _ = _
    unfold react
    dsimp only
    cases (w.handle? n).filter (·.guarded) with
    | none => rfl
    | some x =>
      simp only [Option.bind_some, unlock_countStray]
      cases w.unlock n x u <;> rfl
  | markUsed n site =>
    show (w.handle? n).map _ = _
    unfold react
    dsimp only
    cases w.handle? n with
    | none => rfl
    | some x =>
      exact congrArg (fun w' : World ρ => some ({ world := w' } : Effect ρ))
        (markUsed_countStray w p x site)
  | step t => exact step_countStray w p t
  | answer t c => exact answer_countStray w p t c

end Strays

end World

end ObjectPool
