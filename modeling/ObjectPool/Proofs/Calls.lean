/-
  ObjectPool.Proofs.Calls

  Calls as the episodes of a run show them. A call is known by its thread and by how many
  calls are below it there, as long as it is on its way. The episodes in which it runs are
  its turns; in the last one it ends with a reply. If it gives up the last reference to its
  pool the reply is put off: the pool is closed on the spot, and then the call ends.

    * `World.stackOf`, `World.callAt` — the calls on a thread, and one of them.
    * `react_stack`, `react_callAt` — a call stays where it stands, or it has a turn.
    * `answer?`, `turns` — how a call ends, and its turns until then.
    * `Run.firstTurn` — a call has not run yet, or it had a first turn.
-/

import ObjectPool.Proofs.Loans

namespace ObjectPool

variable {ρ : Type}

namespace World

/-- The calls on a thread, the innermost first. -/
def stackOf (w : World ρ) (t : Nat) : List (Activity ρ) := ((w.threads[t]?).map (·.stack)).getD []

/-- The call on a thread with `d` calls below it. -/
def callAt (w : World ρ) (t d : Nat) : Option (Activity ρ) := (w.stackOf t).reverse[d]?

/-- Whether the last reference to the pool `i` is gone. -/
def isGone (w : World ρ) (i : Nat) : Bool := (w.pools[i]?).any (·.gone)

end World

/-- Whether the call on the thread `t` with `d` calls below it runs in an episode. -/
def Episode.runs (t d : Nat) (e : Episode ρ) : Bool :=
  decide (e.thread? = some t ∧ (e.before.stackOf t).length = d + 1)

namespace World

variable {w w' : World ρ} {e : Event ρ} {f : Effect ρ} {t u d p i n : Nat} {a b : Activity ρ}
  {q : Pool ρ} {s : Stretch ρ} {x : Handle} {g : Nat → List Nat}

/-! ## The calls on a thread -/

theorem stackOf_eq {th : Thread ρ} (hth : w.threads[t]? = some th) : w.stackOf t = th.stack := by
  rw [stackOf, hth]
  rfl

theorem stackOf_congr (h : w'.threads = w.threads) (u : Nat) : w'.stackOf u = w.stackOf u := by
  rw [stackOf, h]
  rfl

theorem stackOf_onThread {th : Thread ρ} (hth : w.threads[t]? = some th)
    (v : Thread ρ → Thread ρ) (u : Nat) :
    (w.onThread t v).stackOf u = if t = u then (v th).stack else w.stackOf u := by
  by_cases htu : t = u
  · subst htu
    rw [if_pos rfl]
    exact stackOf_eq (getElem?_onThread hth v)
  · rw [if_neg htu, stackOf, stackOf]
    show ((w.threads.modify t v)[u]?.map _).getD [] = _
    rw [List.getElem?_modify]
    simp only [if_neg htu, id_map']

theorem stackOf_push (hth : ∃ th, w.threads[t]? = some th) (b : Activity ρ) (u : Nat) :
    (w.push t b).stackOf u = if t = u then b :: w.stackOf u else w.stackOf u := by
  obtain ⟨th, hth⟩ := hth
  rw [show w.push t b = w.onThread t fun th => { th with stack := b :: th.stack } from rfl,
    stackOf_onThread hth]
  split
  · rename_i htu
    subst htu
    rw [stackOf_eq hth]
  · rfl

theorem stackOf_moveTo {th : Thread ρ} {rest : List (Activity ρ)} (hth : w.threads[t]? = some th)
    (hs : th.stack = a :: rest) (pt : Point ρ) :
    (w.moveTo t pt).stackOf t = ⟨a.pool, pt⟩ :: rest := by
  rw [moveTo, stackOf_onThread hth, if_pos rfl, hs]

theorem stackOf_pop {th : Thread ρ} {rest : List (Activity ρ)} (hth : w.threads[t]? = some th)
    (hs : th.stack = a :: rest) : (w.pop t).stackOf t = rest := by
  rw [pop, stackOf_onThread hth, if_pos rfl, hs]
  rfl

/-- A new thread has nothing to do. -/
theorem stackOf_append {ths : List (Thread ρ)} (hths : ∀ th ∈ ths, th.stack = [])
    (h : w'.threads = w.threads ++ ths) (u : Nat) : w'.stackOf u = w.stackOf u := by
  rw [stackOf, stackOf, h]
  by_cases hu : u < w.threads.length
  · rw [List.getElem?_append_left hu]
  · rw [List.getElem?_append_right (Nat.le_of_not_lt hu),
      List.getElem?_eq_none_iff.mpr (Nat.le_of_not_lt hu)]
    cases hx : ths[u - w.threads.length]? with
    | none => rfl
    | some th => exact hths th (List.mem_of_getElem? hx)

/-! ## What an event does to them -/

/-- On a thread the calls stay as they are, and perhaps one more begins. -/
def Grows (w w' : World ρ) (u : Nat) : Prop :=
  w'.stackOf u = w.stackOf u ∨ ∃ b, w'.stackOf u = b :: w.stackOf u

theorem Grows.of_eq (h : w'.threads = w.threads) (u : Nat) : w.Grows w' u :=
  .inl (stackOf_congr h u)

theorem grows_push (hth : ∃ th, w.threads[t]? = some th) (b : Activity ρ) (u : Nat) :
    w.Grows (w.push t b) u := by
  unfold Grows
  rw [stackOf_push hth b u]
  split
  · exact .inr ⟨b, rfl⟩
  · exact .inl rfl

theorem grows_forsake (hth : ∃ th, w.threads[t]? = some th) (p : Nat) (r : Reply) (u : Nat) :
    w.Grows (w.forsake t p r).world u := by
  rcases forsake_cases w t p r with ⟨q, -, -, hlast⟩ | ⟨-, hmore⟩
  · rw [hlast]
    exact grows_push (w := w.markGone p) hth _ u
  · rw [hmore]
    exact .inl rfl

theorem PartsWith.grows (h : w.PartsWith t n x w') (hth : ∃ th, w.threads[t]? = some th)
    (u : Nat) : w.Grows w' u := by
  cases h with
  | own hpt => exact grows_push (w := w.surrender n) hth _ u
  | foreign p hpt =>
    exact grows_push (w := (w.surrender n).onPool p fun q => (q.refuseReturn .done).pool) hth _ u

/-- An event of the callers begins a call at most. -/
theorem Called.grows (hc : w.Called e f) (u : Nat) : w.Grows f.world u := by
  cases hc with
  | spawn =>
    have hnew : ∀ th ∈ [({} : Thread ρ)], th.stack = [] := by simp
    exact .inl (stackOf_append hnew rfl u)
  | create hw =>
    obtain ⟨keeper, ths, hths, rfl⟩ := create_cases hw
    exact .inl (stackOf_append hths rfl u)
  | @drop t p _ _ _ ht =>
    exact grows_forsake (w := w.onPool p fun q => { q with clones := q.clones - 1 })
      (thread_of_isFree ht) p .done u
  | begin _ _ ht => exact grows_push (thread_of_isFree ht) _ u
  | giveBack _ _ ht _ _ => exact (giveBack_parts ..).grows (thread_of_isFree ht) u
  | invalidate _ _ ht _ _ => exact (invalidate_parts ..).grows (thread_of_isFree ht) u
  | letGo ht _ _ => exact (letGo_parts ..).grows (thread_of_isFree ht) u
  | _ => exact .of_eq rfl u

/-- The thread of a background upkeep begins a call at most. -/
theorem grows_keeperStep {k : Keeper} (hth : ∃ th, w.threads[t]? = some th)
    (hk : w.keeperStep t k = some f) (u : Nat) : w.Grows f.world u := by
  obtain ⟨th, hth⟩ := hth
  have henter : ∀ phase, (w.enter t k phase).stackOf u = w.stackOf u := by
    intro phase
    rw [enter, stackOf_onThread hth]
    split
    · rename_i htu
      subst htu
      exact (stackOf_eq hth).symm
    · rfl
  rcases (keeperStep_cases hk).2 with ⟨phase, hf⟩ | ⟨q, -, hf⟩
  · rw [hf]
    exact .inl (henter phase)
  · rw [hf]
    have hgrows := grows_push (w := w.enter t k .working) ⟨_, getElem?_onThread hth _⟩
      ⟨k.pool, .upkeep⟩ u
    unfold Grows at hgrows
    rwa [henter] at hgrows

/-! ### A call runs for a stretch -/

theorem forsake_gone {r : Reply} (h : (w.forsake t p r).reply = none) (hq : w.pools[p]? = some q) :
    q.gone = false ∧ (w.forsake t p r).world.isGone p = true ∧
      (w.forsake t p r).world = (w.markGone p).push t ⟨p, .close (.release r)⟩ := by
  have hgone : q.gone = false := by
    unfold forsake at h
    dsimp only at h
    split at h
    · rename_i hlast
      rw [hq] at hlast
      exact hlast.2
    · exact nomatch h
  rcases forsake_cases w t p r with ⟨q', -, -, hlast⟩ | ⟨-, hmore⟩
  · have hmark : ((w.markGone p).push t ⟨p, .close (.release r)⟩).pools[p]? =
        some { q with gone := true } := pools_onPool_self hq fun q => { q with gone := true }
    refine ⟨hgone, ?_, congrArg Effect.world hlast⟩
    rw [hlast, isGone, hmark]
    rfl
  · rw [hmore] at h
    exact nomatch h

/-- How a turn of a call `a` on the pool `q` ends that leads to `next`: the call goes on, or it
    ends, or it closes the pool first. -/
inductive Turned (f : Effect ρ) (t d : Nat) (a : Activity ρ) (q : Pool ρ) : Next ρ → Prop
  | goesOn {pt : Point ρ} (hr : f.reply = none) (hc : f.world.callAt t d = some ⟨a.pool, pt⟩) :
      Turned f t d a q (.go pt)
  | answers {r : Reply} (hr : f.reply = some r) : Turned f t d a q (.finish r)
  | closes {r : Reply} (hr : f.reply = none)
      (hc : f.world.callAt t d = some ⟨a.pool, .close (.release r)⟩) (hq : q.gone = false)
      (hg : f.world.isGone a.pool = true) : Turned f t d a q (.finish r)

/-- The call with `d` calls below it is the one on top, or one of those below. -/
theorem getElem?_reverse_cons {α : Type} (x : α) (l : List α) (d : Nat) :
    (x :: l).reverse[d]? = if d = l.length then some x else l.reverse[d]? := by
  rw [List.reverse_cons]
  by_cases hd : d < l.reverse.length
  · have hne : d ≠ l.length := Nat.ne_of_lt (List.length_reverse ▸ hd)
    rw [List.getElem?_append_left hd, if_neg hne]
  · rw [List.getElem?_append_right (Nat.le_of_not_lt hd),
      List.getElem?_eq_none_iff.mpr (Nat.le_of_not_lt hd)]
    rw [List.length_reverse] at hd ⊢
    split
    · rename_i heq
      rw [heq, Nat.sub_self]
      rfl
    · rename_i hne
      exact List.getElem?_eq_none_iff.mpr (by simp; omega)

theorem Grows.callAt (h : w.Grows w' t) (ha : w.callAt t d = some a) : w'.callAt t d = some a := by
  unfold World.callAt at ha ⊢
  rcases h with hsame | ⟨b, hb⟩
  · rw [hsame]
    exact ha
  · have hlt : d < (w.stackOf t).length := by
      have hd := (List.getElem?_eq_some_iff.mp ha).1
      rwa [List.length_reverse] at hd
    rw [hb, getElem?_reverse_cons, if_neg (Nat.ne_of_lt hlt)]
    exact ha

/-- The calls on the thread of a call that has run for a stretch: those below it stay, and the
    call itself goes on, ends, or closes its pool. -/
theorem Works.stackOf (h : w.Works e f t a q s) : ∃ rest, w.stackOf t = a :: rest ∧
    ((∃ pt, s.next = .go pt ∧ f.reply = none ∧ f.world.stackOf t = ⟨a.pool, pt⟩ :: rest) ∨
      ∃ r, s.next = .finish r ∧ ((f.reply = some r ∧ f.world.stackOf t = rest) ∨
        (f.reply = none ∧ s.pool.gone = false ∧ f.world.isGone a.pool = true ∧
          f.world.stackOf t = ⟨a.pool, .close (.release r)⟩ :: rest))) := by
  obtain ⟨th, rest, hth, hs⟩ := top?_eq_some h.top
  refine ⟨rest, (stackOf_eq hth).trans hs, ?_⟩
  have hself := pools_onPool_self h.pool fun _ => s.pool
  rw [h.effect]
  cases hn : s.next with
  | go pt =>
    rw [apply_go hn]
    exact .inl ⟨pt, rfl, rfl, stackOf_moveTo (w := w.onPool a.pool fun _ => s.pool) hth hs pt⟩
  | finish r =>
    rw [apply_finish hn]
    refine .inr ⟨r, rfl, ?_⟩
    have hpop : (((w.onPool a.pool fun _ => s.pool).pop t).handOver a.pool r).stackOf t = rest :=
      stackOf_pop (w := w.onPool a.pool fun _ => s.pool) hth hs
    cases hr : ((((w.onPool a.pool fun _ => s.pool).pop t).handOver a.pool r).forsake t a.pool
        r).reply with
    | none =>
      obtain ⟨hgone, hgone', hworld⟩ := forsake_gone hr hself
      refine .inr ⟨rfl, hgone, hgone', ?_⟩
      have hth' : ∃ th, ((((w.onPool a.pool fun _ => s.pool).pop t).handOver a.pool r).markGone
          a.pool).threads[t]? = some th := ⟨_, getElem?_onThread hth _⟩
      rw [show _ = _ from hworld, stackOf_push hth', if_pos rfl]
      exact congrArg _ hpop
    | some r' =>
      rcases forsake_cases (((w.onPool a.pool fun _ => s.pool).pop t).handOver a.pool r) t a.pool r
        with ⟨q', -, -, hlast⟩ | ⟨-, hmore⟩
      · rw [hlast] at hr
        exact absurd hr.symm (Option.some_ne_none r')
      · rw [hmore] at hr ⊢
        exact .inl ⟨hr ▸ rfl, hpop⟩

/-- A call that runs for a stretch leaves the other threads alone. -/
theorem Works.stackOf_of_ne (h : w.Works e f t a q s) (hu : t ≠ u) :
    f.world.stackOf u = w.stackOf u := by
  obtain ⟨th, rest, hth, -⟩ := top?_eq_some h.top
  have hthread : ∀ v, ((w.onPool a.pool fun _ => s.pool).onThread t v).stackOf u = w.stackOf u :=
    fun v => (stackOf_onThread (w := w.onPool a.pool fun _ => s.pool) hth v u).trans (if_neg hu)
  rw [h.effect]
  cases hn : s.next with
  | go pt =>
    rw [apply_go hn]
    exact hthread _
  | finish r =>
    rw [apply_finish hn]
    have hpop : (((w.onPool a.pool fun _ => s.pool).pop t).handOver a.pool r).stackOf u =
      w.stackOf u := hthread _
    rcases forsake_cases (((w.onPool a.pool fun _ => s.pool).pop t).handOver a.pool r) t a.pool r
      with ⟨q', -, -, hlast⟩ | ⟨-, hmore⟩
    · rw [hlast]
      have hth' : ∃ th, ((((w.onPool a.pool fun _ => s.pool).pop t).handOver a.pool r).markGone
          a.pool).threads[t]? = some th := ⟨_, getElem?_onThread hth _⟩
      exact (stackOf_push hth' _ u).trans ((if_neg hu).trans hpop)
    · rw [hmore]
      exact hpop

/-- On a thread a call begins at most, or the call on top of it runs for a stretch. -/
theorem react_stack (hr : w.react e = some f) (t : Nat) :
    (w.Grows f.world t ∧ (Episode.thread? ⟨w, e, f⟩ = some t → w.stackOf t = [])) ∨
      ∃ a q s, w.Works e f t a q s := by
  cases react_happens hr with
  | called hc => exact .inl ⟨hc.grows t, fun hu => nomatch hc.thread?.symm.trans hu⟩
  | keeps event hth hidle hk =>
    subst event
    refine .inl ⟨grows_keeperStep ⟨_, hth⟩ hk t, fun ht => ?_⟩
    obtain rfl := Option.some.inj ht
    exact (stackOf_eq hth).trans hidle
  | @works u a q s hworks =>
    by_cases hu : u = t
    · exact .inr ⟨a, q, s, hu ▸ hworks⟩
    · refine .inl ⟨.inl (hworks.stackOf_of_ne hu), fun ht => absurd ?_ hu⟩
      exact Option.some.inj (hworks.thread.symm.trans ht)

theorem lt_of_callAt (ha : w.callAt t d = some a) : d < (w.stackOf t).length := by
  have hd := (List.getElem?_eq_some_iff.mp ha).1
  rwa [List.length_reverse] at hd

/-- A call on its way stays where it stands, or it has a turn. -/
theorem react_callAt (hw : w.Sound g) (hr : w.react e = some f) (ha : w.callAt t d = some a) :
    (Episode.runs t d ⟨w, e, f⟩ = false ∧ f.world.callAt t d = some a) ∨
      (Episode.runs t d ⟨w, e, f⟩ = true ∧
        ∃ q s, w.Works e f t a q s ∧ Turned f t d a q s.next) := by
  have hlt := lt_of_callAt ha
  rcases react_stack hr t with ⟨hgrows, hidle⟩ | ⟨b, q, s, h⟩
  · refine .inl ⟨decide_eq_false fun hruns => ?_, hgrows.callAt ha⟩
    rw [hidle hruns.1] at hlt
    exact nomatch hlt
  · obtain ⟨rest, hstack, hnext⟩ := h.stackOf
    rw [hstack, List.length_cons] at hlt
    unfold World.callAt at ha ⊢
    rw [hstack, getElem?_reverse_cons] at ha
    by_cases hd : d = rest.length
    · -- the call is the one on top
      subst hd
      rw [if_pos rfl] at ha
      obtain rfl := Option.some.inj ha
      have hat : ∀ {x : Activity ρ}, f.world.stackOf t = x :: rest →
          f.world.callAt t rest.length = some x := by
        intro x hx
        rw [World.callAt, hx, getElem?_reverse_cons, if_pos rfl]
      have hgone : s.pool.gone = q.gone := congrArg Charter.gone (h.stretches.rest hw).charter_eq
      refine .inr ⟨decide_eq_true ⟨h.thread, congrArg List.length hstack⟩, q, s, h, ?_⟩
      rcases hnext with ⟨pt, hn, hreply, hs⟩ | ⟨r, hn, ⟨hreply, -⟩ | ⟨hreply, hg, hg', hs⟩⟩
      · rw [hn]
        exact .goesOn hreply (hat hs)
      · rw [hn]
        exact .answers hreply
      · rw [hn]
        exact .closes hreply (hat hs) (hgone.symm.trans hg) hg'
    · -- the call waits below the one on top
      have hbelow : d < rest.length := by omega
      rw [if_neg hd] at ha
      refine .inl ⟨decide_eq_false fun hruns => ?_, ?_⟩
      · have hlen : (w.stackOf t).length = d + 1 := hruns.2
        rw [hstack, List.length_cons] at hlen
        omega
      · have hskip : ∀ {x : Activity ρ}, f.world.stackOf t = x :: rest →
            (f.world.stackOf t).reverse[d]? = some a := by
          intro x hx
          rw [hx, getElem?_reverse_cons, if_neg hd]
          exact ha
        rcases hnext with ⟨pt, -, -, hs⟩ | ⟨r, -, ⟨-, hs⟩ | ⟨-, -, -, hs⟩⟩
        · exact hskip hs
        · rw [hs]
          exact ha
        · exact hskip hs

/-- A call that is about to go on by itself is on top of its thread. -/
theorem Nested.top?_of_callAt (h : w.Nested) (ha : w.callAt t d = some a)
    (hreq : a.point.isRequest = false) : w.top? t = some a := by
  have hmem : a ∈ w.stackOf t := List.mem_reverse.mp (List.mem_of_getElem? ha)
  cases hth : w.threads[t]? with
  | none =>
    rw [stackOf, hth] at hmem
    exact absurd hmem List.not_mem_nil
  | some th =>
    rw [stackOf_eq hth] at hmem
    rw [top?, hth, Option.bind_some]
    cases hs : th.stack with
    | nil => exact absurd (hs ▸ hmem) List.not_mem_nil
    | cons b rest =>
      rw [hs] at hmem
      rcases List.mem_cons.mp hmem with rfl | hbelow
      · rfl
      · have hwaits := h th (List.mem_of_getElem? hth) a (hs ▸ hbelow)
        exact absurd (hreq.symm.trans hwaits) Bool.false_ne_true

/-- Nothing is on top of it. -/
theorem Nested.length_of_callAt (h : w.Nested) (ha : w.callAt t d = some a)
    (hreq : a.point.isRequest = false) : (w.stackOf t).length = d + 1 := by
  obtain ⟨th, rest, hth, hs⟩ := top?_eq_some (h.top?_of_callAt ha hreq)
  have hat : (w.stackOf t).reverse[d]? = some a := ha
  rw [stackOf_eq hth, hs, getElem?_reverse_cons] at hat
  rw [stackOf_eq hth, hs, List.length_cons]
  split at hat
  · rename_i hd
    rw [hd]
  · have hbelow := List.mem_reverse.mp (List.mem_of_getElem? hat)
    have hwaits := h th (List.mem_of_getElem? hth) a (by rw [hs]; exact hbelow)
    exact absurd (hreq.symm.trans hwaits) Bool.false_ne_true

/-! ## A pool that is gone -/

theorem isGone_onPool {v : Pool ρ → Pool ρ} (hv : ∀ q : Pool ρ, q.gone = true → (v q).gone = true)
    (p : Nat) (h : w.isGone i = true) : (w.onPool p v).isGone i = true := by
  obtain ⟨q, hq, hg⟩ := (Option.any_eq_true _ _).mp h
  unfold isGone
  by_cases hi : i = p
  · subst hi
    rw [pools_onPool_self hq]
    exact hv q hg
  · rw [pools_onPool_of_ne hi, hq]
    exact hg

theorem isGone_forsake (t p : Nat) (r : Reply) (h : w.isGone i = true) :
    (w.forsake t p r).world.isGone i = true := by
  rcases forsake_cases w t p r with ⟨q, -, -, hlast⟩ | ⟨-, hmore⟩
  · rw [hlast]
    have hmark : (w.markGone p).isGone i = true := isGone_onPool (fun _ _ => rfl) p h
    exact hmark
  · rw [hmore]
    exact h

theorem PartsWith.isGone (hp : w.PartsWith t n x w') (h : w.isGone i = true) :
    w'.isGone i = true := by
  cases hp with
  | own hpt => exact h
  | foreign p hpt =>
    have hrefuse := isGone_onPool (w := w.surrender n)
      (v := fun q => (q.refuseReturn .done).pool) (fun _ hg => hg) p h
    exact hrefuse

theorem gone_trackUse (q : Pool ρ) (now : Instant) (id : Nat) (site : String) :
    (q.trackUse now id site).gone = q.gone := by
  unfold Pool.trackUse
  split
  · split <;> rfl
  · rfl

theorem Called.isGone (hc : w.Called e f) (h : w.isGone i = true) :
    f.world.isGone i = true := by
  cases hc with
  | create hw =>
    obtain ⟨keeper, ths, -, rfl⟩ := create_cases hw
    obtain ⟨q, hq, hg⟩ := (Option.any_eq_true _ _).mp h
    have hlt : i < w.pools.length := (List.getElem?_eq_some_iff.mp hq).1
    unfold World.isGone
    rw [List.getElem?_append_left hlt, hq]
    exact hg
  | @clone p _ _ _ =>
    exact isGone_onPool (v := fun q => { q with clones := q.clones + 1 }) (fun _ hg => hg) p h
  | @drop t p _ _ _ _ =>
    exact isGone_forsake (w := w.onPool p fun q => { q with clones := q.clones - 1 }) t p .done
      (isGone_onPool (v := fun q => { q with clones := q.clones - 1 }) (fun _ hg => hg) p h)
  | giveBack _ _ _ _ _ => exact (giveBack_parts ..).isGone h
  | invalidate _ _ _ _ _ => exact (invalidate_parts ..).isGone h
  | letGo _ _ _ => exact (letGo_parts ..).isGone h
  | @access _ x site c r _ _ _ =>
    exact isGone_onPool (v := fun q => (q.trackUse w.now x.object site).letGo x.object (c r))
      (fun q hg => (gone_trackUse q w.now x.object site).trans hg) x.pool h
  | @lock _ x site _ _ _ _ =>
    have huse := isGone_onPool (v := fun q => (q.trackUse w.now x.object site).hold x.object)
      (fun q hg => (gone_trackUse q w.now x.object site).trans hg) x.pool h
    exact huse
  | @unlock _ x c r _ _ _ =>
    have huse := isGone_onPool (v := Pool.letGo x.object (c r)) (fun _ hg => hg) x.pool h
    exact huse
  | @markUsed _ x site _ =>
    refine isGone_onPool (fun q hg => ?_) x.pool h
    split
    · exact (gone_trackUse q w.now x.object site).trans hg
    · exact hg
  | _ => exact h

/-- A pool that is gone stays so. -/
theorem react_gone (hw : w.Sound g) (hr : w.react e = some f) (h : w.isGone i = true) :
    f.world.isGone i = true := by
  cases react_happens hr with
  | called hc => exact hc.isGone h
  | keeps _ _ _ hk =>
    rcases (keeperStep_cases hk).2 with ⟨phase, hf⟩ | ⟨q, -, hf⟩
    · rw [hf]
      exact h
    · rw [hf]
      exact h
  | @works t a q s hworks =>
    have hgone : s.pool.gone = q.gone :=
      congrArg Charter.gone (hworks.stretches.rest hw).charter_eq
    have hpool : (w.onPool a.pool fun _ => s.pool).isGone i = true := by
      unfold World.isGone at h ⊢
      by_cases hi : i = a.pool
      · subst hi
        rw [hworks.pool] at h
        rw [pools_onPool_self hworks.pool]
        exact hgone.trans h
      · rw [pools_onPool_of_ne hi]
        exact h
    rw [hworks.effect]
    cases hn : s.next with
    | go pt =>
      rw [apply_go hn]
      exact hpool
    | finish r =>
      rw [apply_finish hn]
      exact isGone_forsake (w := ((w.onPool a.pool fun _ => s.pool).pop t).handOver a.pool r) t
        a.pool r hpool

end World

/-! ## The turns of a call -/

/-- How the call on the thread `t` with `d` calls below it ends first in some episodes. -/
def answer? (t d : Nat) : List (Episode ρ) → Option Reply
  | [] => none
  | e :: es => (answer? t d es).or (if e.runs t d then e.effect.reply else none)

/-- The episodes in which it runs until then, the latest first. -/
def turns (t d : Nat) : List (Episode ρ) → List (Episode ρ)
  | [] => []
  | e :: es => if e.runs t d && (answer? t d es).isNone then e :: turns t d es else turns t d es

section Runs

variable {es later : List (Episode ρ)} {w w₀ : World ρ} {e : Episode ρ} {t d : Nat}
  {a : Activity ρ}

theorem answer?_of_answered {r : Reply} (h : answer? t d es = some r) :
    answer? t d (e :: es) = some r ∧ turns t d (e :: es) = turns t d es := by
  rw [answer?, turns, h]
  exact ⟨rfl, if_neg (by simp)⟩

theorem answer?_of_rests (es : List (Episode ρ)) (hr : e.runs t d = false) :
    answer? t d (e :: es) = answer? t d es ∧ turns t d (e :: es) = turns t d es := by
  rw [answer?, turns, hr]
  exact ⟨Option.or_none, rfl⟩

theorem answer?_of_runs (h : answer? t d es = none) (hr : e.runs t d = true) :
    answer? t d (e :: es) = e.effect.reply ∧ turns t d (e :: es) = e :: turns t d es := by
  rw [answer?, turns, h, hr]
  exact ⟨rfl, rfl⟩

/-- A call that was on its way, followed through a run. If `inv` holds of its turns so far, the
    world and the call as long as it is on its way, and `done` of its turns and the reply when it
    ends, then one of the two holds in the end. -/
theorem Run.follow (inv : List (Episode ρ) → World ρ → Activity ρ → Prop)
    (done : List (Episode ρ) → Reply → Prop) (h₀ : Run es w₀) (h : Run (later ++ es) w)
    (ha : w₀.callAt t d = some a) (start : inv [] w₀ a)
    (rests : ∀ {later : List (Episode ρ)} {w : World ρ} {e : Event ρ} {f : Effect ρ}
      {b : Activity ρ} {ts : List (Episode ρ)}, Run (later ++ es) w → w.react e = some f →
      inv ts w b → inv ts f.world b)
    (turn : ∀ {later : List (Episode ρ)} {w : World ρ} {e : Event ρ} {f : Effect ρ}
      {b : Activity ρ} {q : Pool ρ} {s : Stretch ρ} {ts : List (Episode ρ)},
      Run (later ++ es) w → w.react e = some f → w.Works e f t b q s →
      World.Turned f t d b q s.next → inv ts w b →
      (∃ r, f.reply = some r ∧ done (⟨w, e, f⟩ :: ts) r) ∨
        (f.reply = none ∧ ∃ c, f.world.callAt t d = some c ∧ inv (⟨w, e, f⟩ :: ts) f.world c)) :
    (∃ r, answer? t d later = some r ∧ done (turns t d later) r) ∨
      (answer? t d later = none ∧ ∃ b, w.callAt t d = some b ∧ inv (turns t d later) w b) := by
  -- one case for each of what an episode can be: after the end, beside the call, or a turn of it
  induction later generalizing w with
  | nil =>
    obtain rfl := h.unique h₀
    exact .inr ⟨rfl, a, ha, start⟩
  | cons e later ih =>
    cases h with
    | @next _ w e f run react =>
      rcases ih run with ⟨r, hend, hdone⟩ | ⟨hnone, b, hb, hinv⟩
      · obtain ⟨hsame, hturns⟩ := answer?_of_answered (e := ⟨w, e, f⟩) hend
        exact .inl ⟨r, hsame, hturns ▸ hdone⟩
      · rcases World.react_callAt run.sound react hb with ⟨hruns, hb'⟩ | ⟨hruns, q, s, hw, hturn⟩
        · obtain ⟨hsame, hturns⟩ := answer?_of_rests later hruns
          exact .inr ⟨hsame.trans hnone, b, hb', hturns ▸ rests run react hinv⟩
        · obtain ⟨hsame, hturns⟩ := answer?_of_runs hnone hruns
          rw [hsame, hturns]
          exact turn run react hw hturn hinv

/-- A call that was on its way has not run since, or there was a first turn. -/
theorem Run.firstTurn (h₀ : Run es w₀) (h : Run (later ++ es) w) (ha : w₀.callAt t d = some a) :
    (turns t d later = [] ∧ answer? t d later = none ∧ w.callAt t d = some a) ∨
      ∃ newer e older, later = newer ++ e :: older ∧ (turns t d later).getLast? = some e ∧
        turns t d older = [] ∧ answer? t d older = none ∧ e.runs t d = true ∧
        e.before.callAt t d = some a := by
  induction later generalizing w with
  | nil =>
    obtain rfl := h.unique h₀
    exact .inl ⟨rfl, rfl, ha⟩
  | cons e later ih =>
    cases h with
    | @next _ w e f run react =>
      rcases ih run with ⟨hturns, hnone, hat⟩ | ⟨newer, x, older, rfl, hlast, hrest⟩
      · rcases World.react_callAt run.sound react hat with ⟨hruns, hat'⟩ | ⟨hruns, -⟩
        · obtain ⟨hsame, hturns'⟩ := answer?_of_rests later hruns
          exact .inl ⟨hturns'.trans hturns, hsame.trans hnone, hat'⟩
        · obtain ⟨-, hturns'⟩ := answer?_of_runs hnone hruns
          refine .inr ⟨[], _, later, rfl, ?_, hturns, hnone, hruns, hat⟩
          rw [hturns', hturns]
          rfl
      · refine .inr ⟨⟨w, e, f⟩ :: newer, x, older, rfl, ?_, hrest⟩
        rw [turns]
        split
        · rw [List.getLast?_cons, hlast]
          rfl
        · exact hlast

end Runs

end ObjectPool
