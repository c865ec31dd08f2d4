/-
  ObjectPool.Proofs.StrayReturns

  Returns that a pool refuses. A borrower may turn to a pool that has not lent its object. This pool
  counts the return as refused, and everything else is as if the borrower had let the object go. Or
  the pool has taken the object away from its borrower in the meantime, perhaps long ago. Then the
  call that brings it back has one turn, in which the pool counts it as refused and nothing else
  happens, unless this was the last reference to the pool: that one is closed.

    * `Leads.answers` — a call that has its answer gives it.
    * `RefusedElsewhere` — an object that comes to a pool that has not lent it.
    * `Run.isReclaimed` — what was taken away from a borrower does not come back to him.
    * `Episode.TurnsAway`, `RefusedAsStale` — an object that was taken away from its borrower.
    * `returns_refused` — the main statement.
-/

import ObjectPool.Proofs.LockStep
import ObjectPool.Proofs.Returns

namespace ObjectPool

variable {ρ : Type}

/-! ## Calls that have their answer -/

section Answers

variable {later ts : List (Episode ρ)} {w w₀ : World ρ} {g : Nat → List Nat} {t d : Nat}
  {a b : Activity ρ} {q : Pool ρ} {s : Stretch ρ} {r r₀ : Reply} {e : Episode ρ}

/-- A call that has its answer keeps it. -/
theorem World.Course.settled (h : w₀.Course t d later ts w a) (hb : w₀.callAt t d = some b)
    (hs : b.point.errand = .settled r₀) : a.point.errand = .settled r₀ := by
  induction h with
  | start stands => exact Option.some.inj (hb.symm.trans stands) ▸ hs
  | rests _ _ _ ih => exact ih
  | turn _ turn next ih =>
    have hkeeps := World.settled_of_counts turn.works.counts ih
    rwa [next] at hkeeps

/-- The last turn of such a call. -/
theorem Episode.IsTurn.reply_of_settled (h : e.IsTurn t d a q s) (hn : s.next = .finish r)
    (hs : a.point.errand = .settled r₀) : r = r₀ := by
  have hkeeps := World.settled_of_counts h.works.counts hs
  rw [hn] at hkeeps
  exact Errand.settled.inj hkeeps

/-- Whatever happens, such a call has yet to give its answer, or it has given it. -/
theorem World.Leads.answers (h : w₀.Leads later w) (hw : w₀.Sound g)
    (ha : w₀.callAt t d = some a) (hs : a.point.errand = .settled r₀) :
    (answer? t d later = none ∧ ∃ b, w.callAt t d = some b ∧ b.point.errand = .settled r₀) ∨
      answer? t d later = some r₀ := by
  induction h with
  | refl => exact .inl ⟨rfl, a, ha, hs⟩
  | @next later w ev f leads react ih =>
    rcases ih with ⟨hnone, b, hb, hs⟩ | hsome
    · rcases World.react_callAt (leads.sound hw) react hb with
        ⟨still, hstays⟩ | ⟨runs, q, s, works, turned⟩
      · exact .inl ⟨(answer?_of_rests later still).1.trans hnone, b, hstays, hs⟩
      · have hkeeps := World.settled_of_counts works.counts hs
        rw [(answer?_of_runs hnone runs).1]
        generalize s.next = next at turned hkeeps
        cases turned with
        | goesOn hr hc => exact .inl ⟨hr, _, hc, hkeeps⟩
        | answers hr =>
          obtain rfl := Errand.settled.inj hkeeps
          exact .inr hr
        | closes hr hc _ _ => exact .inl ⟨hr, _, hc, hkeeps⟩
    · exact .inr (answer?_of_answered hsome).1

end Answers

/-! ## Objects that come to another pool -/

/-- What an event leaves behind in which a borrower turns to the pool `p` with the handle `n`, an
    object of another pool; the call begins on the thread `t` with `d` calls below it. -/
structure World.RefusedElsewhere (w : World ρ) (t d p n : Nat) (x : Handle) (f : Effect ρ) :
    Prop where
  /-- The pool counts the return as refused, and nothing else happens to a pool. -/
  counted : f.world.pools = w.pools.modify p Pool.countStray
  /-- Whatever happens from then on, happens as well if the borrower lets the object go instead, and
      the other way round; but for the one return and the answer of the call all is the same. -/
  dropped : ∃ f₀, w.react (.letGo t n) = some f₀ ∧ f₀.world.pools = w.pools ∧
    ∀ events, Option.Rel (fun run run' =>
        List.Forall₂ (Parallel p t d (.failed .invalidReturn) .done) run.1 run'.1 ∧
        InStep p t d (.failed .invalidReturn) .done run.2 run'.2)
      (f₀.world.replay [] events) (f.world.replay [] events)
  /-- The call comes to its end in four turns at most, and waits for nothing but the factory until
      then. -/
  ends : ∀ later w', f.world.Leads later w' →
    (∃ pt, w'.callAt t d = some ⟨x.pool, pt⟩ ∧
        pt.BringsBack x.object (some (.failed .invalidReturn)) ∧ (turns t d later).length ≤ 3 ∧
        (pt.isRequest = false → (w'.step t).isSome = true)) ∨
      ∃ newer e older, later = newer ++ e :: older ∧ answer? t d older = none ∧
        (turns t d older).length ≤ 3 ∧ e.Finishes t d x.pool (.failed .invalidReturn)
  /-- If it gives an answer, it is this one. -/
  answers : ∀ later w' r, f.world.Leads later w' → answer? t d later = some r →
    r = .failed .invalidReturn

section Foreign

variable {es : List (Episode ρ)} {w : World ρ} {g : Nat → List Nat} {t p n : Nat} {x : Handle}
  {ev : Event ρ} {f : Effect ρ}

/-! ### How a borrower parts with a handle -/

theorem World.invalidate_of_react (hx : w.loose? n = some x)
    (hr : w.react (.invalidate t p n) = some f) :
    w.isFree t = true ∧ w.owned p = true ∧ f = w.invalidate t p n x := by
  rw [react] at hr
  split at hr
  · rename_i hfree
    rw [hx] at hr
    exact ⟨hfree.2, hfree.1, (Option.some.inj hr).symm⟩
  · cases hr

theorem World.react_foreign (hx : w.loose? n = some x) (hp : x.pool ≠ p)
    (hev : ev = .giveBack t p n ∨ ev = .invalidate t p n) (hr : w.react ev = some f) :
    w.isFree t = true ∧ w.owned p = true ∧ f.world =
      ((w.surrender n).onPool p Pool.countStray).push t
        ⟨x.pool, .takeBack x.object (some (.failed .invalidReturn))⟩ := by
  rcases hev with rfl | rfl
  · obtain ⟨hfree, howned, rfl⟩ := giveBack_of_react hx hr
    refine ⟨hfree, howned, ?_⟩
    unfold World.giveBack
    dsimp only
    rw [if_neg hp]
    rfl
  · obtain ⟨hfree, howned, rfl⟩ := invalidate_of_react hx hr
    refine ⟨hfree, howned, ?_⟩
    unfold World.invalidate
    dsimp only
    rw [if_neg hp]
    rfl

/-! ### Another pool is turned to -/

/-- The worlds in which a borrower has turned to the pool `p`, and in which it has let the object
    go, are in lock step. -/
theorem World.inStep_letGo (hth : ∃ th, w.threads[t]? = some th) (p n : Nat) (x : Handle) :
    InStep p t (w.stackOf t).length (.failed .invalidReturn) .done (w.letGo t n x).world
      (((w.surrender n).onPool p Pool.countStray).push t
        ⟨x.pool, .takeBack x.object (some (.failed .invalidReturn))⟩) := by
  have hstands : (w.letGo t n x).world.callAt t (w.stackOf t).length =
      some ⟨x.pool, .takeBack x.object (some .done)⟩ := callAt_push (w := w.surrender n) hth _
  have hpush := push_answering (w := w.surrender n) (t := t) (d := (w.stackOf t).length)
    (r := .failed .invalidReturn) rfl ⟨x.pool, .takeBack x.object (some .done)⟩
  have hworld : ((w.surrender n).onPool p Pool.countStray).push t
      ⟨x.pool, .takeBack x.object (some (.failed .invalidReturn))⟩ =
        ((w.letGo t n x).world.retell t (w.stackOf t).length (.failed .invalidReturn)).countStray
          p := congrArg (World.countStray p) hpush
  rw [hworld]
  exact .underway hstands rfl

/-- The call with which an object comes back that another pool has refused. -/
theorem Run.endsRefused {d : Nat} {later : List (Episode ρ)} {w' : World ρ} (h : Run es w)
    (hl : w.Leads later w')
    (ha : w.callAt t d = some ⟨x.pool, .takeBack x.object (some (.failed .invalidReturn))⟩) :
    (∃ pt, w'.callAt t d = some ⟨x.pool, pt⟩ ∧
        pt.BringsBack x.object (some (.failed .invalidReturn)) ∧ (turns t d later).length ≤ 3 ∧
        (pt.isRequest = false → (w'.step t).isSome = true)) ∨
      ∃ newer e older, later = newer ++ e :: older ∧ answer? t d older = none ∧
        (turns t d older).length ≤ 3 ∧ e.Finishes t d x.pool (.failed .invalidReturn) := by
  have hw := h.sound
  rcases hl.course hw ha with
    ⟨ts, a, hcourse⟩ | ⟨newer, e, older, ts, a, q, s, r, rfl, hcourse, hturn, hnext⟩
  · have hhome := hcourse.homeward hw ha
    have hat := hcourse.callAt hw
    have hturns : (turns t d later).length ≤ 3 :=
      hcourse.turns_eq.1 ▸ Nat.le_trans hhome.turns a.point.turnsHome_le
    refine .inl ⟨a.point, ?_, hhome.point, hturns, hhome.goesOn (hcourse.sound hw) hat⟩
    rw [hat, ← hhome.pool]
  · have hhome := hcourse.homeward hw ha
    have hturns : (turns t d older).length ≤ 3 :=
      hcourse.turns_eq.1 ▸ Nat.le_trans hhome.turns a.point.turnsHome_le
    -- the answer with which the call began is still its answer in the last turn
    obtain rfl := hturn.reply_of_settled hnext (hcourse.settled ha rfl)
    exact .inr ⟨newer, e, older, rfl, hcourse.turns_eq.2, hturns,
      hhome.pool ▸ hturn.finishes hnext⟩

/-- A borrower can turn to a pool that has not lent its object, which refuses it. -/
theorem Run.refusedElsewhere (h : Run es w) (hx : w.loose? n = some x) (hp : x.pool ≠ p)
    (hev : ev = .giveBack t p n ∨ ev = .invalidate t p n) (hr : w.react ev = some f) :
    w.RefusedElsewhere t (w.stackOf t).length p n x f := by
  obtain ⟨hfree, howned, hworld⟩ := World.react_foreign hx hp hev hr
  obtain ⟨q, hq, -⟩ := World.pool_of_owned howned
  have hth := World.thread_of_isFree hfree
  have hgo : w.react (.letGo t n) = some (w.letGo t n x) := by
    rw [World.react, if_pos hfree, hx]
    rfl
  have hstands : f.world.callAt t (w.stackOf t).length =
      some ⟨x.pool, .takeBack x.object (some (.failed .invalidReturn))⟩ := by
    rw [hworld]
    exact World.callAt_push (w := (w.surrender n).onPool p Pool.countStray) hth _
  have hsame := hworld ▸ World.inStep_letGo hth p n x
  refine ⟨?_, ⟨_, hgo, rfl, fun events => ?_⟩, fun later w' hl => ?_, fun later w' r hl ha => ?_⟩
  · rw [hworld]
    rfl
  · exact hsame.replay (h.next hgo).sound hq rfl rfl .nil events
  · exact (h.next hr).endsRefused hl hstands
  · rcases hl.answers (h.next hr).sound hstands rfl with ⟨hnone, -⟩ | hsome
    · rw [hnone] at ha
      cases ha
    · exact Option.some.inj (ha.symm.trans hsome)

end Foreign

/-! ## Objects that were taken away -/

/-- From the states of an object that was taken away from its borrower none leads back. -/
theorem Lifecycle.Leads.isReclaimed {s s' : Lifecycle} (h : s.Leads s')
    (hs : s.isReclaimed = true) : s'.isReclaimed = true := by
  cases s with
  | abandoned => exact List.mem_singleton.mp h ▸ rfl
  | invalid => exact nomatch h
  | _ => exact nomatch hs

theorem Lifecycle.isReclaimed_of_chain {l m : List Lifecycle} {s : Lifecycle}
    (h : (l ++ s :: m).IsChain fun s' s => s.Leads s') (hs : s.isReclaimed = true) :
    ∀ x ∈ l, x.isReclaimed = true := by
  induction l with
  | nil => exact List.forall_mem_nil _
  | cons x l ih =>
    have hrest := ih (List.isChain_of_isChain_cons h)
    refine List.forall_mem_cons.mpr ⟨?_, hrest⟩
    cases l with
    | nil => exact (List.isChain_cons_cons.mp h).1.isReclaimed hs
    | cons y l => exact (List.isChain_cons_cons.mp h).1.isReclaimed (hrest y (.head l))

theorem Entry.OnCourse.isReclaimed {e e₀ : Entry ρ} (h : e.OnCourse) (hs : e₀.trail <:+ e.trail)
    (hr : e₀.state.isReclaimed = true) : e.state.isReclaimed = true := by
  obtain ⟨steps, hsteps⟩ := hs
  have hmoves := h.moves
  rw [← hsteps] at hmoves
  cases steps with
  | nil =>
    rw [(List.cons.inj hsteps).1] at hr
    exact hr
  | cons x steps =>
    rw [← (List.cons.inj hsteps).1]
    exact Lifecycle.isReclaimed_of_chain hmoves hr x (.head steps)

section Stale

variable {es later : List (Episode ρ)} {w w₀ : World ρ} {g : Nat → List Nat} {t d i id n : Nat}
  {x : Handle} {ev : Event ρ} {f : Effect ρ} {a : Activity ρ} {q : Pool ρ} {s : Stretch ρ}

/-- What was taken away from a borrower does not come back to him. -/
theorem Run.isReclaimed (h₀ : Run es w₀) (h : Run (later ++ es) w) (hx : w₀.handle? n = some x)
    (hr : (w₀.stateOf x).isReclaimed = true) : (w.stateOf x).isReclaimed = true := by
  obtain ⟨p, hp⟩ := h₀.sound.pool_of_handle hx
  have hlt := ((h₀.sound.pools x.pool).sound p hp).object_of_loan
    (World.mem_loans hx p (w₀.points x.pool) (graves es x.pool))
  have hy₀ : (w₀.entriesOf x.pool)[x.object]? = some p.entries[x.object] := by
    rw [World.entriesOf_eq hp]
    exact List.getElem?_eq_getElem hlt
  obtain ⟨y, hy, hs⟩ := h₀.walks h hy₀
  rw [World.stateOf_eq, hy₀] at hr
  rw [World.stateOf_eq, hy]
  exact (h.onCourse x.pool x.object y hy).isReclaimed hs hr

/-- In an episode a call on the pool `i` has its only turn, in which the pool refuses the object
    that has come back. Nothing happens but that this is counted and that the call gives its answer
    `r`; if it has given up the last reference to the pool, it closes the pool first. -/
structure Episode.TurnsAway (t i : Nat) (r : Reply) (e : Episode ρ) : Prop where
  event : e.event = .step t
  unasked : e.request? = none
  outcome : (e.effect.reply = some r ∧ e.after = (e.before.pop t).countStray i) ∨
    (e.effect.reply = none ∧ (e.before.pop t).references i = 0 ∧
      e.after = (((e.before.pop t).countStray i).markGone i).push t ⟨i, .close (.release r)⟩)

theorem World.onPool_eq_countStray (hq : w.pools[i]? = some q) :
    w.onPool i (fun _ => q.countStray) = w.countStray i := by
  refine congrArg (fun ps => { w with pools := ps }) (modify_congr fun p hp => ?_)
  exact congrArg Pool.countStray (Option.some.inj (hq.symm.trans hp))

/-- A call to which an object has come back that is not lent any more. -/
theorem World.Works.turnsAway (h : w.Works ev f t a q s) (hid : id ∈ a.point.returns)
    (ha : id ∉ q.registry.active) (hr : a.point.refusal.isLoan = false) :
    Episode.TurnsAway t a.pool a.point.refusal ⟨w, ev, f⟩ := by
  obtain ⟨hnext, hpool⟩ := h.strays hid ha
  obtain ⟨th, rest, hth, -⟩ := top?_eq_some h.top
  have hev : ev = .step t := by
    rcases h.runs with ⟨hev, -⟩ | ⟨c, -, hrsp⟩
    · exact hev
    · have hreq := Pool.isRequest_of_respond hrsp
      rcases h.looks hid with ⟨answer, hpt, -⟩ | ⟨hpt, -⟩
      · rw [hpt] at hreq
        exact nomatch hreq
      · rw [hpt] at hreq
        exact nomatch hreq
  have hcounted : (w.onPool a.pool fun _ => s.pool) = w.countStray a.pool :=
    hpool ▸ onPool_eq_countStray h.pool
  have heffect := h.effect
  rw [apply_finish hnext, handOver_of_not_loan hr, hcounted] at heffect
  -- the call gives its answer, or it has given up the last reference to its pool
  rcases forsake_cases ((w.countStray a.pool).pop t) t a.pool a.point.refusal with
    ⟨p, -, hrefs, hlast⟩ | ⟨-, hmore⟩
  · rw [hlast] at heffect
    have hafter : f.world = (((w.pop t).countStray a.pool).markGone a.pool).push t
        ⟨a.pool, .close (.release a.point.refusal)⟩ := by rw [heffect]; rfl
    have hnone : f.reply = none := by rw [heffect]
    refine ⟨hev, ?_, .inr ⟨hnone, ?_, hafter⟩⟩
    · have hth' : ∃ th, (((w.pop t).countStray a.pool).markGone a.pool).threads[t]? = some th :=
        ⟨_, getElem?_onThread hth _⟩
      have htop : f.world.top? t = some ⟨a.pool, .close (.release a.point.refusal)⟩ := by
        rw [hafter, top?_eq_head?, stackOf_push hth', if_pos rfl]
        rfl
      show (if f.reply.isNone = true then _ else none) = none
      rw [hnone, h.thread, Option.bind_some]
      simp [Episode.after, htop, Point.isRequest]
    · exact (references_countStray (w.pop t) a.pool a.pool).symm.trans hrefs
  · rw [hmore] at heffect
    have hsome : f.reply = some a.point.refusal := by rw [heffect]
    refine ⟨hev, ?_, .inl ⟨hsome, by rw [heffect]; rfl⟩⟩
    show (if f.reply.isNone = true then _ else none) = none
    rw [hsome]
    rfl

/-- What an event leaves behind in which a handle goes out of its borrower's hands whose object the
    pool has taken away from him; the call begins on the thread `t` with `d` calls below it. -/
structure World.RefusedAsStale (w : World ρ) (t d : Nat) (x : Handle) (r : Reply) (f : Effect ρ) :
    Prop where
  /-- Nothing happens to a pool at once. -/
  untouched : f.world.pools = w.pools
  /-- The call has not run yet, and waits for nothing, or it was turned away in its first turn. -/
  refused : ∀ later w', f.world.Leads later w' →
    (turns t d later = [] ∧ (w'.step t).isSome = true ∧
        ∃ pt, pt.TakesBack x.object ∧ w'.callAt t d = some ⟨x.pool, pt⟩) ∨
      ∃ newer e older, later = newer ++ e :: older ∧ turns t d (e :: older) = [e] ∧
        e.TurnsAway t x.pool r

/-- How a borrower parts with the handle `n` of the object `x` on its own pool, with the reply that
    he gets if the pool refuses the object. -/
inductive Parts (t n : Nat) (x : Handle) : Event ρ → Reply → Prop
  | giveBack : Parts t n x (.giveBack t x.pool n) (.failed .invalidReturn)
  | invalidate : Parts t n x (.invalidate t x.pool n) (.failed .invalidReturn)
  | letGo : Parts t n x (.letGo t n) .done

theorem Parts.react {r : Reply} (hev : Parts t n x ev r) (hx : w.loose? n = some x)
    (hr : w.react ev = some f) : w.isFree t = true ∧ r.isLoan = false ∧
      ∃ pt, pt.TakesBack x.object ∧ pt.refusal = r ∧
        f.world = (w.surrender n).push t ⟨x.pool, pt⟩ := by
  cases hev with
  | giveBack =>
    obtain ⟨hfree, hworld⟩ := ComesBack.giveBack.react hx hr
    exact ⟨hfree, rfl, .takeBack x.object none, .keep (by simp), rfl, hworld⟩
  | invalidate =>
    obtain ⟨hfree, -, rfl⟩ := World.invalidate_of_react hx hr
    refine ⟨hfree, rfl, .discard x.object, .discard, rfl, ?_⟩
    unfold World.invalidate
    dsimp only
    rw [if_pos rfl]
  | letGo =>
    obtain ⟨hfree, hworld⟩ := ComesBack.letGo.react hx hr
    exact ⟨hfree, rfl, .takeBack x.object (some .done), .keep (by simp), rfl, hworld⟩

/-- An object that was taken away from its borrower is refused when it comes back. -/
theorem Run.refusedAsStale {r : Reply} (h : Run es w) (hx : w.loose? n = some x)
    (hs : (w.stateOf x).isReclaimed = true) (hev : Parts t n x ev r)
    (hr : w.react ev = some f) : w.RefusedAsStale t (w.stackOf t).length x r f := by
  obtain ⟨hfree, hloan, pt, htakes, rfl, hworld⟩ := hev.react hx hr
  have hrun := h.next hr
  have hstands : f.world.callAt t (w.stackOf t).length = some ⟨x.pool, pt⟩ := by
    rw [hworld]
    exact World.callAt_push (w := w.surrender n) (World.thread_of_isFree hfree) _
  refine ⟨by rw [hworld]; rfl, fun later w' hl => ?_⟩
  rcases hrun.firstTurn (hl.run hrun) hstands with
    ⟨hturns, -, hat⟩ | ⟨newer, e, older, rfl, -, hturns, hnone, hruns, hat⟩
  · have hgoes : (w'.step t).isSome = true := by
      refine (hl.sound hrun.sound).step_isSome hat ?_ fun p _ => ?_ <;> cases htakes <;> rfl
    exact .inl ⟨hturns, hgoes, pt, htakes, hat⟩
  · obtain ⟨hleads, hreact, -⟩ := hl.split
    have hold := hleads.run hrun
    rcases World.react_callAt hold.sound hreact hat with ⟨still, -⟩ | ⟨-, q, s, works, -⟩
    · exact absurd (still.symm.trans hruns) Bool.false_ne_true
    · have hall : Run ((older ++ [⟨w, ev, f⟩]) ++ es) e.before := by simpa using hold
      have hreclaimed := h.isReclaimed hall (World.handle?_of_loose? hx).1 hs
      have hstray : x.object ∉ q.registry.active := by
        rw [World.stateOf_of_pool (x := x) works.pool] at hreclaimed
        exact ((hold.sound.pools x.pool).sound q works.pool).not_active_of_reclaimed hreclaimed
      have hreturns : x.object ∈ pt.returns := by cases htakes <;> exact List.mem_singleton.mpr rfl
      refine .inr ⟨newer, e, older, rfl, ?_, works.turnsAway hreturns hstray hloan⟩
      rw [(answer?_of_runs hnone hruns).2, hturns]

end Stale

/-! ## Main statement -/

/-- In every run a return that a pool refuses does no harm. A borrower that turns to a pool that has
    not lent the object lets it go, and no more than that. Of an object that its pool has taken away
    the pool wants nothing to know: it counts the return, unless nobody refers to the pool any
    longer, which is closed then. -/
theorem returns_refused {es : List (Episode ρ)} {w : World ρ} {n : Nat} {x : Handle}
    (h : Run es w) (hx : w.loose? n = some x) (t : Nat) :
    (∀ p ev f, x.pool ≠ p → ev = .giveBack t p n ∨ ev = .invalidate t p n →
        w.react ev = some f → w.RefusedElsewhere t (w.stackOf t).length p n x f) ∧
      ((w.stateOf x).isReclaimed = true → ∀ ev r f, Parts t n x ev r →
        w.react ev = some f → w.RefusedAsStale t (w.stackOf t).length x r f) :=
  ⟨fun _ _ _ hp hev hr => h.refusedElsewhere hx hp hev hr,
    fun hs _ _ _ hev hr => h.refusedAsStale hx hs hev hr⟩

/-- Somebody does nothing with an object of the first pool for so long that the pool takes it away
    and destroys it; there is a second pool. -/
def seizedEvents : List (Event Nat) :=
  [.create { maxTotal := 2, abandonment := some { onUpkeep := true, timeout := ⟨10⟩ } },
    .create {}, .spawn, .begin 0 0 (.borrow none "first"), .step 0, .step 0,
    .answer 0 (.created (.ok 7)), .answer 0 (.activated 7 none), .tick ⟨20⟩,
    .begin 0 0 .maintain, .step 0, .step 0, .step 0, .answer 0 (.destroyed none), .step 0, .step 0]

/-- He borrows another object of the first pool. -/
def relentEvents : List (Event Nat) :=
  seizedEvents ++ [.begin 0 0 (.borrow none "second"), .step 0, .step 0,
    .answer 0 (.created (.ok 8)), .answer 0 (.activated 8 none)]

/-- This one he offers to the second pool; it is laid to rest in the first. -/
def misdirectedEvents : List (Event Nat) :=
  relentEvents ++ [.giveBack 0 1 1, .step 0, .answer 0 (.passivated 8 none)]

/-- The live handle comes to the wrong pool, and its object to its own; the other handle comes too
    late. -/
theorem returns_refused_once_seized :
    Run (episodes relentEvents) (reached relentEvents) ∧
      ((reached relentEvents).loose? 1 = some { pool := 0, object := 1 } ∧
        (reached relentEvents).stateOf { pool := 0, object := 1 } = .allocated ∧
        (∃ f, (reached relentEvents).react (.giveBack 0 1 1) = some f ∧
          (reached relentEvents).RefusedElsewhere 0 0 1 1 { pool := 0, object := 1 } f) ∧
        deeds ((episodes misdirectedEvents).take 3) = [.laidToRest 1 none] ∧
        answer? 0 0 ((episodes misdirectedEvents).take 3) = some (.failed .invalidReturn)) ∧
      (reached relentEvents).loose? 0 = some { pool := 0, object := 0 } ∧
      ((reached relentEvents).stateOf { pool := 0, object := 0 }).isReclaimed = true ∧
      ∃ f, (reached relentEvents).react (.letGo 0 0) = some f ∧
        (reached relentEvents).RefusedAsStale 0 0 { pool := 0, object := 0 } .done f :=
  have h : Run (episodes relentEvents) (reached relentEvents) := Run.of_events rfl
  have hlive : (reached relentEvents).loose? 1 = some { pool := 0, object := 1 } := rfl
  have hx : (reached relentEvents).loose? 0 = some { pool := 0, object := 0 } := rfl
  have hs : ((reached relentEvents).stateOf { pool := 0, object := 0 }).isReclaimed = true := rfl
  ⟨h, ⟨hlive, rfl, ⟨_, rfl, (returns_refused h hlive 0).1 1 _ _ Nat.zero_ne_one (.inl rfl) rfl⟩,
      by decide +kernel, by decide +kernel⟩,
    hx, hs, _, rfl, (returns_refused h hx 0).2 hs _ _ _ .letGo rfl⟩

/-- The first pool gets another object, which is idle. Then nobody refers to the pool but the
    borrower of the object that was taken away. -/
def strandedEvents : List (Event Nat) :=
  seizedEvents ++ [.begin 0 0 .add, .step 0, .answer 0 (.created (.ok 8)),
    .answer 0 (.passivated 8 none), .drop 0 0]

/-- This borrower lets his handle go. -/
def releasedEvents : List (Event Nat) :=
  strandedEvents ++ [.letGo 0 0, .step 0, .step 0, .step 0, .answer 0 (.destroyed none), .step 0]

/-- The factory has to destroy the idle object before the call to which the handle came is over. -/
theorem stale_handle_closes_pool :
    ∃ p p', Run (episodes releasedEvents) (reached releasedEvents) ∧
      (reached strandedEvents).loose? 0 = some { pool := 0, object := 0 } ∧
      ((reached strandedEvents).stateOf { pool := 0, object := 0 }).isReclaimed = true ∧
      (reached strandedEvents).pools[0]? = some p ∧ p.registry.idle = [1] ∧
      (reached releasedEvents).pools[0]? = some p' ∧ p'.registry.idle = [] ∧
      answer? 0 0 ((episodes releasedEvents).take 6) = some .done ∧
      deeds ((episodes releasedEvents).take 6) = [.destroyed 1 .normal] :=
  ⟨_, _, Run.of_events rfl, rfl, rfl, rfl, by decide +kernel, rfl, by decide +kernel,
    by decide +kernel, by decide +kernel⟩

end ObjectPool
