/-
  ObjectPool.Proofs.Retelling

  A world in which a call has another answer. A call that brings an object back may know its answer
  from the start, and gives it when everything is done; it does not look at it before. So whatever
  can happen in a world can happen as well if the answer is another one, and leaves the same behind
  but for this answer, which the call gives in the end.

    * `World.retell` — a call has another answer.
    * `apply_retell`, `apply_answering` — a stretch of another call, or of this one.
    * `react_retell` — every event.
-/

import ObjectPool.Proofs.Strays
import ObjectPool.Proofs.LifeCycle
import ObjectPool.Proofs.Origins

namespace ObjectPool

variable {ρ : Type}

/-- The calls on a thread, where the one with `d` calls below it has the answer `r`. -/
def retellAt (d : Nat) (r : Reply) : List (Activity ρ) → List (Activity ρ)
  | [] => []
  | a :: rest =>
    if rest.length = d then ⟨a.pool, a.point.retell r⟩ :: rest else a :: retellAt d r rest

/-- The call on the thread `t` with `d` calls below it has the answer `r`. -/
def World.retell (t d : Nat) (r : Reply) : World ρ → World ρ :=
  onThread t fun th => { th with stack := retellAt d r th.stack }

def Effect.retell (t d : Nat) (r : Reply) (f : Effect ρ) : Effect ρ :=
  { f with world := f.world.retell t d r }

/-- What a stretch of this call leaves behind: it gives its answer, or it has yet to give it. -/
def Effect.answering (t d : Nat) (r : Reply) (f : Effect ρ) : Effect ρ :=
  match f.reply with
  | none => f.retell t d r
  | some _ => { f with reply := some r }

theorem Effect.answering_notices (t d : Nat) (r : Reply) (f : Effect ρ)
    (ns : List (Nat × Notice)) : Effect.answering t d r { f with notices := ns } =
      { f.answering t d r with notices := ns } := by
  simp only [answering]
  split <;> rfl

theorem Effect.notices_answering (f : Effect ρ) (t d : Nat) (r : Reply) :
    (f.answering t d r).notices = f.notices := by
  simp only [answering]
  split <;> rfl

section Answers

variable {d : Nat} {r : Reply} {a : Activity ρ} {l : List (Activity ρ)}

theorem retellAt_cons_of_ne (h : l.length ≠ d) : retellAt d r (a :: l) = a :: retellAt d r l :=
  if_neg h

theorem retellAt_cons_self (h : l.length = d) :
    retellAt d r (a :: l) = ⟨a.pool, a.point.retell r⟩ :: l := if_pos h

/-- Another answer makes no difference to which pools the calls are on. -/
theorem map_pool_retellAt (d : Nat) (r : Reply) (l : List (Activity ρ)) :
    (retellAt d r l).map (·.pool) = l.map (·.pool) := by
  induction l with
  | nil => rfl
  | cons a l ih =>
    rw [retellAt]
    split
    · rfl
    · rw [List.map_cons, ih, List.map_cons]

end Answers

namespace World

variable {w : World ρ} {t u d i n : Nat} {r r₀ : Reply} {x : Handle} {a b : Activity ρ}
  {s : Stretch ρ} {e : Event ρ}

/-! ## What one sees of the threads -/

theorem getElem?_retell (w : World ρ) (t d : Nat) (r : Reply) (u : Nat) :
    (w.retell t d r).threads[u]? = (w.threads[u]?).map fun th =>
      if t = u then { th with stack := retellAt d r th.stack } else th := List.getElem?_modify ..

theorem isFree_retell (w : World ρ) (t d : Nat) (r : Reply) (u : Nat) :
    (w.retell t d r).isFree u = w.isFree u := by
  unfold isFree
  rw [getElem?_retell]
  cases w.threads[u]? with
  | none => rfl
  | some th =>
    obtain ⟨stack, keeper⟩ := th
    by_cases hu : t = u
    · cases stack with
      | nil => simp [hu, retellAt]
      | cons a rest => by_cases hd : rest.length = d <;> simp [hu, retellAt, hd]
    · simp [hu]

theorem callers_retell (w : World ρ) (t d : Nat) (r : Reply) (i : Nat) :
    (w.retell t d r).callers i = w.callers i := by
  -- it is enough to know which pools the calls on each thread are on
  have hcallers : ∀ w : World ρ, w.callers i =
      (w.threads.map fun th => th.stack.map (·.pool)).flatten.countP (decide <| · = i) := by
    intro w
    rw [callers, ← List.flatMap_def, ← List.map_flatMap, List.countP_map]
    rfl
  rw [hcallers, hcallers]
  refine congrArg (fun ls => (List.flatten ls).countP _) (List.ext_getElem? fun k => ?_)
  rw [List.getElem?_map, List.getElem?_map, getElem?_retell]
  cases w.threads[k]? with
  | none => rfl
  | some th =>
    refine congrArg some ?_
    dsimp only
    split
    · exact map_pool_retellAt d r th.stack
    · rfl

theorem references_retell (w : World ρ) (t d : Nat) (r : Reply) (i : Nat) :
    (w.retell t d r).references i = w.references i :=
  congrArg (((w.pools[i]?).map (·.clones)).getD 0 + w.holders i + ·) (callers_retell w t d r i)

theorem hasEnded_retell (w : World ρ) (t d : Nat) (r : Reply) :
    (w.retell t d r).hasEnded = w.hasEnded := by
  funext u
  unfold hasEnded
  rw [getElem?_retell]
  cases w.threads[u]? with
  | none => rfl
  | some th =>
    simp only [Option.map_some, Option.bind_some]
    split <;> rfl

/-! ## Changes to the threads -/

/-- A change to a thread that has nothing to do with the answer. -/
theorem onThread_retell {v : Thread ρ → Thread ρ}
    (h : t = u → ∀ th, w.threads[t]? = some th → v { th with stack := retellAt d r th.stack } =
      { v th with stack := retellAt d r (v th).stack }) :
    (w.retell t d r).onThread u v = (w.onThread u v).retell t d r := by
  refine congrArg (fun ths => { w with threads := ths }) ?_
  by_cases hu : t = u
  · subst hu
    exact modify_modify (h rfl)
  · exact modify_comm_of_ne hu w.threads

/-- A call begins. -/
theorem push_retell (hlt : d < (w.stackOf t).length) (u : Nat) (b : Activity ρ) :
    (w.retell t d r).push u b = (w.push u b).retell t d r := by
  refine onThread_retell fun _ th hth => ?_
  rw [stackOf_eq hth] at hlt
  rw [retellAt_cons_of_ne (Nat.ne_of_gt hlt)]

/-- Another call stands at another point. -/
theorem moveTo_retell (hne : u = t → d + 1 < (w.stackOf t).length) (pt : Point ρ) :
    (w.retell t d r).moveTo u pt = (w.moveTo u pt).retell t d r := by
  refine onThread_retell fun hu th hth => ?_
  obtain ⟨stack, keeper⟩ := th
  have hlen := hne hu.symm
  rw [stackOf_eq hth] at hlen
  cases stack with
  | nil => exact nomatch hlen
  | cons a rest =>
    have hd : rest.length ≠ d := Nat.ne_of_gt (Nat.lt_of_succ_lt_succ hlen)
    dsimp only
    rw [retellAt_cons_of_ne hd, retellAt_cons_of_ne hd]

/-- Another call is over. -/
theorem pop_retell (hne : u = t → d + 1 < (w.stackOf t).length) :
    (w.retell t d r).pop u = (w.pop u).retell t d r := by
  refine onThread_retell fun hu th hth => ?_
  obtain ⟨stack, keeper⟩ := th
  have hlen := hne hu.symm
  rw [stackOf_eq hth] at hlen
  cases stack with
  | nil => exact nomatch hlen
  | cons a rest =>
    dsimp only
    rw [retellAt_cons_of_ne (Nat.ne_of_gt (Nat.lt_of_succ_lt_succ hlen))]
    rfl

/-- A thread that gives up a reference to a pool. -/
theorem forsake_retell (hlt : d < (w.stackOf t).length) (u i : Nat) (r₁ : Reply) :
    (w.retell t d r).forsake u i r₁ = (w.forsake u i r₁).retell t d r := by
  have hpush := push_retell (w := w.markGone i) (r := r) hlt u ⟨i, .close (.release r₁)⟩
  unfold forsake
  dsimp only
  rw [references_retell]
  show (if w.references i = 0 ∧ ((w.pools[i]?).map (·.gone)).getD true = false then _ else _) = _
  split
  · exact congrArg (fun w' => ({ world := w' } : Effect ρ)) hpush
  · rfl

/-- A new thread is apart from those that are there. -/
theorem append_retell (hlt : t < w.threads.length) (ths : List (Thread ρ)) :
    (w.retell t d r).threads ++ ths =
      (w.threads ++ ths).modify t fun th => { th with stack := retellAt d r th.stack } :=
  modify_append hlt

theorem create_retell (hlt : t < w.threads.length) (c : Config) :
    (w.retell t d r).create c = (w.create c).map fun x => (x.1.retell t d r, x.2) := by
  have hlen : (w.retell t d r).threads.length = w.threads.length := List.length_modify ..
  unfold create
  dsimp only
  split
  · rfl
  · simp only [hlen, append_retell hlt]
    split <;> rfl

theorem stackOf_enter (w : World ρ) (u : Nat) (k : Keeper) (phase : Phase) (t : Nat) :
    (w.enter u k phase).stackOf t = w.stackOf t := by
  simp only [stackOf, enter, onThread, List.getElem?_modify]
  cases w.threads[t]? with
  | none => rfl
  | some th => by_cases hu : u = t <;> simp [hu]

/-- Another call ends without the one that has the answer. -/
theorem lt_length_pop (hlt : d < (w.stackOf t).length)
    (hne : u = t → d + 1 < (w.stackOf t).length) : d < ((w.pop u).stackOf t).length := by
  have hstack : (w.pop u).stackOf t = if u = t then (w.stackOf t).tail else w.stackOf t := by
    simp only [stackOf, pop, onThread, List.getElem?_modify]
    cases w.threads[t]? with
    | none => simp
    | some th => by_cases hu : u = t <;> simp [hu]
  rw [hstack]
  split
  · rename_i hu
    have hlen := hne hu
    rw [List.length_tail]
    omega
  · exact hlt

/-- The thread of a background upkeep goes on between two rounds. -/
theorem keeperStep_retell (hlt : d < (w.stackOf t).length) (u : Nat) (k : Keeper) :
    (w.retell t d r).keeperStep u k = (w.keeperStep u k).map (Effect.retell t d r) := by
  have henter : ∀ phase, (w.retell t d r).enter u k phase = (w.enter u k phase).retell t d r :=
    fun phase => onThread_retell fun _ _ _ => rfl
  have hstands : ∀ (phase : Phase) (ns : List (Nat × Notice)),
      ({ world := (w.retell t d r).enter u k phase, notices := ns } : Effect ρ) =
        Effect.retell t d r { world := w.enter u k phase, notices := ns } :=
    fun phase ns => congrArg (fun w' => ({ world := w', notices := ns } : Effect ρ)) (henter phase)
  rw [← stackOf_enter w u k .working] at hlt
  have hpush := push_retell (r := r) hlt u ⟨k.pool, .upkeep⟩
  rw [← henter] at hpush
  unfold keeperStep
  cases k.phase with
  | resting wake =>
    show (if ((w.pools[k.pool]?).bind (·.keeper)) ≠ some u then _ else
      if w.now.reached wake then _ else _) = _
    dsimp only
    split
    · exact congrArg some (hstands _ _)
    · split
      · exact congrArg (fun w' => some ({ world := w' } : Effect ρ)) hpush
      · rfl
  | ended => rfl
  | fresh | working => exact congrArg some (hstands _ _)

/-! ## A stretch of a call -/

/-- Another call has run for a stretch. -/
theorem apply_retell (hlt : d < (w.stackOf t).length)
    (hne : u = t → d + 1 < (w.stackOf t).length) (i : Nat) (s : Stretch ρ) :
    (w.retell t d r).apply u i s = (w.apply u i s).retell t d r := by
  cases hn : s.next with
  | go pt =>
    rw [apply_go hn, apply_go hn]
    have hmove := moveTo_retell (w := w.onPool i fun _ => s.pool) (r := r) hne pt
    exact congrArg (fun w' : World ρ =>
      ({ world := w', notices := s.notices.map fun n => (i, n) } : Effect ρ)) hmove
  | finish r₁ =>
    rw [apply_finish hn, apply_finish hn]
    have hpop := congrArg (handOver i r₁)
      (pop_retell (w := w.onPool i fun _ => s.pool) (r := r) hne)
    have hforsake := forsake_retell (r := r)
      (w := ((w.onPool i fun _ => s.pool).pop u).handOver i r₁)
      (lt_length_pop (w := w.onPool i fun _ => s.pool) hlt hne) u i r₁
    exact congrArg
      (fun f : Effect ρ => { f with notices := s.notices.map fun n => (i, n) })
      ((congrArg (fun w' : World ρ => w'.forsake u i r₁) hpop).trans hforsake)

section Call

variable {rest : List (Activity ρ)}

theorem thread_of_stackOf (hstack : w.stackOf t = a :: rest) :
    ∃ th, w.threads[t]? = some th ∧ th.stack = a :: rest := by
  cases hth : w.threads[t]? with
  | none => simp [stackOf, hth] at hstack
  | some th => exact ⟨th, rfl, (stackOf_eq hth).symm.trans hstack⟩

/-- The call itself stands at another point. -/
theorem moveTo_answering (hstack : w.stackOf t = a :: rest) (hd : rest.length = d) (pt : Point ρ) :
    (w.retell t d r).moveTo t (pt.retell r) = (w.moveTo t pt).retell t d r := by
  refine congrArg (fun ths => { w with threads := ths }) (modify_modify fun th hth => ?_)
  obtain ⟨stack, keeper⟩ := th
  obtain rfl : stack = a :: rest := (stackOf_eq hth).symm.trans hstack
  dsimp only
  rw [retellAt_cons_self hd, retellAt_cons_self hd]

/-- It is over, and its answer is not there any more. -/
theorem pop_answering (hstack : w.stackOf t = a :: rest) (hd : rest.length = d) :
    (w.retell t d r).pop t = w.pop t := by
  refine congrArg (fun ths => { w with threads := ths }) ?_
  refine (modify_eq_modify_modify fun th hth => ?_).symm
  obtain ⟨stack, keeper⟩ := th
  obtain rfl : stack = a :: rest := (stackOf_eq hth).symm.trans hstack
  dsimp only
  rw [retellAt_cons_self hd, List.tail_cons, List.tail_cons]

/-- A call that begins with an answer. -/
theorem push_answering (hd : (w.stackOf t).length = d) (b : Activity ρ) :
    w.push t ⟨b.pool, b.point.retell r⟩ = (w.push t b).retell t d r := by
  refine congrArg (fun ths => { w with threads := ths }) (modify_eq_modify_modify fun th hth => ?_)
  rw [stackOf_eq hth] at hd
  dsimp only
  rw [retellAt_cons_self hd]

/-- It may have to close its pool before it gives its answer. -/
theorem forsake_answering (hd : (w.stackOf t).length = d) (i : Nat) (r₀ : Reply) :
    w.forsake t i r = (w.forsake t i r₀).answering t d r := by
  unfold forsake
  dsimp only
  split
  · exact congrArg (fun w' => ({ world := w' } : Effect ρ))
      (push_answering (w := w.markGone i) hd ⟨i, .close (.release r₀)⟩)
  · rfl

/-- A call whose answer is no object has nothing to hand over. -/
theorem handOver_of_not_loan (hr : r.isLoan = false) (w : World ρ) (i : Nat) :
    w.handOver i r = w := by
  cases r with
  | lent id => exact nomatch hr
  | _ => simp only [handOver, Reply.handles, List.map_nil, List.append_nil]

/-- The call itself has run for a stretch. -/
theorem apply_answering (hstack : w.stackOf t = a :: rest) (hd : rest.length = d)
    (hr : r.isLoan = false) (hr₀ : r₀.isLoan = false) (hs : s.next.errand = .settled r₀)
    (i : Nat) : (w.retell t d r).apply t i (s.retell r) = (w.apply t i s).answering t d r := by
  cases hn : s.next with
  | go pt =>
    have hn' : (s.retell r).next = .go (pt.retell r) := congrArg (Next.retell r) hn
    rw [apply_go hn, apply_go hn']
    have hmove := moveTo_answering (w := w.onPool i fun _ => s.pool) (r := r) hstack hd pt
    exact congrArg (fun w' : World ρ =>
      ({ world := w', notices := s.notices.map fun n => (i, n) } : Effect ρ)) hmove
  | finish r₁ =>
    have hn' : (s.retell r).next = .finish r := congrArg (Next.retell r) hn
    obtain rfl : r₁ = r₀ := by
      rw [hn] at hs
      exact Errand.settled.inj hs
    have hpop := pop_answering (w := w.onPool i fun _ => s.pool) (r := r) hstack hd
    rw [apply_finish hn, apply_finish hn', handOver_of_not_loan hr, handOver_of_not_loan hr₀]
    have hlen : (((w.onPool i fun _ => s.pool).pop t).stackOf t).length = d := by
      obtain ⟨th, hth, hs⟩ := thread_of_stackOf hstack
      rw [stackOf_pop (w := w.onPool i fun _ => s.pool) hth hs]
      exact hd
    have hforsake := forsake_answering (r := r) (d := d)
      (w := (w.onPool i fun _ => s.pool).pop t) (t := t) hlen i r₁
    have hworld := (congrArg (fun w' : World ρ => w'.forsake t i r) hpop).trans hforsake
    rw [Effect.answering_notices]
    exact congrArg (fun f : Effect ρ => { f with notices := s.notices.map fun n => (i, n) }) hworld

/-! ## A thread goes on -/

theorem step_of_top (h : w.top? t = some a) : w.step t = (w.pools[a.pool]?).bind fun q =>
    (q.advance w.now t w.hasEnded a.point).map (w.apply t a.pool) := by
  obtain ⟨th, rest, hth, hs⟩ := top?_eq_some h
  simp only [step, hth, hs, Option.bind_eq_bind, Option.bind_some]
  exact congrArg _ (funext fun q => by simp [Option.map_eq_bind])

theorem answer_of_top (h : w.top? t = some a) (c : Response ρ) :
    w.answer t c = (w.pools[a.pool]?).bind fun q =>
      (q.respond w.now a.point c).map (w.apply t a.pool) := by
  simp only [answer, h, Option.bind_eq_bind, Option.bind_some]
  exact congrArg _ (funext fun q => by simp [Option.map_eq_bind])

/-- Whatever the call on top of a thread may do. -/
theorem top?_retell (hne : u = t → d + 1 < (w.stackOf t).length) :
    (w.retell t d r).top? u = w.top? u := by
  unfold top?
  rw [getElem?_retell]
  cases hth : w.threads[u]? with
  | none => rfl
  | some th =>
    by_cases hu : t = u
    · obtain ⟨stack, keeper⟩ := th
      have hlen := hne hu.symm
      rw [hu, stackOf_eq hth] at hlen
      cases stack with
      | nil => exact nomatch hlen
      | cons a rest =>
        have hd : rest.length ≠ d := Nat.ne_of_gt (Nat.lt_of_succ_lt_succ hlen)
        simp [hu, retellAt_cons_of_ne hd]
    · simp [hu]

theorem top?_answering (hstack : w.stackOf t = a :: rest) (hd : rest.length = d) :
    (w.retell t d r).top? t = some ⟨a.pool, a.point.retell r⟩ := by
  obtain ⟨th, hth, hs⟩ := thread_of_stackOf hstack
  simp [top?, getElem?_retell, hth, hs, retellAt_cons_self hd]

end Call

/-! ## Every event -/

/-- Another call goes on, or the thread of a background upkeep. -/
theorem step_retell (hlt : d < (w.stackOf t).length)
    (hne : u = t → d + 1 < (w.stackOf t).length) :
    (w.retell t d r).step u = (w.step u).map (Effect.retell t d r) := by
  have hsame := top?_retell (r := r) hne
  cases htop : w.top? u with
  | some a =>
    rw [step_of_top htop, step_of_top (hsame.trans htop), hasEnded_retell, Option.map_bind]
    refine congrArg _ (funext fun q => ?_)
    rw [Function.comp, Option.map_map]
    exact congrArg (fun v => Option.map v _) (funext fun s => apply_retell hlt hne a.pool s)
  | none =>
    -- the thread has no call, so that it is not the one with the answer
    rw [top?_eq_head?, List.head?_eq_none_iff] at htop
    have hu : t ≠ u := by
      rintro rfl
      rw [htop] at hlt
      exact absurd hlt (Nat.not_lt_zero d)
    have hthread : (w.retell t d r).threads[u]? = w.threads[u]? := by simp [getElem?_retell, hu]
    cases hth : w.threads[u]? with
    | none => simp [step, hthread, hth]
    | some th =>
      have hidle : th.stack = [] := (stackOf_eq hth).symm.trans htop
      cases hk : th.keeper with
      | none => simp [step, hthread, hth, hidle, hk]
      | some k => simpa [step, hthread, hth, hidle, hk] using keeperStep_retell hlt u k

theorem answer_retell (hlt : d < (w.stackOf t).length)
    (hne : u = t → d + 1 < (w.stackOf t).length) (c : Response ρ) :
    (w.retell t d r).answer u c = (w.answer u c).map (Effect.retell t d r) := by
  have hsame := top?_retell (r := r) hne
  cases htop : w.top? u with
  | some a =>
    rw [answer_of_top htop, answer_of_top (hsame.trans htop), Option.map_bind]
    refine congrArg _ (funext fun q => ?_)
    rw [Function.comp, Option.map_map]
    exact congrArg (fun v => Option.map v _) (funext fun s => apply_retell hlt hne a.pool s)
  | none => simp [answer, htop, hsame]

/-- A call that has its answer keeps it. -/
theorem settled_of_counts {p : Pool ρ} {now : Instant} {pt : Point ρ} (h : s.Counts p now pt)
    (hs : pt.errand = .settled r₀) : s.next.errand = .settled r₀ := by
  rcases hs ▸ h.leads with hkeeps | ⟨hopen, -⟩
  · exact hkeeps
  · exact nomatch hopen

section Call

variable {rest : List (Activity ρ)}

/-- The call itself goes on. -/
theorem step_answering (hstack : w.stackOf t = a :: rest) (hd : rest.length = d)
    (hr : r.isLoan = false) (hr₀ : r₀.isLoan = false) (hs : a.point.errand = .settled r₀) :
    (w.retell t d r).step t = (w.step t).map (Effect.answering t d r) := by
  have htop : w.top? t = some a := by rw [top?_eq_head?, hstack, List.head?_cons]
  rw [step_of_top htop, step_of_top (top?_answering hstack hd), hasEnded_retell, Option.map_bind]
  refine congrArg _ (funext fun q => ?_)
  rw [Function.comp, Pool.advance_retell _ _ _ _ _ _ hs, Option.map_map, Option.map_map]
  refine Option.map_congr fun s hadv => ?_
  exact apply_answering hstack hd hr hr₀ (settled_of_counts (Pool.advance_counts hadv) hs) a.pool

theorem answer_answering (hstack : w.stackOf t = a :: rest) (hd : rest.length = d)
    (hr : r.isLoan = false) (hr₀ : r₀.isLoan = false) (hs : a.point.errand = .settled r₀)
    (c : Response ρ) :
    (w.retell t d r).answer t c = (w.answer t c).map (Effect.answering t d r) := by
  have htop : w.top? t = some a := by rw [top?_eq_head?, hstack, List.head?_cons]
  rw [answer_of_top htop, answer_of_top (top?_answering hstack hd), Option.map_bind]
  refine congrArg _ (funext fun q => ?_)
  rw [Function.comp, Pool.respond_retell _ _ _ _ hs, Option.map_map, Option.map_map]
  refine Option.map_congr fun s hresp => ?_
  exact apply_answering hstack hd hr hr₀ (settled_of_counts (Pool.respond_counts hresp) hs) a.pool

end Call

/-! ## What the callers do -/

theorem drop_retell (hlt : d < (w.stackOf t).length) (u i : Nat) :
    (w.retell t d r).drop u i = (w.drop u i).retell t d r :=
  forsake_retell (w := w.onPool i fun q => { q with clones := q.clones - 1 }) hlt u i .done

theorem giveBack_retell (hlt : d < (w.stackOf t).length) (u i n : Nat) (x : Handle) :
    (w.retell t d r).giveBack u i n x = (w.giveBack u i n x).retell t d r := by
  unfold giveBack
  dsimp only
  split
  · exact congrArg (fun w' => ({ world := w' } : Effect ρ))
      (push_retell (w := w.surrender n) hlt u _)
  · exact congrArg
      (fun w' => ({ world := w', notices := [(i, .foreignReturn x.pool x.object)] } : Effect ρ))
      (push_retell (w := (w.surrender n).onPool i fun q => (q.refuseReturn .done).pool) hlt u _)

theorem invalidate_retell (hlt : d < (w.stackOf t).length) (u i n : Nat) (x : Handle) :
    (w.retell t d r).invalidate u i n x = (w.invalidate u i n x).retell t d r := by
  unfold invalidate
  dsimp only
  split
  · exact congrArg (fun w' => ({ world := w' } : Effect ρ))
      (push_retell (w := w.surrender n) hlt u _)
  · exact congrArg (fun w' => ({ world := w' } : Effect ρ))
      (push_retell (w := (w.surrender n).onPool i fun q => (q.refuseReturn .done).pool) hlt u _)

/-- Callers may do anything while the call is on its way. -/
theorem react_retell_of_callers (hlt : d < (w.stackOf t).length) {e : Event ρ}
    (he : ∀ f, Episode.thread? ⟨w, e, f⟩ = none) :
    (w.retell t d r).react e = (w.react e).map (Effect.retell t d r) := by
  have hthread : t < w.threads.length := by
    by_contra hno
    simp [stackOf, List.getElem?_eq_none_iff.mpr (Nat.le_of_not_lt hno)] at hlt
  have howned : ∀ i, (w.retell t d r).owned i = w.owned i := fun _ => rfl
  have hloose : ∀ n, (w.retell t d r).loose? n = w.loose? n := fun _ => rfl
  have hhandle : ∀ n, (w.retell t d r).handle? n = w.handle? n := fun _ => rfl
  have hresource : ∀ x, (w.retell t d r).resource? x = w.resource? x := fun _ => rfl
  have hfree := isFree_retell w t d r
  cases e with
  | tick now =>
    show (if w.now.nanos ≤ now.nanos then _ else none) = _
    simp only [react]
    split <;> rfl
  | spawn =>
    exact congrArg (fun ths => some ({ world := { w with threads := ths } } : Effect ρ))
      (append_retell hthread [{}])
  | create c =>
    simp only [react, create_retell hthread]
    cases w.create c <;> rfl
  | clone i =>
    simp only [react, howned]
    split <;> rfl
  | drop u i =>
    simp only [react, howned, hfree, drop_retell hlt]
    split <;> rfl
  | begin u i o =>
    simp only [react, howned, hfree, push_retell hlt]
    split <;> rfl
  | giveBack u i n =>
    simp only [react, howned, hfree, hloose]
    split
    · rw [Option.map_map]
      exact congrArg (fun v => (w.loose? n).map v) (funext (giveBack_retell hlt u i n))
    · rfl
  | invalidate u i n =>
    simp only [react, howned, hfree, hloose]
    split
    · rw [Option.map_map]
      exact congrArg (fun v => (w.loose? n).map v) (funext (invalidate_retell hlt u i n))
    · rfl
  | letGo u n =>
    simp only [react, hfree, hloose]
    split
    · rw [Option.map_map]
      refine congrArg (fun v => (w.loose? n).map v) (funext fun x => ?_)
      exact congrArg (fun w' => ({ world := w' } : Effect ρ))
        (push_retell (w := w.surrender n) hlt u _)
    · rfl
  | access n site v =>
    simp only [react, hloose]
    cases w.loose? n with
    | none => rfl
    | some x =>
      simp only [Option.map_some, access, hresource]
      cases w.resource? x <;> rfl
  | lock n site =>
    simp only [react, hloose]
    cases w.loose? n with
    | none => rfl
    | some x =>
      simp only [Option.map_some, lock, hresource]
      cases w.resource? x <;> rfl
  | unlock n v =>
    simp only [react, hhandle]
    cases (w.handle? n).filter (·.guarded) with
    | none => rfl
    | some x =>
      simp only [Option.bind_some, unlock, hresource]
      cases w.resource? x <;> rfl
  | markUsed n site =>
    simp only [react, hhandle]
    cases w.handle? n <;> rfl
  | step u => cases he ⟨w, [], none⟩
  | answer u c => cases he ⟨w, [], none⟩

/-- A call on a thread is the one on top, or there are more calls above it. -/
theorem top_or_below (ha : w.callAt t d = some a) :
    (∃ rest, w.stackOf t = a :: rest ∧ rest.length = d) ∨ d + 1 < (w.stackOf t).length := by
  have hlt : d < (w.stackOf t).length := lt_of_callAt ha
  rw [callAt] at ha
  cases hs : w.stackOf t with
  | nil => simp [hs] at hlt
  | cons b rest =>
    rw [hs, getElem?_reverse_cons] at ha
    rw [hs, List.length_cons] at hlt
    by_cases hd : d = rest.length
    · rw [if_pos hd] at ha
      exact .inl ⟨rest, by rw [Option.some.inj ha], hd.symm⟩
    · exact .inr (by rw [List.length_cons]; omega)

/-- Whatever happens in a world happens as well if a call that has its answer has another one. -/
theorem react_retell (ha : w.callAt t d = some a) (hs : a.point.errand = .settled r₀)
    (hr : r.isLoan = false) (hr₀ : r₀.isLoan = false) (e : Event ρ) :
    (w.retell t d r).react e = (w.react e).map fun f =>
      if Episode.runs t d ⟨w, e, f⟩ then f.answering t d r else f.retell t d r := by
  have hlt : d < (w.stackOf t).length := lt_of_callAt ha
  have hruns : ∀ f, Episode.runs t d ⟨w, e, f⟩ = true ↔
      Episode.thread? ⟨w, e, f⟩ = some t ∧ (w.stackOf t).length = d + 1 :=
    fun f => decide_eq_true_iff
  -- in an event the call runs, or it does not, whatever the event leaves behind
  have hcases : (∀ f, Episode.thread? ⟨w, e, f⟩ = some t ∧ (w.stackOf t).length = d + 1) ∨
      ∀ f, ¬(Episode.thread? ⟨w, e, f⟩ = some t ∧ (w.stackOf t).length = d + 1) := by
    by_cases h : Episode.thread? ⟨w, e, ⟨w, [], none⟩⟩ = some t ∧ (w.stackOf t).length = d + 1
    · exact .inl fun _ => h
    · exact .inr fun _ => h
  rcases hcases with hself | hother
  · have hmap : (fun f : Effect ρ =>
        if Episode.runs t d ⟨w, e, f⟩ then f.answering t d r else f.retell t d r) =
          Effect.answering t d r := funext fun f => if_pos ((hruns f).mpr (hself f))
    obtain ⟨hthread, hlen⟩ := hself ⟨w, [], none⟩
    obtain ⟨rest, hstack, hd⟩ : ∃ rest, w.stackOf t = a :: rest ∧ rest.length = d := by
      rcases top_or_below ha with htop | hbelow
      · exact htop
      · omega
    rw [hmap]
    cases e with
    | step u =>
      obtain rfl := Option.some.inj hthread
      exact step_answering hstack hd hr hr₀ hs
    | answer u c =>
      obtain rfl := Option.some.inj hthread
      exact answer_answering hstack hd hr hr₀ hs c
    | _ => exact nomatch hthread
  · have hmap : (fun f : Effect ρ =>
        if Episode.runs t d ⟨w, e, f⟩ then f.answering t d r else f.retell t d r) =
          Effect.retell t d r :=
      funext fun f => if_neg (mt (hruns f).mp (hother f))
    rw [hmap]
    cases e with
    | step u =>
      refine step_retell hlt fun hu => ?_
      have hne : (w.stackOf t).length ≠ d + 1 := fun hlen =>
        hother ⟨w, [], none⟩ ⟨congrArg some hu, hlen⟩
      omega
    | answer u c =>
      refine answer_retell hlt (fun hu => ?_) c
      have hne : (w.stackOf t).length ≠ d + 1 := fun hlen =>
        hother ⟨w, [], none⟩ ⟨congrArg some hu, hlen⟩
      omega
    | _ => exact react_retell_of_callers hlt fun _ => rfl

end World

end ObjectPool
