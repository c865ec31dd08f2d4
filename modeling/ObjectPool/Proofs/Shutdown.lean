/-
  ObjectPool.Proofs.Shutdown

  Runs that go on after a pool was closed. The pool stays closed, nobody stands in its line,
  and its books only get emptier; no object comes to be lent that was not before. A call that
  is to be dismissed does nothing in its turns, of which it has few, and ends as it must.

    * `react_fades`, `Run.fades` — what becomes of the books.
    * `World.InUse`, `Run.inUse` — what borrowers have, or calls ready for them.
    * `World.Dismissed`, `Settles` — a call will be dismissed, or was.
    * `Works.dismissed`, `Run.dismissed` — what becomes of such a call.
    * `Run.firstTurn_closed` — the first turn of any call on a closed pool.
-/

import ObjectPool.Proofs.Calls
import ObjectPool.Proofs.Stretch.Dismissal

namespace ObjectPool

variable {ρ : Type}

/-! ## The books -/

section Books

variable {es later : List (Episode ρ)} {w w₀ : World ρ} {e : Event ρ} {f : Effect ρ} {i id : Nat}
  {p p₀ : Pool ρ}

/-- The books of a closed pool only get emptier. -/
theorem World.react_fades (hr : w.react e = some f) (hp : w.pools[i]? = some p)
    (hc : p.closed = true) :
    ∃ p', f.world.pools[i]? = some p' ∧ p.registry.Fades p'.registry := by
  rcases World.react_at hr i with ⟨hspares, -⟩ | ⟨t, a, q, s, h, rfl⟩
  · rcases hspares.books with hbooks | ⟨hnone, -⟩
    · obtain ⟨p', hp', hsame⟩ := hbooks.pool hp
      refine ⟨p', hp', ?_⟩
      rw [hsame.registry]
      exact .refl hc
    · exact nomatch hnone.symm.trans hp
  · obtain rfl := Option.some.inj (h.pool.symm.trans hp)
    obtain ⟨⟨p', hp', hsame⟩, -⟩ := h.lands
    refine ⟨p', hp', ?_⟩
    rw [hsame.registry]
    exact h.reaches.pool.fades hc

/-- A pool that was closed stays closed, and its books only get emptier. -/
theorem Run.fades (h₀ : Run es w₀) (h : Run (later ++ es) w) (hp : w₀.pools[i]? = some p₀)
    (hc : p₀.closed = true) : ∃ p, w.pools[i]? = some p ∧ p₀.registry.Fades p.registry := by
  induction later generalizing w with
  | nil => exact ⟨p₀, h.unique h₀ ▸ hp, .refl hc⟩
  | cons e later ih =>
    cases h with
    | next run react =>
      obtain ⟨p, hp, hf⟩ := ih run
      obtain ⟨p', hp', hf'⟩ := World.react_fades react hp hf.closed
      exact ⟨p', hp', hf.trans hf'⟩

/-- Nobody stands in the line of a closed pool. -/
theorem Run.unqueued (h : Run es w) (hp : w.pools[i]? = some p) (hc : p.closed = true) :
    p.registry.line.queue = [] := by
  have hempty : ∀ {r r' : Registry}, r.Fades r' → r.line.queue = [] → r'.line.queue = [] :=
    fun hf hr => List.eq_nil_iff_forall_not_mem.mpr fun t ht => nomatch hr ▸ hf.queue t ht
  induction h generalizing p with
  | start => exact nomatch hp
  | next run react ih =>
    rcases World.react_at react i with ⟨hspares, -⟩ | ⟨t, a, q, s, h, rfl⟩
    · rcases hspares.books with hbooks | ⟨-, c, p', hp', hnew, -⟩
      · obtain ⟨q, hq, hsame⟩ := hbooks.before hp
        rw [hsame.registry]
        exact ih hq ((congrArg Registry.closed hsame.registry).symm.trans hc)
      · -- a pool that has just been made is open
        obtain rfl := Option.some.inj (hp'.symm.trans hp)
        exact nomatch (congrArg Registry.closed hnew.registry).symm.trans hc
    · obtain ⟨⟨p', hp', hsame⟩, -⟩ := h.lands
      obtain rfl := Option.some.inj (hp'.symm.trans hp)
      have hshut : s.pool.closed = true := (congrArg Registry.closed hsame.registry).symm.trans hc
      rw [hsame.registry]
      rcases h.reaches.pool.shuts hshut with hclosed | hnone
      · exact hempty (h.reaches.pool.fades hclosed) (ih h.pool hclosed)
      · exact hnone

/-! ## What is in use -/

/-- A borrower has an object of the pool `i`, or a call has it ready for one. -/
def World.InUse (w : World ρ) (i id : Nat) : Prop :=
  id ∈ w.readied i ∨ (id ∈ w.activeOf i ∧ claims id ((w.points i).flatMap Point.charges) = [])

/-- In a closed pool no call of a borrower picks an object. -/
theorem World.react_readied {g : Nat → List Nat} (hw : w.Sound g) (hr : w.react e = some f)
    (hp : w.pools[i]? = some p) (hc : p.closed = true) (hid : id ∈ f.world.readied i) :
    id ∈ w.readied i := by
  rcases World.react_at hr i with ⟨hspares, -⟩ | ⟨t, a, q, s, h, rfl⟩
  · exact hspares.readied.mp hid
  · obtain rfl := Option.some.inj (h.pool.symm.trans hp)
    refine (h.readied hw hid).resolve_right fun hpicks => ?_
    exact nomatch hpicks.opened.symm.trans hc

/-- An object comes into use only when it is picked for a borrower. -/
theorem Run.comesIntoUse (run : Run es w) (hr : w.react e = some f) (hid : f.world.InUse i id) :
    w.InUse i id ∨ Episode.picks i id ⟨w, e, f⟩ = true := by
  rcases hid with hready | ⟨hactive, hfree⟩
  · by_cases hold : id ∈ w.readied i
    · exact .inl (.inl hold)
    · exact .inr (Bool.and_eq_true_iff.mpr ⟨decide_eq_true hready, decide_eq_true hold⟩)
  · refine .inl ?_
    rcases World.react_at hr i with ⟨hspares, -⟩ | ⟨t, a, q, s, h, rfl⟩
    · rw [hspares.activeOf] at hactive
      exact .inr ⟨hactive, (hspares.claims_charges id).mp hfree⟩
    · rw [h.activeOf] at hactive
      rcases run.lent_cases h hactive hfree with hold | hn
      · exact .inr hold
      · exact .inl (h.readied_of_finish run.sound hn)

/-- In a closed pool no object comes into use. -/
theorem Run.react_inUse (run : Run es w) (hr : w.react e = some f) (hp : w.pools[i]? = some p)
    (hc : p.closed = true) (hid : f.world.InUse i id) : w.InUse i id := by
  refine (run.comesIntoUse hr hid).resolve_right fun hpicks => ?_
  obtain ⟨hafter, hbefore⟩ := Bool.and_eq_true_iff.mp hpicks
  exact of_decide_eq_true hbefore
    (World.react_readied run.sound hr hp hc (of_decide_eq_true hafter))

/-- What is in use was so when the pool was closed. -/
theorem Run.inUse (h₀ : Run es w₀) (h : Run (later ++ es) w) (hp : w₀.pools[i]? = some p₀)
    (hc : p₀.closed = true) (hid : w.InUse i id) : w₀.InUse i id := by
  induction later generalizing w with
  | nil => exact h.unique h₀ ▸ hid
  | cons e later ih =>
    cases h with
    | next run react =>
      obtain ⟨p, hp', hf⟩ := h₀.fades run hp hc
      exact ih run (run.react_inUse react hp' hf.closed hid)

/-- What a call has ready for a borrower was so when the pool was closed. -/
theorem Run.readied (h₀ : Run es w₀) (h : Run (later ++ es) w) (hp : w₀.pools[i]? = some p₀)
    (hc : p₀.closed = true) (hid : id ∈ w.readied i) : id ∈ w₀.readied i := by
  induction later generalizing w with
  | nil => exact h.unique h₀ ▸ hid
  | cons e later ih =>
    cases h with
    | next run react =>
      obtain ⟨p, hp', hf⟩ := h₀.fades run hp hc
      exact ih run (World.react_readied run.sound react hp' hf.closed hid)

end Books

/-! ## Dismissed calls -/

/-- The call on the thread `t` with `d` calls below it will be dismissed by the pool `i`, which is
    closed, with the reply `r`. -/
def World.Dismissed (w : World ρ) (t d i : Nat) (r : Reply) : Prop :=
  ∃ a, w.callAt t d = some a ∧ a.pool = i ∧ a.point.verdict = some r

/-- The call has ended with the reply `r` in some episodes, or it will be dismissed with it. -/
def Settles (es : List (Episode ρ)) (w : World ρ) (t d i : Nat) (r : Reply) : Prop :=
  answer? t d es = some r ∨ (answer? t d es = none ∧ w.Dismissed t d i r)

/-- How many turns a call has that has `n` stretches to go: its pool `i` may have to be closed once
    for good measure. -/
def World.turnsLeft (w : World ρ) (i n : Nat) : Nat := n + if w.isGone i then 0 else 1

/-- Nothing happens to the pool `i` in an episode, nothing is written and the factory is asked for
    nothing. -/
structure Episode.Idles (i : Nat) (e : Episode ρ) : Prop where
  request : e.request? = none
  notices : e.effect.notices = []
  pool : ∃ p p', e.before.pools[i]? = some p ∧ e.after.pools[i]? = some p' ∧ p.Rests p'

namespace World

variable {w : World ρ} {e : Event ρ} {f : Effect ρ} {t d i : Nat} {a : Activity ρ} {q p : Pool ρ}
  {s : Stretch ρ} {g : Nat → List Nat} {r : Reply} {next : Next ρ}

/-- A pool is as a stretch has left it, and perhaps its last reference is gone. -/
theorem Works.pools (h : w.Works e f t a q s) : ∃ p', f.world.pools[a.pool]? = some p' ∧
    (p' = s.pool ∨ p' = { s.pool with gone := true }) := by
  have hself := pools_onPool_self h.pool fun _ => s.pool
  rw [h.effect]
  cases hn : s.next with
  | go pt =>
    rw [apply_go hn]
    exact ⟨s.pool, hself, .inl rfl⟩
  | finish r =>
    rw [apply_finish hn]
    rcases forsake_cases (((w.onPool a.pool fun _ => s.pool).pop t).handOver a.pool r) t a.pool r
      with ⟨q', -, -, hlast⟩ | ⟨-, hmore⟩
    · rw [hlast]
      exact ⟨_, pools_onPool_self hself fun q => { q with gone := true }, .inr rfl⟩
    · rw [hmore]
      exact ⟨s.pool, hself, .inl rfl⟩

theorem Works.buried (h : w.Works e f t a q s) (hw : w.Sound g) :
    Episode.buried a.pool ⟨w, e, f⟩ = s.buried :=
  (buried_apply h.thread hw.nested h.top h.effect a.pool).trans (if_pos rfl)

theorem Works.notices (h : w.Works e f t a q s) (hn : s.notices = []) : f.notices = [] := by
  rw [h.effect]
  cases hnext : s.next with
  | go pt =>
    rw [apply_go hnext, hn]
    rfl
  | finish r =>
    rw [apply_finish hnext, hn]
    rfl

/-- A call that ends, or goes on by itself, asks the factory for nothing. -/
theorem Turned.request? (h : Turned f t d a q next) (ht : Episode.thread? ⟨w, e, f⟩ = some t)
    (hn : f.world.Nested) (hnext : ∀ pt, next = .go pt → pt.isRequest = false) :
    Episode.request? ⟨w, e, f⟩ = none := by
  have hidle : ∀ {b : Activity ρ}, f.world.callAt t d = some b → b.point.isRequest = false →
      Episode.request? ⟨w, e, f⟩ = none := by
    intro b hb hr
    have htop : Episode.thread? ⟨w, e, f⟩ >>= f.world.top? = some b := by
      rw [ht]
      exact hn.top?_of_callAt hb hr
    unfold Episode.request?
    split
    · rw [show (Episode.thread? ⟨w, e, f⟩).bind (Episode.after ⟨w, e, f⟩).top? = some b from htop,
        Option.filter_some, hr]
      rfl
    · rfl
  cases h with
  | @goesOn pt hr hc => exact hidle hc (hnext pt rfl)
  | answers hr =>
    unfold Episode.request?
    rw [show (Episode.effect ⟨w, e, f⟩).reply = some _ from hr]
    rfl
  | closes hr hc _ _ => exact hidle hc rfl

/-- A call that ends with `r`, or comes to be dismissed with it. -/
theorem Turned.settles (h : Turned f t d a q next)
    (hn : next = .finish r ∨ ∃ pt, next = .go pt ∧ pt.verdict = some r) :
    f.reply = some r ∨ (f.reply = none ∧ f.world.Dismissed t d a.pool r) := by
  cases h with
  | goesOn hr hc =>
    rcases hn with hn | ⟨pt, hn, hv⟩
    · exact nomatch hn
    · obtain rfl := Next.go.inj hn
      exact .inr ⟨hr, _, hc, rfl, hv⟩
  | answers hr =>
    rcases hn with hn | ⟨pt, hn, -⟩
    · obtain rfl := Next.finish.inj hn
      exact .inl hr
    · exact nomatch hn
  | closes hr hc _ _ =>
    rcases hn with hn | ⟨pt, hn, -⟩
    · obtain rfl := Next.finish.inj hn
      exact .inr ⟨hr, _, hc, rfl, rfl⟩
    · exact nomatch hn

/-- A stretch of a call that is to be dismissed. -/
theorem Works.dismisses (h : w.Works e f t a q s) (hc : q.closed = true)
    (hv : a.point.verdict = some r) :
    s.Dismisses q a.point r ∧ (a.point.isRequest = false → s.notices = []) := by
  rcases h.runs with ⟨-, hs⟩ | ⟨c, -, hs⟩
  · obtain ⟨hdis, hnotices⟩ := Pool.advance_dismisses hc hv hs
    exact ⟨hdis, fun _ => hnotices⟩
  · have hreq := Pool.isRequest_of_respond hs
    exact ⟨Pool.respond_dismisses hv hs, fun hr => nomatch hr.symm.trans hreq⟩

theorem turnsLeft_le (w : World ρ) (i n : Nat) : w.turnsLeft i n ≤ n + 1 := by
  unfold turnsLeft
  split <;> omega

/-- The turns that a call has left do not get more. -/
theorem react_turnsLeft (hw : w.Sound g) (hr : w.react e = some f) (i n : Nat) :
    f.world.turnsLeft i n ≤ w.turnsLeft i n := by
  unfold turnsLeft
  cases hg : w.isGone i with
  | true => exact Nat.le_of_eq (by rw [react_gone hw hr hg])
  | false =>
    have hone : (if f.world.isGone i = true then 0 else 1) ≤ 1 := by split <;> omega
    exact Nat.add_le_add_left hone n

/-- A turn in which a call comes nearer to its end takes one away. -/
theorem react_turnsLeft_lt (hw : w.Sound g) (hr : w.react e = some f) (i : Nat) {m n : Nat}
    (hm : m < n) : f.world.turnsLeft i m < w.turnsLeft i n :=
  Nat.lt_of_le_of_lt (react_turnsLeft hw hr i m) (Nat.add_lt_add_right hm _)

/-- So does one that ends but for closing the pool. -/
theorem turnsLeft_closing {w' : World ρ} {n : Nat} (hq : w.pools[i]? = some q)
    (hg : q.gone = false) (hg' : w'.isGone i = true) (hn : 0 < n) :
    w'.turnsLeft i 1 < w.turnsLeft i n := by
  have hbefore : w.isGone i = false := by
    rw [isGone, hq]
    exact hg
  rw [turnsLeft, turnsLeft, hg', hbefore]
  exact Nat.succ_lt_succ hn

/-- A call that is to be dismissed has a turn in which nothing happens; then it ends, or it is
    nearer to its end. -/
theorem Works.dismissed (h : w.Works e f t a q s) (hturn : Turned f t d a q s.next)
    (hw : w.Sound g) (hr : w.react e = some f) (hc : q.closed = true)
    (hv : a.point.verdict = some r) :
    (a.point.isRequest = false → Episode.Idles a.pool ⟨w, e, f⟩) ∧
      (f.reply = some r ∨ (f.reply = none ∧ ∃ b, f.world.callAt t d = some b ∧ b.pool = a.pool ∧
        b.point.verdict = some r ∧ b.point.isRequest = false ∧
        f.world.turnsLeft a.pool b.point.hops < w.turnsLeft a.pool a.point.hops)) := by
  obtain ⟨hdis, hnotices⟩ := h.dismisses hc hv
  refine ⟨fun hreq => ⟨?_, h.notices (hnotices hreq), ?_⟩, ?_⟩
  · refine hturn.request? h.thread (react_sound hw hr).nested fun pt hn => ?_
    rcases hdis.next with hend | ⟨pt', hgo, -, hidle, -⟩
    · exact nomatch hend.symm.trans hn
    · obtain rfl := Next.go.inj (hgo.symm.trans hn)
      exact hidle
  · obtain ⟨p', hp', hcases⟩ := h.pools
    refine ⟨q, p', h.pool, hp', ?_⟩
    have hrests : q.Rests s.pool := hdis.pool
    unfold Pool.Rests at hrests ⊢
    rcases hcases with rfl | rfl
    · exact hrests
    · rw [hrests]
  · rcases hdis.next with hend | ⟨pt, hgo, hverdict, hidle, hhops⟩
    · rw [hend] at hturn
      cases hturn with
      | answers hreply => exact .inl hreply
      | closes hreply hat hq hg =>
        exact .inr ⟨hreply, _, hat, rfl, rfl, rfl, turnsLeft_closing h.pool hq hg a.point.hops_pos⟩
    · rw [hgo] at hturn
      cases hturn with
      | goesOn hreply hat =>
        exact .inr ⟨hreply, _, hat, rfl, hverdict, hidle, react_turnsLeft_lt hw hr a.pool hhops⟩

end World

section Runs

variable {es later newer older : List (Episode ρ)} {w w₀ : World ρ} {e : Episode ρ} {t d i : Nat}
  {a : Activity ρ} {p₀ : Pool ρ} {r : Reply}

/-- Nothing happens in the turns of a call that asks the factory for nothing. -/
def IdleTurns (a : Activity ρ) (ts : List (Episode ρ)) : Prop :=
  a.point.isRequest = false → ∀ x ∈ ts, x.Idles a.pool

/-- A call `a` of the world `w₀` that is dismissed with the reply `r` has got to `b` in the world
    `w`, in the turns `ts`. -/
structure Dismissing (w₀ : World ρ) (a : Activity ρ) (r : Reply) (ts : List (Episode ρ))
    (w : World ρ) (b : Activity ρ) : Prop where
  pool : b.pool = a.pool
  verdict : b.point.verdict = some r
  request : a.point.isRequest = false → b.point.isRequest = false
  left : ts.length + w.turnsLeft a.pool b.point.hops ≤ w₀.turnsLeft a.pool a.point.hops
  idles : IdleTurns a ts

/-- It has ended with the reply `r'`. -/
structure WasDismissed (w₀ : World ρ) (a : Activity ρ) (r : Reply) (ts : List (Episode ρ))
    (r' : Reply) : Prop where
  reply : r' = r
  left : ts.length ≤ w₀.turnsLeft a.pool a.point.hops
  idles : IdleTurns a ts

/-- One turn more of a call that is to be dismissed. -/
theorem Dismissing.turn {w' : World ρ} {ev : Event ρ} {f : Effect ρ} {b : Activity ρ} {q : Pool ρ}
    {s : Stretch ρ} {g : Nat → List Nat} {ts : List (Episode ρ)}
    (h : Dismissing w₀ a r ts w' b) (hw : w'.Sound g) (hr : w'.react ev = some f)
    (hworks : w'.Works ev f t b q s) (hturn : World.Turned f t d b q s.next)
    (hc : q.closed = true) :
    (∃ r', f.reply = some r' ∧ WasDismissed w₀ a r (⟨w', ev, f⟩ :: ts) r') ∨
      (f.reply = none ∧ ∃ c, f.world.callAt t d = some c ∧
        Dismissing w₀ a r (⟨w', ev, f⟩ :: ts) f.world c) := by
  obtain ⟨hidle, hnext⟩ := hworks.dismissed hturn hw hr hc h.verdict
  rw [h.pool] at hidle hnext
  have hleft := h.left
  have hone : 0 < w'.turnsLeft a.pool b.point.hops := Nat.add_pos_left b.point.hops_pos _
  have hidles : IdleTurns a (⟨w', ev, f⟩ :: ts) := by
    intro hreq x hx
    rcases List.mem_cons.mp hx with rfl | hx
    · exact hidle (h.request hreq)
    · exact h.idles hreq x hx
  rcases hnext with hreply | ⟨hreply, c, hat, hpool, hverdict, hreq, hless⟩
  · refine .inl ⟨r, hreply, rfl, ?_, hidles⟩
    rw [List.length_cons]
    omega
  · refine .inr ⟨hreply, c, hat, hpool, hverdict, (fun _ => hreq), ?_, hidles⟩
    rw [List.length_cons]
    omega

/-- A call that is to be dismissed has few turns, in which nothing happens, and ends as it must. -/
theorem Run.dismissed (h₀ : Run es w₀) (h : Run (later ++ es) w) (hp : w₀.pools[i]? = some p₀)
    (hc : p₀.closed = true) (ha : w₀.callAt t d = some a) (hi : a.pool = i)
    (hv : a.point.verdict = some r) :
    Settles later w t d i r ∧ (turns t d later).length ≤ w₀.turnsLeft i a.point.hops ∧
      (a.point.isRequest = false → ∀ x ∈ turns t d later, x.Idles i) := by
  subst hi
  have hstart : Dismissing w₀ a r [] w₀ a :=
    ⟨rfl, hv, (fun hr => hr), Nat.le_of_eq (Nat.zero_add _), fun _ x hx => nomatch hx⟩
  refine (h₀.follow (Dismissing w₀ a r) (WasDismissed w₀ a r) h ha hstart ?_ ?_).elim ?_ ?_
  · intro later w e f b ts run react hd
    have hfewer := World.react_turnsLeft run.sound react a.pool b.point.hops
    have hleft := Nat.le_trans (Nat.add_le_add_left hfewer _) hd.left
    exact ⟨hd.pool, hd.verdict, hd.request, hleft, hd.idles⟩
  · intro later w e f b q s ts run react hworks hturn hd
    obtain ⟨q', hq, hf⟩ := h₀.fades run hp hc
    obtain rfl := Option.some.inj ((hd.pool ▸ hworks.pool).symm.trans hq)
    exact hd.turn run.sound react hworks hturn hf.closed
  · rintro ⟨r', hend, rfl, hlen, hidles⟩
    exact ⟨.inl hend, hlen, hidles⟩
  · rintro ⟨hnone, b, hb, hd⟩
    have hleft := Nat.le_trans (Nat.le_add_right ..) hd.left
    exact ⟨.inr ⟨hnone, b, hb, hd.pool, hd.verdict⟩, hleft, hd.idles⟩

theorem answer?_append (newer older : List (Episode ρ)) :
    answer? t d (newer ++ older) = (answer? t d older).or (answer? t d newer) := by
  induction newer with
  | nil => exact Option.or_none.symm
  | cons e newer ih => rw [List.cons_append, answer?, answer?, ih, Option.or_assoc]

/-- A run comes by the world in which each of its episodes ends. -/
theorem Run.upto (h : Run (newer ++ e :: es) w) : Run (e :: es) e.after := by
  induction newer generalizing w with
  | nil =>
    cases h with
    | next run react => exact run.next react
  | cons x newer ih =>
    cases h with
    | next run react => exact ih run

/-- A run that comes by a world in which a pool is closed finds it closed in every later episode. -/
theorem Run.midway (h₀ : Run es w₀) (h : Run (later ++ es) w) (hp : w₀.pools[i]? = some p₀)
    (hc : p₀.closed = true) (he : e ∈ later) :
    ∃ newer older p, later = newer ++ e :: older ∧ Run (older ++ es) e.before ∧
      e.before.react e.event = some e.effect ∧ e.before.pools[i]? = some p ∧ p.closed = true := by
  obtain ⟨newer, older, rfl⟩ := List.append_of_mem he
  rw [List.append_assoc, List.cons_append] at h
  obtain ⟨-, -, hr⟩ := h.of_mem (List.mem_append_right _ (List.mem_cons_self ..))
  obtain ⟨p, hp', hf⟩ := h₀.fades h.split hp hc
  exact ⟨newer, older, p, rfl, h.split, hr, hp', hf.closed⟩

/-- A call on a closed pool ends with `r` if its first turn does, or leads to its dismissal. -/
theorem Run.settles (h₀ : Run es w₀) (h : Run ((newer ++ e :: older) ++ es) w)
    (hp : w₀.pools[i]? = some p₀) (hc : p₀.closed = true) (hnone : answer? t d older = none)
    (hruns : e.runs t d = true)
    (hend : e.effect.reply = some r ∨ (e.effect.reply = none ∧ e.after.Dismissed t d i r)) :
    Settles (newer ++ e :: older) w t d i r := by
  rw [List.append_assoc, List.cons_append] at h
  have hanswer := (answer?_of_runs hnone hruns).1
  unfold Settles
  rw [answer?_append, hanswer]
  rcases hend with hreply | ⟨hreply, a, ha, hi, hv⟩
  · rw [hreply]
    exact .inl rfl
  · have hafter : Run ((e :: older) ++ es) e.after := h.upto
    obtain ⟨p, hp', hf⟩ := h₀.fades hafter hp hc
    rw [hreply, Option.none_or]
    exact (hafter.dismissed h hp' hf.closed ha hi hv).1

/-- A call on a closed pool has not run yet, or it had a first turn; how that ends settles how the
    call does, if the call ends in it or is to be dismissed then. -/
theorem Run.firstTurn_closed (h₀ : Run es w₀) (h : Run (later ++ es) w)
    (hp : w₀.pools[a.pool]? = some p₀) (hc : p₀.closed = true) (ha : w₀.callAt t d = some a) :
    (turns t d later = [] ∧ w.callAt t d = some a) ∨
      ∃ x q s, (turns t d later).getLast? = some x ∧
        x.before.Works x.event x.effect t a q s ∧ (∃ g, x.before.Sound g) ∧ q.closed = true ∧
        ∀ r, (s.next = .finish r ∨ ∃ pt, s.next = .go pt ∧ pt.verdict = some r) →
          Settles later w t d a.pool r := by
  rcases h₀.firstTurn h ha with ⟨hturns, -, hat⟩ |
    ⟨newer, x, older, rfl, hlast, -, hnone, hruns, hat⟩
  · exact .inl ⟨hturns, hat⟩
  · have hrun := h
    rw [List.append_assoc, List.cons_append] at hrun
    have hbefore : Run (older ++ es) x.before := hrun.split
    obtain ⟨q, hq, hf⟩ := h₀.fades hbefore hp hc
    obtain ⟨es', run', hr⟩ := hrun.of_mem (List.mem_append_right _ (List.mem_cons_self ..))
    rcases World.react_callAt hbefore.sound hr hat with ⟨hrests, -⟩ | ⟨-, q', s, hworks, hturn⟩
    · exact nomatch hrests.symm.trans hruns
    · obtain rfl := Option.some.inj (hworks.pool.symm.trans hq)
      exact .inr ⟨x, q', s, hlast, hworks, ⟨_, hbefore.sound⟩, hf.closed, fun r hend =>
        h₀.settles h hp hc hnone hruns (hturn.settles hend)⟩

end Runs

end ObjectPool
