/-
  ObjectPool.Proofs.Returns

  What becomes of an object that its borrower gives back. Whatever the factory answers and
  whatever others do in the meantime, the call that brings it back comes to its end in a few
  turns: the object is idle then, or it was destroyed. If nobody else calls the pool meanwhile,
  what the factory finds decides which of the two it is.

    * `Homeward` — a call that brings an object back, on its way.
    * `Pool.returnDeeds`, `Pool.Shelves` — what the factory does, and what the pool makes of it.
    * `Pool.HomeStage`, `Pool.ComesHome` — how far a call has come that nobody else disturbs.
    * `ComesBack` — the two ways in which a borrower begins such a call.
    * `returns_completed` — the main statement.
-/

import ObjectPool.Proofs.Stretch.Homecoming

namespace ObjectPool

variable {ρ : Type}

/-! ## A call on its way -/

/-- How many turns a call that brings an object back has had at most when it comes to a point. -/
def Point.turnsHome : Point ρ → Nat
  | .validating _ _ => 1
  | .passivating _ _ => 2
  | .destroying _ _ _ _ => 3
  | _ => 0

theorem Point.turnsHome_le (pt : Point ρ) : pt.turnsHome ≤ 3 := by
  unfold Point.turnsHome
  split <;> omega

/-- The first of some turns found the object lent. -/
def FoundLent (i id : Nat) (ts : List (Episode ρ)) : Prop :=
  ∃ e p, ts.getLast? = some e ∧ e.before.pools[i]? = some p ∧ p.isIn id .allocated = true

theorem FoundLent.cons {i id : Nat} {ts : List (Episode ρ)} (h : FoundLent i id ts)
    (e : Episode ρ) : FoundLent i id (e :: ts) := by
  obtain ⟨x, p, hlast, hp⟩ := h
  refine ⟨x, p, ?_, hp⟩
  rw [List.getLast?_cons, hlast]
  rfl

/-- A call that brings the object `id` back to the pool `i`, on its way: once it has had a turn,
    the use of the object is forgotten, and what it gives up to be destroyed is in its grave. -/
structure Homeward (i id : Nat) (answer : Option Reply) (gs : List Nat) (ts : List (Episode ρ))
    (w : World ρ) (a : Activity ρ) : Prop where
  pool : a.pool = i
  point : a.point.BringsBack id answer
  turns : ts.length ≤ a.point.turnsHome
  begun : a.point ≠ .takeBack id answer → FoundLent i id ts ∧
    ∃ p, w.pools[i]? = some p ∧ p.Forgot id
  buried : id ∈ a.point.buried → id ∈ gs

section Course

variable {later ts : List (Episode ρ)} {w w₀ : World ρ} {g : Nat → List Nat} {t d i id : Nat}
  {a : Activity ρ} {q : Pool ρ} {s : Stretch ρ} {r : Reply} {e : Episode ρ}
  {answer : Option Reply}

/-- An object is forgotten in a pool as long as its entry stays as it is. -/
theorem World.forgot_of_entries {w' : World ρ} {p : Pool ρ} (hp : w.pools[i]? = some p)
    (h : p.Forgot id) (hsame : (w'.entriesOf i)[id]? = (w.entriesOf i)[id]?)
    (hp' : ∃ p', w'.pools[i]? = some p') : ∃ p', w'.pools[i]? = some p' ∧ p'.Forgot id := by
  obtain ⟨p', hp'⟩ := hp'
  refine ⟨p', hp', fun y hy => h y ?_⟩
  rw [World.entriesOf_eq hp, World.entriesOf_eq hp'] at hsame
  exact hsame.symm.trans hy

/-- What a turn has made the pool forget is forgotten after the episode. -/
theorem Episode.IsTurn.forgot (ht : e.IsTurn t d a q s) (hf : s.pool.Forgot id) :
    ∃ p, e.after.pools[a.pool]? = some p ∧ p.Forgot id := by
  obtain ⟨p, hp, rfl | rfl⟩ := ht.pools
  · exact ⟨_, hp, hf⟩
  · exact ⟨_, hp, hf⟩

/-- Once the call has begun, the pool has forgotten the use of the object. -/
theorem Homeward.forgot {gs : List Nat} (h : Homeward i id answer gs ts e.before a)
    (ht : e.IsTurn t d a q s) (hpt : a.point ≠ .takeBack id answer) : q.Forgot id := by
  obtain ⟨-, p, hp, hf⟩ := h.begun hpt
  obtain rfl : p = q := Option.some.inj (hp.symm.trans (h.pool ▸ ht.works.pool))
  exact hf

/-- A turn after which the object is given up. -/
theorem Homeward.givesUp (h : Homeward i id answer (graves later i ++ g i) ts e.before a)
    (hw : e.before.Sound fun i => graves later i ++ g i) (ht : e.IsTurn t d a q s)
    (hgives : s.Discards q id (.reply r)) (hlen : ts.length ≤ 2)
    (hlent : FoundLent i id (e :: ts)) {pt : Point ρ} (hn : s.next = .go pt) :
    Homeward i id answer (graves (e :: later) i ++ g i) (e :: ts) e.after ⟨a.pool, pt⟩ := by
  obtain ⟨v, hnext⟩ := hgives.next
  have hgrave : id ∈ e.buried a.pool := by
    have hburied : e.buried a.pool = s.buried := ht.works.buried hw
    rw [hburied, Stretch.buried, hnext]
    exact List.mem_singleton.mpr rfl
  obtain rfl := Next.go.inj (hn.symm.trans hnext)
  refine ⟨h.pool, .given v r, Nat.succ_le_succ hlen,
    fun _ => ⟨hlent, h.pool ▸ ht.forgot hgives.forgot⟩, fun _ => ?_⟩
  exact List.mem_append_left _ (List.mem_append_left _ (h.pool ▸ hgrave))

/-- A turn after which the call goes on. -/
theorem Homeward.turn (h : Homeward i id answer (graves later i ++ g i) ts e.before a)
    (hw : e.before.Sound fun i => graves later i ++ g i) (ht : e.IsTurn t d a q s) {pt : Point ρ}
    (hn : s.next = .go pt) :
    Homeward i id answer (graves (e :: later) i ++ g i) (e :: ts) e.after ⟨a.pool, pt⟩ := by
  have hturns := h.turns
  have hfirst : q.isIn id .allocated = true → ts.length = 0 → FoundLent i id (e :: ts) := by
    intro hin hlen
    rw [List.length_eq_zero_iff.mp hlen]
    exact ⟨e, q, rfl, h.pool ▸ ht.works.pool, hin⟩
  have hforgot : s.pool.Forgot id → ∃ p, e.after.pools[i]? = some p ∧ p.Forgot id :=
    fun hf => h.pool ▸ ht.forgot hf
  -- the exits are those of `Pool.BringsBack`; the bounds on the turns are the points' own
  have hcase := ht.bringsBack hw h.point
  obtain ⟨i', pt'⟩ := a
  generalize hdeed : e.deed? = x at hcase
  cases hcase with
  | refused _ hnext => exact nomatch hn.symm.trans hnext
  | late hin _ hk =>
    exact h.givesUp hw ht hk (Nat.le_trans hturns (Nat.zero_le 2))
      (hfirst hin (Nat.le_zero.mp hturns)) hn
  | tests hin _ _ hnext _ hf =>
    obtain rfl := Next.go.inj (hn.symm.trans hnext)
    exact ⟨h.pool, .tested, Nat.succ_le_succ hturns, fun _ =>
      ⟨hfirst hin (Nat.le_zero.mp hturns), hforgot hf⟩, fun hb => nomatch hb⟩
  | lays hin _ _ hnext _ hf =>
    obtain rfl := Next.go.inj (hn.symm.trans hnext)
    exact ⟨h.pool, .laid, Nat.le_succ_of_le (Nat.succ_le_succ hturns), fun _ =>
      ⟨hfirst hin (Nat.le_zero.mp hturns), hforgot hf⟩, fun hb => nomatch hb⟩
  | fit hnext _ hf =>
    obtain rfl := Next.go.inj (hn.symm.trans hnext)
    exact ⟨h.pool, .laid, Nat.succ_le_succ hturns, fun _ =>
      ⟨(h.begun nofun).1.cons e, hforgot (hf (h.forgot ht nofun))⟩, fun hb => nomatch hb⟩
  | unfit hk =>
    exact h.givesUp hw ht hk (Nat.le_succ_of_le hturns) ((h.begun nofun).1.cons e) hn
  | stiff _ hk => exact h.givesUp hw ht hk hturns ((h.begun nofun).1.cons e) hn
  | shut _ hk => exact h.givesUp hw ht hk hturns ((h.begun nofun).1.cons e) hn
  | full _ _ hk => exact h.givesUp hw ht hk hturns ((h.begun nofun).1.cons e) hn
  | shelved _ _ hnext => exact nomatch hn.symm.trans hnext
  | gone _ _ hnext => exact nomatch hn.symm.trans hnext

/-- Others leave the object alone. -/
theorem Homeward.rests (h : Homeward i id answer (graves later i ++ g i) ts e.before a)
    (hw : e.before.Sound fun i => graves later i ++ g i)
    (hr : e.before.react e.event = some e.effect) (still : e.runs t d = false)
    (ha : e.before.callAt t d = some a) :
    Homeward i id answer (graves (e :: later) i ++ g i) ts e.after a := by
  refine ⟨h.pool, h.point, h.turns, fun hpt => ⟨(h.begun hpt).1, ?_⟩, fun hb => ?_⟩
  · obtain ⟨-, p, hp, hf⟩ := h.begun hpt
    have hpool : ∃ p', e.after.pools[i]? = some p' := by
      obtain ⟨p', hp', -⟩ := World.react_config hw hr hp
      exact ⟨p', hp'⟩
    refine World.forgot_of_entries hp hf ?_ hpool
    have hcharge : (id, .returning) ∈ a.point.charges →
        (e.after.entriesOf i)[id]? = (e.before.entriesOf i)[id]? := fun hc =>
      h.pool ▸ World.react_returning hw hr still ha hc
    have hpoint := h.point
    have hburied := h.buried
    generalize a.point = pt at hpt hcharge hpoint hburied
    -- in the factory's hands it is in the charge of the call, afterwards in its grave
    cases hpoint with
    | comes => exact absurd rfl hpt
    | tested | laid => exact hcharge (List.mem_singleton.mpr rfl)
    | given v r => exact World.react_buried hw hr (hburied (List.mem_singleton.mpr rfl))
  · have hold := h.buried hb
    rw [show graves (e :: later) i = e.buried i ++ graves later i from rfl, List.append_assoc]
    exact List.mem_append_right _ hold

theorem World.Course.homeward (h : w₀.Course t d later ts w a) (hw : w₀.Sound g)
    (ha : w₀.callAt t d = some ⟨i, .takeBack id answer⟩) :
    Homeward i id answer (graves later i ++ g i) ts w a := by
  induction h with
  | start stands =>
    obtain rfl := Option.some.inj (ha.symm.trans stands)
    exact ⟨rfl, .comes, Nat.le_refl _, fun hpt => absurd rfl hpt, fun hb => nomatch hb⟩
  | rests course react still ih => exact ih.rests (course.sound hw) react still (course.callAt hw)
  | turn course turn next ih => exact ih.turn (course.sound hw) turn next

/-! ## What has become of the object -/

/-- An object of the pool `p` that was given back and is in nobody's hands any more: it is idle, or
    it was destroyed once. -/
structure Pool.Settled (p : Pool ρ) (id : Nat) (gs : List Nat) : Prop where
  returned : id ∉ p.registry.active
  forgot : p.Forgot id
  place : (id ∈ p.registry.idle ∧ p.isIn id .idle = true ∧ id ∈ p.registry.tracked ∧ id ∉ gs) ∨
    (id ∉ p.registry.idle ∧ p.isIn id .invalid = true ∧ id ∉ p.registry.tracked ∧ gs.count id = 1)

theorem Pool.Sound.settled_of_idle {p : Pool ρ} {ℓ : Ledger ρ} (h : p.Sound ℓ)
    (hid : id ∈ p.registry.idle) (hf : p.Forgot id) : p.Settled id ℓ.graves := by
  obtain ⟨v, hv⟩ := h.idle_position hid
  have htracked : p.registry.tracked.count id = 1 := congrArg Position.tracked hv
  refine ⟨List.count_eq_zero.mp (congrArg Position.active hv), hf, .inl ⟨hid, h.isIn_idle hid, ?_,
    List.count_eq_zero.mp (congrArg Position.graves hv)⟩⟩
  exact List.count_pos_iff.mp (htracked ▸ Nat.one_pos)

theorem Pool.Sound.settled_of_grave {p : Pool ρ} {ℓ : Ledger ρ} (h : p.Sound ℓ)
    (hid : id ∈ ℓ.graves) (hf : p.Forgot id) : p.Settled id ℓ.graves := by
  obtain ⟨l, hv⟩ := h.position_of_grave hid
  refine ⟨List.count_eq_zero.mp (congrArg Position.active hv), hf, .inr ⟨
    List.count_eq_zero.mp (congrArg Position.idle hv), ?_,
    List.count_eq_zero.mp (congrArg Position.tracked hv), congrArg Position.graves hv⟩⟩
  rw [isIn_eq_shape?, show p.shape? id = _ from congrArg Position.shape hv]
  rfl

theorem Registry.mem_checkin_idle (r : Registry) (id : Nat) : id ∈ (r.checkin id).idle := by
  unfold Registry.checkin Registry.pushIdle
  cases r.order with
  | lifo => exact List.mem_cons_self ..
  | fifo => exact List.mem_append_right _ (List.mem_singleton.mpr rfl)

/-- How the last turn of a call leaves the object that it was given back: the pool had taken it back
    before the call looked, or it is settled. -/
theorem Homeward.ends (h : Homeward i id answer (graves later i ++ g i) ts e.before a)
    (hw : e.before.Sound fun i => graves later i ++ g i) (ht : e.IsTurn t d a q s)
    (hn : s.next = .finish r) : (e :: ts).length ≤ 4 ∧ ∃ p, e.after.pools[i]? = some p ∧
      ((ts = [] ∧ q.isIn id .allocated = false ∧ r = answer.getD (.failed .invalidReturn)) ∨
        (FoundLent i id (e :: ts) ∧ p.Settled id (graves (e :: later) i ++ g i))) := by
  have hturns := h.turns
  obtain ⟨p, hp, hsame⟩ := ht.pools
  rw [h.pool] at hp
  have hafter := (((World.Leads.refl.next ht.react).sound hw).pools i).sound p hp
  have hgraves : graves [e] i ++ (graves later i ++ g i) = graves (e :: later) i ++ g i := by
    rw [← List.append_assoc, ← graves_append]
    rfl
  rw [show (graves [⟨e.before, e.event, e.effect⟩] i ++ (graves later i ++ g i)) = _ from hgraves]
    at hafter
  have hforgot : s.pool.Forgot id → p.Forgot id := by
    intro hf
    rcases hsame with rfl | rfl
    · exact hf
    · exact hf
  -- a call ends with a refusal, on the shelf, or after the factory has destroyed the object
  have hcase := ht.bringsBack hw h.point
  have hburied := h.buried
  obtain ⟨i', pt'⟩ := a
  generalize hdeed : e.deed? = x at hcase
  cases hcase with
  | refused hlost hnext =>
    have hnone : ts.length = 0 := Nat.le_zero.mp hturns
    refine ⟨by rw [List.length_cons]; omega, p, hp, .inl ⟨?_, hlost, ?_⟩⟩
    · exact List.length_eq_zero_iff.mp hnone
    · exact Next.finish.inj (hn.symm.trans hnext)
  | shelved _ _ _ hreg _ hf =>
    have hidle : id ∈ p.registry.idle := by
      rcases hsame with rfl | rfl
      · exact hreg ▸ Registry.mem_checkin_idle _ id
      · exact hreg ▸ Registry.mem_checkin_idle _ id
    exact ⟨Nat.le_trans (Nat.succ_le_succ hturns) (show 3 ≤ 4 by decide), p, hp,
      .inr ⟨(h.begun nofun).1.cons e,
        hafter.settled_of_idle hidle (hforgot (hf (h.forgot ht nofun)))⟩⟩
  | gone v r' _ hpool =>
    have hgrave : id ∈ graves (e :: later) i ++ g i := by
      rw [show graves (e :: later) i = e.buried i ++ graves later i from rfl, List.append_assoc]
      exact List.mem_append_right _ (hburied (List.mem_singleton.mpr rfl))
    exact ⟨Nat.succ_le_succ hturns, p, hp, .inr ⟨(h.begun nofun).1.cons e,
      hafter.settled_of_grave hgrave (hforgot (hpool ▸ h.forgot ht nofun))⟩⟩
  | late _ _ hk | unfit hk | stiff _ hk | shut _ hk | full _ _ hk =>
    obtain ⟨v, hnext⟩ := hk.next
    exact nomatch hn.symm.trans hnext
  | tests _ _ _ hnext | lays _ _ _ hnext | fit hnext => exact nomatch hn.symm.trans hnext

/-- A call that brings an object back waits for nothing but the factory. -/
theorem Homeward.goesOn {gs : List Nat} (h : Homeward i id answer gs ts w a) (hw : w.Sound g)
    (ha : w.callAt t d = some a) (hreq : a.point.isRequest = false) :
    (w.step t).isSome = true := by
  refine hw.step_isSome ha hreq fun p _ => ?_
  have hpoint := h.point
  generalize a.point = pt at hpoint hreq
  cases hpoint with
  | comes => rfl
  | tested | laid | given => exact nomatch hreq

end Course

/-! ## A pool that nobody else calls -/

namespace Pool

variable {p₀ p : Pool ρ} {id : Nat} {answer : Option Reply} {fit : Bool} {refusal : Option String}

/-- Whether the pool keeps an object that comes back, if the factory finds it `fit` and lays it to
    rest, or has a `refusal`. -/
def Shelves (p : Pool ρ) (fit : Bool) (refusal : Option String) : Prop :=
  p.closed = false ∧ (p.config.testOnReturn = false ∨ fit = true) ∧ refusal = none ∧
    p.registry.idle.length < p.config.maxIdle

/-- What the factory has to do then, in order. -/
def returnDeeds (p : Pool ρ) (id : Nat) (fit : Bool) (refusal : Option String) : List Deed :=
  if p.closed then [.destroyed id .normal]
  else
    let tested := if p.config.testOnReturn then [Deed.checked id fit] else []
    if p.config.testOnReturn && !fit then tested ++ [.destroyed id .normal]
    else
      tested ++ .laidToRest id refusal ::
        if refusal.isNone && decide (p.registry.idle.length < p.config.maxIdle) then []
        else [.destroyed id .normal]

/-- The reply of a call that brings an object back. -/
def returnReply (p : Pool ρ) (answer : Option Reply) : Reply :=
  answer.getD (if p.closed then .failed .closed else .done)

/-- How far a call has come with an object on a pool that nobody else calls, which stood at `p₀`
    when the call began. -/
inductive HomeStage (p₀ : Pool ρ) (id : Nat) (answer : Option Reply) :
    Point ρ → Pool ρ → List Deed → Prop
  | comes {p : Pool ρ} (registry : p.registry = p₀.registry) (lent : p.stateOf id = .allocated) :
      HomeStage p₀ id answer (.takeBack id answer) p []
  | tested {p : Pool ρ} (registry : p.registry = p₀.registry) (isOpen : p₀.closed = false)
      (test : p₀.config.testOnReturn = true) :
      HomeStage p₀ id answer (.validating id (.takeBack answer)) p []
  | laid {p : Pool ρ} (registry : p.registry = p₀.registry) (isOpen : p₀.closed = false) :
      HomeStage p₀ id answer (.passivating id (.takeBack answer)) p
        (if p₀.config.testOnReturn then [.checked id true] else [])
  | given {p : Pool ρ} {ds : List Deed} (v : ρ) (fit : Bool) (refusal : Option String)
      (registry : p.registry = p₀.registry.detach id) (unfit : ¬p₀.Shelves fit refusal)
      (deeds : ds ++ [.destroyed id .normal] = p₀.returnDeeds id fit refusal) :
      HomeStage p₀ id answer (.destroying id v .normal (.reply (p₀.returnReply answer))) p ds

/-- What a call that brought the object `id` back has made of the pool `p₀`, on which nobody else
    called, with the deeds `ds` of the factory and the reply `r`. -/
structure TookBack (p₀ p : Pool ρ) (id : Nat) (answer : Option Reply) (ds : List Deed) (r : Reply)
    (fit : Bool) (refusal : Option String) : Prop where
  /-- The factory had to do no more and no less than the settings say. -/
  deeds : ds = p₀.returnDeeds id fit refusal
  /-- A call without a reply of its own answers that all went well, or that the pool is closed. -/
  reply : r = p₀.returnReply answer
  /-- The object is among the idle ones, or it is no longer tracked. -/
  kept : p₀.Shelves fit refusal → p.registry = p₀.registry.checkin id
  given : ¬p₀.Shelves fit refusal → p.registry = p₀.registry.detach id

/-- A pool whose books have not changed. -/
theorem HomeStage.of_same {pt : Point ρ} {ds : List Deed} {p' : Pool ρ}
    (h : HomeStage p₀ id answer pt p ds) (hreg : p'.registry = p.registry)
    (hstate : p'.stateOf id = p.stateOf id) : HomeStage p₀ id answer pt p' ds := by
  cases h with
  | comes hr hl => exact .comes (hreg.trans hr) (hstate.trans hl)
  | tested hr ho ht => exact .tested (hreg.trans hr) ho ht
  | laid hr ho => exact .laid (hreg.trans hr) ho
  | given v fit refusal hr hu hd => exact .given v fit refusal (hreg.trans hr) hu hd

/-- Where a turn leaves such a call, with the pool `p` and all that the factory has done: at the
    next stage, or at its end. -/
def ComesHome (p₀ : Pool ρ) (id : Nat) (answer : Option Reply) (p : Pool ρ) (ds : List Deed) :
    Next ρ → Prop
  | .go pt => HomeStage p₀ id answer pt p ds
  | .finish r => ∃ fit refusal, p₀.TookBack p id answer ds r fit refusal

theorem returnReply_eq {b : Bool} (h : p₀.closed = b) :
    p₀.returnReply answer = answer.getD (if b then .failed .closed else .done) := by
  rw [← h]
  rfl

section Turns

variable {ds : List Deed} {deed : Option Deed} {s : Stretch ρ} {r : Reply}

/-- An object that is given up goes to the factory, and the call ends after that. -/
theorem comesHome_given (fit : Bool) (refusal : Option String) (hgives : s.Discards p id (.reply r))
    (hreg : p.registry = p₀.registry) (hreply : p₀.returnReply answer = r)
    (hnot : ¬p₀.Shelves fit refusal)
    (hdeeds : ds ++ [.destroyed id .normal] = p₀.returnDeeds id fit refusal) :
    p₀.ComesHome id answer s.pool ds s.next := by
  obtain ⟨v, hnext⟩ := hgives.next
  rw [hnext, ← hreply]
  exact .given v fit refusal (hreg ▸ hgives.registry) hnot hdeeds

/-- A call has just been given an object. -/
theorem comesHome_comes (hreg : p.registry = p₀.registry) (hlent : p.stateOf id = .allocated)
    (hcfg : p.config = p₀.config) (hs : p.BringsBack id answer (.takeBack id answer) deed s) :
    p₀.ComesHome id answer s.pool deed.toList s.next := by
  have hclosed : p.closed = p₀.closed := congrArg Registry.closed hreg
  cases hs with
  | refused hlost _ =>
    rw [(stateOf_eq_iff (by decide)).mp hlent] at hlost
    exact nomatch hlost
  | late _ hc hk =>
    have hc' := hclosed.symm.trans hc
    refine comesHome_given true none hk hreg (returnReply_eq hc') (fun hn => ?_) ?_
    · exact nomatch hc'.symm.trans hn.1
    · rw [returnDeeds, if_pos hc']
      rfl
  | tests _ ho ht hnext hsame _ =>
    rw [hnext]
    exact .tested (hsame.registry.trans hreg) (hclosed ▸ ho) (hcfg ▸ ht)
  -- without a test the object goes straight to the factory to be laid to rest
  | lays _ ho ht hnext hsame _ =>
    have hlaid : HomeStage p₀ id answer _ _ _ := .laid (hsame.registry.trans hreg) (hclosed ▸ ho)
    rw [if_neg (by rw [← hcfg, ht]; exact Bool.false_ne_true)] at hlaid
    rw [hnext]
    exact hlaid

/-- The factory has checked it. -/
theorem comesHome_tested (hreg : p.registry = p₀.registry) (hopen : p₀.closed = false)
    (htest : p₀.config.testOnReturn = true)
    (hs : p.BringsBack id answer (.validating id (.takeBack answer)) deed s) :
    p₀.ComesHome id answer s.pool deed.toList s.next := by
  cases hs with
  | fit hnext hsame _ =>
    have hlaid : HomeStage p₀ id answer _ _ _ := .laid (hsame.registry.trans hreg) hopen
    rw [if_pos htest] at hlaid
    rw [hnext]
    exact hlaid
  | unfit hk =>
    refine comesHome_given false none hk hreg (returnReply_eq hopen) (fun hn => ?_) ?_
    · rcases hn.2.1 with hoff | hfit
      · exact nomatch htest.symm.trans hoff
      · exact nomatch hfit
    · simp [returnDeeds, hopen, htest]

/-- The factory has laid it to rest, or has not. -/
theorem comesHome_laid (hreg : p.registry = p₀.registry) (hopen : p₀.closed = false)
    (hcfg : p.config = p₀.config)
    (hs : p.BringsBack id answer (.passivating id (.takeBack answer)) deed s) :
    p₀.ComesHome id answer s.pool
      ((if p₀.config.testOnReturn then [.checked id true] else []) ++ deed.toList) s.next := by
  have hclosed : p.closed = p₀.closed := congrArg Registry.closed hreg
  have hidle : p.registry.idle = p₀.registry.idle := congrArg Registry.idle hreg
  cases hs with
  | stiff reason hk =>
    refine comesHome_given true (some reason) hk hreg (returnReply_eq hopen)
      (fun hn => nomatch hn.2.2.1) ?_
    simp [returnDeeds, hopen]
  -- nobody else can have closed the pool
  | shut hc _ => exact nomatch (hclosed.symm.trans hc).symm.trans hopen
  | full _ hover hk =>
    rw [hcfg, hidle] at hover
    refine comesHome_given true none hk hreg (returnReply_eq hopen) (fun hn => ?_) ?_
    · exact absurd hn.2.2.2 (Nat.not_lt_of_le hover)
    · simp [returnDeeds, hopen, Nat.not_lt_of_le hover]
  | shelved _ hbelow hnext hbooks _ _ =>
    rw [hcfg, hidle] at hbelow
    have hkeeps : p₀.Shelves true none := ⟨hopen, .inr rfl, rfl, hbelow⟩
    rw [hnext]
    refine ⟨true, none, ?_, (returnReply_eq hopen).symm, fun _ => hreg ▸ hbooks,
      fun hn => absurd hkeeps hn⟩
    simp [returnDeeds, hopen, hbelow]

/-- What a turn of such a call leads to: it goes on at the next stage, or it ends. -/
theorem HomeStage.turn {pt : Point ρ} (h : HomeStage p₀ id answer pt p ds)
    (hcfg : p.config = p₀.config) (hs : p.BringsBack id answer pt deed s) :
    p₀.ComesHome id answer s.pool (ds ++ deed.toList) s.next := by
  cases h with
  | comes hreg hlent => exact comesHome_comes hreg hlent hcfg hs
  | tested hreg hopen htest => exact comesHome_tested hreg hopen htest hs
  | laid hreg hopen => exact comesHome_laid hreg hopen hcfg hs
  | given v fit refusal hreg hnot hdeeds =>
    cases hs with
    | gone _ _ hnext hsame =>
      rw [hnext]
      exact ⟨fit, refusal, hdeeds, rfl, fun hs => absurd hs hnot, fun _ => hsame ▸ hreg⟩

end Turns

/-- What follows for the books, once an object that was lent is back: it is idle if the pool keeps
    it, no other object is listed otherwise than before, and the first in line was woken. -/
structure Restored (p₀ p : Pool ρ) (id : Nat) (fit : Bool) (refusal : Option String) : Prop where
  idle : id ∈ p.registry.idle ↔ p₀.Shelves fit refusal
  tracked : ∀ x, x ≠ id → (x ∈ p.registry.tracked ↔ x ∈ p₀.registry.tracked)
  active : ∀ x, x ≠ id → (x ∈ p.registry.active ↔ x ∈ p₀.registry.active)
  queue : p.registry.idle.filter (· ≠ id) = p₀.registry.idle
  creating : p.registry.creating = p₀.registry.creating
  woken : p.registry.line.queue = p₀.registry.line.queue.tail ∧
    p.registry.line.woken = p₀.registry.line.queue.head?.toList ++ p₀.registry.line.woken

theorem TookBack.restored {ds : List Deed} {r : Reply}
    (h : p₀.TookBack p id answer ds r fit refusal) (htracked : id ∈ p₀.registry.tracked)
    (hidle : id ∉ p₀.registry.idle) (hactive : id ∈ p₀.registry.active) :
    p₀.Restored p id fit refusal := by
  have hqueue : p₀.registry.idle.filter (· ≠ id) = p₀.registry.idle := by
    rw [List.filter_eq_self]
    intro x hx
    exact decide_eq_true fun he => hidle (he ▸ hx)
  -- each of the two ways wakes one borrower, and touches no other object
  by_cases hkeeps : p₀.Shelves fit refusal
  · have hbooks := h.kept hkeeps
    have hline : p.registry.line = p₀.registry.line.wakeNext := by rw [hbooks]; rfl
    have hmem : id ∈ p.registry.idle := hbooks ▸ Registry.mem_checkin_idle _ id
    refine ⟨iff_of_true hmem hkeeps, fun x _ => ?_, fun x hx => ?_, ?_, ?_, ?_⟩
    · rw [hbooks]
      exact Iff.rfl
    · rw [hbooks]
      exact Registry.mem_without.trans (and_iff_left hx)
    · rw [hbooks]
      unfold Registry.checkin Registry.pushIdle
      -- the object joins the idle ones at one end or the other
      cases p₀.registry.order with
      | lifo => exact (List.filter_cons_of_neg (by simp)).trans hqueue
      | fifo =>
        refine (List.filter_append ..).trans ?_
        rw [hqueue, List.filter_cons_of_neg (by simp), List.filter_nil, List.append_nil]
    · rw [hbooks]
      rfl
    · rw [hline, WaitLine.wakeNext_queue, WaitLine.wakeNext_woken]
      exact ⟨rfl, rfl⟩
  · have hbooks : p.registry = _ := (h.given hkeeps).trans (if_pos htracked)
    have hline : p.registry.line = p₀.registry.line.wakeNext := by rw [hbooks]; rfl
    have hsame : p.registry.idle = p₀.registry.idle := by
      rw [hbooks]
      exact if_pos hactive
    refine ⟨iff_of_false (hsame ▸ hidle) hkeeps, fun x hx => ?_, fun x hx => ?_, ?_, ?_, ?_⟩
    · rw [hbooks]
      exact Registry.mem_without.trans (and_iff_left hx)
    · rw [hbooks]
      exact Registry.mem_without.trans (and_iff_left hx)
    · rw [hsame]
      exact hqueue
    · rw [hbooks]
      rfl
    · rw [hline, WaitLine.wakeNext_queue, WaitLine.wakeNext_woken]
      exact ⟨rfl, rfl⟩

end Pool

/-- An object that a call brings back is on the books of its pool if it is still lent. -/
theorem World.SoundAt.listed_of_returns {w : World ρ} {i id : Nat} {gs : List Nat} {p : Pool ρ}
    {pt : Point ρ} (h : w.SoundAt i gs) (hp : w.pools[i]? = some p) (hpt : pt ∈ w.points i)
    (hid : id ∈ pt.returns) (hlent : p.isIn id .allocated = true) :
    id ∈ p.registry.tracked ∧ id ∉ p.registry.idle ∧ id ∈ p.registry.active := by
  have hloan : (id, ⟨false, p.slot? id⟩) ∈ (Ledger.of p (w.points i) (w.lent i) gs).loans :=
    List.mem_append_left _ (List.mem_map.mpr ⟨id, List.mem_flatMap.mpr ⟨pt, hpt, hid⟩, rfl⟩)
  have hlive : (p.stateOf id).isReclaimed = false := by
    rw [(Pool.stateOf_eq_iff (by decide)).mpr hlent]
    rfl
  obtain ⟨v, -, hv⟩ := (h.sound p hp).lent_of_loan hloan hlive
  have htracked : p.registry.tracked.count id = 1 := congrArg Position.tracked hv
  have hactive : p.registry.active.count id = 1 := congrArg Position.active hv
  exact ⟨List.count_pos_iff.mp (htracked ▸ Nat.one_pos),
    List.count_eq_zero.mp (congrArg Position.idle hv),
    List.count_pos_iff.mp (hactive ▸ Nat.one_pos)⟩

section Alone

variable {later ts : List (Episode ρ)} {w w₀ : World ρ} {g : Nat → List Nat} {t d i id : Nat}
  {a : Activity ρ} {q p₀ : Pool ρ} {s : Stretch ρ} {r : Reply} {e : Episode ρ}
  {answer : Option Reply}

/-- A call that brings the object `id` back to a pool that nobody else calls, on its way. -/
def HomeAlone (p₀ : Pool ρ) (i id : Nat) (answer : Option Reply) (ts : List (Episode ρ))
    (w : World ρ) (a : Activity ρ) : Prop :=
  ∃ p, w.pools[i]? = some p ∧ p.config = p₀.config ∧ p₀.HomeStage id answer a.point p (deeds ts) ∧
    ∀ x, x ≠ id → p.stateOf x = p₀.stateOf x

theorem Pool.BringsBack.others {p : Pool ρ} {pt : Point ρ} {deed : Option Deed}
    (h : p.BringsBack id answer pt deed s) (hin : p.isIn id .allocated = true ∨
      pt ≠ .takeBack id answer) {x : Nat} (hx : x ≠ id) : s.pool.object? x = p.object? x := by
  cases h with
  | refused hlost =>
    rcases hin with hin | hpt
    · exact nomatch hlost.symm.trans hin
    · exact absurd rfl hpt
  | late _ _ hk | unfit hk | stiff _ hk | shut _ hk | full _ _ hk => exact hk.others x hx
  | tests _ _ _ _ hsame | lays _ _ _ _ hsame | fit _ hsame => exact hsame.others x hx
  | shelved _ _ _ _ hothers => exact hothers x hx
  | gone _ _ _ hsame => rw [hsame]

/-- What a turn of such a call leaves of the other objects. -/
theorem HomeAlone.states (h : HomeAlone p₀ i id answer ts e.before a) (hi : a.pool = i)
    (hpt : a.point.BringsBack id answer) (hw : e.before.Sound g) (ht : e.IsTurn t d a q s) :
    ∀ x, x ≠ id → s.pool.stateOf x = p₀.stateOf x := by
  obtain ⟨p, hp, -, hstage, hstates⟩ := h
  obtain rfl : p = q := Option.some.inj (hp.symm.trans (hi ▸ ht.works.pool))
  intro x hx
  have hcase := ht.bringsBack hw hpt
  have hin : p.isIn id .allocated = true ∨ a.point ≠ .takeBack id answer := by
    generalize a.point = pt, deeds ts = ds at hstage
    cases hstage with
    | comes _ hlent => exact .inl ((Pool.stateOf_eq_iff (by decide)).mp hlent)
    | tested | laid | given => exact .inr nofun
  unfold Pool.stateOf
  rw [hcase.others hin hx]
  exact hstates x hx

theorem World.Course.homeAlone (h : w₀.Course t d later ts w a) (hw : w₀.Sound g)
    (ha : w₀.callAt t d = some ⟨i, .takeBack id answer⟩) (hp₀ : w₀.pools[i]? = some p₀)
    (hlent : p₀.isIn id .allocated = true) (hu : LeftAlone t d i later) :
    HomeAlone p₀ i id answer ts w a := by
  induction h with
  | start stands =>
    obtain rfl := Option.some.inj (ha.symm.trans stands)
    exact ⟨p₀, hp₀, rfl, .comes rfl ((Pool.stateOf_eq_iff (by decide)).mpr hlent), fun _ _ => rfl⟩
  | rests course react still ih =>
    obtain ⟨p, hp, hcfg, hstage, hstates⟩ := ih hu.tail
    obtain ⟨p', hp', hbooks, hsame⟩ := hu.states react still hp
    exact ⟨p', hp', hbooks.config.trans hcfg, hstage.of_same hbooks.registry (hsame id),
      fun x hx => (hsame x).trans (hstates x hx)⟩
  | @turn later ts e a q s pt course turn next ih =>
    have hbefore := ih hu.tail
    have hhome := course.homeward hw ha
    have hstates := hbefore.states hhome.pool hhome.point (course.sound hw) turn
    obtain ⟨p, hp, hcfg, hstage, -⟩ := hbefore
    obtain rfl : p = q := Option.some.inj (hp.symm.trans (hhome.pool ▸ turn.works.pool))
    have hnext := hstage.turn hcfg (turn.bringsBack (course.sound hw) hhome.point)
    rw [next] at hnext
    obtain ⟨p', hp', hsame⟩ := turn.pools
    have hconfig := turn.works.config (course.sound hw)
    unfold HomeAlone
    rw [deeds_cons]
    -- the last reference to the pool may be gone, which changes no books
    rcases hsame with rfl | rfl
    · exact ⟨_, hhome.pool ▸ hp', hconfig.trans hcfg, hnext, hstates⟩
    · exact ⟨{ s.pool with gone := true }, hhome.pool ▸ hp', hconfig.trans hcfg,
        hnext.of_same rfl rfl, hstates⟩

/-- Its last turn. -/
theorem HomeAlone.ends (h : HomeAlone p₀ i id answer ts e.before a) (hi : a.pool = i)
    (hpt : a.point.BringsBack id answer) (hw : e.before.Sound g) (ht : e.IsTurn t d a q s)
    (hn : s.next = .finish r) : ∃ p fit refusal, e.after.pools[i]? = some p ∧
      p₀.TookBack p id answer (deeds (e :: ts)) r fit refusal ∧
      ∀ x, x ≠ id → p.stateOf x = p₀.stateOf x := by
  have hstates := h.states hi hpt hw ht
  obtain ⟨p, hp, hcfg, hstage, -⟩ := h
  obtain rfl : p = q := Option.some.inj (hp.symm.trans (hi ▸ ht.works.pool))
  have hnext := hstage.turn hcfg (ht.bringsBack hw hpt)
  rw [hn] at hnext
  obtain ⟨fit, refusal, htook⟩ := hnext
  obtain ⟨p', hp', hsame⟩ := ht.pools
  rw [deeds_cons]
  rcases hsame with rfl | rfl
  · exact ⟨_, fit, refusal, hi ▸ hp', htook, hstates⟩
  · refine ⟨{ s.pool with gone := true }, fit, refusal, hi ▸ hp', ?_, hstates⟩
    exact ⟨htook.deeds, htook.reply, htook.kept, htook.given⟩

end Alone

/-! ## How such a call begins -/

section Begins

variable {w : World ρ} {t p n : Nat} {x : Handle} {ev : Event ρ} {f : Effect ρ}
  {answer : Option Reply}

theorem World.callAt_push (hth : ∃ th, w.threads[t]? = some th) (b : Activity ρ) :
    (w.push t b).callAt t (w.stackOf t).length = some b := by
  rw [callAt, stackOf_push hth, if_pos rfl, getElem?_reverse_cons, if_pos rfl]

theorem World.giveBack_of_react (hx : w.loose? n = some x)
    (hr : w.react (.giveBack t p n) = some f) :
    w.isFree t = true ∧ w.owned p = true ∧ f = w.giveBack t p n x := by
  rw [react] at hr
  split at hr
  · rename_i hfree
    rw [hx] at hr
    exact ⟨hfree.2, hfree.1, (Option.some.inj hr).symm⟩
  · cases hr

theorem World.letGo_of_react (hx : w.loose? n = some x) (hr : w.react (.letGo t n) = some f) :
    w.isFree t = true ∧ f = w.letGo t n x := by
  rw [react] at hr
  split at hr
  · rename_i hfree
    rw [hx] at hr
    exact ⟨hfree, (Option.some.inj hr).symm⟩
  · cases hr

/-- How a borrower has the handle `n` of the object `x` come back to its own pool, and the answer
    that this call gives whatever it finds: none is fixed unless he lets the handle go. -/
inductive ComesBack (t n : Nat) (x : Handle) : Event ρ → Option Reply → Prop
  | giveBack : ComesBack t n x (.giveBack t x.pool n) none
  | letGo : ComesBack t n x (.letGo t n) (some .done)

theorem ComesBack.react (hev : ComesBack t n x ev answer) (hx : w.loose? n = some x)
    (hr : w.react ev = some f) : w.isFree t = true ∧
      f.world = (w.surrender n).push t ⟨x.pool, .takeBack x.object answer⟩ := by
  cases hev with
  | giveBack =>
    obtain ⟨hfree, -, rfl⟩ := World.giveBack_of_react hx hr
    refine ⟨hfree, ?_⟩
    unfold World.giveBack
    dsimp only
    rw [if_pos rfl]
  | letGo =>
    obtain ⟨hfree, rfl⟩ := World.letGo_of_react hx hr
    exact ⟨hfree, rfl⟩

/-- The call stands where it brings the object back. -/
theorem ComesBack.callAt (hev : ComesBack t n x ev answer) (hx : w.loose? n = some x)
    (hr : w.react ev = some f) :
    f.world.callAt t (w.stackOf t).length = some ⟨x.pool, .takeBack x.object answer⟩ := by
  obtain ⟨hfree, hworld⟩ := hev.react hx hr
  rw [hworld]
  exact World.callAt_push (w := w.surrender n) (World.thread_of_isFree hfree) _

end Begins

/-! ## Main statement -/

section Runs

variable {es later : List (Episode ρ)} {w w₀ : World ρ} {t d i id : Nat} {answer : Option Reply}

/-- The call on the thread `t` with `d` calls below it, which began to bring the object `id` back to
    the pool `i` in the world `w₀`, has its last turn in the episode `e`, with the reply `r`. -/
structure EndsReturn (es older : List (Episode ρ)) (w₀ : World ρ) (t d i id : Nat)
    (answer : Option Reply) (e : Episode ρ) (r : Reply) : Prop where
  finishes : e.Finishes t d i r
  first : answer? t d older = none
  bound : (turns t d (e :: older)).length ≤ 4
  /-- Whatever happened in between: the pool had taken the object back before the call looked at it
      for the first time, or the object is nobody's any more, its use is forgotten, and it is idle
      or was destroyed once. -/
  settled : ∃ p, e.after.pools[i]? = some p ∧
    ((∃ q, turns t d (e :: older) = [e] ∧ e.before.pools[i]? = some q ∧
        q.isIn id .allocated = false ∧ r = answer.getD (.failed .invalidReturn)) ∨
      (FoundLent i id (turns t d (e :: older)) ∧ p.Settled id (graves (e :: older ++ es) i)))
  /-- If nobody else called the pool in between, what the factory found decides. -/
  alone : ∀ p₀, w₀.pools[i]? = some p₀ → p₀.isIn id .allocated = true →
    LeftAlone t d i (e :: older) → ∃ p fit refusal, e.after.pools[i]? = some p ∧
      p₀.TookBack p id answer (deeds (turns t d (e :: older))) r fit refusal ∧
      p₀.Restored p id fit refusal ∧ ∀ x, x ≠ id → p.stateOf x = p₀.stateOf x

/-- In every run a call that brings an object back comes to its end in four turns at most, and until
    then waits for nothing but the factory. The object is idle then, or destroyed. It makes no
    difference whether the borrower gives the object back or lets it go (`ComesBack.callAt`). -/
theorem returns_completed (h₀ : Run es w₀) (h : Run (later ++ es) w)
    (ha : w₀.callAt t d = some ⟨i, .takeBack id answer⟩) :
    (∃ pt, w.callAt t d = some ⟨i, pt⟩ ∧ pt.BringsBack id answer ∧ answer? t d later = none ∧
        (turns t d later).length ≤ 3 ∧ (pt.isRequest = false → (w.step t).isSome = true)) ∨
      ∃ newer e older r, later = newer ++ e :: older ∧
        EndsReturn es older w₀ t d i id answer e r := by
  have hw := h₀.sound
  rcases (h₀.leads h).course hw ha with
    ⟨ts, a, hcourse⟩ | ⟨newer, e, older, ts, a, q, s, r, rfl, hcourse, hturn, hnext⟩
  · have hhome := hcourse.homeward hw ha
    obtain ⟨hts, hnone⟩ := hcourse.turns_eq
    have hat := hcourse.callAt hw
    refine .inl ⟨a.point, ?_, hhome.point, hnone, ?_, hhome.goesOn (hcourse.sound hw) hat⟩
    · rw [hat, ← hhome.pool]
    · rw [hts]
      exact Nat.le_trans hhome.turns a.point.turnsHome_le
  · have hhome := hcourse.homeward hw ha
    have hbefore := hcourse.sound hw
    have hnone := hcourse.turns_eq.2
    have hall := hcourse.turns_cons hturn.runs
    obtain ⟨hbound, p, hp, hplace⟩ := hhome.ends hbefore hturn hnext
    refine .inr ⟨newer, e, older, r, rfl, ⟨hhome.pool ▸ hturn.finishes hnext, hnone, ?_, ?_, ?_⟩⟩
    · rw [hall]
      exact hbound
    · refine ⟨p, hp, ?_⟩
      rw [hall]
      rcases hplace with ⟨rfl, hlost, hr⟩ | ⟨hlent, hsettled⟩
      · exact .inl ⟨q, rfl, hhome.pool ▸ hturn.works.pool, hlost, hr⟩
      · rw [graves_append]
        exact .inr ⟨hlent, hsettled⟩
    · intro p₀ hp₀ hlent hu
      have halone := hcourse.homeAlone hw ha hp₀ hlent hu.tail
      obtain ⟨p, fit, refusal, hp, htook, hstates⟩ :=
        halone.ends hhome.pool hhome.point hbefore hturn hnext
      rw [hall]
      refine ⟨p, fit, refusal, hp, htook, ?_, hstates⟩
      have hmem : Point.takeBack id answer ∈ w₀.points i := World.mem_points_of_callAt ha
      obtain ⟨htracked, hidle, hactive⟩ :=
        (hw.pools i).listed_of_returns hp₀ hmem (List.mem_singleton.mpr rfl) hlent
      exact htook.restored htracked hidle hactive

end Runs

/-- The only object of a pool is lent, and a second borrower waits for it. -/
def awaitedEvents : List (Event Nat) :=
  [.create { maxTotal := 1, testOnReturn := true }, .spawn, .spawn,
    .begin 0 0 (.borrow none "first"), .step 0, .step 0, .answer 0 (.created (.ok 7)),
    .answer 0 (.activated 7 none), .begin 1 0 (.borrow none "second"), .step 1, .step 1]

/-- It comes back. -/
def comingEvents : List (Event Nat) := awaitedEvents ++ [.giveBack 0 0 0]

/-- It is checked and laid to rest. -/
def homeEvents : List (Event Nat) :=
  comingEvents ++ [.step 0, .answer 0 (.validated true), .answer 0 (.passivated 7 none)]

/-- Its borrower lets it go instead. -/
def droppedEvents : List (Event Nat) := awaitedEvents ++ [.letGo 0 0]

/-- It does not pass the check. -/
def brokenEvents : List (Event Nat) :=
  droppedEvents ++ [.step 0, .answer 0 (.validated false), .answer 0 (.destroyed none)]

theorem returns_completed_for_waiter :
    (Run (episodes comingEvents) (reached comingEvents) ∧
      Run ((episodes homeEvents).take 3 ++ episodes comingEvents) (reached homeEvents) ∧
      (reached comingEvents).callAt 0 0 = some ⟨0, .takeBack 0 none⟩ ∧
      answer? 0 0 ((episodes homeEvents).take 3) = some .done ∧
      ((∃ pt, (reached homeEvents).callAt 0 0 = some ⟨0, pt⟩ ∧ pt.BringsBack 0 none ∧
          answer? 0 0 ((episodes homeEvents).take 3) = none ∧
          (turns 0 0 ((episodes homeEvents).take 3)).length ≤ 3 ∧
          (pt.isRequest = false → ((reached homeEvents).step 0).isSome = true)) ∨
        ∃ newer e older r, (episodes homeEvents).take 3 = newer ++ e :: older ∧
          EndsReturn (episodes comingEvents) older (reached comingEvents) 0 0 0 0 none e r)) ∧
    ∃ f, (reached awaitedEvents).react (.letGo 0 0) = some f ∧ f.world = reached droppedEvents ∧
      (reached droppedEvents).callAt 0 0 = some ⟨0, .takeBack 0 (some .done)⟩ ∧
      graves (episodes brokenEvents) 0 = [0] ∧
      ∃ newer e older r, (episodes brokenEvents).take 3 = newer ++ e :: older ∧
        EndsReturn (episodes droppedEvents) older (reached droppedEvents) 0 0 0 0 (some .done) e
          r :=
  have h₀ : Run (episodes comingEvents) (reached comingEvents) := Run.of_events rfl
  have hall : Run (episodes homeEvents) (reached homeEvents) := Run.of_events rfl
  have h : Run ((episodes homeEvents).take 3 ++ episodes comingEvents) (reached homeEvents) := hall
  have h₁ : Run (episodes droppedEvents) (reached droppedEvents) := Run.of_events rfl
  have hall₁ : Run (episodes brokenEvents) (reached brokenEvents) := Run.of_events rfl
  have h₂ : Run ((episodes brokenEvents).take 3 ++ episodes droppedEvents)
      (reached brokenEvents) := hall₁
  have hx : (reached awaitedEvents).loose? 0 = some { pool := 0, object := 0 } := rfl
  have hcall : (reached droppedEvents).callAt 0 0 = some ⟨0, .takeBack 0 (some .done)⟩ :=
    ComesBack.letGo.callAt hx rfl
  have hdone : answer? 0 0 ((episodes brokenEvents).take 3) ≠ none := by decide +kernel
  ⟨⟨h₀, h, rfl, by decide +kernel, returns_completed h₀ h rfl⟩, _, rfl, rfl, hcall,
    by decide +kernel,
    (returns_completed h₁ h₂ hcall).resolve_left fun ⟨_, _, _, hgoing, _⟩ => hdone hgoing⟩

end ObjectPool
