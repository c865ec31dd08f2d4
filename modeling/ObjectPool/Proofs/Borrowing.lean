/-
  ObjectPool.Proofs.Borrowing

  What becomes of a borrow on a pool that nobody else calls. It takes overdue objects from others
  first. Then it goes through the idle objects in the order in which they are handed out until one
  is fit; the ones before it are destroyed. If none is fit, one new object is made as long as there
  is room, and only if there is neither an object nor room the borrower waits or gives up.

    * `Swept` — what a borrow has taken from others.
    * `Pursues` — a borrow on its way, turn by turn.
    * `CameOut` — a borrow has come out: it has ended, or the borrower is in line.
    * `Leads.pursues` — a borrow is on its way, or it has come out.
    * `borrow_completed` — the main statement.
-/

import ObjectPool.Proofs.Precedence
import ObjectPool.Proofs.Stretch.Hauls

namespace ObjectPool

variable {ρ : Type}

/-! ## The line -/

/-- If a call does not wait after a stretch, nobody has entered the line. -/
theorem Stretch.Turn.thins {p : Pool ρ} {pt : Point ρ} {granted : Bool} {s : Stretch ρ}
    (h : s.Turn p pt granted) (ht : s.next.tickets = []) :
    p.registry.line.Thins s.pool.registry.line := by
  cases h with
  | thin hs => exact hs.line
  | enter _ _ hn | wait _ _ hn =>
    rw [hn] at ht
    exact nomatch ht
  | join _ _ _ _ hr _ hs =>
    rw [hs]
    exact hr.line.wakeNext
  | restore _ _ hs =>
    rw [hs]
    exact .wakeNext .refl

/-! ## A borrow on its way -/

/-- What a borrow took from others in the first of its turns `ts`, which stand the latest first. -/
def Swept (i : Nat) (ts : List (Episode ρ)) (S : List Nat) : Prop :=
  ∃ e q, ts.getLast? = some e ∧ e.before.pools[i]? = some q ∧ S = q.overdue e.before.now

theorem Swept.cons {i : Nat} {ts : List (Episode ρ)} {S : List Nat} (h : Swept i ts S)
    (e : Episode ρ) : Swept i (e :: ts) S := by
  obtain ⟨x, q, hlast, hq⟩ := h
  refine ⟨x, q, ?_, hq⟩
  rw [List.getLast?_cons, hlast]
  rfl

/-- A borrower looks for an object in an episode. -/
def Episode.isRound (e : Episode ρ) : Bool := e.call?.any fun a => a.point.isSeek

/-- A borrow from a pool that stood at `p₀`, on its way: it has taken the objects `S` from others
    and given up the idle objects `R`. -/
structure Pursues (p₀ : Pool ρ) (i : Nat) (S : List Nat) (R : List (Nat × Refusal))
    (ts : List (Episode ρ)) (w : World ρ) (a : Activity ρ) : Prop where
  pool : a.pool = i
  stage : ∃ p hl pre ds, w.pools[i]? = some p ∧ hl.From p₀ p ∧ p₀.Stage S R a.point hl ds ∧
    deeds ts = pre ++ ds ∧ (∀ x ∈ pre, x.isSweep = true) ∧
    (p₀.registry.line.queue = [] → p.registry.line.queue = [])
  swept : (a.point.isOpening = true ∧ ts = []) ∨ (a.point.isOpening = false ∧ Swept i ts S)
  rounds : ts.countP Episode.isRound = R.length + a.point.looked
  turns : ts.length + a.point.ahead ≤ 3 * S.length + 4 * R.length + a.point.spent

/-- After an episode the call on the thread `t` with `d` calls below it, which ran in it, is at the
    end or goes on, as `next` says. -/
def Episode.Comes (t d i : Nat) (e : Episode ρ) : Next ρ → Prop
  | .finish r => e.Finishes t d i r
  | .go pt => e.runs t d = true ∧ e.effect.reply = none ∧ e.after.callAt t d = some ⟨i, pt⟩

/-- A borrow with the turns `ts` comes out in the episode `e`: it has ended, or the borrower
    waits. -/
structure CameOut (p₀ : Pool ρ) (t d i : Nat) (S : List Nat) (R : List (Nat × Refusal))
    (ts : List (Episode ρ)) (e : Episode ρ) (next : Next ρ) : Prop where
  comes : e.Comes t d i next
  /-- What it has of the pool, and what the factory has done for it. -/
  outcome : ∃ p hl pre ds, e.after.pools[i]? = some p ∧ hl.From p₀ p ∧ p₀.Outcome S R next hl ds ∧
    deeds (e :: ts) = pre ++ ds ∧ ∀ x ∈ pre, x.isSweep = true
  swept : Swept i (e :: ts) S
  rounds : (e :: ts).countP Episode.isRound = R.length + 1
  turns : (e :: ts).length ≤ 3 * S.length + 4 * R.length + 7

section Course

variable {later ts : List (Episode ρ)} {w w₀ : World ρ} {g : Nat → List Nat} {t d i : Nat}
  {a : Activity ρ} {p₀ q : Pool ρ} {s : Stretch ρ} {e : Episode ρ} {b : Borrowing} {S : List Nat}
  {R : List (Nat × Refusal)} {ℓ₀ : Ledger ρ}

theorem Episode.IsTurn.comes (h : e.IsTurn t d a q s) : e.Comes t d a.pool s.next := by
  cases hn : s.next with
  | go pt => exact ⟨h.runs, h.goesOn hn⟩
  | finish r => exact h.finishes hn

theorem Episode.Comes.runs {next : Next ρ} (h : e.Comes t d i next) : e.runs t d = true := by
  cases next with
  | go pt => exact h.1
  | finish r => exact h.1

/-- A turn leaves the pool as its stretch does. -/
theorem Episode.IsTurn.leaves (h : e.IsTurn t d a q s) : ∃ p', e.after.pools[a.pool]? = some p' ∧
    s.pool.Goes p' ∧ p'.registry = s.pool.registry := by
  obtain ⟨⟨p', hp', hbooks⟩, -⟩ := h.works.lands
  exact ⟨p', hp', ⟨hbooks.config, hbooks.entries.ge⟩, hbooks.registry⟩

/-- A turn keeps the settings of the pool, and the objects that it has had. -/
theorem Episode.IsTurn.goes (h : e.IsTurn t d a q s) (hw : e.before.Sound g) : q.Goes s.pool :=
  ⟨h.works.config hw, h.works.reaches.pool.grows⟩

theorem Point.spent_le (pt : Point ρ) : pt.spent ≤ 6 := by
  unfold Point.spent
  split <;> omega

theorem Point.looked_le (pt : Point ρ) : pt.looked ≤ 1 := by
  unfold Point.looked
  split <;> omega

namespace Pool.Stage

variable {pt : Point ρ} {hl : Haul} {ds : List Deed}

/-- What was refused so far are idle objects that were given up, and perhaps one that is being. -/
theorem refused (h : p₀.Stage S R pt hl ds) : R.map (·.1) <+: hl.refused := by
  cases h with
  | drops => exact List.prefix_append ..
  | _ => exact List.prefix_rfl

/-- A borrow is not in line before it comes out. -/
theorem quests (h : p₀.Stage S R pt hl ds) : pt.Quests ∧ pt.tickets = [] := by
  cases h with
  | begins b => exact ⟨.begins b, rfl⟩
  | sweeps b sweeping => exact ⟨.sweeps b sweeping, by cases sweeping <;> rfl⟩
  | seeks b => exact ⟨.seeks b, rfl⟩
  | tries b => exact ⟨.tries _ b false, rfl⟩
  | checks b => exact ⟨.checks _ b false, rfl⟩
  | drops b v => exact ⟨.drops _ v b, rfl⟩
  | makes b => exact ⟨.makes b, rfl⟩
  | readies b => exact ⟨.tries _ b true, rfl⟩
  | tests b => exact ⟨.checks _ b true, rfl⟩
  | fails v => exact ⟨.fails _ v _, rfl⟩

end Pool.Stage

/-- What has been given up so far was idle when the borrow began, and came first. -/
theorem Haul.From.refused_prefix {hl : Haul} {p : Pool ρ} (h : hl.From p₀ p)
    (hR : R.map (·.1) <+: hl.refused) : R.map (·.1) <+: p₀.registry.idle := by
  rw [h.idle]
  exact hR.trans (List.prefix_append ..)

theorem Haul.From.refused_le {hl : Haul} {p : Pool ρ} (h : hl.From p₀ p)
    (hR : R.map (·.1) <+: hl.refused) : R.length ≤ p₀.registry.idle.length :=
  (List.length_map _).symm.trans_le (h.refused_prefix hR).length_le

/-- While others rest, nothing happens to the pool. -/
theorem Pursues.rests (h : Pursues p₀ i S R ts e.before a) (hu : LeftAlone t d i (e :: later))
    (hr : e.before.react e.event = some e.effect) (still : e.runs t d = false) :
    Pursues p₀ i S R ts e.after a := by
  obtain ⟨p, hl, pre, ds, hp, hfrom, hstage, hdeeds, hpre, hqueue⟩ := h.stage
  obtain ⟨p', hp', hbooks⟩ := (hu.rests hr still).pool hp
  refine ⟨h.pool, ⟨p', hl, pre, ds, hp', ?_, hstage, hdeeds, hpre, ?_⟩, h.swept, h.rounds, h.turns⟩
  · exact hfrom.same ⟨hbooks.config, hbooks.entries.ge⟩ (.of_eq hbooks.registry)
  · rw [hbooks.registry]
    exact hqueue

/-- A turn of a call that does not wait afterwards leaves an empty line empty. -/
theorem Episode.IsTurn.queue_eq_nil (ht : e.IsTurn t d a q s) (hn : s.next.tickets = [])
    (hq : q.registry.line.queue = []) : s.pool.registry.line.queue = [] := by
  have hsub := (ht.works.turn.thins hn).queue
  rw [hq] at hsub
  exact List.sublist_nil.mp hsub

/-- A turn counts as a round if the borrower looks for an object in it. -/
theorem Pursues.round (h : Pursues p₀ i S R ts w a) (ht : e.IsTurn t d a q s) :
    (e :: ts).countP Episode.isRound =
      R.length + a.point.looked + if a.point.isSeek then 1 else 0 := by
  have hseek : e.isRound = a.point.isSeek := by
    unfold Episode.isRound
    rw [ht.works.call]
    rfl
  rw [List.countP_cons, h.rounds, hseek]

/-- What was taken from others was taken in the first turn. -/
theorem Pursues.sweeps {S' : List Nat} (h : Pursues p₀ i S R ts w a)
    (hq : e.before.pools[i]? = some q)
    (hS : S' = if a.point.isOpening then q.overdue e.before.now else S) : Swept i (e :: ts) S' := by
  rcases h.swept with ⟨hopening, rfl⟩ | ⟨hopening, hswept⟩
  · rw [if_pos hopening] at hS
    exact ⟨e, q, rfl, hq, hS⟩
  · rw [if_neg (Bool.eq_false_iff.mp hopening)] at hS
    exact hS ▸ hswept.cons e

/-- A turn of a borrow: it goes on, or it comes out. -/
theorem Pursues.turn (h : Pursues p₀ i S R ts e.before a) (h₀ : p₀.Sound ℓ₀)
    (hw : e.before.Sound g) (ht : e.IsTurn t d a q s) :
    (∃ pt S' R', s.next = .go pt ∧ Pursues p₀ i S' R' (e :: ts) e.after ⟨a.pool, pt⟩) ∨
      CameOut p₀ t d i S R ts e s.next := by
  obtain ⟨p, hl, pre, ds, hp, hfrom, hstage, hdeeds, hpre, hqueue⟩ := h.stage
  obtain rfl : p = q := Option.some.inj (hp.symm.trans (h.pool ▸ ht.works.pool))
  have hsound := (hw.pools a.pool).sound p ht.works.pool
  have hfurthers := hstage.turn hfrom h₀ hsound (fun _ hx => ht.works.charge_mem g hx) hqueue
    (ht.goes hw) (ht.quests hw hstage.quests.1)
  obtain ⟨p', hp', hleft, hregistry⟩ := ht.leaves
  rw [h.pool] at hp'
  have hlands : ∀ {hl : Haul}, hl.From p₀ s.pool → hl.From p₀ p' :=
    fun hf => hf.same hleft (.of_eq hregistry)
  cases hfurthers with
  | @goesOn pt' S' R' hl' ds' next stage haul seized begun deeds rounds turns =>
    have hempty : p₀.registry.line.queue = [] → p'.registry.line.queue = [] := fun h₀ =>
      hregistry ▸ ht.queue_eq_nil (by rw [next]; exact stage.quests.2) (hqueue h₀)
    refine .inl ⟨pt', S', R', next, h.pool, ?_, .inr ⟨begun, h.sweeps hp seized⟩,
      (h.round ht).trans rounds.symm, ?_⟩
    · rcases deeds with hds | ⟨rfl, rfl, hsweep⟩
      · refine ⟨p', hl', pre, ds', hp', hlands haul, stage, ?_, hpre, hempty⟩
        rw [deeds_cons, hdeeds, hds, List.append_assoc]
      · -- what the factory has done belongs to the sweep
        refine ⟨p', hl', pre ++ e.deed?.toList, [], hp', hlands haul, stage, ?_, ?_, hempty⟩
        · rw [deeds_cons, hdeeds, List.append_nil, List.append_nil]
        · intro x hx
          rcases List.mem_append.mp hx with hx | hx
          · exact hpre x hx
          · exact hsweep x (Option.mem_toList.mp hx)
    · have hle := h.turns
      rw [List.length_cons]
      show ts.length + 1 + pt'.ahead ≤ 3 * S'.length + 4 * R'.length + pt'.spent
      omega
  | @comesOut hl' outcome haul rounds =>
    refine .inr ⟨h.pool ▸ ht.comes, ?_, ?_, (h.round ht).trans rounds.symm, ?_⟩
    · refine ⟨p', hl', pre, _, hp', hlands haul, outcome, ?_, hpre⟩
      rw [deeds_cons, hdeeds, List.append_assoc]
    · refine h.sweeps hp (if_neg fun hopening => ?_).symm
      -- the first turn is no look for an object
      have hnone : a.point.looked = 0 ∧ a.point.isSeek = false := by
        generalize a.point = pt at hopening
        cases pt with
        | borrow b => exact ⟨rfl, rfl⟩
        | _ => cases hopening
      rw [hnone.1, hnone.2] at rounds
      exact absurd rounds (Nat.succ_ne_self _)
    · have hle := h.turns
      have hspent := a.point.spent_le
      rw [List.length_cons]
      omega

/-- A borrow waits for nothing but the factory until it comes out. -/
theorem Pursues.goesOn (h : Pursues p₀ i S R ts w a) (hw : w.Sound g)
    (ha : w.callAt t d = some a) (hreq : a.point.isRequest = false) :
    (w.step t).isSome = true := by
  refine hw.step_isSome ha hreq fun p _ => ?_
  obtain ⟨-, hl, -, ds, -, -, hstage, -⟩ := h.stage
  generalize a.point = pt at hstage hreq
  cases hstage with
  | begins | seeks => rfl
  | sweeps b sweeping =>
    cases sweeping with
    | next xs n => cases xs <;> rfl
    | tells | given => exact nomatch hreq
  | _ => exact nomatch hreq

/-- On a pool that nobody else calls a borrow is on its way, or it has come out. -/
theorem World.Leads.pursues (h : w₀.Leads later w) (hw : w₀.Sound g)
    (ha : w₀.callAt t d = some ⟨i, .borrow b⟩) (hp₀ : w₀.pools[i]? = some p₀)
    (hu : LeftAlone t d i later) :
    (∃ ts a S R, w₀.Course t d later ts w a ∧ Pursues p₀ i S R ts w a) ∨
      ∃ newer e older ts a S R next, later = newer ++ e :: older ∧
        w₀.Course t d older ts e.before a ∧ CameOut p₀ t d i S R ts e next := by
  have h₀ := (hw.pools i).sound p₀ hp₀
  have hcases := h.follow (fun _ ts w a => ∃ S R, Pursues p₀ i S R ts w a)
    (fun _ ts e _ => ∃ S R next, CameOut p₀ t d i S R ts e next) hw ha ?start ?rests ?turn
  -- at first nothing was taken from the pool, and nothing done
  case start =>
    refine ⟨[], [], rfl, ?_, .inl ⟨rfl, rfl⟩, rfl, Nat.le_refl _⟩
    exact ⟨p₀, {}, [], [], hp₀, .refl p₀, .begins b, rfl, List.forall_mem_nil _, fun hq => hq⟩
  case rests =>
    rintro older ts e a - hsub hreact still ⟨S, R, hpursues⟩
    exact ⟨S, R, hpursues.rests (hu.of_suffix hsub) hreact still⟩
  case turn =>
    rintro older ts e a q s hcourse - hturn ⟨S, R, hpursues⟩
    rcases hpursues.turn h₀ (hcourse.sound hw) hturn with ⟨pt, S', R', hn, hnext⟩ | hout
    · exact .inl ⟨pt, hn, S', R', hnext⟩
    · exact .inr ⟨S, R, _, hout⟩
  rcases hcases with ⟨ts, a, hcourse, S, R, hpursues⟩ |
      ⟨newer, e, older, ts, a, hl, hcourse, S, R, next, hout⟩
  · exact .inl ⟨ts, a, S, R, hcourse, hpursues⟩
  · exact .inr ⟨newer, e, older, ts, a, S, R, next, hl, hcourse, hout⟩

end Course

/-! ## What a borrow comes to -/

/-- The factory was asked for a new object. -/
def Deed.isMade : Deed → Bool
  | .made _ => true
  | _ => false

/-- A borrower has to wait, or gives up. -/
def Next.inVain : Next ρ → Bool
  | .go (.waiting _ _) => true
  | .finish (.failed (.exhausted _)) => true
  | _ => false

section Asked

variable {R : List (Nat × Refusal)}

theorem countP_turnedDown : (R.flatMap turnedDown).countP Deed.isMade = 0 := by
  refine List.countP_eq_zero.mpr fun x hx => ?_
  obtain ⟨⟨id, r⟩, -, hx⟩ := List.mem_flatMap.mp hx
  rcases List.mem_append.mp hx with hx | hx
  · cases r with
    | stiff reason => simp_all [Refusal.deeds, Deed.isMade]
    | unfit =>
      rcases List.mem_pair.mp hx with rfl | rfl
      · exact Bool.false_ne_true
      · exact Bool.false_ne_true
  · rw [List.mem_singleton.mp hx]
    exact Bool.false_ne_true

theorem countP_accepted (c : Config) (fresh : Bool) (id : Nat) :
    (accepted c fresh id).countP Deed.isMade = 0 := by
  unfold accepted
  split <;> rfl

theorem countP_sweeps {pre : List Deed} (h : ∀ x ∈ pre, x.isSweep = true) :
    pre.countP Deed.isMade = 0 := by
  refine List.countP_eq_zero.mpr fun x hx => ?_
  have hsweep := h x hx
  cases x with
  | made r => exact nomatch hsweep
  | _ => exact Bool.false_ne_true

end Asked

namespace Pool

variable {p₀ p : Pool ρ} {S : List Nat} {R : List (Nat × Refusal)} {next : Next ρ} {hl : Haul}
  {ds : List Deed} {ℓ : Ledger ρ}

/-- When it comes out, nothing else was refused. -/
theorem Outcome.refused (h : p₀.Outcome S R next hl ds) : R.map (·.1) <+: hl.refused := by
  cases h <;> exact List.prefix_rfl

/-- Some idle object was not refused if the borrower has it. -/
theorem Outcome.not_all {id : Nat}
    (h : Haul.From { seized := S, refused := R.map (·.1), tried := [id] } p₀ p) :
    p₀.registry.idle ≠ R.map (·.1) := by
  intro hall
  have hlen := congrArg List.length (hall.symm.trans h.idle)
  rw [List.length_append, List.length_append] at hlen
  exact absurd hlen (by simp)

/-- The factory is asked for a new object if all idle ones were refused and there is room, and not
    otherwise. -/
theorem Outcome.asked (h : p₀.Outcome S R next hl ds) (hf : hl.From p₀ p)
    (hopen : p₀.closed = false) (hqueue : p₀.registry.line.queue = [])
    (hcreating : p₀.registry.creating = 0) : ds.countP Deed.isMade =
      if p₀.registry.idle = R.map (·.1) ∧
        (p₀.registry.tracked.filter (· ∉ S ++ R.map (·.1))).length < p₀.config.maxTotal
      then 1 else 0 := by
  have hroom : p₀.RunsOut S R →
      (p₀.registry.tracked.filter (· ∉ S ++ R.map (·.1))).length < p₀.config.maxTotal := by
    intro hout
    have hlt := hout.room
    rwa [hcreating] at hlt
  have hfull : p₀.config.maxTotal ≤
        (p₀.registry.tracked.filter (· ∉ S ++ R.map (·.1))).length + p₀.registry.creating →
      ¬(p₀.registry.idle = R.map (·.1) ∧
        (p₀.registry.tracked.filter (· ∉ S ++ R.map (·.1))).length < p₀.config.maxTotal) := by
    intro hle hroom
    rw [hcreating] at hle
    exact absurd hroom.2 (Nat.not_lt_of_le hle)
  -- the factory makes an object in those outcomes alone that follow on `RunsOut`
  cases h with
  | lent refuses =>
    rw [if_neg fun hall => Outcome.not_all hf hall.1, List.countP_append, countP_turnedDown,
      countP_accepted]
  | made out new =>
    rw [if_pos ⟨out.all, hroom out⟩, List.countP_append, countP_turnedDown, List.countP_cons,
      countP_accepted]
    rfl
  | unmade reason out =>
    rw [if_pos ⟨out.all, hroom out⟩, List.countP_append, countP_turnedDown]
    rfl
  | @unfit id r out new fair =>
    rw [if_pos ⟨out.all, hroom out⟩, List.countP_append, countP_turnedDown, List.countP_cons]
    have hdown := countP_turnedDown (R := [(id, r)])
    rw [List.flatMap_singleton] at hdown
    rw [hdown]
    rfl
  | shut fair closed => exact nomatch hopen.symm.trans closed
  | givesUp d refuses vain => rw [if_neg (hfull (vain hqueue).2), countP_turnedDown]
  | waits b x refuses vain => rw [if_neg (hfull (vain hqueue).2), countP_turnedDown]

/-- If a borrower has to wait or gives up, the pool was full, and none of its objects idle. -/
theorem Sound.full_of_vain (h₀ : p₀.Sound ℓ) (hcreating : p₀.registry.creating = 0)
    (hall : p₀.registry.idle = R.map (·.1)) (hmax : p₀.config.maxTotal ≤
      (p₀.registry.tracked.filter (· ∉ S ++ R.map (·.1))).length + p₀.registry.creating) :
    p₀.registry.idle = [] ∧
      (p₀.registry.tracked.filter (· ∉ S)).length = p₀.config.maxTotal := by
  have hwithin : p₀.registry.tracked.length + p₀.registry.creating ≤ p₀.config.maxTotal :=
    h₀.capacity ▸ h₀.books.within
  have hle := List.length_filter_le (· ∉ S ++ R.map (·.1)) p₀.registry.tracked
  -- nothing was taken from the pool, or there would be room
  have hkept : ∀ x ∈ p₀.registry.tracked, x ∉ S ++ R.map (·.1) := by
    have hlen : (p₀.registry.tracked.filter (· ∉ S ++ R.map (·.1))).length =
        p₀.registry.tracked.length := by omega
    exact fun x hx => of_decide_eq_true (List.length_filter_eq_length_iff.mp hlen x hx)
  have hsame : p₀.registry.tracked.filter (· ∉ S) = p₀.registry.tracked :=
    List.filter_eq_self.mpr fun x hx =>
      decide_eq_true fun hS => hkept x hx (List.mem_append_left _ hS)
  refine ⟨List.eq_nil_iff_forall_not_mem.mpr fun x hx => ?_, ?_⟩
  · obtain ⟨v, hv⟩ := h₀.idle_position hx
    have htracked : p₀.registry.tracked.count x = 1 := congrArg Position.tracked hv
    exact hkept x (List.count_pos_iff.mp (htracked ▸ Nat.one_pos))
      (List.mem_append_right _ (hall ▸ hx))
  · rw [hsame]
    omega

/-- A borrower has to wait or gives up only if the pool is full and none of its objects idle. -/
theorem Outcome.inVain_iff (h : p₀.Outcome S R next hl ds) (hf : hl.From p₀ p) (h₀ : p₀.Sound ℓ)
    (hopen : p₀.closed = false) (hqueue : p₀.registry.line.queue = [])
    (hcreating : p₀.registry.creating = 0) : next.inVain = true ↔
      p₀.registry.idle = [] ∧
        (p₀.registry.tracked.filter (· ∉ S)).length = p₀.config.maxTotal := by
  -- a new object was asked for, so that there was room
  have hroom : p₀.RunsOut S R → ¬(p₀.registry.idle = [] ∧
      (p₀.registry.tracked.filter (· ∉ S)).length = p₀.config.maxTotal) := by
    intro hout hfull
    have hR : R.map (·.1) = [] := hout.all.symm.trans hfull.1
    have hlt := hout.room
    rw [hR, List.append_nil, hcreating, hfull.2] at hlt
    exact Nat.lt_irrefl _ hlt
  have hnot : ∀ {r : Reply}, (Next.finish (ρ := ρ) r).inVain = false →
      ¬(p₀.registry.idle = [] ∧
        (p₀.registry.tracked.filter (· ∉ S)).length = p₀.config.maxTotal) →
      ((Next.finish (ρ := ρ) r).inVain = true ↔ p₀.registry.idle = [] ∧
        (p₀.registry.tracked.filter (· ∉ S)).length = p₀.config.maxTotal) :=
    fun hn hfull => iff_of_false (Bool.eq_false_iff.mp hn) hfull
  cases h with
  | lent refuses =>
    refine hnot rfl fun hfull => ?_
    have hidle := hf.idle
    rw [hfull.1] at hidle
    exact absurd (congrArg List.length hidle) (by simp)
  | made out new => exact hnot rfl (hroom out)
  | unmade reason out => exact hnot rfl (hroom out)
  | unfit r out new fair =>
    refine hnot ?_ (hroom out)
    cases r <;> rfl
  | shut fair closed => exact nomatch hopen.symm.trans closed
  | givesUp d refuses vain =>
    obtain ⟨hall, hmax⟩ := vain hqueue
    exact iff_of_true rfl (h₀.full_of_vain hcreating hall hmax)
  | waits b x refuses vain =>
    obtain ⟨hall, hmax⟩ := vain hqueue
    exact iff_of_true rfl (h₀.full_of_vain hcreating hall hmax)

end Pool

/-! ## Main statement -/

section Runs

variable {es later : List (Episode ρ)} {w w₀ : World ρ} {t d i : Nat} {b : Borrowing}
  {p₀ : Pool ρ}

/-- A borrow that found the pool `i` at `p₀` is on its way: it has given up the objects `R`, and
    waits for nothing but the factory. -/
structure BorrowGoesOn (p₀ : Pool ρ) (t d i : Nat) (later : List (Episode ρ)) (w : World ρ)
    (S : List Nat) (R : List (Nat × Refusal)) (pt : Point ρ) : Prop where
  stands : w.callAt t d = some ⟨i, pt⟩
  pursues : Pursues p₀ i S R (turns t d later) w ⟨i, pt⟩
  unanswered : answer? t d later = none
  rounds : (turns t d later).countP Episode.isRound ≤ p₀.registry.idle.length + 1
  bound : (turns t d later).length ≤ 3 * S.length + 4 * p₀.registry.idle.length + 6
  goesOn : pt.isRequest = false → (w.step t).isSome = true

/-- A borrow that found the pool `i` at `p₀` comes out in the episode `e`: it took the objects `S`
    from others, and the idle objects `R` were refused before it found one, if it did. -/
structure BorrowEnds (p₀ : Pool ρ) (t d i : Nat) (older : List (Episode ρ)) (e : Episode ρ)
    (S : List Nat) (R : List (Nat × Refusal)) (next : Next ρ) : Prop where
  cameOut : CameOut p₀ t d i S R (turns t d older) e next
  first : answer? t d older = none
  refused : R.map (·.1) <+: p₀.registry.idle
  rounds : (turns t d (e :: older)).countP Episode.isRound ≤ p₀.registry.idle.length + 1
  bound : (turns t d (e :: older)).length ≤ 3 * S.length + 4 * p₀.registry.idle.length + 7
  /-- One object is made if all idle ones were refused and there is room then. -/
  asked : (deeds (turns t d (e :: older))).countP Deed.isMade =
    if p₀.registry.idle = R.map (·.1) ∧
      (p₀.registry.tracked.filter (· ∉ S ++ R.map (·.1))).length < p₀.config.maxTotal
    then 1 else 0
  /-- The borrower waits or gives up if nothing was idle and the pool full. -/
  inVain : next.inVain = true ↔ p₀.registry.idle = [] ∧
    (p₀.registry.tracked.filter (· ∉ S)).length = p₀.config.maxTotal

/-- Nobody is in line, and nothing on its way, if a borrow is the only call on its pool. -/
theorem World.Sound.sole {g : Nat → List Nat} (hw : w₀.Sound g) (hp : w₀.pools[i]? = some p₀)
    (hsole : w₀.points i = [.borrow b]) :
    p₀.registry.line.queue = [] ∧ p₀.registry.creating = 0 := by
  have hbooks := ((hw.pools i).sound p₀ hp).books
  rw [hsole] at hbooks
  refine ⟨?_, hbooks.creating⟩
  have hnone : (p₀.registry.line.queue ++ p₀.registry.line.woken) = [] :=
    List.perm_nil.mp hbooks.line.perm
  exact (List.append_eq_nil_iff.mp hnone).1

/-- If no other call is on an open pool, a borrow gets the first idle object that is not refused, or
    a new one if there is room; it ends after a bounded number of turns, and waits for nothing but
    the factory until then. -/
theorem borrow_completed (h₀ : Run es w₀) (h : Run (later ++ es) w)
    (ha : w₀.callAt t d = some ⟨i, .borrow b⟩) (hp : w₀.pools[i]? = some p₀)
    (hopen : p₀.closed = false) (hsole : w₀.points i = [.borrow b]) (hu : LeftAlone t d i later) :
    (∃ S R pt, BorrowGoesOn p₀ t d i later w S R pt) ∨
      ∃ newer e older S R next, later = newer ++ e :: older ∧
        BorrowEnds p₀ t d i older e S R next := by
  have hw := h₀.sound
  have hsound := (hw.pools i).sound p₀ hp
  obtain ⟨hqueue, hcreating⟩ := hw.sole hp hsole
  rcases (h₀.leads h).pursues hw ha hp hu with ⟨ts, a, S, R, hcourse, hpursues⟩ |
      ⟨newer, e, older, ts, a, S, R, next, rfl, hcourse, hout⟩
  · -- it is on its way: no more was given up than was idle, which bounds the rest
    obtain ⟨hts, hnone⟩ := hcourse.turns_eq
    have hat := hcourse.callAt hw
    have hgo := hpursues.goesOn (hcourse.sound hw) hat
    obtain ⟨i', pt⟩ := a
    obtain rfl : i' = i := hpursues.pool
    obtain ⟨p, hl, pre, ds, -, hfrom, hstage, -⟩ := hpursues.stage
    have hle := hfrom.refused_le hstage.refused
    refine .inl ⟨S, R, pt, hat, hts.symm ▸ hpursues, hnone, ?_, ?_, hgo⟩
    · have hlooked := pt.looked_le
      rw [hts, hpursues.rounds]
      show R.length + pt.looked ≤ _
      omega
    · have hturns : ts.length + pt.ahead ≤ 3 * S.length + 4 * R.length + pt.spent := hpursues.turns
      have hspent := pt.spent_le
      rw [hts]
      omega
  · obtain ⟨hts, hnone⟩ := hcourse.turns_eq
    obtain ⟨p, hl, pre, ds, -, hfrom, houtcome, hdeeds, hpre⟩ := hout.outcome
    have hall := hcourse.turns_cons hout.comes.runs
    have hprefix := hfrom.refused_prefix houtcome.refused
    have hle := hfrom.refused_le houtcome.refused
    refine .inr ⟨newer, e, older, S, R, next, rfl, hts.symm ▸ hout, hnone, hprefix, ?_, ?_, ?_, ?_⟩
    · rw [hall, hout.rounds]
      exact Nat.succ_le_succ hle
    · have hturns := hout.turns
      rw [hall]
      omega
    · rw [hall, hdeeds, List.countP_append, countP_sweeps hpre, Nat.zero_add]
      exact houtcome.asked hfrom hopen hqueue hcreating
    · exact houtcome.inVain_iff hfrom hsound hopen hqueue hcreating

end Runs

/-- A pool for one object, which is idle when somebody wants to borrow it. -/
def askedEvents : List (Event Nat) :=
  [.create { maxTotal := 1, testOnBorrow := true }, .spawn, .begin 0 0 .add, .step 0,
    .answer 0 (.created (.ok 7)), .answer 0 (.passivated 7 none), .begin 0 0 (.borrow none "site")]

/-- It is found unfit, so that another one is made. -/
def servedEvents : List (Event Nat) :=
  askedEvents ++ [.step 0, .step 0, .answer 0 (.activated 7 none), .answer 0 (.validated false),
    .answer 0 (.destroyed none), .step 0, .answer 0 (.created (.ok 8)),
    .answer 0 (.activated 8 none), .answer 0 (.validated true)]

theorem borrow_completed_with_new_object :
    ∃ p₀, Run (episodes askedEvents) (reached askedEvents) ∧
      Run ((episodes servedEvents).take 9 ++ episodes askedEvents) (reached servedEvents) ∧
      (reached askedEvents).callAt 0 0 = some ⟨0, .borrow { timeout := none, site := "site" }⟩ ∧
      (reached askedEvents).pools[0]? = some p₀ ∧ p₀.closed = false ∧
      (reached askedEvents).points 0 = [.borrow { timeout := none, site := "site" }] ∧
      LeftAlone 0 0 0 ((episodes servedEvents).take 9) ∧
      answer? 0 0 ((episodes servedEvents).take 9) = some (.lent 1) ∧
      ((∃ S R pt, BorrowGoesOn p₀ 0 0 0 ((episodes servedEvents).take 9) (reached servedEvents)
          S R pt) ∨
        ∃ newer e older S R next, (episodes servedEvents).take 9 = newer ++ e :: older ∧
          BorrowEnds p₀ 0 0 0 older e S R next) :=
  have h₀ : Run (episodes askedEvents) (reached askedEvents) := Run.of_events rfl
  have hall : Run (episodes servedEvents) (reached servedEvents) := Run.of_events rfl
  have h : Run ((episodes servedEvents).take 9 ++ episodes askedEvents)
      (reached servedEvents) := hall
  have hruns : ((episodes servedEvents).take 9).all (·.runs 0 0) = true := by decide +kernel
  have hu : LeftAlone 0 0 0 ((episodes servedEvents).take 9) :=
    fun e he _ _ _ => List.all_eq_true.mp hruns e he
  ⟨_, h₀, h, rfl, rfl, rfl, rfl, hu, by decide +kernel, borrow_completed h₀ h rfl rfl rfl rfl hu⟩

end ObjectPool
