/-
  ObjectPool.Proofs.Onward

  What happens from a world on, and the course that one call takes in it. The call stands
  where it stood while others go on; each of its turns but the last takes it to another point.
  The world at the start is any sound one, whether a run has led to it or not.

    * `World.Leads` — the worlds that a world leads to, with the episodes in between.
    * `Episode.IsTurn` — a call has a turn.
    * `World.Course` — a call on its way, with the turns that it has had.
    * `Leads.follow` — a call followed turn by turn.
    * `Leads.course` — a call is on its way, or it has had its last turn.
    * `LeftAlone` — no other call on the pool runs.
-/

import ObjectPool.Proofs.Draining

namespace ObjectPool

variable {ρ : Type}

/-! ## Where a world leads -/

/-- The worlds that a world leads to; the episodes in between stand the latest first. -/
inductive World.Leads (w₀ : World ρ) : List (Episode ρ) → World ρ → Prop where
  | refl : Leads w₀ [] w₀
  | next {later : List (Episode ρ)} {w : World ρ} {e : Event ρ} {f : Effect ρ}
      (leads : Leads w₀ later w) (react : w.react e = some f) :
      Leads w₀ (⟨w, e, f⟩ :: later) f.world

section Leads

variable {es later : List (Episode ρ)} {w w₀ : World ρ} {g : Nat → List Nat} {e : Episode ρ}

theorem World.Leads.sound (h : w₀.Leads later w) (hw : w₀.Sound g) :
    w.Sound fun i => graves later i ++ g i := by
  induction h with
  | refl => exact hw
  | next _ react ih =>
    refine cast (congrArg _ (funext fun i => ?_)) (World.react_sound ih react)
    exact (List.append_assoc ..).symm

/-- The second part of a run leads on from where the first has led. -/
theorem Run.leads (h₀ : Run es w₀) (h : Run (later ++ es) w) : w₀.Leads later w := by
  induction later generalizing w with
  | nil => exact h.unique h₀ ▸ .refl
  | cons e later ih =>
    cases h with
    | next run react => exact (ih run).next react

/-- What a run has led to leads on to a run. -/
theorem World.Leads.run (h₀ : Run es w₀) (h : w₀.Leads later w) : Run (later ++ es) w := by
  induction h with
  | refl => exact h₀
  | next _ react ih => exact ih.next react

/-- What one world leads to, and what leads on from there. -/
theorem World.Leads.trans {newer older : List (Episode ρ)} {w₁ : World ρ} (h : w₀.Leads older w₁)
    (h' : w₁.Leads newer w) : w₀.Leads (newer ++ older) w := by
  induction h' with
  | refl => exact h
  | next _ react ih => exact ih.next react

/-- Each episode begins where the ones before it have led. -/
theorem World.Leads.split {newer older : List (Episode ρ)}
    (h : w₀.Leads (newer ++ e :: older) w) :
    w₀.Leads older e.before ∧ e.before.react e.event = some e.effect ∧
      e.after.Leads newer w := by
  -- the latest episode is the head, so the induction peels off the newer ones
  induction newer generalizing w with
  | nil =>
    cases h with
    | next leads react => exact ⟨leads, react, .refl⟩
  | cons x newer ih =>
    cases h with
    | next leads react =>
      obtain ⟨hbefore, hreact, hafter⟩ := ih leads
      exact ⟨hbefore, hreact, hafter.next react⟩

end Leads

/-! ## The course of a call -/

/-- A call on a thread is among the calls on its pool. -/
theorem World.mem_points_of_callAt {w : World ρ} {t d : Nat} {a : Activity ρ}
    (h : w.callAt t d = some a) : a.point ∈ w.points a.pool := by
  have hmem : a ∈ w.stackOf t := List.mem_reverse.mp (List.mem_of_getElem? h)
  cases hth : w.threads[t]? with
  | none =>
    rw [stackOf, hth] at hmem
    exact absurd hmem List.not_mem_nil
  | some th =>
    rw [stackOf_eq hth] at hmem
    exact mem_points.mpr ⟨th, List.mem_of_getElem? hth, hmem⟩

/-- The call `a` on the thread `t` with `d` calls below it runs in an episode for the stretch `s`
    on its pool `q`. -/
structure Episode.IsTurn (t d : Nat) (e : Episode ρ) (a : Activity ρ) (q : Pool ρ)
    (s : Stretch ρ) : Prop where
  react : e.before.react e.event = some e.effect
  runs : e.runs t d = true
  works : e.before.Works e.event e.effect t a q s
  turned : World.Turned e.effect t d a q s.next

/-- A call that is on its way from the world `w₀` on: the episodes since then, its turns among
    them, the world they have led to, and the call as it stands there. -/
inductive World.Course (w₀ : World ρ) (t d : Nat) :
    List (Episode ρ) → List (Episode ρ) → World ρ → Activity ρ → Prop where
  | start {a : Activity ρ} (stands : w₀.callAt t d = some a) : Course w₀ t d [] [] w₀ a
  /-- Something else happens. -/
  | rests {later ts : List (Episode ρ)} {e : Episode ρ} {a : Activity ρ}
      (course : Course w₀ t d later ts e.before a)
      (react : e.before.react e.event = some e.effect) (still : e.runs t d = false) :
      Course w₀ t d (e :: later) ts e.after a
  | turn {later ts : List (Episode ρ)} {e : Episode ρ} {a : Activity ρ} {q : Pool ρ}
      {s : Stretch ρ} {pt : Point ρ} (course : Course w₀ t d later ts e.before a)
      (turn : e.IsTurn t d a q s) (next : s.next = .go pt) :
      Course w₀ t d (e :: later) (e :: ts) e.after ⟨a.pool, pt⟩

section Course

variable {later ts : List (Episode ρ)} {w w₀ : World ρ} {g : Nat → List Nat} {t d : Nat}
  {a b : Activity ρ} {q : Pool ρ} {s : Stretch ρ} {pt : Point ρ} {r : Reply} {e : Episode ρ}

/-- A turn after which the call goes on. -/
theorem Episode.IsTurn.goesOn (h : e.IsTurn t d a q s) (hn : s.next = .go pt) :
    e.effect.reply = none ∧ e.after.callAt t d = some ⟨a.pool, pt⟩ := by
  have hturned := h.turned
  rw [hn] at hturned
  cases hturned with
  | goesOn hr hc => exact ⟨hr, hc⟩

namespace World.Course

theorem leads (h : w₀.Course t d later ts w a) : w₀.Leads later w := by
  induction h with
  | start _ => exact .refl
  | rests _ react _ ih => exact ih.next react
  | turn _ turn _ ih => exact ih.next turn.react

theorem sound (h : w₀.Course t d later ts w a) (hw : w₀.Sound g) :
    w.Sound fun i => graves later i ++ g i := h.leads.sound hw

/-- The call stands in the world as its course says. -/
theorem callAt (h : w₀.Course t d later ts w a) (hw : w₀.Sound g) : w.callAt t d = some a := by
  induction h with
  | start stands => exact stands
  | rests course react still ih =>
    rcases react_callAt (course.sound hw) react ih with ⟨-, hstays⟩ | ⟨hruns, -⟩
    · exact hstays
    · exact absurd (still.symm.trans hruns) Bool.false_ne_true
  | turn _ turn next _ => exact (turn.goesOn next).2

/-- The call stays on its pool. -/
theorem pool (h : w₀.Course t d later ts w a) :
    ∃ pt, w₀.callAt t d = some ⟨a.pool, pt⟩ := by
  induction h with
  | @start a stands => exact ⟨a.point, stands⟩
  | rests _ _ _ ih => exact ih
  | turn _ _ _ ih => exact ih

/-- The turns of its course are those that the episodes show, and it has not ended. -/
theorem turns_eq (h : w₀.Course t d later ts w a) :
    turns t d later = ts ∧ answer? t d later = none := by
  -- an episode in which the call rests adds no turn, and one in which it runs adds itself
  induction h with
  | start _ => exact ⟨rfl, rfl⟩
  | @rests later _ _ _ _ _ still ih =>
    obtain ⟨hanswer, hturns⟩ := answer?_of_rests later still
    exact ⟨hturns.trans ih.1, hanswer.trans ih.2⟩
  | turn _ turn next ih =>
    obtain ⟨hanswer, hturns⟩ := answer?_of_runs ih.2 turn.runs
    exact ⟨hturns.trans (congrArg _ ih.1), hanswer.trans (turn.goesOn next).1⟩

/-- If it runs in one more episode, that is one more turn. -/
theorem turns_cons (h : w₀.Course t d later ts w a) (hruns : e.runs t d = true) :
    turns t d (e :: later) = e :: ts := by
  obtain ⟨hts, hnone⟩ := h.turns_eq
  rw [(answer?_of_runs hnone hruns).2, hts]

/-- Its turns are among the episodes. -/
theorem mem (h : w₀.Course t d later ts w a) {e : Episode ρ} (he : e ∈ ts) : e ∈ later := by
  induction h with
  | start _ => exact he
  | rests _ _ _ ih => exact .tail _ (ih he)
  | turn _ _ _ ih =>
    rcases List.mem_cons.mp he with rfl | he
    · exact .head _
    · exact .tail _ (ih he)

theorem buried (h : w₀.Course t d later ts w a) {i id : Nat} (hid : id ∈ graves ts i) :
    id ∈ graves later i := by
  obtain ⟨e, he, hburied⟩ := List.mem_flatMap.mp hid
  exact List.mem_flatMap.mpr ⟨e, h.mem he, hburied⟩

/-- An episode in which it runs is one of its turns. -/
theorem turn_mem (h : w₀.Course t d later ts w a) {e : Episode ρ} (he : e ∈ later)
    (hruns : e.runs t d = true) : e ∈ ts := by
  induction h with
  | start _ => exact nomatch he
  | rests _ _ still ih =>
    rcases List.mem_cons.mp he with rfl | he
    · exact absurd (still.symm.trans hruns) Bool.false_ne_true
    · exact ih he
  | turn _ _ _ ih =>
    rcases List.mem_cons.mp he with rfl | he
    · exact .head _
    · exact .tail _ (ih he)

end World.Course

/-- A thread goes on if the call on top of it can. -/
theorem World.Sound.step_isSome (hw : w.Sound g) (ha : w.callAt t d = some a)
    (hreq : a.point.isRequest = false)
    (hadv : ∀ p, w.pools[a.pool]? = some p →
      (p.advance w.now t w.hasEnded a.point).isSome = true) : (w.step t).isSome = true := by
  obtain ⟨th, rest, hth, hs⟩ := top?_eq_some (hw.nested.top?_of_callAt ha hreq)
  have hpoints : w.pools[a.pool]? = none → w.points a.pool = [] := fun hn =>
    ((hw.pools a.pool).housed hn).1
  -- a pool that is not there has no calls on it
  cases hp : w.pools[a.pool]? with
  | none => exact absurd (hpoints hp ▸ mem_points_of_callAt ha) List.not_mem_nil
  | some p =>
    obtain ⟨s, hs'⟩ := Option.isSome_iff_exists.mp (hadv p hp)
    simp only [World.step, hth, hs, hp, hs', Option.bind_eq_bind, Option.bind_some]
    rfl

/-- In an episode a call on its way rests, or it has a turn. -/
theorem World.Course.next {ev : Event ρ} {f : Effect ρ} (h : w₀.Course t d later ts w a)
    (hw : w₀.Sound g) (hr : w.react ev = some f) : Episode.runs t d ⟨w, ev, f⟩ = false ∨
      ∃ q s, Episode.IsTurn t d ⟨w, ev, f⟩ a q s := by
  rcases react_callAt (h.sound hw) hr (h.callAt hw) with ⟨still, -⟩ | ⟨runs, q, s, works, turned⟩
  · exact .inl still
  · exact .inr ⟨q, s, hr, runs, works, turned⟩

/-- If its thread goes on, a call that waits for nobody has a turn. -/
theorem World.Sound.turn_of_step {f : Effect ρ} (hw : w.Sound g) (ha : w.callAt t d = some a)
    (hreq : a.point.isRequest = false) (hr : w.react (.step t) = some f) :
    ∃ q s, Episode.IsTurn t d ⟨w, .step t, f⟩ a q s := by
  rcases react_callAt hw hr ha with ⟨still, -⟩ | ⟨runs, q, s, works, turned⟩
  · exact absurd ⟨rfl, hw.nested.length_of_callAt ha hreq⟩ (of_decide_eq_false still)
  · exact ⟨q, s, hr, runs, works, turned⟩

/-- A call that stood in a world, followed from there. If `way` holds of it at first, whatever
    others do, and after each of its turns but those that make `out` true, then it is on its way
    with `way`, or some turn of it has made `out` true. -/
theorem World.Leads.follow
    (way : List (Episode ρ) → List (Episode ρ) → World ρ → Activity ρ → Prop)
    (out : List (Episode ρ) → List (Episode ρ) → Episode ρ → Activity ρ → Prop)
    (h : w₀.Leads later w) (hw : w₀.Sound g) (ha : w₀.callAt t d = some a)
    (start : way [] [] w₀ a)
    (rests : ∀ {older ts : List (Episode ρ)} {e : Episode ρ} {b : Activity ρ},
      w₀.Course t d older ts e.before b → e :: older <:+ later →
      e.before.react e.event = some e.effect → e.runs t d = false →
      way older ts e.before b → way (e :: older) ts e.after b)
    (turn : ∀ {older ts : List (Episode ρ)} {e : Episode ρ} {b : Activity ρ} {q : Pool ρ}
      {s : Stretch ρ}, w₀.Course t d older ts e.before b → e :: older <:+ later →
      e.IsTurn t d b q s → way older ts e.before b →
      (∃ pt, s.next = .go pt ∧ way (e :: older) (e :: ts) e.after ⟨b.pool, pt⟩) ∨
        out older ts e b) :
    (∃ ts b, w₀.Course t d later ts w b ∧ way later ts w b) ∨
      ∃ newer e older ts b, later = newer ++ e :: older ∧ w₀.Course t d older ts e.before b ∧
        out older ts e b := by
  -- the induction is over the part of the episodes that is over
  suffices hpart : ∀ {part : List (Episode ρ)} {w : World ρ}, w₀.Leads part w → part <:+ later →
      (∃ ts b, w₀.Course t d part ts w b ∧ way part ts w b) ∨
        ∃ newer e older ts b, part = newer ++ e :: older ∧ w₀.Course t d older ts e.before b ∧
          out older ts e b from hpart h List.suffix_rfl
  intro part w hpart hsub
  induction hpart with
  | refl => exact .inl ⟨[], a, .start ha, start⟩
  | @next part w ev f leads react ih =>
    rcases ih ((List.suffix_cons _ _).trans hsub) with
      ⟨ts, b, hcourse, hway⟩ | ⟨newer, e, older, ts, b, rfl, hout⟩
    · rcases hcourse.next hw react with still | ⟨q, s, hturn⟩
      · exact .inl ⟨ts, b, .rests hcourse react still, rests hcourse hsub react still hway⟩
      · rcases turn hcourse hsub hturn hway with ⟨pt, hn, hnext⟩ | hout
        · exact .inl ⟨_, _, hcourse.turn hturn hn, hnext⟩
        · exact .inr ⟨[], ⟨w, ev, f⟩, part, ts, b, rfl, hcourse, hout⟩
    · exact .inr ⟨⟨w, ev, f⟩ :: newer, e, older, ts, b, rfl, hout⟩

/-- A call that stood in a world is on its way in each world that this leads to, or it has had its
    last turn. -/
theorem World.Leads.course (h : w₀.Leads later w) (hw : w₀.Sound g)
    (ha : w₀.callAt t d = some a) :
    (∃ ts b, w₀.Course t d later ts w b) ∨
      ∃ newer e older ts b q s r, later = newer ++ e :: older ∧
        w₀.Course t d older ts e.before b ∧ e.IsTurn t d b q s ∧ s.next = .finish r := by
  have hcases := h.follow (fun _ _ _ _ => True)
    (fun _ _ e b => ∃ q s r, e.IsTurn t d b q s ∧ s.next = .finish r) hw ha trivial
    (fun _ _ _ _ _ => trivial) fun {_ _ _ _ q s} _ _ hturn _ => by
      cases hn : s.next with
      | go pt => exact .inl ⟨pt, rfl, trivial⟩
      | finish r => exact .inr ⟨q, s, r, hturn, hn⟩
  rcases hcases with ⟨ts, b, hcourse, -⟩ | ⟨newer, e, older, ts, b, hl, hcourse, q, s, r, hend⟩
  · exact .inl ⟨ts, b, hcourse⟩
  · exact .inr ⟨newer, e, older, ts, b, q, s, r, hl, hcourse, hend⟩

/-! ## How a call ends -/

/-- The call has its last turn in an episode: it gives the reply `r`, or has it ready while it
    closes the pool `i`, whose last reference it has given up. -/
def Episode.Finishes (t d i : Nat) (r : Reply) (e : Episode ρ) : Prop :=
  e.runs t d = true ∧ (e.effect.reply = some r ∨
    (e.effect.reply = none ∧ e.after.callAt t d = some ⟨i, .close (.release r)⟩))

theorem Episode.IsTurn.finishes (h : e.IsTurn t d a q s) (hn : s.next = .finish r) :
    e.Finishes t d a.pool r := by
  have hturned := h.turned
  rw [hn] at hturned
  cases hturned with
  | answers hr => exact ⟨h.runs, .inl hr⟩
  | closes hr hc _ _ => exact ⟨h.runs, .inr ⟨hr, hc⟩⟩

/-- A pool is as a turn of a call has left it, and perhaps its last reference is gone. -/
theorem Episode.IsTurn.pools (h : e.IsTurn t d a q s) : ∃ p', e.after.pools[a.pool]? = some p' ∧
    (p' = s.pool ∨ p' = { s.pool with gone := true }) := h.works.pools

/-! ## What the factory does for a call -/

/-- What the factory or the sink of reports has done for a call. -/
inductive Deed where
  /-- It made an object, or refused to. -/
  | made (refusal : Option String)
  | readied (id : Nat) (refusal : Option String)
  | checked (id : Nat) (fit : Bool)
  | laidToRest (id : Nat) (refusal : Option String)
  | destroyed (id : Nat) (mode : DestroyMode)
  | tookReport (id : Nat)
  deriving DecidableEq

/-- What an answer that a call gets at a point tells of. -/
def Deed.of? : Point ρ → Response ρ → Option Deed
  | .creating _, .created (.ok _) => some (.made none)
  | .creating _, .created (.error reason) => some (.made (some reason))
  | .activating id _, .activated _ refusal => some (.readied id refusal)
  | .validating id _, .validated fit => some (.checked id fit)
  | .passivating id _, .passivated _ refusal => some (.laidToRest id refusal)
  | .destroying id _ mode _, .destroyed _ => some (.destroyed id mode)
  | .reporting report _ _ _ _, .reported => some (.tookReport report.object)
  | _, _ => none

/-- What was done for the call that ran in an episode. -/
def Episode.deed? (e : Episode ρ) : Option Deed :=
  match e.event with
  | .answer t r => (e.before.top? t).bind fun a => Deed.of? a.point r
  | _ => none

/-- What was done in some episodes, which stand the latest first, in the order in which it was. -/
def deeds (es : List (Episode ρ)) : List Deed := es.reverse.filterMap Episode.deed?

theorem deeds_cons (e : Episode ρ) (es : List (Episode ρ)) :
    deeds (e :: es) = deeds es ++ e.deed?.toList := by
  rw [deeds, List.reverse_cons, List.filterMap_append]
  refine congrArg (deeds es ++ ·) ?_
  rw [List.filterMap_cons]
  cases e.deed? <;> rfl

/-- A call goes on by itself in a turn, or it gets an answer. -/
theorem Episode.IsTurn.cases (h : e.IsTurn t d a q s) :
    (e.deed? = none ∧ q.GoesOn e.before.now t e.before.hasEnded a.point s) ∨
      ∃ r, e.event = .answer t r ∧ e.deed? = Deed.of? a.point r ∧
        q.Answered e.before.now a.point r s := by
  rcases h.works.runs with ⟨hev, hs⟩ | ⟨r, hev, hs⟩
  · refine .inl ⟨?_, Pool.goesOn_of_advance hs⟩
    rw [Episode.deed?, hev]
  · refine .inr ⟨r, hev, ?_, Pool.answered_of_respond hs⟩
    rw [Episode.deed?, hev]
    show (e.before.top? t).bind _ = _
    rw [h.works.top]
    rfl

/-! ## Pools that nobody else calls -/

/-- No call on the pool `i` runs but the one on the thread `t` with `d` calls below it. -/
def LeftAlone (t d i : Nat) (later : List (Episode ρ)) : Prop :=
  ∀ e ∈ later, ∀ a, e.call? = some a → a.pool = i → e.runs t d = true

/-- Nothing happens to the books of such a pool while the call rests. -/
theorem LeftAlone.rests {i : Nat} (hu : LeftAlone t d i (e :: later))
    (hr : e.before.react e.event = some e.effect) (still : e.runs t d = false) :
    e.before.Spares e.after i := by
  rcases World.react_at hr i with ⟨hspares, -⟩ | ⟨u, c, q, s, hworks, hi⟩
  · exact hspares
  · have hruns := hu e (.head _) c hworks.call hi
    exact absurd (still.symm.trans hruns) Bool.false_ne_true

theorem LeftAlone.of_suffix {i : Nat} {older : List (Episode ρ)} (hu : LeftAlone t d i later)
    (h : older <:+ later) : LeftAlone t d i older := fun x hx => hu x (h.subset hx)

theorem LeftAlone.tail {i : Nat} (hu : LeftAlone t d i (e :: later)) :
    LeftAlone t d i later := hu.of_suffix (List.suffix_cons ..)

/-- A pool that is there keeps its books. -/
theorem World.Spares.pool {w' : World ρ} {i : Nat} {p : Pool ρ} (h : w.Spares w' i)
    (hp : w.pools[i]? = some p) : ∃ p', w'.pools[i]? = some p' ∧ p.SameBooks p' := by
  rcases h.books with hbooks | ⟨hnone, -⟩
  · exact hbooks.pool hp
  · exact nomatch hnone.symm.trans hp

end Course

end ObjectPool
