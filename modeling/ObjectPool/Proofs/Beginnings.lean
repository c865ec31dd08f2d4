/-
  ObjectPool.Proofs.Beginnings

  Where the calls of a run come from. A call that is on its way after an event was there before, or
  the event has begun it, or it is where a stretch has left it. A call that begins has nothing in
  its charge, and only a caller that asks for an object begins a borrow. The borrow keeps the place
  it came from until it hands an object out.

    * `Event.Begins` — what an event begins.
    * `World.callAt_cases` — where a call comes from, event by event.
    * `Event.Asks`, `Run.asks` — how the borrows on a thread began.
    * `Run.borrower` — who got the object that is handed out.
-/

import ObjectPool.Proofs.Dossiers

namespace ObjectPool

variable {ρ : Type}

/-! ## What an event begins -/

/-- What is known of a call `b` that an event begins on the thread `u`. -/
structure Event.Begins (e : Event ρ) (u : Nat) (b : Activity ρ) : Prop where
  clean : b.point.charges = []
  borrow : b.point.errand = .borrow → ∃ timeout site,
    e = .begin u b.pool (.borrow timeout site) ∧ b.point = .borrow { timeout, site }

/-- A call to which an object comes back is no borrow. -/
theorem Point.TakesBack.errand_ne {id : Nat} {pt : Point ρ} (h : pt.TakesBack id) :
    pt.errand ≠ .borrow := by
  cases h with
  | @keep answer ho =>
    cases answer with
    | none => nofun
    | some r => nofun
  | discard => nofun

theorem Event.Begins.of_errand {e : Event ρ} {u : Nat} {b : Activity ρ} (hc : b.point.charges = [])
    (hk : b.point.errand ≠ .borrow) : e.Begins u b := ⟨hc, fun h => absurd h hk⟩

theorem Event.begins_opening (t p : Nat) (o : Opening) :
    (Event.begin (ρ := ρ) t p o).Begins t ⟨p, o.point⟩ := by
  refine ⟨o.opens.charges, fun h => ?_⟩
  cases o with
  | borrow timeout site => exact ⟨timeout, site, rfl, rfl⟩
  | _ => cases h

namespace World

variable {w w' : World ρ} {g : Nat → List Nat} {e : Event ρ} {f : Effect ρ} {t u d p n : Nat}
  {a b : Activity ρ} {x : Handle}

/-- On the thread `u` the calls stay as they are, or an event begins one more. -/
def Extends (w w' : World ρ) (e : Event ρ) (u : Nat) : Prop :=
  w'.stackOf u = w.stackOf u ∨ ∃ b, w'.stackOf u = b :: w.stackOf u ∧ e.Begins u b

theorem extends_push (hth : ∃ th, w.threads[t]? = some th) (hb : e.Begins t b) (u : Nat) :
    w.Extends (w.push t b) e u := by
  unfold Extends
  rw [stackOf_push hth b u]
  split
  · rename_i htu
    subst htu
    exact .inr ⟨b, rfl, hb⟩
  · exact .inl rfl

theorem extends_forsake (hth : ∃ th, w.threads[t]? = some th) (p : Nat) (r : Reply) (u : Nat) :
    w.Extends (w.forsake t p r).world e u := by
  rcases forsake_cases w t p r with ⟨q, -, -, hlast⟩ | ⟨-, hmore⟩
  · rw [hlast]
    exact extends_push (w := w.markGone p) (b := ⟨p, .close (.release r)⟩) hth
      (.of_errand rfl nofun) u
  · rw [hmore]
    exact .inl rfl

theorem PartsWith.extends (h : w.PartsWith t n x w') (hth : ∃ th, w.threads[t]? = some th)
    (u : Nat) : w.Extends w' e u := by
  cases h with
  | own hpt =>
    exact extends_push (w := w.surrender n) hth (.of_errand hpt.opens.charges hpt.errand_ne) u
  | foreign p hpt =>
    exact extends_push (w := (w.surrender n).onPool p fun q => (q.refuseReturn .done).pool) hth
      (.of_errand hpt.opens.charges hpt.errand_ne) u

theorem Called.extends (hc : w.Called e f) (u : Nat) : w.Extends f.world e u := by
  cases hc with
  | spawn =>
    have hnew : ∀ th ∈ [({} : Thread ρ)], th.stack = [] := by simp
    exact .inl (stackOf_append hnew rfl u)
  | create hw =>
    obtain ⟨keeper, ths, hths, rfl⟩ := create_cases hw
    exact .inl (stackOf_append hths rfl u)
  | @drop t p _ _ _ ht =>
    exact extends_forsake (w := w.onPool p fun q => { q with clones := q.clones - 1 })
      (thread_of_isFree ht) p .done u
  | @begin t p _ o _ _ ht => exact extends_push (thread_of_isFree ht) (Event.begins_opening t p o) u
  | giveBack _ _ ht _ _ => exact (giveBack_parts ..).extends (thread_of_isFree ht) u
  | invalidate _ _ ht _ _ => exact (invalidate_parts ..).extends (thread_of_isFree ht) u
  | letGo ht _ _ => exact (letGo_parts ..).extends (thread_of_isFree ht) u
  | _ => exact .inl rfl

theorem extends_keeperStep {k : Keeper} (hth : ∃ th, w.threads[t]? = some th)
    (hk : w.keeperStep t k = some f) (u : Nat) : w.Extends f.world e u := by
  obtain ⟨th, hth⟩ := hth
  have henter : ∀ phase, (w.enter t k phase).stackOf u = w.stackOf u := by
    intro phase
    rw [enter, stackOf_onThread hth]
    split
    · rename_i htu
      subst htu
      exact (stackOf_eq hth).symm
    · rfl
  rcases (keeperStep_cases hk).2 with ⟨phase, hf⟩ | ⟨q, -, hf⟩
  · rw [hf]
    exact .inl (henter phase)
  · rw [hf]
    have hextends := extends_push (w := w.enter t k .working) (e := e) (b := ⟨k.pool, .upkeep⟩)
      ⟨_, getElem?_onThread hth _⟩ (.of_errand rfl fun h => by cases h) u
    unfold Extends at hextends
    rwa [henter] at hextends

/-- On each thread an event begins a call at most, or some call runs for a stretch. -/
theorem react_extends (hr : w.react e = some f) :
    (∀ u, w.Extends f.world e u) ∨ ∃ t a q s, w.Works e f t a q s := by
  cases react_happens hr with
  | called hc => exact .inl hc.extends
  | keeps _ hth _ hk => exact .inl (extends_keeperStep ⟨_, hth⟩ hk)
  | works h => exact .inr ⟨_, _, _, _, h⟩

/-! ## Where a call comes from -/

theorem callAt_eq_none : w.callAt t d = none ↔ (w.stackOf t).length ≤ d := by
  rw [callAt, List.getElem?_eq_none_iff, List.length_reverse]

/-- A call that is on its way after an event was there before and did not run, or the event has
    begun it, or it is where a stretch has left it. -/
theorem callAt_cases (hw : w.Sound g) (hr : w.react e = some f)
    (hb : f.world.callAt t d = some b) :
    (w.callAt t d = some b ∧ Episode.runs t d ⟨w, e, f⟩ = false) ∨ e.Begins t b ∨
      ∃ a q s, Episode.IsTurn t d ⟨w, e, f⟩ a q s ∧ w.callAt t d = some a ∧ b.pool = a.pool ∧
        f.reply = none ∧
        (s.next = .go b.point ∨ ∃ r, s.next = .finish r ∧ b.point = .close (.release r)) := by
  cases ha : w.callAt t d with
  | some a =>
    rcases react_callAt hw hr ha with ⟨still, hstays⟩ | ⟨runs, q, s, works, turned⟩
    · obtain rfl := Option.some.inj (hstays.symm.trans hb)
      exact .inl ⟨rfl, still⟩
    · refine .inr (.inr ⟨a, q, s, ⟨hr, runs, works, turned⟩, rfl, ?_⟩)
      obtain ⟨rest, hstack, hturn⟩ := works.stackOf
      have hd : d = rest.length := by
        have hlen : (w.stackOf t).length = d + 1 := (of_decide_eq_true runs).2
        rw [hstack, List.length_cons] at hlen
        omega
      have hat : ∀ {y : Activity ρ}, f.world.stackOf t = y :: rest → y = b := by
        intro y hy
        rw [callAt, hy, getElem?_reverse_cons, if_pos hd] at hb
        exact Option.some.inj hb
      rcases hturn with ⟨pt, hn, hreply, hs⟩ | ⟨r, hn, ⟨-, hs⟩ | ⟨hreply, -, -, hs⟩⟩
      · obtain rfl := hat hs
        exact ⟨rfl, hreply, .inl hn⟩
      · -- the call is over
        have hnone : f.world.callAt t d = none := callAt_eq_none.mpr (by rw [hs, hd])
        exact absurd (hnone.symm.trans hb) (Option.some_ne_none b).symm
      · obtain rfl := hat hs
        exact ⟨rfl, hreply, .inr ⟨r, hn, rfl⟩⟩
  | none =>
    have hle := callAt_eq_none.mp ha
    have hlt := lt_of_callAt hb
    rcases react_extends hr with hextends | ⟨u, a, q, s, h⟩
    · rcases hextends t with hsame | ⟨b', hpush, hbegins⟩
      · rw [hsame] at hlt
        omega
      · rw [callAt, hpush, getElem?_reverse_cons] at hb
        rw [hpush, List.length_cons] at hlt
        rw [if_pos (by omega)] at hb
        exact .inr (.inl (Option.some.inj hb ▸ hbegins))
    · -- a stretch adds no call to a thread
      exfalso
      by_cases hu : u = t
      · subst hu
        obtain ⟨rest, hstack, hturn⟩ := h.stackOf
        rw [hstack, List.length_cons] at hle
        have hlen : (f.world.stackOf u).length ≤ rest.length + 1 := by
          rcases hturn with ⟨pt, -, -, hs⟩ | ⟨r, -, ⟨-, hs⟩ | ⟨-, -, -, hs⟩⟩
          · exact Nat.le_of_eq (congrArg List.length hs)
          · exact hs ▸ Nat.le_succ _
          · exact Nat.le_of_eq (congrArg List.length hs)
        omega
      · rw [h.stackOf_of_ne hu] at hlt
        omega

end World

/-! ## Borrows -/

theorem Point.Sweeping.site {k : Sweeper} {pt : Point ρ} (h : pt.Sweeping k) :
    pt.site? = k.site? := by
  cases h <;> rfl

/-- A borrow that goes on does so for the caller who began it. -/
theorem Pool.Quests.site {p : Pool ρ} {now : Instant} {pt pt' : Point ρ} {deed : Option Deed}
    {s : Stretch ρ} (h : p.Quests now pt deed s) (hn : s.next = .go pt')
    (hk : pt'.errand = .borrow) : pt'.Quests ∧ pt'.site? = pt.site? := by
  have hgo : ∀ {x : Point ρ}, s.next = .go x → x.Quests ∧ x.site? = pt.site? →
      pt'.Quests ∧ pt'.site? = pt.site? := by
    intro x hx hgoal
    obtain rfl := Next.go.inj (hn.symm.trans hx)
    exact hgoal
  have hend : ∀ {r : Reply}, s.next = .finish r → pt'.Quests ∧ pt'.site? = pt.site? :=
    fun hx => nomatch hn.symm.trans hx
  -- a borrower finds something, waits, or gives up
  have hseeks : ∀ {b : Borrowing} {x : Option Nat}, pt.site? = some b.site → p.Seeks b x s →
      pt'.Quests ∧ pt'.site? = pt.site? := by
    intro b x hsite hlooks
    cases hlooks with
    | shut _ next => exact hend next
    | takes _ _ _ next => exact hgo next ⟨.tries .., hsite.symm⟩
    | reserves _ _ _ _ next => exact hgo next ⟨.makes _, hsite.symm⟩
    | givesUp _ _ next => exact hend next
    | waits _ _ next => exact hgo next ⟨.waits .., hsite.symm⟩
  -- what is unfit is given up, after which the borrower looks again or has its reply
  have hgives : ∀ {id : Nat} {b : Borrowing} {fresh : Bool} {err : PoolError},
      pt.site? = some b.site → s.Discards p id (b.afterwards fresh err) →
      pt'.Quests ∧ pt'.site? = pt.site? := by
    intro id b fresh err hsite hdiscards
    obtain ⟨v, hv⟩ := hdiscards.next
    cases fresh with
    | false => exact hgo hv ⟨.drops .., hsite.symm⟩
    | true =>
      obtain rfl := Next.go.inj (hn.symm.trans hv)
      cases hk
  cases h with
  | sweeps _ _ next => exact hgo next ⟨.sweeps _ (.next ..), rfl⟩
  | begins _ _ next => exact hgo next ⟨.seeks _, rfl⟩
  | clears stood stands next => exact hgo next ⟨.sweeps _ stands, stands.site.trans stood.site.symm⟩
  | swept _ next => exact hgo next ⟨.seeks _, rfl⟩
  | seeks looks => exact hseeks rfl looks
  | returns looks => exact hseeks rfl looks
  | stiff _ gives => exact hgives rfl gives
  | ready _ next => exact hgo next ⟨.checks .., rfl⟩
  | hands _ next => exact hend next
  | fit next => exact hend next
  | unfit gives => exact hgives rfl gives
  | dropped next => exact hgo next ⟨.seeks _, rfl⟩
  | unmade _ next => exact hend next
  | made _ next => exact hgo next ⟨.tries .., rfl⟩
  | late _ _ next =>
    obtain rfl := Next.go.inj (hn.symm.trans next)
    cases hk
  | failed next => exact hend next

theorem Point.errand_of_site {pt : Point ρ} {site : String} (h : pt.site? = some site) :
    pt.errand = .borrow := by
  have hsweeper : ∀ {k : Sweeper}, k.site? = some site → k.errand = .borrow := by
    intro k hk
    cases k with
    | borrow b => rfl
    | upkeep n => exact nomatch hk
  cases pt with
  | borrow | seek | waiting => rfl
  | creating m =>
    cases m with
    | lend b => rfl
    | stock k => exact nomatch h
  | activating id x =>
    cases x with
    | lend b fresh => rfl
    | test tests n => exact nomatch h
  | validating id c =>
    cases c with
    | trial x =>
      cases x with
      | lend b fresh => rfl
      | test tests n => exact nomatch h
    | stock k => exact nomatch h
    | takeBack answer => exact nomatch h
  | reclaiming xs n k => exact hsweeper h
  | reporting r x rest n k => exact hsweeper h
  | destroying id v mode k =>
    cases k with
    | seek b => rfl
    | reclaim rest n k => exact hsweeper h
    | _ => exact nomatch h
  | _ => exact nomatch h

/-- A borrow `a` on the thread `t` that began with the event `o`: a caller asked for an object, and
    the borrow keeps the place the call came from. -/
def Event.Asks (t : Nat) (o : Event ρ) (a : Activity ρ) : Prop :=
  a.point.errand = .borrow → a.point.Quests ∧ ∃ timeout site,
    o = .begin t a.pool (.borrow timeout site) ∧ a.point.site? = some site

section Runs

open World

variable {es : List (Episode ρ)} {w : World ρ} {e : Event ρ} {f : Effect ρ} {t i id : Nat}
  {a : Activity ρ} {q : Pool ρ} {s : Stretch ρ}

/-- A call that runs has a turn. -/
theorem World.Works.isTurn {g : Nat → List Nat} (h : w.Works e f t a q s) (hw : w.Sound g)
    (hr : w.react e = some f) :
    ∃ d, w.callAt t d = some a ∧ Episode.IsTurn t d ⟨w, e, f⟩ a q s := by
  obtain ⟨rest, hstack, -⟩ := h.stackOf
  have hat : w.callAt t rest.length = some a := by
    rw [callAt, hstack, getElem?_reverse_cons, if_pos rfl]
  refine ⟨rest.length, hat, ?_⟩
  rcases react_callAt hw hr hat with ⟨still, -⟩ | ⟨runs, q', s', h', turned⟩
  · exact absurd ⟨h.thread, congrArg List.length hstack⟩ (of_decide_eq_false still)
  · obtain rfl := Option.some.inj (h.pool.symm.trans h'.pool)
    obtain rfl : s' = s := by
      rcases h.runs with ⟨rfl, hs⟩ | ⟨r, rfl, hs⟩
      · rcases h'.runs with ⟨-, hs'⟩ | ⟨r, hev, -⟩
        · exact Option.some.inj (hs'.symm.trans hs)
        · cases hev
      · rcases h'.runs with ⟨hev, -⟩ | ⟨r', hev, hs'⟩
        · cases hev
        · cases hev
          exact Option.some.inj (hs'.symm.trans hs)
    exact ⟨hr, runs, h, turned⟩

/-- Each borrow on a thread began when a caller asked for an object. -/
theorem Run.asks (h : Run es w) (t : Nat) :
    List.Forall₂ (Event.Asks t) (origins t es) (w.stackOf t) := by
  induction h with
  | start => exact .nil
  | @next es w e f run react ih =>
    rcases react_extends react with hextends | ⟨u, a, q, s, h⟩
    · rcases hextends t with hsame | ⟨b, hpush, hbegins⟩
      · rwa [origins_of_eq hsame, hsame]
      · rw [origins_of_push hpush, hpush]
        refine .cons (fun hk => ?_) ih
        obtain ⟨timeout, site, rfl, hpt⟩ := hbegins.borrow hk
        exact ⟨hpt ▸ .begins _, timeout, site, rfl, hpt ▸ rfl⟩
    · by_cases hu : u = t
      · subst hu
        obtain ⟨d, -, hturn⟩ := h.isTurn run.sound react
        obtain ⟨rest, hstack, hnext⟩ := h.stackOf
        rw [hstack] at ih
        obtain ⟨o, os, ho, hos, horigins⟩ := List.forall₂_cons_right_iff.mp ih
        rcases hnext with ⟨pt, hn, -, hnew⟩ | ⟨r, -, ⟨-, hnew⟩ | ⟨-, -, -, hnew⟩⟩
        · rw [origins_of_turn hstack hnew, hnew, horigins]
          refine .cons (fun hk => ?_) hos
          -- what is a borrow after the turn was one before
          have hold : a.point.errand = .borrow := by
            have hleads := h.counts.leads
            rw [hn] at hleads
            have hopen : pt.errand.reply? = none := hk ▸ rfl
            exact (hleads.eq_of_open hopen).symm.trans hk
          obtain ⟨hquests, timeout, site, rfl, hsite⟩ := ho hold
          obtain ⟨hquests', hsame⟩ := (hturn.quests run.sound hquests).site hn hk
          exact ⟨hquests', timeout, site, rfl, hsame.trans hsite⟩
        · rw [origins_of_pop (hnew ▸ hstack), hnew, horigins]
          exact hos
        · rw [origins_of_turn hstack hnew, hnew, horigins]
          exact .cons (fun hk => nomatch hk) hos
      · have hsame := h.stackOf_of_ne hu
        rwa [origins_of_eq hsame, hsame]

/-- Where the borrow came from on whose behalf a call runs in an episode. -/
def Episode.site? (e : Episode ρ) : Option String := e.call?.bind fun a => a.point.site?

/-- Whoever gets an object has asked its pool for one, and the place is known where it did. -/
theorem Run.borrower (run : Run es w) (react : w.react e = some f)
    (h : Episode.handsOut i id ⟨w, e, f⟩ = true) :
    ∃ t timeout site, Episode.thread? ⟨w, e, f⟩ = some t ∧
      (origins t es).head? = some (.begin t i (.borrow timeout site)) ∧
      Episode.site? ⟨w, e, f⟩ = some site := by
  obtain ⟨t, a, q, s, hworks, rfl, hn⟩ := works_of_handsOut react h
  obtain ⟨rest, hstack, -⟩ := hworks.stackOf
  have hasks := run.asks t
  rw [hstack] at hasks
  obtain ⟨o, os, ho, -, horigins⟩ := List.forall₂_cons_right_iff.mp hasks
  have hborrow : a.point.errand = .borrow := by
    obtain ⟨_, _, _, _, _, works, borrower, -⟩ := (run.files react a.pool id).of_handsOut h
    obtain rfl := Option.some.inj (hworks.call.symm.trans works.call)
    exact Point.errand_of_site borrower
  obtain ⟨-, timeout, site, rfl, hsite⟩ := ho hborrow
  refine ⟨t, timeout, site, hworks.thread, by rw [horigins]; rfl, ?_⟩
  rw [Episode.site?, hworks.call]
  exact hsite

/-! ## Since when something holds of a call -/

/-- What holds of a call that is on its way, and of none that begins, came about in a turn of the
    call. If `Q` holds after such a turn, and in every later world in which the call is still so,
    then it holds in the end. -/
theorem Run.since {d : Nat} (P : Activity ρ → Prop)
    (Q : List (Episode ρ) → Episode ρ → World ρ → Prop)
    (charged : ∀ b, P b → b.point.charges ≠ [])
    (turn : ∀ {es : List (Episode ρ)} {w : World ρ} {e : Event ρ} {f : Effect ρ} {b : Activity ρ}
      {q : Pool ρ} {s : Stretch ρ} {pt : Point ρ}, Run es w → w.react e = some f →
      w.Works e f t b q s → s.next = .go pt → P ⟨b.pool, pt⟩ → P b ∨ Q [] ⟨w, e, f⟩ f.world)
    (keep : ∀ {es newer : List (Episode ρ)} {w : World ρ} {e : Event ρ} {f : Effect ρ}
      {b b' : Activity ρ} {k : Episode ρ}, Run es w → w.react e = some f →
      w.callAt t d = some b → P b → f.world.callAt t d = some b' → P b' → Q newer k w →
      Q (⟨w, e, f⟩ :: newer) k f.world)
    (run : Run es w) (ha : w.callAt t d = some a) (h : P a) :
    ∃ newer k older, es = newer ++ k :: older ∧ k.runs t d = true ∧ answer? t d newer = none ∧
      Q newer k w := by
  induction run generalizing a with
  | start => exact nomatch ha
  | @next es w e f run react ih =>
    -- an episode in which the call was so before is one more since then
    have hlater : ∀ {b : Activity ρ}, w.callAt t d = some b → P b →
        (∀ {l : List (Episode ρ)}, answer? t d l = none → answer? t d (⟨w, e, f⟩ :: l) = none) →
        ∃ newer k older, ⟨w, e, f⟩ :: es = newer ++ k :: older ∧ k.runs t d = true ∧
          answer? t d newer = none ∧ Q newer k f.world := by
      intro b hb hP hnone
      obtain ⟨newer, k, older, rfl, hruns, hanswer, hQ⟩ := ih hb hP
      exact ⟨_ :: newer, k, older, rfl, hruns, hnone hanswer, keep run react hb hP ha h hQ⟩
    rcases callAt_cases run.sound react ha with ⟨hb, still⟩ | hbegins | ⟨b, q, s, hturn, hb, hpool,
        hreply, hgo | ⟨r, -, hclose⟩⟩
    · exact hlater hb h fun hanswer => (answer?_of_rests _ still).1.trans hanswer
    · exact absurd hbegins.clean (charged a h)
    · rcases turn run react hturn.works hgo (hpool ▸ h) with hold | hnew
      · exact hlater hb hold fun hanswer => (answer?_of_runs hanswer hturn.runs).1.trans hreply
      · exact ⟨[], ⟨w, e, f⟩, es, rfl, hturn.runs, rfl, hnew⟩
    · exact absurd (congrArg Point.charges hclose) (charged a h)

end Runs

end ObjectPool
