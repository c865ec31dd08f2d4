/-
  ObjectPool.Proofs.LateBorrows

  Borrows that are on their way when their pool is closed, in every run. A borrower gets an
  object then only if the factory readied that object for it already: it was picked while the
  pool was open, and nobody looks again before it is handed out. Any other borrow ends with
  the reply that the pool is closed, unless the factory fails first, and the object that is
  made for it is destroyed at once.

    * `Run.begun` — a borrow goes on as a borrow until it ends.
    * `Run.windsUp` — on a closed pool it ends in a few turns, as its outlook says.
    * `Run.handedOut` — an object that a borrower comes to have was handed out.
    * `EndsBorrows`, `closing_ends_borrows` — the main statement.
-/

import ObjectPool.Proofs.Draining
import ObjectPool.Proofs.Stretch.Outlook

namespace ObjectPool

variable {ρ : Type}

/-- A borrow from the pool `i` begins in an episode, on the thread `t` above `d` calls. -/
def Episode.BeginsBorrow (t d i : Nat) (e : Episode ρ) : Prop :=
  ∃ timeout site, e.event = .begin t i (.borrow timeout site) ∧ (e.before.stackOf t).length = d

/-- The call has ended in some episodes with a reply that `o` allows, or is on its way to one. -/
def Concludes (es : List (Episode ρ)) (w : World ρ) (t d i : Nat) (o : Outlook) : Prop :=
  (∃ r, answer? t d es = some r ∧ o.Allows r) ∨
    (answer? t d es = none ∧ ∃ pt o', w.callAt t d = some ⟨i, pt⟩ ∧ pt.outlook = some o' ∧
      ∀ r, o'.Allows r → o.Allows r)

/-- A call `a` of the world `w₀`, with the outlook `o` on a closed pool, has got to `b` in the
    world `w`, in the turns `ts`. -/
structure Winding (w₀ : World ρ) (a : Activity ρ) (o : Outlook) (ts : List (Episode ρ))
    (w : World ρ) (b : Activity ρ) : Prop where
  pool : b.pool = a.pool
  outlook : ∃ o', b.point.outlook = some o' ∧ ∀ r, o'.Allows r → o.Allows r
  left : ts.length + w.turnsLeft a.pool b.point.span ≤ w₀.turnsLeft a.pool a.point.span

section Runs

variable {es later older newer : List (Episode ρ)} {w w₀ : World ρ} {e : Episode ρ}
  {ev : Event ρ} {f : Effect ρ} {t d i id : Nat} {a b : Activity ρ} {p₀ q : Pool ρ}
  {s : Stretch ρ} {o : Outlook}

/-! ## A borrow from its beginning -/

theorem World.Works.isBorrow (h : w.Works ev f t a q s) (hb : a.point.isBorrow = true) :
    s.next.isBorrow = true := by
  rcases h.runs with ⟨-, hs⟩ | ⟨c, -, hs⟩
  · exact Pool.advance_isBorrow hb hs
  · exact Pool.respond_isBorrow hb hs

/-- A call that begins is on top of its thread. -/
theorem Episode.BeginsBorrow.callAt (h : e.BeginsBorrow t d i)
    (hr : e.before.react e.event = some e.effect) :
    ∃ b, e.after.callAt t d = some ⟨i, .borrow b⟩ := by
  obtain ⟨timeout, site, hbegin, rfl⟩ := h
  rw [hbegin, World.react] at hr
  split at hr
  · rename_i hfree
    have hstack := World.stackOf_push (World.thread_of_isFree hfree.2)
      ⟨i, (Opening.borrow timeout site).point⟩ t
    rw [if_pos rfl] at hstack
    refine ⟨{ timeout, site }, ?_⟩
    rw [Episode.after, ← Option.some.inj hr, World.callAt, hstack, World.getElem?_reverse_cons,
      if_pos rfl]
    rfl
  · cases hr

/-- A borrow goes on as a borrow until it ends. -/
theorem Run.begun (h : Run (newer ++ e :: older) w) (hb : e.BeginsBorrow t d i) :
    (∃ r, answer? t d newer = some r) ∨
      (answer? t d newer = none ∧
        ∃ pt, w.callAt t d = some ⟨i, pt⟩ ∧ pt.isBorrow = true) := by
  obtain ⟨es', -, hr⟩ := h.of_mem (List.mem_append_right _ (List.mem_cons_self ..))
  obtain ⟨b, hat⟩ := hb.callAt hr
  -- a borrow stays one in every turn, whether its pool is open or not
  refine (h.upto.follow (fun _ _ c => c.pool = i ∧ c.point.isBorrow = true) (fun _ _ => True) h hat
    ⟨rfl, rfl⟩ ?_ ?_).elim ?_ ?_
  · intro later w e f b ts run react hi
    exact hi
  · rintro later w e f b q s ts run react hworks hturn ⟨rfl, hborrow⟩
    have hnext := hworks.isBorrow hborrow
    generalize s.next = next at hturn hnext
    cases hturn with
    | goesOn hreply hc => exact .inr ⟨hreply, _, hc, rfl, hnext⟩
    | answers hreply => exact .inl ⟨_, hreply, trivial⟩
    | closes hreply hc _ _ => exact .inr ⟨hreply, _, hc, rfl, rfl⟩
  · rintro ⟨r, hend, -⟩
    exact .inl ⟨r, hend⟩
  · rintro ⟨hnone, ⟨i', pt⟩, hc, rfl, hpt⟩
    exact .inr ⟨hnone, pt, hc, hpt⟩

/-! ## Its end on a closed pool -/

theorem World.Works.within (h : w.Works ev f t a q s) (hc : q.closed = true)
    (ho : a.point.outlook = some o) : s.next.Within o a.point.span := by
  rcases h.runs with ⟨-, hs⟩ | ⟨c, -, hs⟩
  · exact Pool.advance_within hc ho hs
  · exact Pool.respond_within hc ho hs

/-- One turn more of a call on a closed pool: the call ends as its outlook says, or it has no more
    replies left than before and comes nearer to its end. -/
theorem Winding.turn {ts : List (Episode ρ)} {g : Nat → List Nat} (h : Winding w₀ a o ts w b)
    (hw : w.Sound g) (hr : w.react ev = some f) (hworks : w.Works ev f t b q s)
    (hturn : World.Turned f t d b q s.next) (hc : q.closed = true) :
    (∃ r, f.reply = some r ∧ o.Allows r ∧
        (⟨w, ev, f⟩ :: ts).length ≤ w₀.turnsLeft a.pool a.point.span) ∨
      (f.reply = none ∧ ∃ c, f.world.callAt t d = some c ∧
        Winding w₀ a o (⟨w, ev, f⟩ :: ts) f.world c) := by
  obtain ⟨o', ho, hle⟩ := h.outlook
  have hwithin := hworks.within hc ho
  have hleft := h.left
  -- the turns so far get one more, and those left get fewer
  have hlonger : ∀ {n : Nat}, n < w.turnsLeft a.pool b.point.span →
      (⟨w, ev, f⟩ :: ts : List (Episode ρ)).length + n ≤ w₀.turnsLeft a.pool a.point.span := by
    intro n hn
    rw [List.length_cons]
    omega
  generalize s.next = next at hturn hwithin
  cases hturn with
  | goesOn hreply hat =>
    obtain ⟨hspan, o₁, ho₁, hle₁⟩ := hwithin
    have hless := World.react_turnsLeft_lt hw hr a.pool hspan
    exact .inr ⟨hreply, _, hat, h.pool, ⟨o₁, ho₁, fun r hr => hle r (hle₁ r hr)⟩, hlonger hless⟩
  | @answers r hreply =>
    exact .inl ⟨r, hreply, hle r hwithin, hlonger (Nat.add_pos_left b.point.span_pos _)⟩
  | @closes r hreply hat hq hg =>
    have hless : f.world.turnsLeft a.pool 1 < w.turnsLeft a.pool b.point.span :=
      World.turnsLeft_closing (h.pool ▸ hworks.pool) hq (h.pool ▸ hg) b.point.span_pos
    -- the reply is put off until the pool is closed, which was closed before
    have hsure : ∀ r', (Outlook.sure r).Allows r' → o.Allows r' := by
      intro r' hr'
      rw [show r' = r from hr']
      exact hle r hwithin
    exact .inr ⟨hreply, _, hat, h.pool, ⟨_, rfl, hsure⟩, hlonger hless⟩

/-- A call on a closed pool ends in a few turns, as its outlook says. -/
theorem Run.windsUp (h₀ : Run es w₀) (h : Run (later ++ es) w) (hp : w₀.pools[a.pool]? = some p₀)
    (hc : p₀.closed = true) (ha : w₀.callAt t d = some a) (ho : a.point.outlook = some o) :
    Concludes later w t d a.pool o ∧
      (turns t d later).length ≤ w₀.turnsLeft a.pool a.point.span := by
  have hstart : Winding w₀ a o [] w₀ a :=
    ⟨rfl, ⟨o, ho, fun _ hr => hr⟩, Nat.le_of_eq (Nat.zero_add _)⟩
  refine (h₀.follow (Winding w₀ a o) (fun ts r => o.Allows r ∧
    ts.length ≤ w₀.turnsLeft a.pool a.point.span) h ha hstart ?_ ?_).elim ?_ ?_
  · intro later w e f b ts run react hwind
    have hfewer := World.react_turnsLeft run.sound react a.pool b.point.span
    exact ⟨hwind.pool, hwind.outlook, Nat.le_trans (Nat.add_le_add_left hfewer _) hwind.left⟩
  · intro later w e f b q s ts run react hworks hturn hwind
    obtain ⟨q', hq, hf⟩ := h₀.fades run hp hc
    obtain rfl := Option.some.inj ((hwind.pool ▸ hworks.pool).symm.trans hq)
    exact hwind.turn run.sound react hworks hturn hf.closed
  · rintro ⟨r, hend, hallows, hlen⟩
    exact ⟨.inl ⟨r, hend, hallows⟩, hlen⟩
  · rintro ⟨hnone, ⟨i', pt⟩, hb, rfl, ⟨o', ho', hle⟩, hleft⟩
    exact ⟨.inr ⟨hnone, pt, o', hb, ho', hle⟩, Nat.le_trans (Nat.le_add_right ..) hleft⟩

/-! ## The objects -/

/-- An object that a call had ready for a borrower, and a borrower has, was handed out since. -/
theorem Run.handedOut (h₀ : Run es w₀) (h : Run (later ++ es) w) (hid : id ∈ w₀.readied i)
    (hactive : id ∈ w.activeOf i) (hfree : claims id ((w.points i).flatMap Point.charges) = []) :
    ∃ l ∈ later, l.handsOut i id = true := by
  -- back to the episode in which the object got out of the charge of the call
  induction later generalizing w with
  | nil =>
    obtain rfl := h.unique h₀
    exact absurd (World.mem_readied.mp hid) (claims_eq_nil_iff.mp hfree _)
  | cons e later ih =>
    cases h with
    | next run react =>
      rw [List.exists_mem_cons_iff]
      rcases World.react_at react i with ⟨hspares, -⟩ | ⟨t, a, q, s, hworks, rfl⟩
      · rw [hspares.activeOf] at hactive
        exact .inr (ih run hactive ((hspares.claims_charges id).mp hfree))
      · rw [hworks.activeOf] at hactive
        rcases run.lent_cases hworks hactive hfree with ⟨hbefore, hfree'⟩ | hn
        · exact .inr (ih run hbefore hfree')
        · exact .inl (hworks.handsOut hn)

/-- An object that is readied for a borrower when the pool is closed is handed out, or destroyed in
    the end. -/
theorem Run.fate (h₀ : Run es w₀) (h : Run (later ++ es) w) (hp₀ : w₀.pools[i]? = some p₀)
    (hc : p₀.closed = true) (hid : id ∈ w₀.readied i) :
    id ∈ w.readied i ∨ (∃ l ∈ later, l.handsOut i id = true) ∨
      id ∈ w.inCharge i Custody.isSpare ∨ id ∈ graves later i := by
  obtain ⟨p, hp, hf⟩ := h₀.fades h hp₀ hc
  have hsound := (h₀.sound.pools i).sound p₀ hp₀
  have hcharge := World.mem_readied.mp hid
  have hgrave : id ∉ graves es i := hsound.not_grave_of_charge hcharge
  have hmade : id < p.entries.length :=
    Nat.lt_of_lt_of_le (hsound.made_of_charge hcharge) (h₀.length_entries h hp₀ hp)
  -- it is not idle, for nothing is idle in a closed pool
  rcases h.whereabouts hp hf.closed hmade with (hready | ⟨hactive, hfree⟩) | hspare | hdead
  · exact .inl hready
  · exact .inr (.inl (h₀.handedOut h hid hactive hfree))
  · exact .inr (.inr (.inl hspare))
  · rw [graves_append] at hdead
    exact .inr (.inr (.inr ((List.mem_append.mp hdead).resolve_right hgrave)))

/-- A borrow from a closed pool ends with an object only if the factory readied that object for it
    when the pool was closed. -/
theorem Run.readied_of_handsOut (h₀ : Run es w₀) (h : Run (later ++ es) w)
    (hp₀ : w₀.pools[i]? = some p₀) (hc : p₀.closed = true) {l : Episode ρ} (hl : l ∈ later)
    (hout : l.handsOut i id = true) : id ∈ w₀.readied i := by
  obtain ⟨-, older, -, -, hbefore, hr, -, -⟩ := h₀.midway h hp₀ hc hl
  obtain ⟨t, a, q, s, hworks, rfl, hn⟩ := World.works_of_handsOut hr hout
  exact h₀.readied hbefore hp₀ hc (hworks.readied_of_finish hbefore.sound hn)

/-- An object that the factory readies for a borrower was picked last while its pool was open. -/
theorem Run.picked_of_readied (h : Run es w) (hid : id ∈ w.readied i) :
    ∃ k, es.find? (Episode.picks i id) = some k ∧ k.before.isOpen i = true := by
  obtain ⟨k, -, hk, -⟩ := (h.traced i id).readied hid
  obtain ⟨es', run, hr⟩ := h.of_mem (List.mem_of_find?_eq_some hk)
  have hpicks := (List.find?_eq_some_iff_append.mp hk).1
  obtain ⟨t, a, q, s, hworks, rfl, hp⟩ := World.works_of_picks run.sound hr hpicks
  refine ⟨k, hk, ?_⟩
  rw [World.isOpen, hworks.pool, Option.any_some, hp.opened]
  rfl

/-! ## Made too late -/

/-- The factory has answered a call that has it make an object for a borrower of a closed pool. -/
theorem World.Works.comesTooLate {b : Borrowing} {g : Nat → List Nat}
    (h : w.Works ev f t ⟨i, .creating (.lend b)⟩ q s) (hw : w.Sound g) (hc : q.closed = true) :
    (∃ id v v', Episode.born i ⟨w, ev, f⟩ = [(id, v)] ∧ Episode.buried i ⟨w, ev, f⟩ = [id] ∧
        s.next = .go (.destroying id v' .normal (.reply (.failed .closed)))) ∨
      ∃ reason, ev = .answer t (.created (.error reason)) ∧
        s.next = .finish (.failed (.factory .create reason)) := by
  rcases h.runs with ⟨-, hs⟩ | ⟨c, rfl, hs⟩
  · exact nomatch hs
  · cases Pool.answered_of_respond hs with
    | notCreated m reason => exact .inr ⟨reason, rfl, rfl⟩
    | createdForLoan b v =>
      have hnext := Pool.createdForLoan_closed hc w.now b v
      refine .inl ⟨q.entries.length, v, v, ?_, ?_, hnext⟩
      · have htop : w.top? t = some ⟨i, .creating (.lend b)⟩ := h.top
        have hpool : w.pools[i]? = some q := h.pool
        simp only [Episode.born, htop, hpool, if_true]
        rfl
      · have hburied := h.buried hw
        rw [Stretch.buried, hnext] at hburied
        exact hburied

/-- A call that has the factory make an object for a borrower of a closed pool waits for it, or the
    object was destroyed when it came, or the factory refused to make it. -/
theorem Run.madeTooLate {b : Borrowing} (h₀ : Run es w₀) (h : Run (later ++ es) w)
    (hp₀ : w₀.pools[i]? = some p₀) (hc : p₀.closed = true)
    (ha : w₀.callAt t d = some ⟨i, .creating (.lend b)⟩) :
    (turns t d later = [] ∧ w.callAt t d = some ⟨i, .creating (.lend b)⟩) ∨
      ∃ e, (turns t d later).getLast? = some e ∧
        ((∃ id v, e.born i = [(id, v)] ∧ e.buried i = [id] ∧
            Settles later w t d i (.failed .closed)) ∨
          ∃ reason, e.event = .answer t (.created (.error reason)) ∧
            Settles later w t d i (.failed (.factory .create reason))) := by
  rcases h₀.firstTurn_closed h hp₀ hc ha with hrests | ⟨e, q, s, hlast, hworks, ⟨g, hw⟩, hq, hends⟩
  · exact .inl hrests
  · refine .inr ⟨e, hlast, ?_⟩
    rcases hworks.comesTooLate hw hq with ⟨id, v, v', hborn, hburied, hn⟩ | ⟨reason, hev, hn⟩
    · exact .inl ⟨id, v, hborn, hburied, hends _ (.inr ⟨_, hn, rfl⟩)⟩
    · exact .inr ⟨reason, hev, hends _ (.inl hn)⟩

/-! ## Main statement -/

/-- What became of the borrows from the pool `i`, which was closed in the world `w₀`, by the world
    `w`, to which the episodes `later` led. -/
structure EndsBorrows (es later : List (Episode ρ)) (w₀ w : World ρ) (i : Nat) : Prop where
  /-- A borrow gets an object only if the factory readied it for the borrow when the pool was
      closed; it was picked while the pool was open. -/
  lent : ∀ l ∈ later, ∀ id, l.handsOut i id = true → id ∈ w₀.readied i ∧
    ∃ k, es.find? (Episode.picks i id) = some k ∧ k.before.isOpen i = true
  /-- Such an object is handed out, or destroyed in the end. -/
  fate : ∀ id ∈ w₀.readied i, id ∈ w.readied i ∨ (∃ l ∈ later, l.handsOut i id = true) ∨
    id ∈ w.inCharge i Custody.isSpare ∨ id ∈ graves later i
  /-- An object that is made for a borrower comes too late: it is destroyed at once, and the borrow
      ends with the reply that the pool is closed. -/
  made : ∀ t d b, w₀.callAt t d = some ⟨i, .creating (.lend b)⟩ →
    (turns t d later = [] ∧ w.callAt t d = some ⟨i, .creating (.lend b)⟩) ∨
      ∃ e, (turns t d later).getLast? = some e ∧
        ((∃ id v, e.born i = [(id, v)] ∧ e.buried i = [id] ∧
            Settles later w t d i (.failed .closed)) ∨
          ∃ reason, e.event = .answer t (.created (.error reason)) ∧
            Settles later w t d i (.failed (.factory .create reason)))
  /-- A borrow that began before and has not ended has few turns more, and ends with a reply that
      is left to it where it stands. -/
  ends : ∀ newer e older t d, es = newer ++ e :: older → e.BeginsBorrow t d i →
    answer? t d newer = none → ∃ pt o, w₀.callAt t d = some ⟨i, pt⟩ ∧ pt.outlook = some o ∧
      Concludes later w t d i o ∧ (turns t d later).length ≤ pt.span + 1
  /-- No borrow is kept waiting but for the factory, or for the end of the background upkeep. -/
  goesOn : ∀ t d pt, w.callAt t d = some ⟨i, pt⟩ → pt.isBorrow = true → pt.isRequest = false →
    (∀ k drained c, pt ≠ .joining k drained c) → (w.step t).isSome = true

/-- In every run the borrows from a pool that was closed come to their ends: with an object only
    if it had been picked before. -/
theorem closing_ends_borrows (h₀ : Run es w₀) (h : Run (later ++ es) w)
    (hp₀ : w₀.pools[i]? = some p₀) (hc : p₀.closed = true) : EndsBorrows es later w₀ w i where
  lent := fun l hl id hout => by
    have hready := h₀.readied_of_handsOut h hp₀ hc hl hout
    exact ⟨hready, h₀.picked_of_readied hready⟩
  fate := fun id => h₀.fate h hp₀ hc
  made := fun t d b => h₀.madeTooLate h hp₀ hc
  ends := fun newer e older t d hes hb hnone => by
    subst hes
    rcases h₀.begun hb with ⟨r, hend⟩ | ⟨-, pt, hat, hborrow⟩
    · exact nomatch hnone.symm.trans hend
    · obtain ⟨o, ho⟩ := Point.outlook_of_isBorrow hborrow
      obtain ⟨hends, hturns⟩ := h₀.windsUp h hp₀ hc hat ho
      exact ⟨pt, o, hat, ho, hends, Nat.le_trans hturns (w₀.turnsLeft_le i pt.span)⟩
  goesOn := fun t d pt hat _ hreq hj => by
    obtain ⟨p, hp, hf⟩ := h₀.fades h hp₀ hc
    exact h.step_of_closed hp hf.closed hat hreq hj

end Runs

/-- The factory readies an object for one borrower and makes one for another. While it does the
    first, it closes the pool. -/
def racedEvents : List (Event Nat) :=
  [.create { maxTotal := 2 }, .spawn, .spawn,
    .begin 0 0 (.borrow none "first"), .step 0, .step 0, .answer 0 (.created (.ok 7)),
    .begin 1 0 (.borrow none "second"), .step 1, .step 1,
    .begin 0 0 .close, .step 0]

/-- The first borrower gets its object all the same, the object of the second is destroyed. -/
def lateEvents : List (Event Nat) :=
  racedEvents ++
    [.step 0, .answer 0 (.activated 7 none),
      .answer 1 (.created (.ok 8)), .answer 1 (.destroyed none)]

theorem closing_ends_borrows_of_both :
    ∃ p₀, Run (episodes racedEvents) (reached racedEvents) ∧
      Run ((episodes lateEvents).take 4 ++ episodes racedEvents) (reached lateEvents) ∧
      (reached racedEvents).pools[0]? = some p₀ ∧ p₀.closed = true ∧
      (reached racedEvents).readied 0 = [0] ∧
      answer? 0 0 ((episodes lateEvents).take 4) = some (.lent 0) ∧
      answer? 1 0 ((episodes lateEvents).take 4) = some (.failed .closed) ∧
      graves ((episodes lateEvents).take 4) 0 = [1] ∧
      EndsBorrows (episodes racedEvents) ((episodes lateEvents).take 4) (reached racedEvents)
        (reached lateEvents) 0 :=
  have h₀ : Run (episodes racedEvents) (reached racedEvents) := Run.of_events rfl
  have hall : Run (episodes lateEvents) (reached lateEvents) := Run.of_events rfl
  have h : Run ((episodes lateEvents).take 4 ++ episodes racedEvents) (reached lateEvents) := hall
  ⟨_, h₀, h, rfl, rfl, by decide +kernel, by decide +kernel, by decide +kernel, by decide +kernel,
    closing_ends_borrows h₀ h rfl rfl⟩

/-- The first borrower gets its object from a pool that is closed. -/
theorem lent_by_closed_pool :
    ∃ l p, Run (episodes lateEvents) (reached lateEvents) ∧ l ∈ episodes lateEvents ∧
      l.handsOut 0 0 = true ∧ l.before.pools[0]? = some p ∧ p.closed = true ∧
      answer? 0 0 (episodes lateEvents) = some (.lent 0) :=
  ⟨(episodes lateEvents)[2], _, Run.of_events rfl, .tail _ (.tail _ (.head _)), by decide +kernel,
    rfl, rfl, by decide +kernel⟩

end ObjectPool
