/-
  ObjectPool.Proofs.Refunds

  A call that fails gives everything back. Whoever asks for an object, for a borrower or for the
  stock, may take overdue objects from others, objects from the idle ones and a place for a new one.
  When the call ends with an error, whatever others did meanwhile, it has given up the place, it is
  in nobody's line, and all that it took or that was made for it was destroyed. If nobody else
  called the pool, the pool is as before but for what was overdue and what was refused.

    * `Striving` — a call that tries to get an object, on its way.
    * `refusedIn` — the objects that the factory has refused.
    * `Stocking` — a call for the stock on a pool that nobody else calls.
    * `GivesBack`, `failed_calls_give_back` — the main statement.
-/

import ObjectPool.Proofs.Borrowing
import ObjectPool.Proofs.Leftovers
import ObjectPool.Proofs.Stretch.Carries

namespace ObjectPool

variable {ρ : Type}

/-! ## What a call has had -/

/-- The objects that the call on the thread `t` with `d` calls below it has in its charge after an
    episode, or has given to the factory to be destroyed. -/
def Episode.has (t d : Nat) (e : Episode ρ) : List Nat :=
  ((e.after.callAt t d).map fun a => a.point.has).getD []

/-- An object was made for a call in its turns `ts`, or has been in its charge. -/
def Had (t d i : Nat) (ts : List (Episode ρ)) (id : Nat) : Prop :=
  id ∈ (births ts i).map (·.1) ∨ ∃ e ∈ ts, id ∈ e.has t d

section Course

variable {later ts : List (Episode ρ)} {w w₀ : World ρ} {g : Nat → List Nat} {t d i id : Nat}
  {a : Activity ρ} {q : Pool ρ} {s : Stretch ρ} {e : Episode ρ} {start pt : Point ρ}

/-- What is made in a turn has the next number. -/
theorem Episode.IsTurn.born (h : e.IsTurn t d a q s) (hid : id ∈ (e.born a.pool).map (·.1)) :
    id = q.entries.length ∧ e.deed? = some (.made none) := by
  have hone : id = (e.before.entriesOf a.pool).length := by
    rcases World.born_cases e.before e.event e.effect a.pool with hnone | ⟨r, hr⟩
    · rw [show e.born a.pool = [] from hnone] at hid
      exact nomatch hid
    · rw [show e.born a.pool = [_] from hr] at hid
      exact List.mem_singleton.mp hid
  refine ⟨hone.trans (by rw [World.entriesOf_eq h.works.pool]), ?_⟩
  -- the pool enlists an object only if the factory has made one
  rcases h.works.runs with ⟨hev, -⟩ | ⟨r, hev, -⟩
  · rw [Episode.born, hev] at hid
    exact nomatch hid
  · have hlen := World.length_born_answer (f := e.effect) (r := r) h.works.top a.pool
    rw [if_pos rfl, ← hev] at hlen
    have hpos : 0 < (e.born a.pool).length := by
      have hmem := List.length_pos_of_mem hid
      rwa [List.length_map] at hmem
    have hbirths : 0 < a.point.births r := hlen ▸ hpos
    rw [Episode.deed?, hev]
    show (e.before.top? t).bind _ = _
    rw [h.works.top]
    show Deed.of? a.point r = _
    generalize a.point = pt at hbirths
    cases pt with
    | creating m =>
      cases r with
      | created c =>
        cases c with
        | ok v => rfl
        | error reason => exact absurd hbirths (Nat.lt_irrefl 0)
      | _ => exact absurd hbirths (Nat.lt_irrefl 0)
    | _ => exact absurd hbirths (Nat.lt_irrefl 0)

/-! ## A call on its way -/

/-- A call on the pool `i` that tries to get an object and began at the point `start`, with the
    turns `ts` that it has had: whatever it had is still in its charge or was destroyed, and it has
    taken one place at most. -/
structure Striving (start : Point ρ) (t d i : Nat) (ts : List (Episode ρ)) (a : Activity ρ) :
    Prop where
  pool : a.pool = i
  point : start.Strives a.point
  had : ∀ id, Had t d i ts id → id ∈ a.point.charges.map (·.1) ∨ id ∈ graves ts i
  chances : ts.countP (Episode.reserves i) + a.point.chances ≤ 1

theorem Point.Strives.carries (h : start.Strives a.point) (hw : e.before.Sound g)
    (ht : e.IsTurn t d a q s) : q.Carries start a.point e.deed? s := by
  cases h with
  | quests b begun h =>
    rw [begun]
    exact (ht.quests hw h).carries
  | supplies k begun h =>
    rw [begun]
    exact (ht.supplies hw h).carries

/-- A turn after which the call goes on, but not with another object. -/
theorem Striving.turn (h : Striving start t d i ts a) (hw : e.before.Sound g)
    (ht : e.IsTurn t d a q s) (hn : s.next = .go pt)
    (hsame : ∀ f m f' m', start = .filling f m → pt ≠ .filling f' m') :
    Striving start t d i (e :: ts) ⟨a.pool, pt⟩ := by
  obtain ⟨hstrives, hkept, hmade, hchances⟩ := ((h.point.carries hw ht).onward pt hn).resolve_left
    fun ⟨f, m, f', m', hstart, hpt⟩ => hsame f m f' m' hstart hpt
  -- what the call has at the next point is in its charge, or was just destroyed
  have hhas : ∀ id ∈ pt.has, id ∈ pt.charges.map (·.1) ∨ id ∈ graves (e :: ts) i := by
    intro id hid
    refine (List.mem_append.mp hid).imp_right fun hburied => List.mem_append_left _ ?_
    have hshows : e.buried a.pool = s.buried := ht.works.buried hw
    rw [h.pool, Stretch.buried, hn] at hshows
    exact hshows ▸ hburied
  refine ⟨h.pool, hstrives, fun id hid => ?_, ?_⟩
  · have hearlier : Had t d i ts id → id ∈ pt.charges.map (·.1) ∨ id ∈ graves (e :: ts) i := by
      intro hhad
      rcases h.had id hhad with hcharge | hgrave
      · exact hhas id (hkept id hcharge)
      · exact .inr (List.mem_append_right _ hgrave)
    rcases hid with hborn | ⟨x, hx, hmem⟩
    · rw [show births (e :: ts) i = e.born i ++ births ts i from rfl, List.map_append] at hborn
      rcases List.mem_append.mp hborn with hborn | hborn
      · obtain ⟨rfl, hdeed⟩ := ht.born (h.pool ▸ hborn)
        exact hhas _ (hmade hdeed)
      · exact hearlier (.inl hborn)
    · rcases List.mem_cons.mp hx with rfl | hx
      · rw [Episode.has, (ht.goesOn hn).2] at hmem
        exact hhas id hmem
      · exact hearlier (.inr ⟨x, hx, hmem⟩)
  · have hold := h.chances
    have hreserves := (ht.moves hw).1
    rw [h.pool, hn] at hreserves
    rw [List.countP_cons, hreserves]
    simp only [decide_eq_true_eq]
    show _ + pt.chances ≤ 1
    have hplaces : (Next.go pt).places = pt.places := rfl
    split
    · rename_i hmoves
      rw [hplaces] at hmoves
      omega
    · omega

/-- The last turn, if the call fails. -/
theorem Striving.fails (h : Striving start t d i ts a) (hw : e.before.Sound g)
    (ht : e.IsTurn t d a q s) {err : PoolError} (hn : s.next = .finish (.failed err)) :
    (∀ id, id ∈ (births (e :: ts) i).map (·.1) ∨ (∃ x ∈ ts, id ∈ x.has t d) → id ∈ graves ts i) ∧
      (e :: ts).countP (Episode.reserves i) ≤ 1 := by
  obtain ⟨hcharges, hdeed⟩ := (h.point.carries hw ht).failed err hn
  -- nothing is in its charge any more, so that what it had was destroyed
  refine ⟨fun id hid => ?_, ?_⟩
  · have hhad : Had t d i ts id := by
      refine hid.imp_left fun hborn => ?_
      rw [show births (e :: ts) i = e.born i ++ births ts i from rfl, List.map_append] at hborn
      refine (List.mem_append.mp hborn).resolve_left fun hborn => ?_
      exact hdeed (ht.born (h.pool ▸ hborn)).2
    refine (h.had id hhad).resolve_left fun hcharge => ?_
    rw [hcharges] at hcharge
    exact nomatch hcharge
  · have hold := h.chances
    have hreserves := (ht.moves hw).1
    rw [h.pool, hn] at hreserves
    have hnone : ¬(a.point.places = 0 ∧ (Next.finish (ρ := ρ) (.failed err)).places = 1) :=
      fun hmoves => nomatch hmoves.2
    rw [List.countP_cons, hreserves, if_neg (by simpa using hnone)]
    omega

/-- Where a call begins that asks for an object: for a borrower, or for the stock. -/
def Point.wants : Point ρ → Bool
  | .borrow _ | .add | .filling _ _ => true
  | _ => false

theorem Point.strives_of_wants (h : start.wants = true) :
    start.Strives start ∧ start.chances = 1 ∧ start.places = 0 := by
  cases start with
  | borrow b => exact ⟨.quests b rfl (.begins b), rfl, rfl⟩
  | add => exact ⟨.supplies .add rfl .asks, rfl, rfl⟩
  | filling f m => exact ⟨.supplies (.fill f m) rfl .asks, rfl, rfl⟩
  | _ => exact nomatch h

theorem World.Course.striving (h : w₀.Course t d later ts w a) (hw : w₀.Sound g)
    (ha : w₀.callAt t d = some ⟨i, start⟩) (hstart : start.wants = true)
    (hsame : ∀ f m, start = .filling f m → ∀ x ∈ ts, ∀ f' m',
      x.after.callAt t d ≠ some ⟨i, .filling f' m'⟩) :
    Striving start t d i ts a := by
  -- only its own turns change what the call has
  induction h with
  | start stands =>
    obtain rfl := Option.some.inj (ha.symm.trans stands)
    obtain ⟨hstrives, hchances, -⟩ := Point.strives_of_wants hstart
    refine ⟨rfl, hstrives, fun id hid => ?_, ?_⟩
    · rcases hid with hborn | ⟨x, hx, -⟩
      · exact nomatch hborn
      · exact nomatch hx
    · exact Nat.le_of_eq ((Nat.zero_add _).trans hchances)
  | rests _ _ _ ih => exact ih hsame
  | @turn later ts e a q s pt course turn next ih =>
    have hbefore := ih fun f m hfill x hx => hsame f m hfill x (.tail _ hx)
    refine hbefore.turn (course.sound hw) turn next fun f m f' m' hfill hpt => ?_
    refine hsame f m hfill e (.head _) f' m' ?_
    rw [← hpt, ← hbefore.pool]
    exact (turn.goesOn next).2

end Course

/-! ## What the factory has refused -/

/-- The object that the factory has refused. -/
def Deed.refused? : Deed → Option Nat
  | .readied id (some _) | .checked id false => some id
  | _ => none

/-- The objects that the factory has refused, in order. -/
def refusedIn (ds : List Deed) : List Nat := ds.filterMap Deed.refused?

theorem refusedIn_append (ds ds' : List Deed) :
    refusedIn (ds ++ ds') = refusedIn ds ++ refusedIn ds' := List.filterMap_append

theorem refusedIn_turnedDown (R : List (Nat × Refusal)) :
    refusedIn (R.flatMap turnedDown) = R.map (·.1) := by
  induction R with
  | nil => rfl
  | cons x R ih =>
    rw [List.flatMap_cons, refusedIn_append, ih]
    obtain ⟨id, _ | _⟩ := x <;> rfl

theorem refusedIn_sweeps {pre : List Deed} (h : ∀ x ∈ pre, x.isSweep = true) :
    refusedIn pre = [] := by
  refine List.filterMap_eq_nil_iff.mpr fun x hx => ?_
  have hsweep := h x hx
  cases x with
  | readied | checked => exact nomatch hsweep
  | _ => rfl

/-! ## A pool that nobody else calls -/

namespace Pool

variable {p₀ p q : Pool ρ} {S : List Nat} {R : List (Nat × Refusal)} {next : Next ρ} {hl : Haul}
  {ds : List Deed} {ℓ₀ ℓ : Ledger ρ} {k : Stocker} {pt : Point ρ} {deed : Option Deed}
  {s : Stretch ρ} {err : PoolError}

/-- The pool `p` has the idle and the lent objects that `p₀` had, in the same order, except that
    `out` are no longer idle and `S` no longer lent, and as many places are held. -/
structure AsBefore (p₀ p : Pool ρ) (S out : List Nat) : Prop where
  idle : p.registry.idle = p₀.registry.idle.filter (· ∉ out)
  active : p.registry.active = p₀.registry.active.filter (· ∉ S)
  creating : p.registry.creating = p₀.registry.creating

/-- A borrow that has failed has nothing of the pool, and the factory has refused what it took, and
    perhaps what was made for it. -/
theorem Outcome.failed (h : p₀.Outcome S R (.finish (.failed err)) hl ds) :
    hl = { seized := S, refused := R.map (·.1) } ∧
      ∃ new : List Nat, refusedIn ds = R.map (·.1) ++ new ∧ ∀ id ∈ new, p₀.entries.length ≤ id := by
  have hnone : refusedIn (R.flatMap turnedDown) = R.map (·.1) ++ [] :=
    (refusedIn_turnedDown R).trans (List.append_nil _).symm
  cases h with
  | unmade reason out =>
    refine ⟨rfl, [], ?_, List.forall_mem_nil _⟩
    rw [refusedIn_append, refusedIn_turnedDown]
    rfl
  | @unfit id r out new fair =>
    refine ⟨rfl, [id], ?_, fun x hx => (List.mem_singleton.mp hx).symm ▸ new⟩
    rw [refusedIn_append, refusedIn_turnedDown]
    cases r <;> rfl
  | shut fair closed => exact ⟨rfl, [], hnone, List.forall_mem_nil _⟩
  | givesUp d refuses vain => exact ⟨rfl, [], hnone, List.forall_mem_nil _⟩

theorem Sound.nodup_idle (h : p.Sound ℓ) : p.registry.idle.Nodup := by
  refine List.nodup_iff_count.mpr fun id => ?_
  by_cases hid : id ∈ p.registry.idle
  · obtain ⟨v, hv⟩ := h.idle_position hid
    exact Nat.le_of_eq (congrArg Position.idle hv)
  · rw [List.count_eq_zero.mpr hid]
    exact Nat.zero_le 1

/-- An idle object has been made. -/
theorem Sound.lt_of_idle (h : p.Sound ℓ) {id : Nat} (hid : id ∈ p.registry.idle) :
    id < p.entries.length := by
  obtain ⟨v, hv⟩ := h.idle_position hid
  refine Nat.lt_of_not_le fun hle => ?_
  exact nomatch (shape?_eq_none_iff.mpr hle).symm.trans (congrArg Position.shape hv)

/-- What a borrow that has failed leaves of the pool. -/
theorem Outcome.asBefore (h : p₀.Outcome S R (.finish (.failed err)) hl ds) (hf : hl.From p₀ p)
    (h₀ : p₀.Sound ℓ₀) : p₀.AsBefore p S (refusedIn ds) := by
  obtain ⟨rfl, new, hds, hnew⟩ := h.failed
  have hidle : p₀.registry.idle = R.map (·.1) ++ p.registry.idle := hf.idle
  refine ⟨?_, hf.active.trans (List.append_nil _), hf.creating⟩
  have hnodup := h₀.nodup_idle
  -- the refused ones were idle first, a new object has a number of its own
  have hgone : (R.map (·.1)).filter (· ∉ refusedIn ds) = [] := by
    refine List.filter_eq_nil_iff.mpr fun x hx hout => of_decide_eq_true hout ?_
    rw [hds]
    exact List.mem_append_left _ hx
  have hkept : p.registry.idle.filter (· ∉ refusedIn ds) = p.registry.idle := by
    refine List.filter_eq_self.mpr fun x hx => decide_eq_true fun hout => ?_
    rw [hds] at hout
    rcases List.mem_append.mp hout with hR | hN
    · rw [hidle] at hnodup
      exact List.disjoint_of_nodup_append hnodup hR hx
    · have hmem : x ∈ p₀.registry.idle := hidle ▸ List.mem_append_right _ hx
      exact absurd (hnew x hN) (Nat.not_le_of_lt (h₀.lt_of_idle hmem))
  rw [hidle, List.filter_append, hgone, hkept, List.nil_append]

/-- What a turn of a call for the stock leaves of the pool, unless it has stocked an object. -/
theorem Supplies.leaves (hs : q.Supplies k pt deed s)
    (hf : Haul.From { places := pt.places } p₀ q) (hg : q.Goes s.pool)
    (hsame : ∀ f m, k = .fill f m → s.next ≠ .go (.filling f (m + 1)))
    (hfails : ∀ r, s.next = .finish r → ∃ err, r = .failed err) :
    Haul.From { places := s.next.places } p₀ s.pool := by
  have hasks : (k.asks (ρ := ρ)).places = 0 := by
    cases k <;> rfl
  -- the call holds a place from the moment it asks the factory until it gives up
  cases hs with
  | refused r next same =>
    rw [hasks] at hf
    rw [next]
    exact hf.same hg (.of_eq (congrArg Pool.registry same))
  | reserves next books =>
    rw [hasks] at hf
    rw [next]
    exact hf.reserves rfl hg (.of_eq books)
  | unmade reason r next books =>
    rw [next]
    exact hf.cancels rfl hg books
  | checks next same | lays next same | fit next same =>
    rw [next]
    exact hf.same hg (.of_eq same)
  | stocked next =>
    rcases next with next | ⟨f, m, hk, next⟩
    · obtain ⟨err, herr⟩ := hfails _ next
      exact nomatch herr
    · exact absurd next (hsame f m hk)
  | spare e stood unmade next books =>
    have hone : pt.places = 1 := by
      rcases stood with rfl | rfl <;> rfl
    rw [hone] at hf
    rw [next]
    exact hf.cancels rfl hg books
  | unstocked r next same =>
    rw [next]
    exact hf.same hg (.of_eq same)

/-- A pool from which nothing is taken any more. -/
theorem asBefore_of_nothing (h : Haul.From {} p₀ p) : p₀.AsBefore p [] [] := by
  refine ⟨?_, h.active.trans (List.append_nil _), h.creating⟩
  rw [filter_not_mem_nil]
  exact h.idle.symm

end Pool

/-! ## Main statement -/

section Runs

variable {es later older ts : List (Episode ρ)} {w w₀ : World ρ} {g : Nat → List Nat}
  {t d i : Nat} {a : Activity ρ} {p₀ q : Pool ρ} {s : Stretch ρ} {e : Episode ρ}
  {start pt : Point ρ} {err : PoolError}

/-- A call that began at the point `start` has not gone on to another object in its turns `ts`. -/
def SameObject (start : Point ρ) (t d i : Nat) (ts : List (Episode ρ)) : Prop :=
  ∀ f m, start = .filling f m → ∀ x ∈ ts, ∀ f' m', x.after.callAt t d ≠ some ⟨i, .filling f' m'⟩

theorem Point.Strives.ne_close (h : start.Strives pt) (c : Closer) : pt ≠ .close c := by
  rintro rfl
  cases h with
  | quests b begun h =>
    cases h with
    | sweeps b hsweep => cases hsweep
  | supplies k begun h =>
    generalize hpt : Point.close (ρ := ρ) c = pt at h
    cases h with
    | asks => cases k <;> exact nomatch hpt
    | makes | checks | lays | fails => exact nomatch hpt

/-- A call that has come to its end with an error has just had its last turn. -/
theorem Striving.ends (h : Striving start t d i ts a) (hw : e.before.Sound g)
    (hr : e.before.react e.event = some e.effect) (ha : e.before.callAt t d = some a)
    (hfail : e.Finishes t d i (.failed err)) :
    ∃ q s, e.IsTurn t d a q s ∧ s.next = .finish (.failed err) := by
  obtain ⟨hruns, hends⟩ := hfail
  rcases World.react_callAt hw hr ha with ⟨hstill, -⟩ | ⟨-, q, s, hworks, hturned⟩
  · exact absurd (hstill.symm.trans hruns) Bool.false_ne_true
  have hturn : e.IsTurn t d a q s := ⟨hr, hruns, hworks, hturned⟩
  refine ⟨q, s, hturn, ?_⟩
  generalize hn : s.next = next at hturned
  cases hturned with
  | @goesOn pt hnone hat =>
    -- the call would have gone on
    rcases hends with hreply | ⟨-, hclose⟩
    · exact nomatch hnone.symm.trans hreply
    · have hpt : pt = .close (.release (.failed err)) :=
        congrArg Activity.point (Option.some.inj (hat.symm.trans hclose))
      rcases (h.point.carries hw hturn).onward pt hn with ⟨_, _, f, m, -, hfill⟩ | ⟨hstrives, -⟩
      · exact nomatch hpt.symm.trans hfill
      · exact absurd hpt (hstrives.ne_close _)
  | answers hreply =>
    rcases hends with hreply' | ⟨hnone, -⟩
    · rw [Option.some.inj (hreply.symm.trans hreply')]
    · exact nomatch hreply.symm.trans hnone
  | closes hnone hat =>
    rcases hends with hreply | ⟨-, hclose⟩
    · exact nomatch hnone.symm.trans hreply
    · have hpt := congrArg Activity.point (Option.some.inj (hat.symm.trans hclose))
      injection hpt with hcloser
      injection hcloser with hanswer
      rw [hanswer]

/-- A call for the stock, on a pool that nobody else calls, has nothing of the pool but a place. -/
theorem World.Course.stocking (h : w₀.Course t d later ts w a) (hw : w₀.Sound g)
    (ha : w₀.callAt t d = some ⟨i, start⟩) (hstart : start.wants = true)
    (hnot : ∀ b, start ≠ .borrow b) (hsame : SameObject start t d i ts)
    (hp₀ : w₀.pools[i]? = some p₀) (hu : LeftAlone t d i later) :
    ∃ p, w.pools[i]? = some p ∧ Haul.From { places := a.point.places } p₀ p := by
  induction h with
  | start stands =>
    obtain rfl := Option.some.inj (ha.symm.trans stands)
    refine ⟨p₀, hp₀, ?_⟩
    rw [show (Activity.mk i start).point.places = 0 from (Point.strives_of_wants hstart).2.2]
    exact .refl p₀
  | rests course react still ih =>
    obtain ⟨p, hp, hf⟩ := ih hsame hu.tail
    obtain ⟨p', hp', hbooks⟩ := (hu.rests react still).pool hp
    exact ⟨p', hp', hf.same ⟨hbooks.config, hbooks.entries.ge⟩ (.of_eq hbooks.registry)⟩
  | @turn later ts e a q s pt course turn next ih =>
    have hbefore : SameObject start t d i ts := fun f m hfill x hx => hsame f m hfill x (.tail _ hx)
    obtain ⟨p, hp, hf⟩ := ih hbefore hu.tail
    have hstriving := course.striving hw ha hstart hbefore
    obtain rfl : p = q := Option.some.inj (hp.symm.trans (hstriving.pool ▸ turn.works.pool))
    cases hstriving.point with
    | quests b begun => exact absurd begun (hnot b)
    | supplies k begun hpoint =>
      -- the call would have gone on to another object
      have hnot : ∀ f m, k = .fill f m → s.next ≠ .go (.filling f (m + 1)) := by
        intro f m hk hfill
        have hat := (turn.goesOn hfill).2
        rw [hstriving.pool] at hat
        exact hsame f m (by rw [begun, hk]; rfl) e (.head _) f (m + 1) hat
      have hfrom := (turn.supplies (course.sound hw) hpoint).leaves hf (turn.goes (course.sound hw))
        hnot fun r hend => nomatch hend.symm.trans next
      rw [next] at hfrom
      obtain ⟨p', hp', hleft, hregistry⟩ := turn.leaves
      exact ⟨p', hstriving.pool ▸ hp', hfrom.same hleft (.of_eq hregistry)⟩

/-- What a call on the thread `t` with `d` calls below it gives back that began at the point `start`
    in the world `w₀`, and has come to its end with an error in the episode `e`. -/
structure GivesBack (es older : List (Episode ρ)) (w₀ : World ρ) (t d i : Nat) (start : Point ρ)
    (e : Episode ρ) : Prop where
  /-- It has given up each place that it took, and took one at most. -/
  places : (turns t d (e :: older)).countP (Episode.reserves i) =
      (turns t d (e :: older)).countP (Episode.releases i) ∧
    (turns t d (e :: older)).countP (Episode.reserves i) ≤ 1 ∧
    ∀ x ∈ turns t d (e :: older), x.reserves i = true ∨ x.releases i = true ∨
      x.after.creatingOf i = x.before.creatingOf i
  /-- No ticket that it has held is in the line. -/
  line : ∀ x ∈ turns t d older, ∀ u ∈ x.tickets t d, (e.after.lineOf i).Rid u
  /-- All that was made for it, and all that it had in its charge, it has given to the factory to be
      destroyed, and nobody else has. -/
  objects : ∀ id, (id ∈ (births (turns t d (e :: older)) i).map (·.1) ∨
      ∃ x ∈ turns t d older, id ∈ x.has t d) → id ∈ graves (turns t d older) i ∧
    ∃ p, e.after.pools[i]? = some p ∧ p.stateOf id = .invalid ∧ id ∉ p.registry.tracked ∧
      (graves (e :: older ++ es) i).count id = 1
  /-- If it was a borrow that did not wait, and nobody else called the pool, others have lost what
      was overdue, and what was idle and refused is gone. -/
  borrower : ∀ b p₀, start = .borrow b → w₀.pools[i]? = some p₀ → LeftAlone t d i (e :: older) →
    (∀ x ∈ turns t d older, x.tickets t d = []) → ∃ S p, e.after.pools[i]? = some p ∧
      Swept i (turns t d (e :: older)) S ∧
      p₀.AsBefore p S (refusedIn (deeds (turns t d (e :: older))))
  /-- If it was to make an object for the stock, all is as before. -/
  stocker : ∀ p₀, (∀ b, start ≠ .borrow b) → w₀.pools[i]? = some p₀ →
    LeftAlone t d i (e :: older) → ∃ p, e.after.pools[i]? = some p ∧ p₀.AsBefore p [] []

/-- What a borrow leaves of a pool that nobody else calls, if it fails without having waited. -/
theorem World.Course.borrow_fails {b : Borrowing} (h : w₀.Course t d older ts e.before a)
    (hw : w₀.Sound g) (ha : w₀.callAt t d = some ⟨i, .borrow b⟩) (hp₀ : w₀.pools[i]? = some p₀)
    (hu : LeftAlone t d i older) (ht : e.IsTurn t d a q s) (hn : s.next = .finish (.failed err))
    (hfirst : ∀ x ∈ older, ∀ r, ¬x.Finishes t d i r) (hdry : ∀ x ∈ ts, x.tickets t d = []) :
    ∃ S p, e.after.pools[i]? = some p ∧ Swept i (e :: ts) S ∧
      p₀.AsBefore p S (refusedIn (deeds (e :: ts))) := by
  rcases h.leads.pursues hw ha hp₀ hu with ⟨ts', a', S, R, hcourse, hpursues⟩ |
      ⟨newer, x, older', ts', a', S, R, next, rfl, -, hout⟩
  · obtain rfl : a' = a := Option.some.inj ((hcourse.callAt hw).symm.trans (h.callAt hw))
    obtain rfl : ts' = ts := hcourse.turns_eq.1.symm.trans h.turns_eq.1
    have hsound₀ := (hw.pools i).sound p₀ hp₀
    rcases hpursues.turn hsound₀ (h.sound hw) ht with ⟨pt, S', R', hgo, -⟩ | hout
    · exact nomatch hgo.symm.trans hn
    · rw [hn] at hout
      obtain ⟨p, hl, pre, ds, hp, hfrom, houtcome, hdeeds, hpre⟩ := hout.outcome
      refine ⟨S, p, hp, hout.swept, ?_⟩
      rw [hdeeds, refusedIn_append, refusedIn_sweeps hpre, List.nil_append]
      exact houtcome.asBefore hfrom hsound₀
  · -- it would have ended before, or waited
    obtain ⟨p, hl, pre, ds, -, -, houtcome, -⟩ := hout.outcome
    have hmem : x ∈ newer ++ x :: older' := List.mem_append_right _ (.head _)
    have hcomes := hout.comes
    cases next with
    | finish r => exact absurd hcomes (hfirst x hmem r)
    | go pt =>
      obtain ⟨hruns, -, hat⟩ := hcomes
      have hnone := hdry x (h.turn_mem hmem hruns)
      rw [Episode.tickets, hat] at hnone
      cases houtcome
      exact nomatch hnone

/-- A call for the stock that fails leaves a pool that nobody else calls as it was. -/
theorem World.Course.stocking_fails (h : w₀.Course t d older ts e.before a) (hw : w₀.Sound g)
    (ha : w₀.callAt t d = some ⟨i, start⟩) (hstart : start.wants = true)
    (hnot : ∀ b, start ≠ .borrow b) (hsame : SameObject start t d i ts)
    (hp₀ : w₀.pools[i]? = some p₀) (hu : LeftAlone t d i older) (ht : e.IsTurn t d a q s)
    (hn : s.next = .finish (.failed err)) :
    ∃ p, e.after.pools[i]? = some p ∧ p₀.AsBefore p [] [] := by
  have hbefore := h.sound hw
  have hstriving := h.striving hw ha hstart hsame
  obtain ⟨p, hp, hf⟩ := h.stocking hw ha hstart hnot hsame hp₀ hu
  obtain rfl : p = q := Option.some.inj (hp.symm.trans (hstriving.pool ▸ ht.works.pool))
  cases hstriving.point with
  | quests b begun => exact absurd begun (hnot b)
  | supplies k begun hpoint =>
    have hend := (ht.supplies hbefore hpoint).leaves hf (ht.goes hbefore)
      (fun f m _ hgo => nomatch hgo.symm.trans hn)
      fun r hr => ⟨err, Next.finish.inj (hr.symm.trans hn)⟩
    rw [hn] at hend
    obtain ⟨p', hp', hleft, hregistry⟩ := ht.leaves
    exact ⟨p', hstriving.pool ▸ hp',
      Pool.asBefore_of_nothing (hend.same hleft (.of_eq hregistry))⟩

/-- A call that asks for an object, for a borrower or for the stock, and comes to its end with an
    error has given everything back. -/
theorem failed_calls_give_back (h₀ : Run es w₀) (h : Run (e :: older ++ es) w)
    (ha : w₀.callAt t d = some ⟨i, start⟩) (hstart : start.wants = true)
    (hsame : SameObject start t d i (turns t d older))
    (hfirst : ∀ x ∈ older, ∀ r, ¬x.Finishes t d i r) (hfail : e.Finishes t d i (.failed err)) :
    GivesBack es older w₀ t d i start e := by
  have hw := h₀.sound
  have hleads : w₀.Leads ([] ++ e :: older) w := h₀.leads h
  obtain ⟨holder, hreact, -⟩ := hleads.split
  rcases holder.course hw ha with
    ⟨ts, a, hcourse⟩ | ⟨newer, x, before, ts, a, q, s, r, rfl, hcourse, hturn, hnext⟩
  case inr =>
    -- it would have ended before
    obtain ⟨pt, hat⟩ := hcourse.pool
    have hpool : i = a.pool := congrArg Activity.pool (Option.some.inj (ha.symm.trans hat))
    exact absurd (hpool ▸ hturn.finishes hnext) (hfirst x (List.mem_append_right _ (.head _)) r)
  have hts := hcourse.turns_eq.1
  have hbefore := hcourse.sound hw
  have hat := hcourse.callAt hw
  have hstriving := hcourse.striving hw ha hstart (hts ▸ hsame)
  obtain ⟨q, s, ht, hn⟩ := hstriving.ends hbefore hreact hat hfail
  have hall := hcourse.turns_cons ht.runs
  obtain ⟨hobjects, hone⟩ := hstriving.fails hbefore ht hn
  have hpool := hstriving.pool
  refine ⟨?_, ?_, fun id hid => ?_, ?_, ?_⟩
  · obtain ⟨hequal, hsteady⟩ :=
      hcourse.ends_places hw ha (Point.strives_of_wants hstart).2.2 ht hn
    rw [hpool] at hequal hsteady
    rw [hall]
    exact ⟨hequal, hone, hsteady⟩
  · rw [hts]
    exact hpool ▸ hcourse.ends_line hw ht hn
  · rw [hall, hts] at hid
    rw [hts]
    have hgrave := hobjects id hid
    have hafter := ((holder.next hreact).sound hw).pools i
    rw [← graves_append] at hafter
    refine ⟨hgrave, hafter.gone ?_⟩
    show id ∈ graves ((e :: older) ++ es) i
    rw [graves_append]
    exact List.mem_append_left _ (List.mem_append_right _ (hcourse.buried hgrave))
  · rintro b p₀ rfl hp₀ hu hdry
    rw [hall]
    exact hcourse.borrow_fails hw ha hp₀ hu.tail ht hn hfirst (hts ▸ hdry)
  · intro p₀ hnot hp₀ hu
    exact hcourse.stocking_fails hw ha hstart hnot (hts ▸ hsame) hp₀ hu.tail ht hn

end Runs

/-- Somebody wants to borrow from an empty pool. -/
def wantedEvents : List (Event Nat) :=
  [.create { maxTotal := 1 }, .spawn, .begin 0 0 (.borrow none "site")]

/-- An object is made, but cannot be readied. -/
def refusedEvents : List (Event Nat) :=
  wantedEvents ++ [.step 0, .step 0, .answer 0 (.created (.ok 7)),
    .answer 0 (.activated 7 (some "no")), .answer 0 (.destroyed none)]

theorem failed_calls_give_back_after_refusal :
    ∃ e older, (episodes refusedEvents).take 5 = e :: older ∧
      Run (episodes wantedEvents) (reached wantedEvents) ∧
      Run (e :: older ++ episodes wantedEvents) (reached refusedEvents) ∧
      (reached wantedEvents).callAt 0 0 = some ⟨0, .borrow { timeout := none, site := "site" }⟩ ∧
      SameObject (.borrow { timeout := none, site := "site" }) 0 0 0 (turns 0 0 older) ∧
      (∀ x ∈ older, ∀ r, ¬x.Finishes 0 0 0 r) ∧
      e.Finishes 0 0 0 (.failed (.factory .activate "no")) ∧
      GivesBack (episodes wantedEvents) older (reached wantedEvents) 0 0 0
        (.borrow { timeout := none, site := "site" }) e := by
  have h₀ : Run (episodes wantedEvents) (reached wantedEvents) := Run.of_events rfl
  have hall : Run (episodes refusedEvents) (reached refusedEvents) := Run.of_events rfl
  have hopen : ((episodes refusedEvents).take 5).tail.all (fun x => x.effect.reply.isNone &&
      (x.after.callAt 0 0).all fun a =>
        match a.point with
        | .close _ => false
        | _ => true) = true := by
    decide +kernel
  have hlast : ((episodes refusedEvents).take 5).head?.any (fun x => x.runs 0 0 &&
      decide (x.effect.reply = some (.failed (.factory .activate "no")))) = true := by
    decide +kernel
  -- of the five episodes the last one is the end of the call
  cases hsplit : (episodes refusedEvents).take 5 with
  | nil =>
    rw [hsplit] at hlast
    exact nomatch hlast
  | cons e older =>
    rw [hsplit] at hopen hlast
    have hrun : episodes refusedEvents = e :: older ++ episodes wantedEvents :=
      hsplit ▸ (List.take_append_drop 5 (episodes refusedEvents)).symm
    have h : Run (e :: older ++ episodes wantedEvents) (reached refusedEvents) := hrun ▸ hall
    have hsame : SameObject (.borrow { timeout := none, site := "site" }) 0 0 0 (turns 0 0 older) :=
      fun _ _ hfill => nomatch hfill
    have hfirst : ∀ x ∈ older, ∀ r, ¬x.Finishes 0 0 0 r := by
      rintro x hx r ⟨-, hreply | ⟨-, hat⟩⟩
      · have hx' := List.all_eq_true.mp hopen x hx
        rw [hreply] at hx'
        exact nomatch hx'
      · have hx' := (Bool.and_eq_true_iff.mp (List.all_eq_true.mp hopen x hx)).2
        rw [hat] at hx'
        exact nomatch hx'
    have hfail : e.Finishes 0 0 0 (.failed (.factory .activate "no")) := by
      obtain ⟨hruns, hreply⟩ := Bool.and_eq_true_iff.mp hlast
      exact ⟨hruns, .inl (of_decide_eq_true hreply)⟩
    exact ⟨e, older, rfl, h₀, h, rfl, hsame, hfirst, hfail,
      failed_calls_give_back h₀ h rfl rfl hsame hfirst hfail⟩

end ObjectPool
