/-
  ObjectPool.Proofs.Protocol.History

  In every run what happens to a resource is a word of the automaton, and the careers
  that it leads to agree with the books and calls of the pool in every world. A
  resource that the factory refuses is destroyed in the same stretch of the same call.

    * `Works.passage` — a stretch in a run is a passage.
    * `Works.obeys` — the careers agree with the pool after it.
    * `Run.obeys` — they do in every world that can be reached.
    * `KeepsProtocol`, `protocol_kept` — what follows for the resources of a pool.
-/

import ObjectPool.Proofs.Protocol.Signals

namespace ObjectPool

variable {ρ : Type}

/-- A call that begins stands as it should. -/
theorem Point.Opens.fits {pt : Point ρ} (h : pt.Opens) (c : Config) (st : Nat → Career) :
    pt.Fits c st := by
  refine ⟨fun x hx => ?_, fun id d hd => ?_⟩
  · rw [h.charges] at hx
    exact nomatch hx
  · rw [h.asks] at hd
    exact nomatch hd

/-- The careers agree with a pool as long as nothing happens to its books, and calls only begin. -/
theorem Pool.Obeys.of_calls {p p' : Pool ρ} {st : Nat → Career} {pts pts' new : List (Point ρ)}
    (h : p.Obeys st pts) (hb : p.SameBooks p') (hnew : ∀ pt ∈ new, pt.Opens)
    (hp : (new ++ pts).Perm pts') : p'.Obeys st pts' := by
  refine ⟨fun id hid => ?_, fun id hid => ?_, fun id hid hc => ?_, fun pt hpt => ?_⟩
  · rw [hb.entries] at hid
    exact h.unmade id hid
  · rw [hb.registry] at hid
    exact h.idle id hid
  · rw [hb.registry] at hid
    refine h.active id hid ?_
    have hnone : claims id (pts'.flatMap Point.charges) = [] := hc
    have hperm : (claims id _).Perm (claims id _) := claims_perm (hp.flatMap_right Point.charges)
    rw [hnone, List.flatMap_append, claims_append] at hperm
    exact (List.append_eq_nil_iff.mp (List.perm_nil.mp hperm)).2
  · rw [hb.config]
    rcases List.mem_append.mp (hp.mem_iff.mpr hpt) with hmem | hmem
    · exact (hnew pt hmem).fits _ st
    · exact h.calls pt hmem

namespace World

variable {w : World ρ} {e : Event ρ} {f : Effect ρ} {t i id : Nat} {a : Activity ρ} {q : Pool ρ}
  {s : Stretch ρ} {g : Nat → List Nat} {st st₁ : Nat → Career}

/-- The careers agree with what the pool `i` is in a world; before it is made it has none. -/
structure ObeysAt (w : World ρ) (i : Nat) (st : Nat → Career) : Prop where
  pool : ∀ p, w.pools[i]? = some p → p.Obeys st (w.points i)
  housed : w.pools[i]? = none → ∀ id, st id = .unmade
  /-- No resource waits for its end that the factory has refused. -/
  settled : ∀ id, st id ≠ .refused

/-- Nothing happens to the careers in a pool that is left alone. -/
theorem ObeysAt.spares {w' : World ρ} (h : w.ObeysAt i st) (hw : w.Sound g) (hs : w.Spares w' i) :
    w'.ObeysAt i st := by
  obtain ⟨new, hnew, hperm⟩ := hs.calls
  refine ⟨fun p' hp' => ?_, fun hn => ?_, h.settled⟩
  · rcases hs.books with hbooks | ⟨hnone, c, p, hp, hfresh, -⟩
    · obtain ⟨p, hp, hb⟩ := hbooks.before hp'
      exact (h.pool p hp).of_calls hb hnew hperm
    · -- a new pool has no objects, and no calls but those that begin
      obtain rfl := Option.some.inj (hp.symm.trans hp')
      rw [((hw.pools i).housed hnone).1] at hperm
      have hempty : (Pool.new (ρ := ρ) c).Obeys st [] :=
        ⟨fun id _ => h.housed hnone id, (fun _ hid => nomatch hid), (fun _ hid => nomatch hid),
          fun _ hpt => nomatch hpt⟩
      exact hempty.of_calls hfresh hnew hperm
  · rcases hs.books with hbooks | ⟨-, c, p, hp, -⟩
    · exact h.housed (hbooks.none hn)
    · exact nomatch hp.symm.trans hn

namespace Works

/-- The ledger of the pool, with the call that runs apart. -/
theorem before (h : w.Works e f t a q s) (hw : w.Sound g) :
    q.Sound (.of q (a.point :: (w.pop t).points a.pool) (w.lent a.pool) (g a.pool)) :=
  ((hw.pools a.pool).sound q h.pool).of_perm h.stretches.points (.refl _)

/-- An object that comes back is ready for a borrower, unless the pool has taken it back. -/
theorem returned (h : w.Works e f t a q s) (hw : w.Sound g)
    (ho : q.Obeys st (a.point :: (w.pop t).points a.pool)) (hid : id ∈ a.point.returns)
    (ha : id ∈ q.registry.active) : st id = .rest .active := by
  refine ho.active id ha ?_
  refine Decidable.byContradiction fun hne => ?_
  obtain ⟨c, hc⟩ := List.exists_mem_of_ne_nil _ hne
  have hnone := (h.before hw).no_loan_of_charge (mem_claims.mp hc) ha
  -- the call has the object on loan until it has taken it back
  refine claims_eq_nil_iff.mp hnone ⟨false, q.slot? id⟩ ?_
  refine List.mem_append_left _ (List.mem_map.mpr ⟨id, ?_, rfl⟩)
  exact List.mem_flatMap.mpr ⟨a.point, List.mem_cons_self .., hid⟩

/-- A stretch in a sound world is a passage. -/
theorem passage (h : w.Works e f t a q s) (hw : w.Sound g)
    (ho : q.Obeys st (a.point :: (w.pop t).points a.pool)) :
    ∃ st₁, a.point.Hears q.config st q.entries.length e st₁ ∧
      Passage q a.point ((w.pop t).points a.pool) (w.lent a.pool) (g a.pool) st st₁ e.grants
        a.pool s := by
  have hbefore := h.before hw
  have hstretch := h.stretches
  have hlen := hstretch.length_entries hw
  have hpt : a.point.Fits q.config st := ho.calls _ (List.mem_cons_self ..)
  have hpr : ∀ r ∈ a.point.promises, r.isLoan = false := by
    intro r hr
    exact hbefore.promises r (List.mem_flatMap.mpr ⟨_, List.mem_cons_self .., hr⟩)
  have hmade : ∀ x ∈ a.point.charges, x.1 < q.entries.length := by
    intro x hx
    exact hbefore.made_of_charge (c := x.2) (List.mem_flatMap.mpr ⟨_, List.mem_cons_self .., hx⟩)
  -- what the factory answers, and where it leads
  have hears : ∃ st₁, a.point.Hears q.config st q.entries.length e st₁ ∧
      s.next.Ready q.config (seize (a.point.takes s.next) st₁) ∧
      ∀ id ∈ a.point.takes s.next, id ∈ q.registry.active := by
    rcases h.runs with ⟨rfl, hs⟩ | ⟨r, rfl, hs⟩
    · refine ⟨st, .silent hpt.charges t, ?_, fun id => Pool.advance_takes hs⟩
      exact Pool.advance_ready rfl ho.idle (fun id => h.returned hw ho) hpt.charges hpr hs
    · obtain ⟨st₁, hst₁⟩ := hpt.hear (ho.unmade _ (Nat.le_refl _)) hmade t r
      rw [Pool.respond_takes hs]
      refine ⟨st₁, hst₁, ?_, fun id hid => nomatch hid⟩
      exact Pool.respond_ready hpt hpr (ho.unmade _ (Nat.le_refl _)) hst₁.advances hst₁.charges hs
  obtain ⟨st₁, hst₁, hready, htakes⟩ := hears
  refine ⟨st₁, hst₁, hbefore, (hstretch.rest hw).next a.pool, ho, h.config hw, ?_, h.turn, hready,
    hst₁.elsewhere, fun id hid => ?_, hst₁.granted, htakes⟩
  · omega
  · rw [hlen] at hid
    rw [hst₁.unmade id hid]
    exact ho.unmade id (by omega)

/-- Each resource that the factory refuses is destroyed in the same stretch, after which the call
    goes on. -/
theorem denied (h : w.Works e f t a q s)
    (hears : a.point.Hears q.config st q.entries.length e st₁)
    (hpass : Passage q a.point ((w.pop t).points a.pool) (w.lent a.pool) (g a.pool) st st₁ e.grants
      a.pool s) {c : Callback} (hid : (id, .answered c false) ∈ Episode.signals a.pool ⟨w, e, f⟩) :
    (id, .destroyed .normal) ∈ Episode.signals a.pool ⟨w, e, f⟩ ∧ f.reply = none := by
  rw [h.signals] at hid ⊢
  have hheard : (id, .answered c false) ∈ e.hears q.entries.length a.point := by
    rcases List.mem_append.mp hid with hid | hid
    · exact hid
    · rcases List.mem_append.mp hid with hid | hid
      · obtain ⟨x, -, hx⟩ := List.mem_map.mp hid
        exact nomatch (Prod.mk.inj hx).2
      · exact absurd hid (s.next.not_answered id c false)
  obtain ⟨hrefused, d, hd⟩ := hears.denied id c hheard
  obtain ⟨x, hx, -⟩ := Point.charge_of_asked hd
  have htakes : a.point.takes s.next = [] :=
    if_neg (Bool.eq_false_iff.mp (Point.sweeps_of_asked hd))
  obtain ⟨pt', hn, hmem⟩ := hpass.refused hx hrefused htakes
  refine ⟨List.mem_append_right _ (List.mem_append_right _ ?_), ?_⟩
  · rw [hn]
    exact hmem
  · rw [h.effect, apply_go hn]

/-- The careers agree with the pool after a stretch. -/
theorem obeys (h : w.Works e f t a q s) (hw : w.Sound g) (ho : w.ObeysAt a.pool st) :
    ∃ st', Advances (Episode.signals a.pool ⟨w, e, f⟩) st st' ∧ f.world.ObeysAt a.pool st' ∧
      ∀ id c, (id, .answered c false) ∈ Episode.signals a.pool ⟨w, e, f⟩ →
        (id, .destroyed .normal) ∈ Episode.signals a.pool ⟨w, e, f⟩ ∧ f.reply = none := by
  have hperm := h.stretches.points
  have hnone : ∀ pt ∈ ([] : List (Point ρ)), pt.Opens := fun _ hpt => nomatch hpt
  obtain ⟨st₁, hears, hpass⟩ := h.passage hw
    ((ho.pool q h.pool).of_calls (.refl q) hnone hperm)
  obtain ⟨st', hadv, hobeys⟩ := hpass.obeys_after
  obtain ⟨⟨p', hp', hbooks⟩, new, hnew, hcalls⟩ := h.lands
  have hall : Advances (Episode.signals a.pool ⟨w, e, f⟩) st st' := by
    rw [h.signals]
    exact hears.advances.append hadv
  have hdenied : ∀ id c, (id, .answered c false) ∈ Episode.signals a.pool ⟨w, e, f⟩ →
      (id, .destroyed .normal) ∈ Episode.signals a.pool ⟨w, e, f⟩ ∧ f.reply = none :=
    fun _ _ => h.denied hears hpass
  refine ⟨st', hall, ⟨fun p hp => ?_, fun hnone => ?_, fun id hid => ?_⟩, hdenied⟩
  · obtain rfl := Option.some.inj (hp'.symm.trans hp)
    exact hobeys.of_calls hbooks hnew hcalls
  · exact nomatch hnone.symm.trans hp'
  · -- a refusal would have been followed by the end of the resource
    have hword := hall id
    rw [hid] at hword
    rcases Career.follow_eq_refused hword with hold | ⟨d, hd⟩
    · exact ho.settled id hold
    · obtain ⟨hdestroyed, -⟩ := hdenied id d (mem_claims.mp hd)
      exact nomatch Career.follow_destroyed hword (mem_claims.mpr hdestroyed)

end Works

end World

/-! ## In every run -/

variable {es : List (Episode ρ)} {w : World ρ} {i : Nat}

/-- In an episode every resource that the factory refuses is destroyed, and the call does not end
    with it. -/
def Episode.SeesOff (i : Nat) (e : Episode ρ) : Prop :=
  ∀ id c, (id, .answered c false) ∈ e.signals i →
    (id, .destroyed .normal) ∈ e.signals i ∧ e.effect.reply = none

/-- What happens to the resources of a pool in a run is a word of the automaton, and the careers
    agree with the pool in the end. -/
theorem Run.obeys (h : Run es w) (i : Nat) : ∃ st, Advances (history es i) (fun _ => .unmade) st ∧
    w.ObeysAt i st ∧ ∀ e ∈ es, e.SeesOff i := by
  -- the careers at the end of one episode are those with which the next begins
  induction h with
  | start =>
    exact ⟨_, .nil _, ⟨(fun p hp => nomatch hp), fun _ _ => rfl, fun _ hid => nomatch hid⟩,
      fun e he => nomatch he⟩
  | @next es w e f run react ih =>
    obtain ⟨st, hadv, ho, hsees⟩ := ih
    have hw := run.sound
    rw [history_cons]
    rcases World.react_at react i with ⟨hspares, hcall⟩ | ⟨t, a, q, s, hworks, rfl⟩
    · -- nothing happens to the resources unless a call on the pool runs
      have hnone := Episode.signals_of_call hcall
      rw [hnone, List.append_nil]
      refine ⟨st, hadv, ho.spares hw hspares, fun x hx => ?_⟩
      rcases List.mem_cons.mp hx with rfl | hx
      · intro id c hid
        rw [hnone] at hid
        exact nomatch hid
      · exact hsees x hx
    · obtain ⟨st', hadv', ho', hsees'⟩ := hworks.obeys hw ho
      refine ⟨st', hadv.append hadv', ho', fun x hx => ?_⟩
      rcases List.mem_cons.mp hx with rfl | hx
      · exact hsees'
      · exact hsees x hx

/-- The pool `i` keeps to the protocol of the factory; `st` says how far each of its resources
    has come. -/
structure KeepsProtocol (es : List (Episode ρ)) (w : World ρ) (i : Nat) (st : Nat → Career) :
    Prop where
  /-- All that happened to a resource is a word of the automaton. -/
  word : ∀ id, Career.unmade.follow (signals es i id) = some (st id)
  /-- Only passive resources are idle. -/
  idle : ∀ p, w.pools[i]? = some p → ∀ id ∈ p.registry.idle, st id = .rest .passive
  /-- A borrower has an active resource until the pool takes it back. -/
  lent : ∀ n x, w.handle? n = some x → x.pool = i → (w.stateOf x).isReclaimed = false →
    st x.object = .rest .active
  /-- The end of a resource is the last thing that happens to it. -/
  last : ∀ id l mode m, signals es i id = l ++ .destroyed mode :: m → m = []
  /-- After a refusal the end of the resource follows, and nothing else. -/
  refused : ∀ id l c m, signals es i id = l ++ .answered c false :: m → m = [.destroyed .normal]
  /-- It follows in the same episode, before the call that got the refusal ends. -/
  promptly : ∀ e ∈ es, e.SeesOff i
  /-- A resource is destroyed as abandoned exactly if it was taken back from its borrower. -/
  abandoned : ∀ id mode, .destroyed mode ∈ signals es i id →
    (mode = .abandoned ↔ .seized ∈ signals es i id)

/-- A borrower has an active resource until the pool takes it back. -/
theorem World.ObeysAt.lent {st : Nat → Career} {gs : List Nat} {n : Nat} {x : Handle}
    (ho : w.ObeysAt x.pool st) (hw : w.SoundAt x.pool gs) (hx : w.handle? n = some x)
    (hlive : (w.stateOf x).isReclaimed = false) : st x.object = .rest .active := by
  obtain ⟨p, hp⟩ : ∃ p, w.pools[x.pool]? = some p := by
    cases hp : w.pools[x.pool]? with
    | some p => exact ⟨p, rfl⟩
    | none =>
      rw [World.stateOf, hp] at hlive
      cases hlive
  refine (ho.pool p hp).active _ (hw.held hp hx rfl hlive).1 ?_
  rw [World.stateOf_of_pool hp] at hlive
  obtain ⟨r, -, hv⟩ := (hw.sound p hp).lent_of_loan
    (World.mem_loans hx p (w.points x.pool) gs) hlive
  exact congrArg Position.charges hv

/-- In every run a pool keeps to the protocol of the factory. -/
theorem protocol_kept (h : Run es w) (i : Nat) : ∃ st, KeepsProtocol es w i st := by
  obtain ⟨st, hadv, ho, hsees⟩ := h.obeys i
  have hword : ∀ id, Career.unmade.follow (signals es i id) = some (st id) := hadv
  refine ⟨st, hword, fun p hp => (ho.pool p hp).idle, fun n x hx hxi hlive => ?_,
    fun id l mode m heq => ?_, fun id l c m heq => ?_, hsees, fun id mode hmem => ?_⟩
  · subst hxi
    exact ho.lent (h.sound.pools x.pool) hx hlive
  · exact Career.last_of_follow (heq ▸ hword id)
  · exact Career.end_of_refusal (heq ▸ hword id) (ho.settled id)
  · exact Career.abandoned_iff_seized (hword id) hmem

/-- A borrower returns its object, which is found unfit when it is lent again and is destroyed;
    the new one that the borrower gets is not used and is taken back. -/
def unfitThenAbandonedEvents : List (Event Nat) :=
  [.create { maxTotal := 2, testOnBorrow := true, abandonment := some { onUpkeep := true } },
    .spawn, .spawn,
    .begin 0 0 (.borrow none "first"), .step 0, .step 0, .answer 0 (.created (.ok 7)),
    .answer 0 (.activated 7 none), .answer 0 (.validated true),
    .giveBack 0 0 0, .step 0, .answer 0 (.passivated 7 none),
    .begin 0 0 (.borrow none "second"), .step 0, .step 0, .answer 0 (.activated 7 none),
    .answer 0 (.validated false), .answer 0 (.destroyed none), .step 0,
    .answer 0 (.created (.ok 8)), .answer 0 (.activated 8 none), .answer 0 (.validated true),
    .tick ⟨400000000000⟩,
    .begin 1 0 .maintain, .step 1, .step 1, .step 1]

theorem protocol_kept_to_the_end :
    Run (episodes unfitThenAbandonedEvents) (reached unfitThenAbandonedEvents) ∧
      signals (episodes unfitThenAbandonedEvents) 0 0 =
        [.made, .asked .activate, .answered .activate true, .asked .validate,
          .answered .validate true, .lent, .asked .passivate, .answered .passivate true,
          .asked .activate, .answered .activate true, .asked .validate,
          .answered .validate false, .destroyed .normal] ∧
      signals (episodes unfitThenAbandonedEvents) 0 1 =
        [.made, .asked .activate, .answered .activate true, .asked .validate,
          .answered .validate true, .lent, .seized, .destroyed .abandoned] ∧
      ∃ st, KeepsProtocol (episodes unfitThenAbandonedEvents) (reached unfitThenAbandonedEvents)
        0 st :=
  ⟨Run.of_events rfl, by decide +kernel, by decide +kernel, protocol_kept (Run.of_events rfl) 0⟩

end ObjectPool
