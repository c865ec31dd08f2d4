/-
  ObjectPool.Proofs.Protocol.Signals

  What happens to the resources of a pool in a run, read off the episodes: the factory
  makes a resource, is asked for a callback and answers, the pool takes a resource back
  from its borrower, a borrower gets one, one is destroyed.

    * `Episode.signals`, `history`, `signals` — in an episode, in a run, to one object.
    * `Works.signals` — the signals of a stretch.
    * `Point.Fits.hear` — what the answer of the factory makes of the careers.
    * `advance_takes` — a pass over the lent objects takes back nothing else.
-/

import ObjectPool.Proofs.Frame
import ObjectPool.Proofs.Protocol.Obedience

namespace ObjectPool

variable {ρ : Type}

/-! ## The signals of a run -/

/-- What an event tells a call that waits at a point. -/
def Event.hears (n : Nat) (pt : Point ρ) : Event ρ → List (Nat × Signal)
  | .answer _ r => pt.hears n r
  | _ => []

namespace Episode

/-- How the thread stood after an episode in which it went on: its call has ended with a reply,
    or the call on top of it is at a point. -/
def next? (e : Episode ρ) : Option (Next ρ) :=
  match e.effect.reply with
  | some r => some (.finish r)
  | none => (e.thread?.bind e.after.top?).map fun a => .go a.point

/-- What happened to the resources of the pool `i` in an episode, in this order: the factory
    answered, the pool took resources back, and the call made its next request or gave a
    borrower an object. -/
def signals (i : Nat) (e : Episode ρ) : List (Nat × Signal) :=
  match e.call?, e.next? with
  | some a, some next =>
    if a.pool = i then
      e.event.hears (e.before.entriesOf i).length a.point ++
        (each (a.point.takes next) .seized ++ next.tells)
    else []
  | _, _ => []

end Episode

/-- What happened to the resources of the pool `i`, the earliest first. -/
def history (es : List (Episode ρ)) (i : Nat) : List (Nat × Signal) :=
  es.reverse.flatMap (Episode.signals i)

/-- What happened to the resource of one object of the pool `i`, the earliest first. -/
def signals (es : List (Episode ρ)) (i id : Nat) : List Signal := claims id (history es i)

theorem history_cons (e : Episode ρ) (es : List (Episode ρ)) (i : Nat) :
    history (e :: es) i = history es i ++ e.signals i := by
  rw [history, history, List.reverse_cons, List.flatMap_append, List.flatMap_singleton]

/-- In an episode in which no call on the pool ran nothing happened to its resources. -/
theorem Episode.signals_of_call {e : Episode ρ} {i : Nat}
    (h : ∀ a, e.call? = some a → a.pool ≠ i) : e.signals i = [] := by
  unfold signals
  split
  · rename_i a next ha _
    exact if_neg (h a ha)
  · rfl

/-! ## The signals of a stretch -/

/-- A call that begins asks the factory for nothing. -/
theorem Point.Opens.asks {pt : Point ρ} (h : pt.Opens) : pt.asks = [] := by
  have hrequest := h.request
  cases pt with
  | creating | activating | validating | passivating | destroying | reporting =>
    exact nomatch hrequest
  | _ => rfl

/-- What a call asks for, or gives a borrower, is no answer. -/
theorem Next.not_answered (next : Next ρ) (id : Nat) (c : Callback) (ok : Bool) :
    (id, .answered c ok) ∉ next.tells := by
  have hone : ∀ (x : Nat) (s : Signal), s ≠ .answered c ok → (id, .answered c ok) ∉ [(x, s)] := by
    intro x s hs hmem
    exact hs (Prod.mk.inj (List.mem_singleton.mp hmem)).2.symm
  cases next with
  | go pt =>
    cases pt with
    | activating | validating | passivating | destroying => exact hone _ _ fun h => nomatch h
    | _ => exact List.not_mem_nil
  | finish r =>
    cases r with
    | lent => exact hone _ _ fun h => nomatch h
    | done | made | failed => exact List.not_mem_nil

/-- A call that waits for the factory is not at its pass over the lent objects. -/
theorem Point.sweeps_of_asked {pt : Point ρ} {id : Nat} {d : Callback}
    (h : (id, .asked d) ∈ pt.asks) : pt.sweeps = false := by
  cases pt with
  | activating | validating | passivating | destroying => rfl
  | _ => exact nomatch h

namespace World.Works

variable {w : World ρ} {e : Event ρ} {f : Effect ρ} {t i : Nat} {a : Activity ρ} {q : Pool ρ}
  {s : Stretch ρ}

/-- The thread stands where the stretch has led, unless it has given up the last reference to the
    pool and closes it. -/
theorem next (h : w.Works e f t a q s) : ∃ next, Episode.next? ⟨w, e, f⟩ = some next ∧
    a.point.takes next = a.point.takes s.next ∧ next.tells = s.next.tells := by
  obtain ⟨th, rest, hth, -⟩ := top?_eq_some h.top
  unfold Episode.next?
  rw [h.thread]
  show ∃ next : Next ρ, (match f.reply with
    | some r => some (.finish r)
    | none => (f.world.top? t).map fun a => .go a.point) = some next ∧ _
  rw [h.effect]
  cases hn : s.next with
  | go pt =>
    rw [apply_go hn]
    dsimp only
    rw [top?_moveTo (w := w.onPool a.pool fun _ => s.pool) h.top pt]
    exact ⟨_, rfl, rfl, rfl⟩
  | finish r =>
    rw [apply_finish hn]
    have hlent := lent_handOver ((w.onPool a.pool fun _ => s.pool).pop t) a.pool r
    dsimp only
    rcases forsake_cases (((w.onPool a.pool fun _ => s.pool).pop t).handOver a.pool r) t a.pool r
      with ⟨q', -, hrefs, hlast⟩ | ⟨-, hmore⟩
    · -- nobody has got an object, which would be a reference
      have htells : (Next.finish (ρ := ρ) r).tells = [] := by
        cases r with
        | lent id =>
          rw [references_eq, ← hlent.length_eq] at hrefs
          simp [Reply.handles] at hrefs
        | done | made | failed => rfl
      have htop : (((((w.onPool a.pool fun _ => s.pool).pop t).handOver a.pool r).markGone
          a.pool).push t ⟨a.pool, .close (.release r)⟩).top? t =
            some ⟨a.pool, .close (.release r)⟩ := by
        show (((w.pop t).threads.modify t _)[t]?).bind _ = _
        rw [List.getElem?_modify, show (w.pop t).threads[t]? = _ from getElem?_onThread hth _]
        simp
      rw [hlast]
      dsimp only
      rw [htop, htells]
      exact ⟨_, rfl, by unfold Point.takes; split <;> rfl, rfl⟩
    · rw [hmore]
      exact ⟨_, rfl, rfl, rfl⟩

/-- What happens to the resources of the pool in a stretch. -/
theorem signals (h : w.Works e f t a q s) : Episode.signals a.pool ⟨w, e, f⟩ =
    e.hears q.entries.length a.point ++
      (each (a.point.takes s.next) .seized ++ s.next.tells) := by
  obtain ⟨next, hnext, htakes, htells⟩ := h.next
  unfold Episode.signals
  rw [h.call, hnext, ← htakes, ← htells, ← entriesOf_eq h.pool]
  exact if_pos rfl

end World.Works

/-! ## What the factory answers -/

section Answers

variable {c : Config} {st : Nat → Career} {pt : Point ρ} {n id : Nat}

/-- The factory answers about the object on which it works, or about a new one, or not about an
    object at all. -/
inductive Point.Heard (n : Nat) (pt : Point ρ) (r : Response ρ) : List (Nat × Signal) → Prop
  | nothing (hg : ∀ id k, pt = .passivating id k → r.grants = false) : Heard n pt r []
  | made (hb : pt.births r = 1) (hp : ∀ id k, pt ≠ .passivating id k) : Heard n pt r [(n, .made)]
  | answered {id : Nat} {d : Callback} {ok : Bool} (ha : (id, .asked d) ∈ pt.asks)
      (hp : ∀ x k, pt = .passivating x k → x = id ∧ ok = r.grants) :
      Heard n pt r [(id, .answered d ok)]

theorem Point.hears_cases (n : Nat) (pt : Point ρ) (r : Response ρ) :
    pt.Heard n r (pt.hears n r) := by
  cases pt with
  | creating m =>
    cases r with
    | created v =>
      cases v with
      | ok v => exact .made rfl fun _ _ h => nomatch h
      | error => exact .nothing fun _ _ h => nomatch h
    | _ => exact .nothing fun _ _ h => nomatch h
  | activating id k =>
    cases r with
    | activated v refusal => exact .answered (List.mem_singleton.mpr rfl) fun _ _ h => nomatch h
    | _ => exact .nothing fun _ _ h => nomatch h
  | validating id k =>
    cases r with
    | validated fit => exact .answered (List.mem_singleton.mpr rfl) fun _ _ h => nomatch h
    | _ => exact .nothing fun _ _ h => nomatch h
  | passivating id k =>
    cases r with
    | passivated v refusal =>
      exact .answered (List.mem_singleton.mpr rfl)
        fun _ _ h => ⟨(Point.passivating.inj h).1.symm, rfl⟩
    | _ => exact .nothing fun _ _ _ => rfl
  | _ => exact .nothing fun _ _ h => nomatch h

/-- What an answer makes of the careers: only those of the object on which the factory worked and
    of a new one change. -/
structure Point.Hears (c : Config) (st : Nat → Career) (pt : Point ρ) (n : Nat) (e : Event ρ)
    (st' : Nat → Career) : Prop where
  advances : Advances (e.hears n pt) st st'
  charges : Permitted c st' pt.charges
  elsewhere : ∀ id, claims id pt.charges = [] → id < n → st' id = st id
  unmade : ∀ id, n + e.births pt ≤ id → st' id = st id
  granted : e.grants = true → ∀ id k, pt = .passivating id k → st' id = .rest .passive
  denied : ∀ id d, (id, .answered d false) ∈ e.hears n pt →
    st' id = .refused ∧ ∃ d, (id, .asked d) ∈ pt.asks

/-- A call that goes on by itself hears nothing. -/
theorem Point.Hears.silent (h : Permitted c st pt.charges) (t : Nat) :
    pt.Hears c st n (.step t) st :=
  ⟨.nil st, h, fun _ _ _ => rfl, fun _ _ => rfl, (fun hg => nomatch hg), fun _ _ hd => nomatch hd⟩

/-- An answer that is not about an object changes nothing. -/
theorem Point.Fits.hear_nothing (h : pt.Fits c st) {t : Nat} {r : Response ρ}
    (hl : pt.hears n r = []) (hg : ∀ id k, pt = .passivating id k → r.grants = false) :
    pt.Hears c st n (.answer t r) st := by
  have heq : (Event.answer t r).hears n pt = [] := hl
  refine ⟨heq ▸ .nil st, h.charges, fun _ _ _ => rfl, fun _ _ => rfl, fun hgrants id k hpt => ?_,
    fun id d hd => ?_⟩
  · exact absurd ((hg id k hpt).symm.trans hgrants) Bool.false_ne_true
  · exact absurd (heq ▸ hd) List.not_mem_nil

/-- A new object is fresh. -/
theorem Point.Fits.hear_made (h : pt.Fits c st) (hn : st n = .unmade)
    (hmade : ∀ x ∈ pt.charges, x.1 < n) {t : Nat} {r : Response ρ}
    (hl : pt.hears n r = [(n, .made)]) (hb : pt.births r = 1)
    (hp : ∀ id k, pt ≠ .passivating id k) :
    pt.Hears c st n (.answer t r) (Function.update st n (.rest .fresh)) := by
  have heq : (Event.answer t r).hears n pt = [(n, .made)] := hl
  have hread : (st n).read .made = some (.rest .fresh) := by
    rw [hn]
    rfl
  refine ⟨heq.symm ▸ Advances.single hread, fun x hx => ?_, fun id _ hid => ?_, fun id hid => ?_,
    fun _ id k hpt => absurd hpt (hp id k), fun id d hd => ?_⟩
  · rw [Function.update_of_ne (Nat.ne_of_lt (hmade x hx))]
    exact h.charges x hx
  · exact Function.update_of_ne (Nat.ne_of_lt hid) _ _
  · have hlt : n < id := by
      rw [show (Event.answer t r).births pt = 1 from hb] at hid
      exact hid
    exact Function.update_of_ne (Nat.ne_of_gt hlt) _ _
  · rw [heq] at hd
    cases (Prod.mk.inj (List.mem_singleton.mp hd)).2

/-- An answer about the object on which the factory works makes of it what it says. -/
theorem Point.Fits.hear_answered (h : pt.Fits c st) (hmade : ∀ x ∈ pt.charges, x.1 < n) {t : Nat}
    {r : Response ρ} {d : Callback} {ok : Bool} (hl : pt.hears n r = [(id, .answered d ok)])
    (ha : (id, .asked d) ∈ pt.asks)
    (hp : ∀ x k, pt = .passivating x k → x = id ∧ ok = r.grants) :
    pt.Hears c st n (.answer t r) (Function.update st id (.verdict pt.outcome ok)) := by
  have heq : (Event.answer t r).hears n pt = [(id, .answered d ok)] := hl
  obtain ⟨s, hs, hid⟩ := h.serving id d ha
  have hread : (st id).read (.answered d ok) = some (.verdict pt.outcome ok) := by
    rw [hid, Career.read, if_pos rfl, Point.after_of_admits ha hs]
    rfl
  obtain ⟨x, hx, -⟩ := Point.charge_of_asked ha
  refine ⟨heq.symm ▸ Advances.single hread, fun y hy => ?_, fun y hy _ => ?_, fun y hy => ?_,
    fun hgrants y k hpt => ?_, fun y d' hd => ?_⟩
  · by_cases hyid : y.1 = id
    · -- while the factory worked on the object its charge said nothing of its career
      have hpermits := h.charges y hy
      rw [hyid, hid] at hpermits
      exact hpermits.of_busy _
    · rw [Function.update_of_ne hyid]
      exact h.charges y hy
  · refine Function.update_of_ne (fun hyid => ?_) _ _
    subst hyid
    exact claims_eq_nil_iff.mp hy x hx
  · -- an object in a charge was made before, and has another number than a new one
    have hlt := hmade _ hx
    exact Function.update_of_ne (Nat.ne_of_gt (Nat.lt_of_lt_of_le hlt (by omega))) _ _
  · obtain ⟨rfl, rfl⟩ := hp y k hpt
    rw [Function.update_self, hpt, show r.grants = true from hgrants]
    rfl
  · rw [heq] at hd
    obtain ⟨rfl, hsame⟩ := Prod.mk.inj (List.mem_singleton.mp hd)
    obtain ⟨rfl, rfl⟩ := Signal.answered.inj hsame
    rw [Function.update_self]
    exact ⟨rfl, _, ha⟩

/-- The factory may give every answer to a call that stands as it should. -/
theorem Point.Fits.hear (h : pt.Fits c st) (hn : st n = .unmade)
    (hmade : ∀ x ∈ pt.charges, x.1 < n) (t : Nat) (r : Response ρ) :
    ∃ st', pt.Hears c st n (.answer t r) st' := by
  have hheard := pt.hears_cases n r
  generalize hl : pt.hears n r = l at hheard
  cases hheard with
  | nothing hg => exact ⟨_, h.hear_nothing hl hg⟩
  | made hb hp => exact ⟨_, h.hear_made hn hmade hl hb hp⟩
  | answered ha hp => exact ⟨_, h.hear_answered hmade hl ha hp⟩

end Answers

/-! ## What is taken back -/

namespace Pool

variable {p : Pool ρ}

/-- A pass over some objects takes back nothing else. -/
theorem mem_reclaimFrom (now : Instant) (timeout : Duration) (ids : List Nat) {x : Reclaimed ρ}
    (hx : x ∈ (p.reclaimFrom now timeout ids).2) : x.object ∈ ids := by
  induction ids generalizing p with
  | nil => exact nomatch hx
  | cons id rest ih =>
    rw [Pool.reclaimFrom] at hx
    split at hx
    · rcases List.mem_cons.mp hx with rfl | hx
      · exact List.mem_cons_self ..
      · exact List.mem_cons_of_mem _ (ih hx)
    · exact List.mem_cons_of_mem _ (ih hx)

theorem taken_sweep (now : Instant) (a : Abandonment) (s : Sweeper) {id : Nat}
    (hid : id ∈ (p.sweep now a s).next.taken) : id ∈ p.registry.active := by
  obtain ⟨x, hx, rfl⟩ := List.mem_map.mp hid
  exact mem_reclaimFrom now a.timeout _ hx

/-- A pass over the lent objects takes back nothing else. -/
theorem advance_takes {pt : Point ρ} {s : Stretch ρ} {now : Instant} {self : Nat}
    {ended : Nat → Bool} (hs : p.advance now self ended pt = some s) {id : Nat}
    (hid : id ∈ pt.takes s.next) : id ∈ p.registry.active := by
  unfold Point.takes at hid
  split at hid
  · rename_i hsweeps
    cases goesOn_of_advance hs with
    | borrow b =>
      unfold Pool.borrow Pool.beginSeek at hid
      split at hid
      · split at hid
        · exact taken_sweep now _ _ hid
        · cases hid
      · cases hid
    | evicting out tests n =>
      -- the pass begins when nothing is left to destroy or to try out
      cases out with
      | cons x out => cases hsweeps
      | nil =>
        cases tests with
        | cons x tests => cases hsweeps
        | nil =>
          unfold Pool.evictNext Pool.evicted at hid
          dsimp only at hid
          rw [Stretch.notingIf_next] at hid
          split at hid
          · split at hid
            · exact taken_sweep now _ _ hid
            · cases hid
          · cases hid
    | _ => cases hsweeps
  · cases hid

/-- An answer of the factory takes nothing back. -/
theorem respond_takes {pt : Point ρ} {s : Stretch ρ} {now : Instant} {r : Response ρ}
    (hs : p.respond now pt r = some s) : pt.takes s.next = [] := by
  cases answered_of_respond hs <;> rfl

end Pool

end ObjectPool
