/-
  ObjectPool.Proofs.Protocol.Requests

  What a stretch leads to: which callback a call makes next, in which career the
  object is then, and in which careers those are that wait for their turn. Wherever a
  call asks the factory for something, the object is as the automaton wants it.

    * `Point.asks`, `Point.Admits` — the next signal, and the careers it is made in.
    * `Custody.Permits` — the careers of the objects that a call has in its charge.
    * `Point.Ready`, `Next.Ready` — a point that a call may come to.
    * `advance_ready`, `respond_ready` — every stretch leads to such a point.
-/

import ObjectPool.Pool.Step
import ObjectPool.Proofs.Protocol.Career
import ObjectPool.Proofs.Sound
import ObjectPool.Proofs.Stretch.Turn

namespace ObjectPool

variable {ρ : Type}

/-! ## What a call asks for -/

/-- What a call asks the factory for at a point, with the object it is about. -/
def Point.asks : Point ρ → List (Nat × Signal)
  | .activating id _ => [(id, .asked .activate)]
  | .validating id _ => [(id, .asked .validate)]
  | .passivating id _ => [(id, .asked .passivate)]
  | .destroying id _ mode _ => [(id, .destroyed mode)]
  | _ => []

/-- What a call asks the factory for, or gives a borrower, once a stretch is over. -/
def Next.tells : Next ρ → List (Nat × Signal)
  | .go pt => pt.asks
  | .finish (.lent id) => [(id, .lent)]
  | .finish _ => []

/-- The objects that a call has just taken back from their borrowers, if it is at its pass
    over the lent objects. -/
def Next.taken : Next ρ → List Nat
  | .go (.reclaiming xs _ _) => xs.map (·.object)
  | _ => []

/-- Whether a call may begin its pass over the lent objects. -/
def Point.sweeps : Point ρ → Bool
  | .borrow _ | .evicting [] [] _ => true
  | _ => false

/-- The objects that a call takes back from their borrowers in a stretch. -/
def Point.takes (pt : Point ρ) (next : Next ρ) : List Nat := if pt.sweeps then next.taken else []

/-- The careers in which an object may be when a call makes its request. -/
def Point.Admits : Point ρ → Career → Prop
  | .activating _ (.lend _ true), c => c = .rest .fresh
  | .activating _ (.lend _ false), c | .activating _ (.test _ _), c => c = .rest .passive
  | .validating _ (.stock _), c => c = .rest .fresh
  | .validating _ (.trial _), c | .validating _ (.takeBack _), c => c = .rest .active
  | .passivating _ (.stock _), c => c = .rest .fresh ∨ c = .rest .checked
  | .passivating _ (.test _ _), c | .passivating _ (.takeBack _), c => c = .rest .active
  | .destroying _ _ mode _, c => c.read (.destroyed mode) = some .dead
  | _, _ => True

/-- The careers in which an object may be while it is in the charge of a call and no callback
    is made on it. Objects are tried out only if the settings say so. -/
def Custody.Permits (c : Config) : Custody ρ → Career → Prop
  | .lending, _ | .returning, _ | .stocking, _ => True
  | .trying, _ => c.testWhileIdle = true
  | .untried, s => c.testWhileIdle = true ∧ s = .rest .passive
  | .evicted, s | .drained, s => s = .rest .passive
  | .seized _, s => s = .seized

/-- The objects in a list of charges are in careers that the charges permit. -/
def Permitted (c : Config) (st : Nat → Career) (l : List (Nat × Custody ρ)) : Prop :=
  ∀ x ∈ l, x.2.Permits c (st x.1)

/-- A call may come to a point: its request finds the object as it should, and the other
    objects in its charge are as they should be. No borrower gives an object up there. -/
structure Point.Ready (c : Config) (st : Nat → Career) (pt : Point ρ) : Prop where
  charges : Permitted c st pt.charges
  asks : ∀ x ∈ pt.asks, pt.Admits (st x.1)
  returns : pt.returns = []

/-- A call may come to its next point, or end: a borrower gets only what is ready for it. -/
def Next.Ready (c : Config) (st : Nat → Career) : Next ρ → Prop
  | .go pt => pt.Ready c st
  | .finish r => ∀ id, r = .lent id → st id = .rest .active

/-- A call stands at a point as it should: the factory works on the object that it was asked to
    work on, and the other objects in the charge of the call are as they should be. -/
structure Point.Fits (c : Config) (st : Nat → Career) (pt : Point ρ) : Prop where
  charges : Permitted c st pt.charges
  serving : ∀ id d, (id, .asked d) ∈ pt.asks → ∃ s, pt.Admits (.rest s) ∧ st id = .busy s d

/-- What the answer of the factory tells; `n` is the number of the object that it may bring. -/
def Point.hears (n : Nat) : Point ρ → Response ρ → List (Nat × Signal)
  | .creating _, .created (.ok _) => [(n, .made)]
  | .activating id _, .activated _ refusal => [(id, .answered .activate refusal.isNone)]
  | .validating id _, .validated fit => [(id, .answered .validate fit)]
  | .passivating id _, .passivated _ refusal => [(id, .answered .passivate refusal.isNone)]
  | _, _ => []

/-- The condition in which the factory leaves an object if it does not refuse. -/
def Point.outcome : Point ρ → Condition
  | .validating _ (.stock _) => .checked
  | .passivating _ _ => .passive
  | _ => .active

/-- What follows the end of an object may begin. -/
structure After.Ready (c : Config) (st : Nat → Career) (k : After ρ) : Prop where
  charges : Permitted c st k.charges
  promises : ∀ r ∈ k.promises, r.isLoan = false

section Ready

variable {c : Config} {st : Nat → Career} {id : Nat} {ids : List Nat}

theorem Permitted.nil : Permitted c st ([] : List (Nat × Custody ρ)) := fun _ hx => nomatch hx

theorem Permitted.cons {x : Custody ρ} {l : List (Nat × Custody ρ)} (hx : x.Permits c (st id))
    (hl : Permitted c st l) : Permitted c st ((id, x) :: l) := by
  intro y hy
  rcases List.mem_cons.mp hy with rfl | hy
  · exact hx
  · exact hl y hy

theorem Permitted.append {l m : List (Nat × Custody ρ)} (hl : Permitted c st l)
    (hm : Permitted c st m) : Permitted c st (l ++ m) := by
  intro x hx
  rcases List.mem_append.mp hx with hx | hx
  · exact hl x hx
  · exact hm x hx

theorem Permitted.each {x : Custody ρ} (h : ∀ id ∈ ids, x.Permits c (st id)) :
    Permitted c st (each ids x) := by
  intro y hy
  obtain ⟨id, hid, rfl⟩ := List.mem_map.mp hy
  exact h id hid

/-- An object that waits for its turn in a list of charges of a kind. -/
theorem Permitted.of_each {x : Custody ρ} (h : Permitted c st (ObjectPool.each ids x))
    (hid : id ∈ ids) : x.Permits c (st id) :=
  h (id, x) (List.mem_map.mpr ⟨id, hid, rfl⟩)

/-- A point at which a call asks the factory for nothing. -/
theorem Point.Ready.of_charges {pt : Point ρ} (hc : Permitted c st pt.charges) (ha : pt.asks = [])
    (hr : pt.returns = []) : pt.Ready c st := by
  refine ⟨hc, fun x hx => ?_, hr⟩
  rw [ha] at hx
  exact nomatch hx

/-- A point at which a call has no objects. -/
theorem Point.Ready.of_nil {pt : Point ρ} (hc : pt.charges = []) (ha : pt.asks = [])
    (hr : pt.returns = []) : pt.Ready c st :=
  .of_charges (hc ▸ .nil) ha hr

/-- A call makes a request about the object `id`. -/
theorem Point.Ready.ask {pt : Point ρ} {s : Signal} (hc : Permitted c st pt.charges)
    (ha : pt.asks = [(id, s)]) (hr : pt.returns = []) (h : pt.Admits (st id)) :
    pt.Ready c st := by
  refine ⟨hc, fun x hx => ?_, hr⟩
  rw [ha] at hx
  obtain rfl := List.mem_singleton.mp hx
  exact h

/-- The factory is asked only for what the automaton allows. -/
theorem Point.after_of_admits {pt : Point ρ} {s : Condition} {d : Callback}
    (ha : (id, .asked d) ∈ pt.asks) (h : pt.Admits (.rest s)) : s.after d = some pt.outcome := by
  cases pt with
  | activating x t =>
    obtain ⟨rfl, hd⟩ := Prod.mk.inj (List.mem_singleton.mp ha)
    obtain rfl := Signal.asked.inj hd
    rcases t with ⟨b, _ | _⟩ | ⟨tests, n⟩ <;> (obtain rfl := Career.rest.inj h; rfl)
  | validating x k =>
    obtain ⟨rfl, hd⟩ := Prod.mk.inj (List.mem_singleton.mp ha)
    obtain rfl := Signal.asked.inj hd
    cases k <;> (obtain rfl := Career.rest.inj h; rfl)
  | passivating x k =>
    obtain ⟨rfl, hd⟩ := Prod.mk.inj (List.mem_singleton.mp ha)
    obtain rfl := Signal.asked.inj hd
    cases k with
    | stock s => rcases h with h | h <;> (obtain rfl := Career.rest.inj h; rfl)
    | test | takeBack => obtain rfl := Career.rest.inj h; rfl
  | destroying x r mode k => exact nomatch (Prod.mk.inj (List.mem_singleton.mp ha)).2
  | _ => exact nomatch ha

/-- The answer of the factory says what has become of the object. -/
theorem Point.Fits.verdict {pt : Point ρ} {st' : Nat → Career} {d : Callback} {ok : Bool}
    (h : pt.Fits c st) (ha : (id, .asked d) ∈ pt.asks)
    (hadv : Advances [(id, .answered d ok)] st st') : st' id = .verdict pt.outcome ok := by
  obtain ⟨s, hs, hid⟩ := h.serving id d ha
  refine hadv.eq_of_single ?_
  rw [hid, Career.read, if_pos rfl, Point.after_of_admits ha hs]
  rfl

/-- A charge of an object on which the factory works says nothing about its career. -/
theorem Custody.Permits.of_busy {x : Custody ρ} {s : Condition} {d : Callback}
    (h : x.Permits c (.busy s d)) (a : Career) : x.Permits c a := by
  cases x with
  | lending | returning | stocking => trivial
  | trying => exact h
  | untried => exact nomatch h.2
  | evicted | drained | seized => exact nomatch h

theorem After.Ready.reply {r : Reply} (hr : r.isLoan = false) :
    After.Ready (ρ := ρ) c st (.reply r) :=
  ⟨.nil, fun _ hx => List.mem_singleton.mp hx ▸ hr⟩

/-- Objects to be tried out wait for their turn in the sweep. -/
theorem After.Ready.tests {tests : List Nat} {n : Nat}
    (h : Permitted (ρ := ρ) c st (each tests .untried)) :
    After.Ready (ρ := ρ) c st (.evict [] tests n) :=
  ⟨h, fun _ hr => nomatch hr⟩

/-- A call ends, but not with an object for a borrower. -/
theorem Next.Ready.finish {r : Reply} (hr : r.isLoan = false) :
    Next.Ready (ρ := ρ) c st (.finish r) := by
  rintro id rfl
  exact nomatch hr

/-- The reply of a call is its own, or one that it has ready. -/
theorem isLoan_getD {answer : Option Reply} (ha : ∀ r ∈ answer.toList, r.isLoan = false)
    {r : Reply} (hr : r.isLoan = false) : (answer.getD r).isLoan = false := by
  cases answer with
  | none => exact hr
  | some a => exact ha a (List.mem_singleton.mpr rfl)

end Ready

/-- A record in the journal leads nowhere else. -/
@[simp] theorem Stretch.notingIf_next (s : Stretch ρ) (b : Bool) (n : Notice) :
    (s.notingIf b n).next = s.next := by
  unfold notingIf
  split <;> rfl

namespace Pool

variable {c : Config} {st : Nat → Career} {p : Pool ρ} {id : Nat} {k : After ρ}
  {answer : Option Reply}

/-! ## The end of an object -/

theorem filled_ready (p : Pool ρ) (f : Filler) (made : Nat) :
    (p.filled f made).next.Ready c st := by
  cases f <;> exact .finish rfl

theorem notStocked_ready (p : Pool ρ) (s : Stocker) (e : PoolError) :
    (p.notStocked s e).next.Ready c st := by
  rcases s with _ | ⟨_ | ⟨out, back⟩, made⟩ <;> exact .finish rfl

theorem resume_ready (p : Pool ρ) (hk : k.Ready c st) : (p.resume k).next.Ready c st := by
  cases k with
  | seek b => exact Point.Ready.of_nil rfl rfl rfl
  | reply r => exact .finish (hk.promises r (List.mem_singleton.mpr rfl))
  | notStocked s e => exact p.notStocked_ready s e
  | reclaim rest n s => exact Point.Ready.of_charges hk.charges rfl rfl
  | evict out tests n => exact Point.Ready.of_charges hk.charges rfl rfl
  | drain rest d => exact Point.Ready.of_charges hk.charges rfl rfl

theorem dispose_ready (p : Pool ρ) (r : Option ρ) {mode : DestroyMode} (hk : k.Ready c st)
    (hid : (st id).read (.destroyed mode) = some .dead) :
    (p.dispose id r mode k).next.Ready c st := by
  cases r with
  | some r => exact Point.Ready.ask hk.charges rfl rfl hid
  | none => exact resume_ready _ hk

theorem finishDestroy_ready (p : Pool ρ) (hk : k.Ready c st)
    (hid : (st id).read (.destroyed .normal) = some .dead) :
    (p.finishDestroy id k).next.Ready c st :=
  dispose_ready _ _ hk hid

theorem destroy_ready (p : Pool ρ) (hk : k.Ready c st)
    (hid : (st id).read (.destroyed .normal) = some .dead) : (p.destroy id k).next.Ready c st :=
  finishDestroy_ready _ hk hid

theorem destroyed_ready (p : Pool ρ) (hk : k.Ready c st) (refusal : Option String) :
    (p.destroyed id k refusal).next.Ready c st := by
  cases refusal <;> exact p.resume_ready hk

/-- An object that was taken back is reported and destroyed. -/
theorem reclaimNext_ready (p : Pool ρ) {x : Reclaimed ρ} {rest : List (Reclaimed ρ)}
    (h : Permitted c st (seizures (x :: rest))) (n : Nat) (s : Sweeper) :
    (p.disposeReclaimed x rest n s).next.Ready c st ∧
      (p.reclaimNext x rest n s).next.Ready c st := by
  have hx : st x.object = .seized := h _ (List.mem_cons_self ..)
  have hdispose : (p.disposeReclaimed x rest n s).next.Ready c st := by
    refine dispose_ready _ _
      ⟨fun y hy => h y (List.mem_cons_of_mem _ hy), fun r hr => nomatch hr⟩ ?_
    rw [hx]
    rfl
  refine ⟨hdispose, ?_⟩
  unfold Pool.reclaimNext
  split
  · split
    · split
      · exact hdispose
      · exact Point.Ready.of_charges h rfl rfl
    · exact hdispose
  · exact hdispose

/-- The objects that a pass over the lent objects has taken back wait to be destroyed. -/
theorem sweep_ready (p : Pool ρ) (now : Instant) (a : Abandonment) (s : Sweeper) :
    (p.sweep now a s).next.Ready c (seize (p.sweep now a s).next.taken st) := by
  refine Point.Ready.of_charges (fun y hy => ?_) rfl rfl
  obtain ⟨x, hx, rfl⟩ := List.mem_map.mp hy
  exact if_pos (List.mem_map.mpr ⟨x, hx, rfl⟩)

/-! ## Lending -/

theorem borrow_ready (p : Pool ρ) (now : Instant) (b : Borrowing) :
    (p.borrow now b).next.Ready c (seize (p.borrow now b).next.taken st) := by
  unfold Pool.borrow
  split
  · split
    · exact p.sweep_ready now _ _
    · exact Point.Ready.of_nil rfl rfl rfl
  · exact Point.Ready.of_nil rfl rfl rfl

theorem swept_ready (p : Pool ρ) (now : Instant) (n : Nat) (s : Sweeper) :
    (p.swept now n s).next.Ready c st := by
  unfold Pool.swept
  dsimp only
  rw [Stretch.notingIf_next]
  cases s <;> exact Point.Ready.of_nil rfl rfl rfl

theorem activate_ready (p : Pool ρ) {t : Trial} {refused : Stretch ρ}
    (hc : Permitted (ρ := ρ) c st (t.charges id))
    (h : (Point.activating (ρ := ρ) id t).Admits (st id)) (hr : refused.next.Ready c st) :
    (p.activate id t refused).next.Ready c st := by
  unfold Pool.activate
  split
  · exact Point.Ready.ask hc rfl rfl h
  · exact hr

theorem refuse_ready (p : Pool ρ) (b : Borrowing) (fresh : Bool) (e : PoolError)
    (hid : (st id).read (.destroyed .normal) = some .dead) :
    (p.refuse id b fresh e).next.Ready c st := by
  cases fresh with
  | true => exact p.destroy_ready (.reply rfl) hid
  | false => exact p.destroy_ready ⟨.nil, fun r hr => nomatch hr⟩ hid

theorem activateForLoan_ready (p : Pool ρ) (b : Borrowing) (fresh : Bool)
    (h : st id = .rest (if fresh then .fresh else .passive)) :
    (p.activate id (.lend b fresh) (p.refuse id b fresh .reclaimed)).next.Ready c st := by
  refine p.activate_ready (.cons trivial .nil) ?_ (p.refuse_ready b fresh _ ?_)
  · cases fresh <;> exact h
  · rw [h]
    rfl

/-- What is lent out of the idle queue was in it. -/
theorem mem_of_acquire (p : Pool ρ) {now : Instant} (h : (p.acquire now).2 = some (.idle id)) :
    id ∈ p.registry.idle := by
  rcases p.acquire_cases now with ⟨x, rest, hx, -, -, hq⟩ | ⟨q, hq, -⟩ | ⟨q, hq, -⟩
  · rw [hq] at h
    exact Grant.idle.inj (Option.some.inj h) ▸ hx
  · rw [hq] at h
    exact nomatch h
  · rw [hq] at h
    exact nomatch h

theorem seek_ready (p : Pool ρ) (hidle : ∀ id ∈ p.registry.idle, st id = .rest .passive)
    (now : Instant) (b : Borrowing) (ticket : Option Nat) :
    (p.seek now b ticket).next.Ready c st := by
  have htaken : ∀ id, (if p.mayTake ticket then p.acquire now else (p, none)).2 = some (.idle id) →
      st id = .rest .passive := by
    intro id hid
    split at hid
    · exact hidle id (p.mem_of_acquire hid)
    · exact nomatch hid
  unfold Pool.seek
  split
  · exact .finish rfl
  · generalize (if p.mayTake ticket then p.acquire now else (p, none)) = taken at htaken ⊢
    obtain ⟨q, grant⟩ := taken
    cases grant with
    | some g =>
      cases g with
      | idle id => exact activateForLoan_ready _ b false (htaken id rfl)
      | room => exact Point.Ready.of_nil rfl rfl rfl
    | none =>
      dsimp only
      split
      · exact .finish rfl
      · -- the borrower waits
        cases ticket <;> exact Point.Ready.of_nil rfl rfl rfl

theorem handOut_ready (p : Pool ρ) (b : Borrowing) (h : st id = .rest .active) :
    (p.handOut id b).next.Ready c st := by
  intro x hx
  obtain rfl := Reply.lent.inj hx
  exact h

theorem activatedForLoan_ready (p : Pool ρ) (b : Borrowing) (fresh : Bool) (r : ρ)
    (refusal : Option String) (h : st id = .verdict .active refusal.isNone) :
    (p.activatedForLoan id b fresh r refusal).next.Ready c st := by
  cases refusal with
  | some reason =>
    refine refuse_ready _ b fresh _ ?_
    rw [h]
    rfl
  | none =>
    unfold Pool.activatedForLoan
    dsimp only
    split
    · exact Point.Ready.ask (.cons trivial .nil) rfl rfl h
    · exact handOut_ready _ b h

theorem validatedForLoan_ready (p : Pool ρ) (b : Borrowing) (fresh fit : Bool)
    (h : st id = .verdict .active fit) : (p.validatedForLoan id b fresh fit).next.Ready c st := by
  cases fit with
  | true => exact handOut_ready _ b h
  | false =>
    refine refuse_ready _ b fresh _ ?_
    rw [h]
    rfl

theorem createdForLoan_ready (p : Pool ρ) (now : Instant) (b : Borrowing) (r : ρ)
    (h : st p.entries.length = .rest .fresh) : (p.createdForLoan now b r).next.Ready c st := by
  unfold Pool.createdForLoan
  dsimp only
  split
  · refine finishDestroy_ready _ (.reply rfl) ?_
    rw [h]
    rfl
  · exact activateForLoan_ready _ b true h

/-! ## Making idle objects -/

theorem add_ready (p : Pool ρ) : p.add.next.Ready c st := by
  unfold Pool.add
  split
  · exact .finish rfl
  · split
    · exact .finish rfl
    · exact Point.Ready.of_nil rfl rfl rfl

theorem prepare_ready (p : Pool ρ) : p.prepare.next.Ready c st := by
  unfold Pool.prepare
  split
  · exact .finish rfl
  · exact Point.Ready.of_nil rfl rfl rfl

theorem fill_ready (p : Pool ρ) (f : Filler) (made : Nat) : (p.fill f made).next.Ready c st := by
  unfold Pool.fill
  split
  · exact p.filled_ready f made
  · exact Point.Ready.of_nil rfl rfl rfl

theorem settle_ready (p : Pool ρ) (s : Stocker) (fault : Option PoolError)
    (hid : (st id).read (.destroyed .normal) = some .dead) :
    (p.settle id s fault).next.Ready c st := by
  unfold Pool.settle
  dsimp only
  split
  · cases s with
    | add => exact .finish rfl
    | fill f made => exact Point.Ready.of_nil rfl rfl rfl
  · exact finishDestroy_ready _ ⟨.nil, fun r hr => nomatch hr⟩ hid

theorem createdForStock_ready (p : Pool ρ) (now : Instant) (s : Stocker) (r : ρ)
    (h : st p.entries.length = .rest .fresh) : (p.createdForStock now s r).next.Ready c st := by
  rw [Pool.createdForStock_eq]
  dsimp only
  split
  · exact Point.Ready.ask (.cons trivial .nil) rfl rfl h
  · exact Point.Ready.ask (.cons trivial .nil) rfl rfl (.inl h)

theorem validatedForStock_ready (p : Pool ρ) (s : Stocker) (fit : Bool)
    (h : st id = .verdict .checked fit) : (p.validatedForStock id s fit).next.Ready c st := by
  cases fit with
  | true => exact Point.Ready.ask (.cons trivial .nil) rfl rfl (.inr h)
  | false =>
    refine settle_ready _ s _ ?_
    rw [h]
    rfl

theorem passivatedForStock_ready (p : Pool ρ) (s : Stocker) (r : ρ) (refusal : Option String)
    (h : st id = .verdict .passive refusal.isNone) :
    (p.passivatedForStock id s r refusal).next.Ready c st := by
  refine settle_ready _ s _ ?_
  rw [h]
  exact Career.read_destroyed_verdict _ _

theorem notCreated_ready (p : Pool ρ) (m : Maker) (reason : String) :
    (p.notCreated m reason).next.Ready c st := by
  cases m with
  | lend b => exact .finish rfl
  | stock s => exact notStocked_ready _ s _

/-! ## Taking objects back -/

section Answer

variable (ha : ∀ r ∈ answer.toList, r.isLoan = false)
include ha

theorem passivate_ready (p : Pool ρ) (h : st id = .rest .active) :
    (p.passivate id answer).next.Ready c st := by
  unfold Pool.passivate
  split
  · exact Point.Ready.ask (.cons trivial .nil) rfl rfl h
  · refine p.destroy_ready (.reply (isLoan_getD ha rfl)) ?_
    rw [h]
    rfl

theorem unfitReturn_ready (p : Pool ρ) (hid : (st id).read (.destroyed .normal) = some .dead) :
    (p.unfitReturn id answer).next.Ready c st :=
  destroy_ready _ (.reply (isLoan_getD ha rfl)) hid

theorem takeBack_ready (p : Pool ρ) (now : Instant)
    (h : id ∈ p.registry.active → st id = .rest .active) :
    (p.takeBack now id answer).next.Ready c st := by
  unfold Pool.takeBack
  dsimp only
  split
  · exact .finish (isLoan_getD ha rfl)
  · rename_i hid
    have hactive := h (Decidable.not_not.mp hid)
    have hdoomed : (st id).read (.destroyed .normal) = some .dead := by
      rw [hactive]
      rfl
    split
    · exact .finish (isLoan_getD ha rfl)
    · split
      · exact destroy_ready _ (.reply (isLoan_getD ha rfl)) hdoomed
      · split
        · split
          · exact Point.Ready.ask (.cons trivial .nil) rfl rfl hactive
          · exact unfitReturn_ready ha _ hdoomed
        · exact passivate_ready ha _ hactive

theorem validatedReturn_ready (p : Pool ρ) (fit : Bool) (h : st id = .verdict .active fit) :
    (p.validatedReturn id answer fit).next.Ready c st := by
  cases fit with
  | true => exact passivate_ready ha _ h
  | false =>
    refine unfitReturn_ready ha _ ?_
    rw [h]
    rfl

theorem passivatedReturn_ready (p : Pool ρ) (r : ρ) (refusal : Option String)
    (h : st id = .verdict .passive refusal.isNone) :
    (p.passivatedReturn id answer r refusal).next.Ready c st := by
  have hdoomed : (st id).read (.destroyed .normal) = some .dead := by
    rw [h]
    exact Career.read_destroyed_verdict _ _
  have hdestroy : ∀ (q : Pool ρ) (r : Reply), r.isLoan = false →
      (q.destroy id (.reply (answer.getD r))).next.Ready c st :=
    fun q r hr => q.destroy_ready (.reply (isLoan_getD ha hr)) hdoomed
  unfold Pool.passivatedReturn
  dsimp only
  split
  · exact hdestroy _ _ rfl
  · split
    · exact hdestroy _ _ rfl
    · split
      · exact hdestroy _ _ rfl
      · exact .finish (isLoan_getD ha rfl)

end Answer

theorem discard_ready (p : Pool ρ) (h : id ∈ p.registry.active → st id = .rest .active) :
    (p.discard id).next.Ready c st := by
  unfold Pool.discard
  split
  · exact .finish rfl
  · rename_i hid
    split
    · refine destroy_ready _ (.reply (by split <;> rfl)) ?_
      rw [h (Decidable.not_not.mp hid)]
      rfl
    · exact .finish rfl

/-! ## Upkeep -/

/-- What a sweep evicts or has tried out was looked at by it, and it has something tried out
    only if the settings say so. -/
theorem sortIdle_mem (p : Pool ρ) (now : Instant) (left : Nat) (ids : List Nat) :
    (∀ x ∈ (p.sortIdle now left ids).out, x ∈ ids) ∧
      ∀ x ∈ (p.sortIdle now left ids).tests, x ∈ ids ∧ p.config.testWhileIdle = true := by
  induction ids generalizing p left with
  | nil => exact ⟨(fun x hx => nomatch hx), fun x hx => nomatch hx⟩
  | cons id rest ih =>
    -- what is said about the objects behind the first one
    have hrest : ∀ (q : Pool ρ) (n : Nat), q.config = p.config →
        (∀ x ∈ (q.sortIdle now n rest).out, x ∈ id :: rest) ∧
          ∀ x ∈ (q.sortIdle now n rest).tests, x ∈ id :: rest ∧ p.config.testWhileIdle = true := by
      intro q n hq
      obtain ⟨hout, htests⟩ := ih q n
      refine ⟨fun x hx => List.mem_cons_of_mem _ (hout x hx), fun x hx => ?_⟩
      rw [← hq]
      exact ⟨List.mem_cons_of_mem _ (htests x hx).1, (htests x hx).2⟩
    rw [Pool.sortIdle]
    split
    · exact hrest p left rfl
    · split
      · exact hrest p left rfl
      · dsimp only
        split
        · obtain ⟨hout, htests⟩ :=
            hrest (((p.setState id .evictionTest).setState id .invalid).detach id) (left - 1) rfl
          refine ⟨fun x hx => ?_, htests⟩
          rcases List.mem_cons.mp hx with rfl | hx
          · exact List.mem_cons_self ..
          · exact hout x hx
        · split
          · rename_i ht
            obtain ⟨hout, htests⟩ := hrest (((p.setState id .evictionTest).setState id
              .validation).book (Registry.removeIdle id)) left rfl
            refine ⟨hout, fun x hx => ?_⟩
            rcases List.mem_cons.mp hx with rfl | hx
            · exact ⟨List.mem_cons_self .., ht⟩
            · exact htests x hx
          · exact hrest ((p.setState id .evictionTest).setState id .idle) left rfl

theorem evict_ready (p : Pool ρ) (hc : p.config = c)
    (hidle : ∀ id ∈ p.registry.idle, st id = .rest .passive) (now : Instant) :
    (p.evict now).next.Ready c st := by
  have horder : ∀ id ∈ p.registry.idleOldestFirst, st id = .rest .passive :=
    fun id hid => hidle id (Registry.mem_idleOldestFirst.mp hid)
  obtain ⟨hout, htests⟩ := p.sortIdle_mem now p.registry.idle.length p.registry.idleOldestFirst
  unfold Pool.evict
  split
  · exact Point.Ready.of_nil rfl rfl rfl
  · refine Point.Ready.of_charges
      (.append (.each fun x hx => horder x (hout x hx)) (.each fun x hx => ?_)) rfl rfl
    rw [← hc]
    exact ⟨(htests x hx).2, horder x (htests x hx).1⟩

theorem upkeep_ready (p : Pool ρ) (hc : p.config = c)
    (hidle : ∀ id ∈ p.registry.idle, st id = .rest .passive) (now : Instant) :
    (p.upkeep now).next.Ready c st := by
  unfold Pool.upkeep
  split
  · exact .finish rfl
  · exact p.evict_ready hc hidle now

section Trial

variable {tests : List Nat} (h : Permitted (ρ := ρ) c st ((id, .trying) :: each tests .untried))
include h

theorem untried_of_trial : Permitted (ρ := ρ) c st (each tests .untried) :=
  fun x hx => h x (List.mem_cons_of_mem _ hx)

theorem failTest_ready (p : Pool ρ) (n : Nat)
    (hid : (st id).read (.destroyed .normal) = some .dead) :
    (p.failTest id tests n).next.Ready c st :=
  destroy_ready _ (.tests (untried_of_trial h)) hid

theorem activatedForTest_ready (p : Pool ρ) (n : Nat) (r : ρ) (refusal : Option String)
    (hid : st id = .verdict .active refusal.isNone) :
    (p.activatedForTest id tests n r refusal).next.Ready c st := by
  cases refusal with
  | some reason =>
    refine failTest_ready h _ n ?_
    rw [hid]
    rfl
  | none => exact Point.Ready.ask h rfl rfl hid

theorem validatedForTest_ready (p : Pool ρ) (n : Nat) (fit : Bool)
    (hid : st id = .verdict .active fit) :
    (p.validatedForTest id tests n fit).next.Ready c st := by
  cases fit with
  | true => exact Point.Ready.ask h rfl rfl hid
  | false =>
    refine failTest_ready h _ n ?_
    rw [hid]
    rfl

theorem passivatedForTest_ready (p : Pool ρ) (n : Nat) (r : ρ) (refusal : Option String)
    (hid : st id = .verdict .passive refusal.isNone) :
    (p.passivatedForTest id tests n r refusal).next.Ready c st := by
  have hdoomed : (st id).read (.destroyed .normal) = some .dead := by
    rw [hid]
    exact Career.read_destroyed_verdict _ _
  cases refusal with
  | some reason => exact failTest_ready h _ n hdoomed
  | none =>
    unfold Pool.passivatedForTest Pool.passTest
    dsimp only
    split
    · exact Point.Ready.of_charges (untried_of_trial h) rfl rfl
    · exact destroy_ready _ (.tests (untried_of_trial h)) hdoomed

end Trial

theorem evicted_ready (p : Pool ρ) (now : Instant) (n : Nat) :
    (p.evicted now n).next.Ready c (seize (p.evicted now n).next.taken st) := by
  rw [Pool.evicted, Stretch.notingIf_next]
  split
  · split
    · exact p.sweep_ready now _ _
    · exact Point.Ready.of_nil rfl rfl rfl
  · exact Point.Ready.of_nil rfl rfl rfl

/-- The next evicted object is destroyed, or the next idle one readied for its trial. -/
theorem evictNext_ready (p : Pool ρ) {out tests : List Nat} {n : Nat} (now : Instant)
    (h : Permitted (ρ := ρ) c st (sweeping out tests)) :
    (p.evictNext now out tests n).next.Ready c
      (seize ((Point.evicting out tests n).takes (p.evictNext now out tests n).next) st) := by
  have hout : Permitted (ρ := ρ) c st (each out .evicted) :=
    fun x hx => h x (List.mem_append_left _ hx)
  have htests : Permitted (ρ := ρ) c st (each tests .untried) :=
    fun x hx => h x (List.mem_append_right _ hx)
  cases out with
  | cons id out =>
    have hid : st id = .rest .passive := hout.of_each (List.mem_cons_self ..)
    have hnone : (Point.evicting (id :: out) tests n).takes
        (p.evictNext now (id :: out) tests n).next = [] := rfl
    rw [hnone, seize_nil]
    refine finishDestroy_ready _ ⟨fun x hx => h x (List.mem_cons_of_mem _ hx),
      fun r hr => nomatch hr⟩ ?_
    rw [hid]
    rfl
  | nil =>
    cases tests with
    | nil => exact p.evicted_ready now n
    | cons id tests =>
      obtain ⟨htest, hid⟩ := htests.of_each (List.mem_cons_self ..)
      have hrest : Permitted (ρ := ρ) c st ((id, .trying) :: each tests .untried) :=
        .cons htest fun x hx => htests x (List.mem_cons_of_mem _ hx)
      refine p.activate_ready hrest hid (failTest_ready hrest p n ?_)
      rw [hid]
      rfl

/-! ## Closing -/

theorem close_ready (p : Pool ρ) (hidle : ∀ id ∈ p.registry.idle, st id = .rest .passive)
    (self : Nat) {d : Closer} (hd : ∀ r ∈ d.promises, r.isLoan = false) :
    (p.close self d).next.Ready c st := by
  have hdrain : Permitted (ρ := ρ) c st (each p.registry.drained .drained) :=
    .each fun id hid => hidle id ((List.mem_filter.mp hid).1)
  unfold Pool.close
  split
  · cases d with
    | call => exact .finish rfl
    | release r => exact .finish (hd r (List.mem_singleton.mpr rfl))
  · dsimp only
    split
    · split
      · exact Point.Ready.of_charges hdrain rfl rfl
      · exact Point.Ready.of_charges hdrain rfl rfl
    · exact Point.Ready.of_charges hdrain rfl rfl

theorem drainNext_ready (p : Pool ρ) {rest : List Nat} {d : Drainer}
    (h : Permitted (ρ := ρ) c st (each rest .drained)) (hd : ∀ r ∈ d.promises, r.isLoan = false) :
    (p.drainNext rest d).next.Ready c st := by
  cases rest with
  | cons id rest =>
    have hid : st id = .rest .passive := h.of_each (List.mem_cons_self ..)
    refine p.finishDestroy_ready ⟨fun x hx => h x (List.mem_cons_of_mem _ hx), hd⟩ ?_
    rw [hid]
    rfl
  | nil =>
    cases d with
    | clear => exact .finish rfl
    | close d =>
      cases d with
      | call => exact .finish rfl
      | release r => exact .finish (hd r (List.mem_singleton.mpr rfl))

/-! ## Every stretch -/

/-- A call that goes on by itself comes to a point that is ready for it. -/
theorem advance_ready {pt : Point ρ} {s : Stretch ρ} {now : Instant} {self : Nat}
    {ended : Nat → Bool} (hc : p.config = c)
    (hidle : ∀ id ∈ p.registry.idle, st id = .rest .passive)
    (hback : ∀ id ∈ pt.returns, id ∈ p.registry.active → st id = .rest .active)
    (hcharges : Permitted c st pt.charges) (hpr : ∀ r ∈ pt.promises, r.isLoan = false)
    (hs : p.advance now self ended pt = some s) :
    s.next.Ready c (seize (pt.takes s.next) st) := by
  cases goesOn_of_advance hs with
  | borrow b => exact p.borrow_ready now b
  | seek b => exact p.seek_ready hidle now b none
  | waiting b t _ => exact p.seek_ready hidle now b (some t)
  | add => exact p.add_ready
  | prepare => exact p.prepare_ready
  | filling f made => exact p.fill_ready f made
  | upkeep => exact p.upkeep_ready hc hidle now
  | evicting out tests n => exact p.evictNext_ready now hcharges
  | swept n w => exact p.swept_ready now n w
  | reclaiming x rest n w => exact (p.reclaimNext_ready hcharges n w).2
  | takeBack id answer => exact takeBack_ready hpr p now (hback id (List.mem_singleton.mpr rfl))
  | discard id => exact p.discard_ready (hback id (List.mem_singleton.mpr rfl))
  | clear =>
    exact Point.Ready.of_charges (.each fun id hid => hidle id (List.mem_filter.mp hid).1) rfl rfl
  | close d => exact p.close_ready hidle self hpr
  | draining rest d => exact p.drainNext_ready hcharges hpr
  | joining k rest d _ => exact Point.Ready.of_charges hcharges rfl rfl

/-- A call that gets an answer comes to a point that is ready for it; `st'` are the careers once
    the answer is known. -/
theorem respond_ready {pt : Point ρ} {s : Stretch ρ} {now : Instant} {r : Response ρ}
    {st' : Nat → Career} (hpt : pt.Fits c st) (hpr : ∀ r ∈ pt.promises, r.isLoan = false)
    (hnew : st p.entries.length = .unmade) (hadv : Advances (pt.hears p.entries.length r) st st')
    (hcharges : Permitted c st' pt.charges) (hs : p.respond now pt r = some s) :
    s.next.Ready c st' := by
  have hfresh : Advances [(p.entries.length, .made)] st st' →
      st' p.entries.length = .rest .fresh := by
    intro hmade
    refine hmade.eq_of_single ?_
    rw [hnew]
    rfl
  have hverdict : ∀ {id : Nat} {d : Callback} {ok : Bool}, pt.asks = [(id, .asked d)] →
      Advances [(id, .answered d ok)] st st' → st' id = .verdict pt.outcome ok :=
    fun ha h => hpt.verdict (ha ▸ List.mem_singleton.mpr rfl) h
  cases answered_of_respond hs with
  | notCreated m reason => exact p.notCreated_ready _ _
  | createdForLoan b v => exact p.createdForLoan_ready now _ _ (hfresh hadv)
  | createdForStock k v => exact p.createdForStock_ready now _ _ (hfresh hadv)
  | activatedForLoan id b fresh v refusal =>
    exact p.activatedForLoan_ready _ _ _ _ (hverdict rfl hadv)
  | activatedForTest id tests n v refusal =>
    exact activatedForTest_ready hcharges p _ _ _ (hverdict rfl hadv)
  | validatedForLoan id b fresh fit => exact p.validatedForLoan_ready _ _ _ (hverdict rfl hadv)
  | validatedForTest id tests n fit =>
    exact validatedForTest_ready hcharges p _ _ (hverdict rfl hadv)
  | validatedForStock id k fit => exact p.validatedForStock_ready _ _ (hverdict rfl hadv)
  | validatedReturn id answer fit => exact validatedReturn_ready hpr p _ (hverdict rfl hadv)
  | passivatedForTest id tests n v refusal =>
    exact passivatedForTest_ready hcharges p _ _ _ (hverdict rfl hadv)
  | passivatedForStock id k v refusal =>
    exact p.passivatedForStock_ready _ _ _ (hverdict rfl hadv)
  | passivatedReturn id answer v refusal =>
    exact passivatedReturn_ready hpr p _ _ (hverdict rfl hadv)
  | destroyed id v mode k refusal => exact p.destroyed_ready ⟨hcharges, hpr⟩ _
  | reported report x rest n w => exact (p.reclaimNext_ready hcharges _ _).1

end Pool

end ObjectPool
