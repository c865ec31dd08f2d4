/-
  ObjectPool.Proofs.Stretch.Glances

  What a call finds when it looks into a slot. Wherever the resource of an object is asked for
  there is a way out for an empty slot, with a reply or a record of its own. No call takes it: the
  slot of a tracked object is filled, and so is that of a new one.

    * `Pool.Sound.slot_of_tracked` — a tracked object has its resource in its slot.
    * `Pool.Looks` — at which points a call looks into a slot, and where it goes on.
    * `Works.finds` — it finds the slot filled and goes on there.
    * `Next.outcomes`, `Next.Intact` — no reply tells of an empty slot.
    * `Works.intact` — no stretch leads to such a reply.
-/

import ObjectPool.Proofs.Bystanders
import ObjectPool.Proofs.Stretch.Outlook
import ObjectPool.Proofs.Stretch.Quests
import ObjectPool.Proofs.Stretch.Weeding

namespace ObjectPool

variable {ρ : Type}

/-! ## Filled slots -/

/-- A tracked object has its resource in its slot. -/
theorem Position.Legal.slot_of_tracked {v : Position ρ} (h : v.Legal) (ht : 0 < v.tracked) :
    ∃ r, v.shape.bind (·.slot) = some r := by
  cases h with
  | idle r | lent g r => exact ⟨r, rfl⟩
  | unborn | dead => exact absurd ht (Nat.lt_irrefl 0)
  | entrusted he =>
    cases he with
    | lending r | returning r | untried r | trying r => exact ⟨r, rfl⟩
    | _ => exact absurd ht (Nat.lt_irrefl 0)

namespace Pool.Sound

variable {p : Pool ρ} {ℓ : Ledger ρ} {id : Nat}

theorem slot_of_tracked (h : p.Sound ℓ) (hid : id ∈ p.registry.tracked) :
    ∃ v, p.slot? id = some v := by
  rw [slot?_eq_shape?]
  exact (h.objects id).slot_of_tracked (List.count_pos_iff.mpr hid)

/-- A lent object is tracked. -/
theorem slot_of_active (h : p.Sound ℓ) (hid : id ∈ p.registry.active) :
    ∃ v, p.slot? id = some v := by
  refine h.slot_of_tracked (List.count_pos_iff.mp ?_)
  have hactive : 0 < (p.position ℓ id).active := List.count_pos_iff.mpr hid
  have htracked := (h.objects id).tracked_eq
  show 0 < (p.position ℓ id).tracked
  omega

end Pool.Sound

/-! ## Where a call looks into a slot -/

namespace Pool

/-- A call at a point, with the answer that it gets if it waits for one, looks into the slot of the
    object `id`. If it finds a resource it goes on to have it readied, checked or laid to rest. -/
inductive Looks (p : Pool ρ) (now : Instant) :
    Point ρ → Option (Response ρ) → Nat → Point ρ → Prop
  /-- A borrower is given an idle object. -/
  | idle {b : Borrowing} {id : Nat} (isOpen : p.closed = false) (turn : p.mayTake none = true)
      (grant : (p.acquire now).2 = some (.idle id)) :
      Looks p now (.seek b) none id (.activating id (.lend b false))
  | idleInLine {b : Borrowing} {x id : Nat} (isOpen : p.closed = false)
      (turn : p.mayTake (some x) = true) (grant : (p.acquire now).2 = some (.idle id)) :
      Looks p now (.waiting b x) none id (.activating id (.lend b false))
  /-- A new object is for a borrower. -/
  | made {b : Borrowing} {v : ρ} (isOpen : p.closed = false) :
      Looks p now (.creating (.lend b)) (some (.created (.ok v))) p.entries.length
        (.activating p.entries.length (.lend b true))
  /-- A new object is for the idle queue. -/
  | stocked {k : Stocker} {v : ρ} :
      Looks p now (.creating (.stock k)) (some (.created (.ok v))) p.entries.length
        (if p.config.testOnCreate then .validating p.entries.length (.stock k)
          else .passivating p.entries.length (.stock k))
  /-- An object comes back. -/
  | returned {id : Nat} {answer : Option Reply} (lent : id ∈ p.registry.active)
      (allocated : p.isIn id .allocated = true) (isOpen : p.closed = false) :
      Looks p now (.takeBack id answer) none id
        (if p.config.testOnReturn then .validating id (.takeBack answer)
          else .passivating id (.takeBack answer))
  /-- An object that has come back was checked. -/
  | fit {id : Nat} {answer : Option Reply} :
      Looks p now (.validating id (.takeBack answer)) (some (.validated true)) id
        (.passivating id (.takeBack answer))
  /-- An idle object is tried out. -/
  | tried {id n : Nat} {tests : List Nat} :
      Looks p now (.evicting [] (id :: tests) n) none id (.activating id (.test tests n))

variable {p : Pool ρ} {ℓ : Ledger ρ} {now : Instant} {pt pt' : Point ρ} {c : Option (Response ρ)}
  {id : Nat} {answer : Option Reply}

/-- With what it finds a call goes on to the factory. -/
theorem Looks.isRequest (h : p.Looks now pt c id pt') : pt'.isRequest = true := by
  cases h with
  | stocked | returned => split <;> rfl
  | _ => rfl

/-- A borrower to whom an idle object is given goes on with it. -/
theorem Sound.seek_of_grant (h : p.Sound ℓ) {b : Borrowing} {ticket : Option Nat}
    (hopen : p.closed = false) (hturn : p.mayTake ticket = true)
    (hgrant : (p.acquire now).2 = some (.idle id)) :
    (p.seek now b ticket).next = .go (.activating id (.lend b false)) := by
  rw [h.acquire_eq now] at hgrant
  -- the grant is the first of the idle queue, so that the queue is not empty
  cases h.seeks now b ticket with
  | shut closed => exact nomatch hopen.symm.trans closed
  | takes _ _ idle next =>
    rw [idle] at hgrant
    obtain rfl := Grant.idle.inj (Option.some.inj hgrant)
    exact next
  | reserves _ _ idle room =>
    rw [idle, room] at hgrant
    exact nomatch hgrant
  | givesUp _ inVain | waits _ inVain =>
    obtain ⟨idle, room⟩ := inVain hturn
    rw [idle, room] at hgrant
    exact nomatch hgrant

/-- A new object for a borrower goes to the factory to be readied. -/
theorem createdForLoan_next (hopen : p.closed = false) (b : Borrowing) (v : ρ) :
    (p.createdForLoan now b v).next =
      .go (.activating p.entries.length (.lend b true)) := by
  have hquests : p.Quests now _ _ (p.createdForLoan now b v) := p.quests_created b v
  cases hquests with
  | made _ next => exact next
  | late _ closed => exact nomatch hopen.symm.trans closed
  | clears stood => exact nomatch stood

theorem createdForStock_next (k : Stocker) (v : ρ) :
    (p.createdForStock now k v).next =
      .go (if p.config.testOnCreate then .validating p.entries.length (.stock k)
        else .passivating p.entries.length (.stock k)) := by
  rw [createdForStock_eq]
  show Stretch.next (if p.config.testOnCreate then _ else _) = _
  split <;> rfl

theorem takeBack_next (hslot : ∃ v, p.slot? id = some v) (hlent : id ∈ p.registry.active)
    (hin : p.isIn id .allocated = true) (hopen : p.closed = false) :
    (p.takeBack now id answer).next =
      .go (if p.config.testOnReturn then .validating id (.takeBack answer)
        else .passivating id (.takeBack answer)) := by
  have hbrings : p.BringsBack id answer _ none (p.takeBack now id answer) :=
    bringsBack_takeBack fun _ => ⟨hlent, hslot⟩
  cases hbrings with
  | refused out => exact nomatch hin.symm.trans out
  | late _ closed => exact nomatch hopen.symm.trans closed
  | tests _ _ test next => rw [next, if_pos test]
  | lays _ _ test next =>
    rw [next, if_neg]
    rw [test]
    exact Bool.false_ne_true

theorem validatedReturn_next (hslot : ∃ v, p.slot? id = some v) :
    (p.validatedReturn id answer true).next = .go (.passivating id (.takeBack answer)) := by
  obtain ⟨v, hslot⟩ := hslot
  have hbrings : p.BringsBack id answer _ _ (p.validatedReturn id answer true) :=
    bringsBack_validated hslot true
  cases hbrings with
  | fit next => exact next

theorem evictNext_next (hslot : ∃ v, p.slot? id = some v) (tests : List Nat) (n : Nat) :
    (p.evictNext now [] (id :: tests) n).next = .go (.activating id (.test tests n)) := by
  obtain ⟨v, hslot⟩ := hslot
  rw [evictNext, activate, hslot]
  rfl

end Pool

/-! ## Replies that tell of an empty slot -/

/-- The replies that a call has ready once an object is destroyed, and the one that comes of an
    idle object that was not made. -/
def After.outcomes : After ρ → List Reply
  | .notStocked _ e => [.failed e]
  | k => k.promises

/-- The replies that a call has ready at a point. -/
def Point.outcomes : Point ρ → List Reply
  | .destroying _ _ _ k => k.outcomes
  | pt => pt.promises

/-- The replies that a call has given, or has ready, once a stretch is over. -/
def Next.outcomes : Next ρ → List Reply
  | .go pt => pt.outcomes
  | .finish r => [r]

/-- A reply is one of those that were ready, or does not tell of an empty slot. -/
def Reply.Intact (ready : List Reply) (r : Reply) : Prop := r ∈ ready ∨ r ≠ .failed .reclaimed

/-- A stretch adds no reply that tells of an empty slot to those that were ready. -/
structure Next.Intact (ready : List Reply) (next : Next ρ) : Prop where
  outcomes : ∀ r ∈ next.outcomes, r.Intact ready

section Intact

variable {ready : List Reply} {r : Reply} {next : Next ρ} {k : After ρ}

theorem Reply.intact_getD (answer : Option Reply) (h : r ≠ .failed .reclaimed) :
    (answer.getD r).Intact answer.toList := by
  cases answer with
  | none => exact .inr h
  | some a => exact .inl (List.mem_singleton.mpr rfl)

namespace Next.Intact

theorem of_nil (h : next.outcomes = []) : next.Intact ready where
  outcomes := fun _ hr => nomatch h ▸ hr

/-- The replies are those that were ready. -/
theorem kept (h : next.outcomes = ready) : next.Intact ready where
  outcomes := fun _ hr => .inl (h ▸ hr)

theorem finish (h : r.Intact ready) : (Next.finish (ρ := ρ) r).Intact ready where
  outcomes := fun _ hx => List.mem_singleton.mp hx ▸ h

end Next.Intact

/-- After the destruction of an object a call has the replies ready that it had before. -/
theorem Pool.resume_intact (p : Pool ρ) (k : After ρ) : (p.resume k).next.Intact k.outcomes := by
  cases k with
  | reply | drain => exact .kept rfl
  | notStocked s e =>
    cases s with
    | add => exact .kept rfl
    | fill f =>
      cases f with
      | prepare => exact .kept rfl
      -- a round of upkeep ends without saying why it made no object
      | upkeep => exact .finish (.inr nofun)
  | seek | reclaim | evict => exact .of_nil rfl

theorem Next.Destroys.intact (h : next.Destroys k) (hk : ∀ r ∈ k.outcomes, r.Intact ready) :
    next.Intact ready := by
  refine ⟨fun r hr => ?_⟩
  rcases h with ⟨id, v, mode, rfl⟩ | ⟨q, rfl⟩
  · exact hk r hr
  · exact ((q.resume_intact k).outcomes r hr).elim (hk r) .inr

end Intact

namespace Pool

variable {p : Pool ρ} {ℓ : Ledger ρ} {now : Instant} {id : Nat} {ready : List Reply}

/-- A call that destroys an object and then ends with a reply. -/
theorem destroy_intact_reply {r : Reply} (h : r.Intact ready) (p : Pool ρ) (id : Nat) :
    (p.destroy id (.reply r)).next.Intact ready :=
  (destroy_destroys p id (.reply r)).intact fun _ hx => List.mem_singleton.mp hx ▸ h

theorem refuse_intact {e : PoolError} (he : e ≠ .reclaimed) (p : Pool ρ) (id : Nat)
    (b : Borrowing) (fresh : Bool) : (p.refuse id b fresh e).next.Intact ready := by
  refine (refuse_destroys p id b fresh e).intact fun r hr => ?_
  cases fresh with
  | false => exact nomatch hr
  | true =>
    rw [List.mem_singleton.mp hr]
    exact .inr fun h => he (Reply.failed.inj h)

theorem settle_intact {fault : Option PoolError} (hf : fault ≠ some .reclaimed) (p : Pool ρ)
    (id : Nat) (k : Stocker) : (p.settle id k fault).next.Intact ready := by
  unfold settle
  dsimp only
  split
  · cases k with
    | add => exact .finish (.inr nofun)
    | fill => exact .of_nil rfl
  · rename_i e he
    refine (finishDestroy_destroys ..).intact fun r hr => ?_
    rw [List.mem_singleton.mp hr]
    refine .inr fun h => ?_
    -- neither a closed pool nor a full idle queue is such an error
    obtain rfl := Reply.failed.inj h
    split at he
    · exact nomatch he
    · split at he
      · exact nomatch he
      · exact hf he

theorem filled_intact (p : Pool ρ) (f : Filler) (made : Nat) :
    (p.filled f made).next.Intact ready := by
  cases f <;> exact .finish (.inr nofun)

/-! ### Calls that go on by themselves -/

theorem borrow_outcomes (p : Pool ρ) (now : Instant) (b : Borrowing) :
    (p.borrow now b).next.outcomes = [] := by
  unfold borrow
  split
  · split <;> rfl
  · rfl

theorem Sound.seek_intact (h : p.Sound ℓ) (now : Instant) (b : Borrowing)
    (ticket : Option Nat) : (p.seek now b ticket).next.Intact ready := by
  cases h.seeks now b ticket with
  | shut _ next | givesUp _ _ next =>
    rw [next]
    exact .finish (.inr nofun)
  | takes _ _ _ next | reserves _ _ _ _ next | waits _ _ next =>
    rw [next]
    exact .of_nil rfl

theorem add_intact (p : Pool ρ) : p.add.next.Intact ready := by
  unfold add
  split
  · exact .finish (.inr nofun)
  · split
    · exact .finish (.inr nofun)
    · exact .of_nil rfl

theorem prepare_intact (p : Pool ρ) : p.prepare.next.Intact ready := by
  unfold prepare
  split
  · exact .finish (.inr nofun)
  · exact .of_nil rfl

theorem fill_intact (p : Pool ρ) (f : Filler) (made : Nat) :
    (p.fill f made).next.Intact ready := by
  unfold fill
  split
  · exact filled_intact ..
  · exact .of_nil rfl

theorem upkeep_intact (p : Pool ρ) (now : Instant) : (p.upkeep now).next.Intact ready := by
  unfold upkeep
  split
  · exact .finish (.inr nofun)
  · unfold evict
    split <;> exact .of_nil rfl

theorem evictNext_intact (out tests : List Nat) (n : Nat)
    (hslot : ∀ id ∈ tests, ∃ v, p.slot? id = some v) :
    (p.evictNext now out tests n).next.Intact ready := by
  cases out with
  | cons id out => exact (finishDestroy_destroys ..).intact fun _ hr => nomatch hr
  | nil =>
    cases tests with
    | cons id tests =>
      rw [evictNext_next (hslot id (.head _))]
      exact .of_nil rfl
    | nil =>
      refine .of_nil ?_
      show ((p.evicted now n).next).outcomes = []
      unfold evicted
      rw [Stretch.notingIf_next]
      split
      · split <;> rfl
      · rfl

theorem swept_intact (p : Pool ρ) (now : Instant) (n : Nat) (k : Sweeper) :
    (p.swept now n k).next.Intact ready := by
  unfold swept
  rw [Stretch.notingIf_next]
  cases k <;> exact .of_nil rfl

theorem reclaimNext_intact (p : Pool ρ) (x : Reclaimed ρ) (rest : List (Reclaimed ρ)) (n : Nat)
    (k : Sweeper) : (p.reclaimNext x rest n k).next.Intact ready := by
  rcases p.reclaimNext_cases x rest n k with ⟨report, hgo⟩ | hdestroys
  · rw [hgo]
    exact .of_nil rfl
  · exact hdestroys.intact fun _ hr => nomatch hr

theorem Sound.takeBack_intact (h : p.Sound ℓ) (now : Instant) (id : Nat)
    (answer : Option Reply) : (p.takeBack now id answer).next.Intact answer.toList := by
  have hrefused : (answer.getD (.failed .invalidReturn)).Intact answer.toList :=
    Reply.intact_getD answer nofun
  -- a returned object is refused, late, or lent to the end and so with its resource
  by_cases hlent : id ∈ p.registry.active
  · cases hin : p.isIn id .allocated with
    | false =>
      unfold Pool.takeBack
      rw [if_neg (not_not_intro hlent), if_pos hin]
      exact .finish hrefused
    | true =>
      cases hclosed : p.closed with
      | false =>
        rw [takeBack_next (h.slot_of_active hlent) hlent hin hclosed]
        split <;> exact .kept rfl
      | true =>
        unfold Pool.takeBack
        rw [if_neg (not_not_intro hlent), if_neg (by simp [hin])]
        dsimp only
        rw [if_pos (show (p.markReturned now id).closed = true from hclosed)]
        exact destroy_intact_reply (Reply.intact_getD answer (by nofun)) _ id
  · unfold Pool.takeBack
    rw [if_pos hlent]
    exact .finish hrefused

theorem discard_intact (p : Pool ρ) (id : Nat) : (p.discard id).next.Intact ready := by
  unfold discard
  split
  · exact .finish (.inr nofun)
  · split
    · refine destroy_intact_reply (.inr ?_) _ id
      split <;> exact nofun
    · exact .finish (.inr nofun)

theorem Closer.intact (c : Closer) : c.reply.Intact c.promises := by
  cases c with
  | call => exact .inr nofun
  | release r => exact .inl (List.mem_singleton.mpr rfl)

theorem close_intact (p : Pool ρ) (self : Nat) (c : Closer) :
    (p.close self c).next.Intact c.promises := by
  unfold close
  split
  · exact .finish (Closer.intact c)
  · dsimp only
    split
    · split <;> exact .kept rfl
    · exact .kept rfl

theorem drainNext_intact (p : Pool ρ) (rest : List Nat) (d : Drainer) :
    (p.drainNext rest d).next.Intact d.promises := by
  cases rest with
  | cons id rest => exact (finishDestroy_destroys ..).intact fun r hr => .inl hr
  | nil =>
    cases d with
    | clear => exact .finish (.inr nofun)
    | close c => exact .finish (Closer.intact c)

/-! ### Calls that get an answer -/

theorem notCreated_intact (p : Pool ρ) (m : Maker) (reason : String) :
    (p.notCreated m reason).next.Intact ready := by
  cases m with
  | lend => exact .finish (.inr nofun)
  | stock k =>
    cases k with
    | add => exact .finish (.inr nofun)
    | fill f => cases f <;> exact .finish (.inr nofun)

theorem createdForLoan_intact (p : Pool ρ) (now : Instant) (b : Borrowing) (v : ρ) :
    (p.createdForLoan now b v).next.Intact ready := by
  cases hclosed : p.closed with
  | false =>
    rw [createdForLoan_next hclosed]
    exact .of_nil rfl
  | true =>
    rw [createdForLoan_closed hclosed]
    exact ⟨fun _ hr => .inr (List.mem_singleton.mp hr ▸ nofun)⟩

theorem createdForStock_intact (p : Pool ρ) (now : Instant) (k : Stocker) (v : ρ) :
    (p.createdForStock now k v).next.Intact ready := by
  rw [createdForStock_next]
  split <;> exact .of_nil rfl

theorem handOut_intact (p : Pool ρ) (id : Nat) (b : Borrowing) :
    (p.handOut id b).next.Intact ready := .finish (.inr nofun)

theorem activatedForLoan_intact (p : Pool ρ) (id : Nat) (b : Borrowing) (fresh : Bool) (v : ρ)
    (refusal : Option String) : (p.activatedForLoan id b fresh v refusal).next.Intact ready := by
  unfold activatedForLoan
  split
  · exact refuse_intact (by nofun) ..
  · split
    · exact .of_nil rfl
    · exact handOut_intact ..

theorem validatedForLoan_intact (p : Pool ρ) (id : Nat) (b : Borrowing) (fresh fit : Bool) :
    (p.validatedForLoan id b fresh fit).next.Intact ready := by
  unfold validatedForLoan
  split
  · exact handOut_intact ..
  · exact refuse_intact (by nofun) ..

theorem validatedForStock_intact (p : Pool ρ) (id : Nat) (k : Stocker) (fit : Bool) :
    (p.validatedForStock id k fit).next.Intact ready := by
  unfold validatedForStock
  split
  · exact .of_nil rfl
  · exact settle_intact (by nofun) ..

theorem passivatedForStock_intact (p : Pool ρ) (id : Nat) (k : Stocker) (v : ρ)
    (refusal : Option String) : (p.passivatedForStock id k v refusal).next.Intact ready := by
  refine settle_intact ?_ ..
  cases refusal <;> exact nofun

theorem failTest_intact (p : Pool ρ) (id : Nat) (tests : List Nat) (n : Nat) :
    (p.failTest id tests n).next.Intact ready :=
  (destroy_destroys ..).intact fun _ hr => nomatch hr

theorem activatedForTest_intact (p : Pool ρ) (id : Nat) (tests : List Nat) (n : Nat) (v : ρ)
    (refusal : Option String) : (p.activatedForTest id tests n v refusal).next.Intact ready := by
  unfold activatedForTest
  split
  · exact failTest_intact ..
  · exact .of_nil rfl

theorem validatedForTest_intact (p : Pool ρ) (id : Nat) (tests : List Nat) (n : Nat)
    (fit : Bool) : (p.validatedForTest id tests n fit).next.Intact ready := by
  unfold validatedForTest
  split
  · exact .of_nil rfl
  · exact failTest_intact ..

theorem passivatedForTest_intact (p : Pool ρ) (id : Nat) (tests : List Nat) (n : Nat) (v : ρ)
    (refusal : Option String) : (p.passivatedForTest id tests n v refusal).next.Intact ready := by
  unfold passivatedForTest
  split
  · exact failTest_intact ..
  · unfold passTest
    split
    · exact .of_nil rfl
    · exact (destroy_destroys ..).intact fun _ hr => nomatch hr

theorem validatedReturn_intact (hslot : ∃ v, p.slot? id = some v) (answer : Option Reply)
    (fit : Bool) : (p.validatedReturn id answer fit).next.Intact answer.toList := by
  cases fit with
  | true =>
    rw [validatedReturn_next hslot]
    exact .kept rfl
  | false => exact destroy_intact_reply (Reply.intact_getD answer (by nofun)) ..

theorem passivatedReturn_intact (p : Pool ρ) (id : Nat) (answer : Option Reply) (v : ρ)
    (refusal : Option String) :
    (p.passivatedReturn id answer v refusal).next.Intact answer.toList := by
  have hdestroy : ∀ (q : Pool ρ) (r : Reply), r ≠ .failed .reclaimed →
      (q.destroy id (.reply (answer.getD r))).next.Intact answer.toList := fun q r hr =>
    destroy_intact_reply (Reply.intact_getD answer hr) q id
  unfold passivatedReturn
  dsimp only
  split
  · exact hdestroy _ _ nofun
  · split
    · exact hdestroy _ _ nofun
    · split
      · exact hdestroy _ _ nofun
      · exact .finish (Reply.intact_getD answer nofun)

theorem destroyed_intact (p : Pool ρ) (id : Nat) (k : After ρ) (refusal : Option String) :
    (p.destroyed id k refusal).next.Intact k.outcomes := by
  cases refusal <;> exact p.resume_intact k

end Pool

/-! ## Every turn -/

/-- The answer of the factory or the sink that an event brings, if any. -/
def Event.response? : Event ρ → Option (Response ρ)
  | .answer _ r => some r
  | _ => none

namespace World.Works

variable {w : World ρ} {g : Nat → List Nat} {e : Event ρ} {f : Effect ρ} {t : Nat}
  {a : Activity ρ} {q : Pool ρ} {s : Stretch ρ}

/-- An object in the charge of the call that runs has its resource, unless it was taken from a
    borrower. -/
theorem slot_of_charge (h : w.Works e f t a q s) (hw : w.Sound g) {id : Nat} {c : Custody ρ}
    (hc : (id, c) ∈ a.point.charges) (hkept : ∀ r, c ≠ .seized r) : ∃ v, q.slot? id = some v := by
  have hsound := (hw.pools a.pool).sound q h.pool
  obtain ⟨-, v, -, hv⟩ := hsound.slot_of_charge (h.charge_mem g hc) hkept
  exact ⟨v, hv⟩

/-- Where a call looks into a slot it finds a resource and goes on with it. -/
theorem finds (h : w.Works e f t a q s) (hw : w.Sound g) {id : Nat} {pt : Point ρ}
    (hl : q.Looks w.now a.point e.response? id pt) : s.next = .go pt := by
  have hsound := (hw.pools a.pool).sound q h.pool
  have hcharge : ∀ {c : Custody ρ}, (id, c) ∈ a.point.charges → (∀ r, c ≠ .seized r) →
      ∃ v, q.slot? id = some v := h.slot_of_charge hw
  obtain ⟨i, here⟩ := a
  rcases h.runs with ⟨rfl, hs⟩ | ⟨r, rfl, hs⟩
  · cases hl with
    | idle isOpen turn grant =>
      obtain rfl := Option.some.inj hs
      exact hsound.seek_of_grant isOpen turn grant
    | idleInLine isOpen turn grant =>
      cases Pool.goesOn_of_advance hs with
      | waiting => exact hsound.seek_of_grant isOpen turn grant
    | returned lent allocated isOpen =>
      obtain rfl := Option.some.inj hs
      exact Pool.takeBack_next (hsound.slot_of_active lent) lent allocated isOpen
    | tried =>
      obtain rfl := Option.some.inj hs
      exact Pool.evictNext_next (hcharge (c := .untried) (.head _) nofun) _ _
  · cases hl with
    | made isOpen =>
      obtain rfl := Option.some.inj hs
      exact Pool.createdForLoan_next isOpen _ _
    | stocked =>
      obtain rfl := Option.some.inj hs
      exact Pool.createdForStock_next _ _
    | fit =>
      obtain rfl := Option.some.inj hs
      exact Pool.validatedReturn_next (hcharge (c := .returning) (.head _) nofun)

/-- No call comes to a reply that tells of an empty slot, unless it had it ready. -/
theorem intact (h : w.Works e f t a q s) (hw : w.Sound g) :
    s.next.Intact a.point.outcomes := by
  have hsound := (hw.pools a.pool).sound q h.pool
  have hcharge : ∀ {id : Nat} {c : Custody ρ}, (id, c) ∈ a.point.charges →
      (∀ r, c ≠ .seized r) → ∃ v, q.slot? id = some v := h.slot_of_charge hw
  obtain ⟨i, here⟩ := a
  rcases h.runs with ⟨-, hs⟩ | ⟨r, -, hs⟩
  · cases Pool.goesOn_of_advance hs with
    | borrow b => exact .of_nil (Pool.borrow_outcomes ..)
    | seek b => exact hsound.seek_intact ..
    | waiting b x => exact hsound.seek_intact ..
    | add => exact Pool.add_intact _
    | prepare => exact Pool.prepare_intact _
    | filling f made => exact Pool.fill_intact ..
    | upkeep => exact Pool.upkeep_intact ..
    | evicting out tests n =>
      refine Pool.evictNext_intact _ _ _ fun id hid => hcharge (c := .untried) ?_ nofun
      exact List.mem_append_right _ (List.mem_map.mpr ⟨id, hid, rfl⟩)
    | swept n k => exact Pool.swept_intact ..
    | reclaiming x rest n k => exact Pool.reclaimNext_intact ..
    | takeBack id answer => exact hsound.takeBack_intact ..
    | discard id => exact Pool.discard_intact ..
    | clear => exact .of_nil rfl
    | close c => exact Pool.close_intact ..
    | draining rest d => exact Pool.drainNext_intact ..
    | joining k drained c => exact .kept rfl
  · cases Pool.answered_of_respond hs with
    | notCreated m reason => exact Pool.notCreated_intact ..
    | createdForLoan b v => exact Pool.createdForLoan_intact ..
    | createdForStock k v => exact Pool.createdForStock_intact ..
    | activatedForLoan => exact Pool.activatedForLoan_intact ..
    | activatedForTest => exact Pool.activatedForTest_intact ..
    | validatedForLoan => exact Pool.validatedForLoan_intact ..
    | validatedForTest => exact Pool.validatedForTest_intact ..
    | validatedForStock => exact Pool.validatedForStock_intact ..
    | validatedReturn id answer fit =>
      exact Pool.validatedReturn_intact (hcharge (c := .returning) (.head _) nofun) ..
    | passivatedForTest => exact Pool.passivatedForTest_intact ..
    | passivatedForStock => exact Pool.passivatedForStock_intact ..
    | passivatedReturn => exact Pool.passivatedReturn_intact ..
    | destroyed => exact Pool.destroyed_intact ..
    | reported report x rest n k =>
      exact (Pool.disposeReclaimed_destroys ..).intact fun _ hr => nomatch hr

end World.Works

end ObjectPool
