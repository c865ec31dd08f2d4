/-
  ObjectPool.Proofs.Stretch.Outlook

  How calls that were on their way when their pool was closed come to their ends. A borrower
  for whom the factory readies an object may still get it. Any other borrower fails, the one
  for whom an object is being made included; if the call gives up the last reference to its
  pool, it ends when the idle objects are destroyed.

    * `Point.outlook`, `Outlook.Allows` — the replies with which a call can still end.
    * `Point.span` — how many stretches it has to go, at most.
    * `advance_within`, `respond_within` — a stretch on a closed pool adds no reply and comes
      nearer to the end.
    * `advance_isBorrow`, `respond_isBorrow` — on any pool, a borrow goes on as a borrow.
-/

import ObjectPool.Proofs.Protocol.Requests
import ObjectPool.Proofs.Stretch.Dismissal

namespace ObjectPool

variable {ρ : Type}

/-- How a call can still end on a closed pool. -/
inductive Outlook where
  /-- With this reply. -/
  | sure (r : Reply)
  /-- The factory makes an object for a borrower, which will come too late. -/
  | making
  /-- The factory readies an object for a borrower; the object is new, or was idle before. -/
  | readying (id : Nat) (fresh : Bool)

/-- The replies that an outlook leaves. -/
def Outlook.Allows : Outlook → Reply → Prop
  | .sure r, r' => r' = r
  | .making, r => r = .failed .closed ∨ ∃ reason, r = .failed (.factory .create reason)
  | .readying id false, r => r = .lent id ∨ r = .failed .closed
  | .readying id true, r => r = .lent id ∨ r = .failed .validationFailed ∨
      ∃ reason, r = .failed (.factory .activate reason)

namespace After

/-- How a call can still end after the destruction of an object. -/
def outlook : After ρ → Option Outlook
  | .seek _ | .reclaim _ _ (.borrow _) => some (.sure (.failed .closed))
  | .reply r => some (.sure r)
  | .drain _ (.close c) => some (.sure c.reply)
  | _ => none

/-- How many stretches it has to go then, at most. -/
def span : After ρ → Nat
  | .seek _ => 1
  | .reclaim rest _ _ => 3 * rest.length + 2
  | .drain rest _ => 2 * rest.length + 1
  | _ => 0

/-- Whether a borrow goes on, or the pool is closed for one that gave up the last reference. -/
def isBorrow : After ρ → Bool
  | .seek _ | .reply _ | .reclaim _ _ (.borrow _) | .drain _ (.close (.release _)) => true
  | _ => false

theorem outlook_of_isBorrow {k : After ρ} (h : k.isBorrow = true) : ∃ o, k.outlook = some o := by
  cases k with
  | seek | reply => exact ⟨_, rfl⟩
  | reclaim rest n w =>
    cases w with
    | borrow => exact ⟨_, rfl⟩
    | upkeep => exact nomatch h
  | drain rest d =>
    cases d with
    | close => exact ⟨_, rfl⟩
    | clear => exact nomatch h
  | notStocked | evict => exact nomatch h

end After

namespace Point

/-- How a call at a point can still end. -/
def outlook : Point ρ → Option Outlook
  | .creating (.lend _) => some .making
  | .activating id (.lend _ fresh) | .validating id (.trial (.lend _ fresh)) =>
    some (.readying id fresh)
  | .reclaiming _ _ (.borrow _) | .reporting _ _ _ _ (.borrow _) => some (.sure (.failed .closed))
  | .draining _ (.close c) | .joining _ _ c => some (.sure c.reply)
  | .destroying _ _ _ k => k.outlook
  | pt => pt.verdict.map .sure

/-- How many stretches it has to go, at most. -/
def span : Point ρ → Nat
  | .creating _ => 2
  | .activating _ _ => 4
  | .validating _ _ => 3
  | .reclaiming rest _ _ => 3 * rest.length + 2
  | .reporting _ _ rest _ _ => 3 * rest.length + 4
  | .draining rest _ => 2 * rest.length + 1
  | .joining _ drained _ => 2 * drained.length + 2
  | .destroying _ _ _ k => k.span + 1
  | pt => pt.hops

/-- Whether a call is a borrow, or closes the pool after one that gave up the last reference. -/
def isBorrow : Point ρ → Bool
  | .borrow _ | .seek _ | .waiting _ _ | .creating (.lend _) | .activating _ (.lend _ _)
  | .validating _ (.trial (.lend _ _)) | .reclaiming _ _ (.borrow _)
  | .reporting _ _ _ _ (.borrow _) | .close (.release _) | .draining _ (.close (.release _))
  | .joining _ _ (.release _) => true
  | .destroying _ _ _ k => k.isBorrow
  | _ => false

theorem span_pos (pt : Point ρ) : 0 < pt.span := by
  cases pt <;> simp [span, hops_pos]

/-- Wherever a borrow stands, there is an outlook for it. -/
theorem outlook_of_isBorrow {pt : Point ρ} (h : pt.isBorrow = true) :
    ∃ o, pt.outlook = some o := by
  cases pt with
  | borrow | seek | waiting | close | joining => exact ⟨_, rfl⟩
  | creating m =>
    cases m with
    | lend => exact ⟨_, rfl⟩
    | stock => exact nomatch h
  | activating id t =>
    cases t with
    | lend => exact ⟨_, rfl⟩
    | test => exact nomatch h
  | validating id c =>
    cases c with
    | trial t =>
      cases t with
      | lend => exact ⟨_, rfl⟩
      | test => exact nomatch h
    | stock | takeBack => exact nomatch h
  | reclaiming _ _ w | reporting _ _ _ _ w =>
    cases w with
    | borrow => exact ⟨_, rfl⟩
    | upkeep => exact nomatch h
  | draining rest d =>
    cases d with
    | close => exact ⟨_, rfl⟩
    | clear => exact nomatch h
  | destroying id v mode k => exact After.outlook_of_isBorrow h
  | _ => exact nomatch h

end Point

namespace Next

/-- A call has no more replies left than `o` allows, and fewer than `n` stretches to go. -/
def Within (o : Outlook) (n : Nat) : Next ρ → Prop
  | .finish r => o.Allows r
  | .go pt => pt.span < n ∧ ∃ o', pt.outlook = some o' ∧ ∀ r, o'.Allows r → o.Allows r

/-- A call goes on as a borrow, or ends. -/
def isBorrow : Next ρ → Bool
  | .go pt => pt.isBorrow
  | .finish _ => true

/-- An object is destroyed first, unless its slot is empty, and the call goes on with `k`. -/
def Destroys (k : After ρ) (next : Next ρ) : Prop :=
  (∃ id v mode, next = .go (.destroying id v mode k)) ∨ ∃ q : Pool ρ, next = (q.resume k).next

variable {o o' : Outlook} {m n : Nat} {next : Next ρ} {k : After ρ} {pt : Point ρ}

theorem Within.mono (h : next.Within o' m) (hm : m ≤ n) (ho : ∀ r, o'.Allows r → o.Allows r) :
    next.Within o n := by
  cases next with
  | go pt =>
    obtain ⟨hlt, o₁, hpt, hle⟩ := h
    exact ⟨Nat.lt_of_lt_of_le hlt hm, o₁, hpt, fun r hr => ho r (hle r hr)⟩
  | finish r => exact ho r h

theorem within_go (hn : pt.span < n) (ho : pt.outlook = some o) : (go pt).Within o n :=
  ⟨hn, o, ho, fun _ hr => hr⟩

/-- A call that is to be dismissed. -/
theorem Within.of_dismisses {p : Pool ρ} {s : Stretch ρ} {r : Reply} (h : s.Dismisses p pt r) :
    s.next.Within (.sure r) pt.hops := by
  rcases h.next with hend | ⟨pt', hgo, hv, hreq, hlt⟩
  · rw [hend]
    exact rfl
  · rw [hgo]
    cases pt' with
    | borrow | seek | waiting | add | prepare | upkeep | close =>
      exact within_go hlt (congrArg (Option.map Outlook.sure) hv)
    | destroying => exact nomatch hreq
    | _ => exact nomatch hv

/-- After the destruction of an object a call is as near to its end as is left to it. -/
theorem resume_within (q : Pool ρ) (hk : k.outlook = some o) :
    (q.resume k).next.Within o (k.span + 1) := by
  cases k with
  | seek b => exact within_go (Nat.lt_succ_self 1) hk
  | reply r =>
    obtain rfl := Option.some.inj hk
    exact rfl
  | reclaim rest m w =>
    cases w with
    | borrow b => exact within_go (Nat.lt_succ_self (3 * rest.length + 2)) hk
    | upkeep => exact nomatch hk
  | drain rest d =>
    cases d with
    | close c => exact within_go (Nat.lt_succ_self (2 * rest.length + 1)) hk
    | clear => exact nomatch hk
  | notStocked | evict => exact nomatch hk

theorem Destroys.within (h : next.Destroys k) (hk : k.outlook = some o) :
    next.Within o (k.span + 2) := by
  rcases h with ⟨id, v, mode, rfl⟩ | ⟨q, rfl⟩
  · exact within_go (Nat.lt_succ_self (k.span + 1)) hk
  · exact (resume_within q hk).mono (Nat.le_succ _) fun _ hr => hr

theorem resume_isBorrow (q : Pool ρ) (hk : k.isBorrow = true) :
    (q.resume k).next.isBorrow = true := by
  cases k with
  | seek | reply => rfl
  | reclaim rest n w =>
    cases w with
    | borrow => rfl
    | upkeep => exact nomatch hk
  | drain rest d =>
    cases d with
    | close c =>
      cases c with
      | release => rfl
      | call => exact nomatch hk
    | clear => exact nomatch hk
  | notStocked | evict => exact nomatch hk

theorem Destroys.isBorrow (h : next.Destroys k) (hk : k.isBorrow = true) :
    next.isBorrow = true := by
  rcases h with ⟨id, v, mode, rfl⟩ | ⟨q, rfl⟩
  · exact hk
  · exact resume_isBorrow q hk

end Next

namespace Pool

variable {p : Pool ρ} {pt : Point ρ} {o : Outlook} {s : Stretch ρ} {now : Instant} {self id : Nat}
  {ended : Nat → Bool}

/-! ## Stretches that destroy an object -/

theorem dispose_destroys (p : Pool ρ) (id : Nat) (v : Option ρ) (mode : DestroyMode)
    (k : After ρ) : (p.dispose id v mode k).next.Destroys k := by
  cases v with
  | some v => exact .inl ⟨id, v, mode, rfl⟩
  | none => exact .inr ⟨p.retire id, rfl⟩

theorem finishDestroy_destroys (p : Pool ρ) (id : Nat) (k : After ρ) :
    (p.finishDestroy id k).next.Destroys k :=
  dispose_destroys ..

theorem destroy_destroys (p : Pool ρ) (id : Nat) (k : After ρ) :
    (p.destroy id k).next.Destroys k :=
  finishDestroy_destroys ..

theorem disposeReclaimed_destroys (p : Pool ρ) (x : Reclaimed ρ) (rest : List (Reclaimed ρ))
    (n : Nat) (w : Sweeper) : (p.disposeReclaimed x rest n w).next.Destroys (.reclaim rest n w) :=
  dispose_destroys ..

/-- The next object that was taken back is reported, or destroyed right away. -/
theorem reclaimNext_cases (p : Pool ρ) (x : Reclaimed ρ) (rest : List (Reclaimed ρ)) (n : Nat)
    (w : Sweeper) :
    (∃ report, (p.reclaimNext x rest n w).next = .go (.reporting report x rest n w)) ∨
      (p.reclaimNext x rest n w).next.Destroys (.reclaim rest n w) := by
  have hdispose := p.disposeReclaimed_destroys x rest n w
  unfold reclaimNext
  split
  · split
    · split
      · exact .inr hdispose
      · exact .inl ⟨_, rfl⟩
    · exact .inr hdispose
  · exact .inr hdispose

theorem swept_next (p : Pool ρ) (now : Instant) (n : Nat) (b : Borrowing) :
    (p.swept now n (.borrow b)).next = .go (.seek (b.start now)) := by
  rw [swept, Stretch.notingIf_next]
  rfl

/-- What follows if an object is unfit for a borrower. -/
def afterRefusal (b : Borrowing) (fresh : Bool) (e : PoolError) : After ρ :=
  if fresh then .reply (.failed e) else .seek b

theorem refuse_destroys (p : Pool ρ) (id : Nat) (b : Borrowing) (fresh : Bool) (e : PoolError) :
    (p.refuse id b fresh e).next.Destroys (afterRefusal b fresh e) := by
  cases fresh <;> exact destroy_destroys ..

/-! ## On a closed pool -/

/-- An object that is unfit for a borrower is destroyed, and the borrower fails. -/
theorem refuse_within (p : Pool ρ) (id : Nat) (b : Borrowing) {fresh : Bool} {e : PoolError}
    (he : fresh = true → (Outlook.readying id fresh).Allows (.failed e)) :
    (p.refuse id b fresh e).next.Within (.readying id fresh) 3 := by
  cases fresh with
  | true =>
    refine ((p.refuse_destroys id b true e).within rfl).mono (Nat.le_succ 2) fun r hr => ?_
    rw [show r = .failed e from hr]
    exact he rfl
  | false =>
    have hclosed : ∀ r, (Outlook.sure (.failed .closed)).Allows r →
        (Outlook.readying id false).Allows r := fun r hr => .inr hr
    exact ((p.refuse_destroys id b false e).within rfl).mono (Nat.le_refl 3) hclosed

theorem handOut_within (p : Pool ρ) (id : Nat) (b : Borrowing) (fresh : Bool) (n : Nat) :
    (p.handOut id b).next.Within (.readying id fresh) n := by
  cases fresh <;> exact .inl rfl

theorem activatedForLoan_within (p : Pool ρ) (id : Nat) (b : Borrowing) (fresh : Bool) (v : ρ)
    (refusal : Option String) :
    (p.activatedForLoan id b fresh v refusal).next.Within (.readying id fresh) 4 := by
  unfold activatedForLoan
  split
  · rename_i reason
    refine (refuse_within _ id b fun hf => ?_).mono (Nat.le_succ 3) fun _ hr => hr
    subst hf
    exact .inr (.inr ⟨reason, rfl⟩)
  · split
    · exact Next.within_go (Nat.lt_succ_self 3) rfl
    · exact handOut_within ..

theorem validatedForLoan_within (p : Pool ρ) (id : Nat) (b : Borrowing) (fresh fit : Bool) :
    (p.validatedForLoan id b fresh fit).next.Within (.readying id fresh) 3 := by
  unfold validatedForLoan
  split
  · exact handOut_within ..
  · refine refuse_within _ id b fun hf => ?_
    subst hf
    exact .inr (.inl rfl)

theorem createdForLoan_within (hc : p.closed = true) (now : Instant) (b : Borrowing) (v : ρ) :
    (p.createdForLoan now b v).next.Within .making 2 := by
  rw [createdForLoan_closed hc]
  exact ⟨Nat.lt_succ_self 1, _, rfl, fun _ hr => .inl hr⟩

theorem drainNext_within (p : Pool ρ) (rest : List Nat) (c : Closer) :
    (p.drainNext rest (.close c)).next.Within (.sure c.reply) (2 * rest.length + 1) := by
  cases rest with
  | nil => exact rfl
  | cons id rest => exact (p.finishDestroy_destroys id (.drain rest (.close c))).within rfl

theorem reclaimNext_within (p : Pool ρ) (x : Reclaimed ρ) (rest : List (Reclaimed ρ)) (n : Nat)
    (b : Borrowing) : (p.reclaimNext x rest n (.borrow b)).next.Within (.sure (.failed .closed))
      (3 * (x :: rest).length + 2) := by
  rw [List.length_cons]
  rcases p.reclaimNext_cases x rest n (.borrow b) with ⟨report, hgo⟩ | hdestroys
  · rw [hgo]
    exact Next.within_go (Nat.lt_succ_self (3 * rest.length + 4)) rfl
  · exact (hdestroys.within rfl).mono (Nat.le_succ (3 * rest.length + 4)) fun _ hr => hr

/-- A call on a closed pool that goes on by itself has no more replies left than before, and comes
    nearer to its end. -/
theorem advance_within (hc : p.closed = true) (ho : pt.outlook = some o)
    (hs : p.advance now self ended pt = some s) : s.next.Within o pt.span := by
  -- where the call is dismissed in any case, its outlook is that verdict
  have hdismissed : ∀ {pt' : Point ρ} {r : Reply}, pt'.verdict = some r → some (.sure r) = some o →
      p.advance now self ended pt' = some s → s.next.Within o pt'.hops := by
    intro pt' r hv hr hs
    obtain rfl := Option.some.inj hr
    exact .of_dismisses (advance_dismisses hc hv hs).1
  cases goesOn_of_advance hs with
  | borrow | seek | waiting | add | prepare | upkeep | close => exact hdismissed rfl ho hs
  | swept n w =>
    cases w with
    | borrow b =>
      obtain rfl := Option.some.inj ho
      rw [swept_next]
      exact Next.within_go (Nat.lt_succ_self 1) rfl
    | upkeep => exact nomatch ho
  | reclaiming x rest n w =>
    cases w with
    | borrow b =>
      obtain rfl := Option.some.inj ho
      exact reclaimNext_within ..
    | upkeep => exact nomatch ho
  | draining rest d =>
    cases d with
    | close c =>
      obtain rfl := Option.some.inj ho
      exact drainNext_within ..
    | clear => exact nomatch ho
  | joining k drained c _ => exact Next.within_go (Nat.lt_succ_self (2 * drained.length + 1)) ho
  | _ => exact nomatch ho

/-- So does one that gets an answer. -/
theorem respond_within {c : Response ρ} (hc : p.closed = true) (ho : pt.outlook = some o)
    (hs : p.respond now pt c = some s) : s.next.Within o pt.span := by
  cases answered_of_respond hs with
  | notCreated m reason =>
    cases m with
    | lend b =>
      obtain rfl := Option.some.inj ho
      exact .inr ⟨reason, rfl⟩
    | stock => exact nomatch ho
  | createdForLoan b v =>
    obtain rfl := Option.some.inj ho
    exact createdForLoan_within hc ..
  | activatedForLoan id b fresh v refusal =>
    obtain rfl := Option.some.inj ho
    exact activatedForLoan_within ..
  | validatedForLoan id b fresh fit =>
    obtain rfl := Option.some.inj ho
    exact validatedForLoan_within ..
  | destroyed id v mode k refusal => cases refusal <;> exact Next.resume_within p ho
  | reported report x rest n w =>
    cases w with
    | borrow b =>
      obtain rfl := Option.some.inj ho
      exact (p.disposeReclaimed_destroys x rest n (.borrow b)).within rfl
    | upkeep => exact nomatch ho
  | _ => exact nomatch ho

/-! ## On any pool -/

theorem borrow_isBorrow (p : Pool ρ) (now : Instant) (b : Borrowing) :
    (p.borrow now b).next.isBorrow = true := by
  unfold borrow
  split
  · split <;> rfl
  · rfl

theorem refuse_isBorrow (p : Pool ρ) (id : Nat) (b : Borrowing) (fresh : Bool) (e : PoolError) :
    (p.refuse id b fresh e).next.isBorrow = true := by
  refine (p.refuse_destroys id b fresh e).isBorrow ?_
  cases fresh <;> rfl

theorem activate_isBorrow (p : Pool ρ) (id : Nat) (b : Borrowing) (fresh : Bool)
    (e : PoolError) :
    (p.activate id (.lend b fresh) (p.refuse id b fresh e)).next.isBorrow = true := by
  unfold activate
  split
  · rfl
  · exact refuse_isBorrow ..

theorem standInLine_isBorrow (p : Pool ρ) (b : Borrowing) (ticket : Option Nat) :
    (p.standInLine b ticket).next.isBorrow = true := by
  cases ticket <;> rfl

theorem seek_isBorrow (p : Pool ρ) (now : Instant) (b : Borrowing) (ticket : Option Nat) :
    (p.seek now b ticket).next.isBorrow = true := by
  unfold seek
  split
  · rfl
  · -- it does not matter here what the borrower gets, if anything
    generalize (if p.mayTake ticket then p.acquire now else (p, none)) = got
    obtain ⟨q, grant⟩ := got
    dsimp only
    split
    · split
      · exact activate_isBorrow ..
      · rfl
    · split
      · rfl
      · exact standInLine_isBorrow ..

theorem createdForLoan_isBorrow (p : Pool ρ) (now : Instant) (b : Borrowing) (v : ρ) :
    (p.createdForLoan now b v).next.isBorrow = true := by
  unfold createdForLoan
  dsimp only
  split
  · exact (finishDestroy_destroys ..).isBorrow rfl
  · exact activate_isBorrow ..

theorem activatedForLoan_isBorrow (p : Pool ρ) (id : Nat) (b : Borrowing) (fresh : Bool) (v : ρ)
    (refusal : Option String) :
    (p.activatedForLoan id b fresh v refusal).next.isBorrow = true := by
  unfold activatedForLoan
  split
  · exact refuse_isBorrow ..
  · split <;> rfl

theorem validatedForLoan_isBorrow (p : Pool ρ) (id : Nat) (b : Borrowing) (fresh fit : Bool) :
    (p.validatedForLoan id b fresh fit).next.isBorrow = true := by
  unfold validatedForLoan
  split
  · rfl
  · exact refuse_isBorrow ..

/-- A pool is closed after a borrow that gave up the last reference. -/
theorem close_isBorrow (p : Pool ρ) (self : Nat) (r : Reply) :
    (p.close self (.release r)).next.isBorrow = true := by
  unfold close
  split
  · rfl
  · dsimp only
    split
    · split <;> rfl
    · rfl

/-- A borrow that goes on by itself goes on as a borrow. -/
theorem advance_isBorrow (hb : pt.isBorrow = true)
    (hs : p.advance now self ended pt = some s) : s.next.isBorrow = true := by
  cases goesOn_of_advance hs with
  | borrow b => exact borrow_isBorrow ..
  | seek b => exact seek_isBorrow ..
  | waiting b t _ => exact seek_isBorrow ..
  | swept n w =>
    cases w with
    | borrow b =>
      rw [swept_next]
      rfl
    | upkeep => exact nomatch hb
  | reclaiming x rest n w =>
    cases w with
    | borrow b =>
      rcases p.reclaimNext_cases x rest n (.borrow b) with ⟨report, hgo⟩ | hdestroys
      · rw [hgo]
        rfl
      · exact hdestroys.isBorrow rfl
    | upkeep => exact nomatch hb
  | close c =>
    cases c with
    | release r => exact close_isBorrow ..
    | call => exact nomatch hb
  | draining rest d =>
    cases d with
    | close c =>
      cases c with
      | release r =>
        cases rest with
        | nil => rfl
        | cons id rest => exact (p.finishDestroy_destroys id _).isBorrow rfl
      | call => exact nomatch hb
    | clear => exact nomatch hb
  | joining k drained c _ =>
    cases c with
    | release r => rfl
    | call => exact nomatch hb
  | _ => exact nomatch hb

/-- So does one that gets an answer. -/
theorem respond_isBorrow {c : Response ρ} (hb : pt.isBorrow = true)
    (hs : p.respond now pt c = some s) : s.next.isBorrow = true := by
  cases answered_of_respond hs with
  | notCreated m reason =>
    cases m with
    | lend b => rfl
    | stock => exact nomatch hb
  | createdForLoan b v => exact createdForLoan_isBorrow ..
  | activatedForLoan id b fresh v refusal => exact activatedForLoan_isBorrow ..
  | validatedForLoan id b fresh fit => exact validatedForLoan_isBorrow ..
  | destroyed id v mode k refusal => cases refusal <;> exact Next.resume_isBorrow p hb
  | reported report x rest n w =>
    cases w with
    | borrow b => exact (p.disposeReclaimed_destroys x rest n (.borrow b)).isBorrow rfl
    | upkeep => exact nomatch hb
  | _ => exact nomatch hb

end Pool

end ObjectPool
