/-
  ObjectPool.Proofs.Stretch.Reports

  Where reports of abandoned objects come from. Only a call that goes through the objects that
  its pass has taken away from their borrowers writes a report, passes one to the caller's sink,
  has the factory destroy an object in the mode for abandoned ones, or counts one as such.

    * `Stretch.Plain` — a stretch that does nothing of the kind.
    * `Pool.advance_plain`, `Pool.respond_plain` — every stretch is plain but those of such a call.
-/

import ObjectPool.Proofs.Stretch.Counts

namespace ObjectPool

variable {ρ : Type}

/-- A call that comes to report an object to the caller's sink, or to have it destroyed as
    abandoned. -/
def Point.disposes : Point ρ → Bool
  | .reporting _ _ _ _ _ | .destroying _ _ .abandoned _ => true
  | _ => false

/-- A stretch in which no abandoned object is reported, counted or destroyed; `c` were counted
    before. -/
structure Stretch.Plain (c : Nat) (s : Stretch ρ) : Prop where
  counted : s.pool.counters.abandoned = c
  written : ∀ r, Notice.abandoned r ∉ s.notices
  goes : ∀ pt, s.next = .go pt → pt.disposes = false

namespace Stretch.Plain

variable {c : Nat} {s : Stretch ρ}

theorem noting (h : s.Plain c) {n : Notice} (hn : ∀ r, n ≠ .abandoned r) :
    (s.noting n).Plain c := by
  refine ⟨h.counted, fun r hr => ?_, h.goes⟩
  rcases List.mem_cons.mp hr with he | hr
  · exact hn r he.symm
  · exact h.written r hr

theorem notingIf (h : s.Plain c) (b : Bool) {n : Notice} (hn : ∀ r, n ≠ .abandoned r) :
    (s.notingIf b n).Plain c := by
  unfold Stretch.notingIf
  split
  · exact h.noting hn
  · exact h

end Stretch.Plain

namespace Pool

variable {p : Pool ρ} {c : Nat} {now : Instant} {pt : Point ρ} {s : Stretch ρ} {id : Nat}
  {b : Borrowing}

/-! ## Small parts -/

theorem go_plain (h : p.counters.abandoned = c) (hpt : pt.disposes = false) :
    (p.go pt).Plain c := by
  refine ⟨h, fun _ hr => (nomatch hr), fun x hx => ?_⟩
  obtain rfl := Next.go.inj hx
  exact hpt

theorem finish_plain (h : p.counters.abandoned = c) (r : Reply) :
    (p.finish r).Plain c := ⟨h, fun _ hr => (nomatch hr), fun _ hx => nomatch hx⟩

theorem resume_plain (h : p.counters.abandoned = c) (k : After ρ) :
    (p.resume k).Plain c := by
  cases k with
  | seek b => exact go_plain h rfl
  | reply r => exact finish_plain h r
  | reclaim rest n w => exact go_plain h rfl
  | evict out tests n => exact go_plain h rfl
  | drain rest d => exact go_plain h rfl
  | notStocked w e =>
    cases w with
    | add => exact finish_plain h _
    | fill f made =>
      cases f with
      | prepare => exact finish_plain h _
      | upkeep out back =>
        have hdone := (finish_plain h .done).noting (n := .upkeepDone out back 0)
          fun _ hn => nomatch hn
        exact hdone.noting fun _ hn => nomatch hn

theorem finishDestroy_plain (h : p.counters.abandoned = c) (id : Nat) (k : After ρ) :
    (p.finishDestroy id k).Plain c := by
  unfold finishDestroy dispose
  split
  · exact go_plain h rfl
  · exact resume_plain (p := (p.emptySlot id).retire id) h k

theorem destroy_plain (h : p.counters.abandoned = c) (id : Nat) (k : After ρ) :
    (p.destroy id k).Plain c := finishDestroy_plain (p := p.detach id) h id k

/-! ## Lending -/

theorem refuse_plain (h : p.counters.abandoned = c) (id : Nat) (b : Borrowing)
    (fresh : Bool) (e : PoolError) : (p.refuse id b fresh e).Plain c := by
  unfold refuse
  split
  · exact destroy_plain h id _
  · exact (destroy_plain h id _).noting fun _ hn => nomatch hn

theorem activate_plain (h : p.counters.abandoned = c) (id : Nat) (t : Trial)
    (hs : s.Plain c) : (p.activate id t s).Plain c := by
  unfold activate
  split
  · exact go_plain h rfl
  · exact hs

theorem handOut_plain (h : p.counters.abandoned = c) (id : Nat) (b : Borrowing) :
    (p.handOut id b).Plain c := by
  refine (finish_plain ?_ (.lent id)).noting fun _ hn => nomatch hn
  show (p.noteBorrower id b.site).counters.abandoned = c
  rw [noteBorrower_counters]
  exact h

theorem exhaust_plain (h : p.counters.abandoned = c) (b : Borrowing)
    (ticket : Option Nat) : (p.exhaust b ticket).Plain c := by
  unfold exhaust
  refine finish_plain ?_ _
  split
  · exact (congrArg Counters.abandoned (p.leaveLine_counters ticket)).trans h
  · exact (congrArg Counters.abandoned (p.leaveLine_counters ticket)).trans h

theorem standInLine_plain (h : p.counters.abandoned = c) (b : Borrowing)
    (ticket : Option Nat) : (p.standInLine b ticket).Plain c := by
  unfold standInLine
  cases ticket with
  | none => exact go_plain h rfl
  | some t =>
    dsimp only
    split
    · exact go_plain h rfl
    · exact go_plain h rfl

theorem seek_plain (now : Instant) (b : Borrowing) (ticket : Option Nat) :
    (p.seek now b ticket).Plain p.counters.abandoned := by
  unfold seek
  split
  · exact finish_plain (congrArg Counters.abandoned (p.leaveLine_counters ticket)) _
  · have hgrant : (if p.mayTake ticket then p.acquire now else (p, none)).1.counters =
        p.counters := by
      split
      · exact acquire_counters p now
      · rfl
    -- whether it finds something or not, nothing is counted before it leaves the line
    generalize (if p.mayTake ticket then p.acquire now else (p, none)) = x at hgrant
    obtain ⟨q, grant⟩ := x
    have hq : q.counters.abandoned = p.counters.abandoned := congrArg Counters.abandoned hgrant
    have hleft : ((q.leaveLine ticket).book Registry.wakeIfAvailable).counters.abandoned =
        p.counters.abandoned := (congrArg Counters.abandoned (q.leaveLine_counters ticket)).trans hq
    dsimp only
    split
    · split
      · exact activate_plain hleft _ _ (refuse_plain hleft _ _ _ _)
      · exact go_plain hleft rfl
    · split
      · exact exhaust_plain hq b ticket
      · exact standInLine_plain hq b ticket

theorem createdForLoan_plain (now : Instant) (b : Borrowing) (v : ρ) :
    (p.createdForLoan now b v).Plain p.counters.abandoned := by
  unfold createdForLoan
  dsimp only
  split
  · exact finishDestroy_plain (by rfl) _ _
  · exact activate_plain (by rfl) _ _ (refuse_plain (by rfl) _ _ _ _)

theorem activatedForLoan_plain (id : Nat) (b : Borrowing) (fresh : Bool) (v : ρ)
    (refusal : Option String) :
    (p.activatedForLoan id b fresh v refusal).Plain p.counters.abandoned := by
  unfold activatedForLoan
  split
  · exact refuse_plain (by rfl) _ _ _ _
  · split
    · exact go_plain (by rfl) rfl
    · exact handOut_plain (by rfl) id b

theorem validatedForLoan_plain (id : Nat) (b : Borrowing) (fresh fit : Bool) :
    (p.validatedForLoan id b fresh fit).Plain p.counters.abandoned := by
  unfold validatedForLoan
  split
  · exact handOut_plain (by rfl) id b
  · exact refuse_plain (by rfl) _ _ _ _

/-! ## Stocking -/

theorem stocked_plain (h : p.counters.abandoned = c) (k : Stocker) :
    (p.stocked k).Plain c := by
  cases k with
  | add => exact finish_plain h _
  | fill f made => exact go_plain h rfl

theorem settle_plain (h : p.counters.abandoned = c) (id : Nat) (k : Stocker)
    (fault : Option PoolError) : (p.settle id k fault).Plain c := by
  unfold settle
  dsimp only
  split
  · exact stocked_plain (p := p.book (Registry.registerIdle id)) h k
  · exact finishDestroy_plain (p := p.book Registry.cancelReservation) h id _

theorem fill_plain (f : Filler) (made : Nat) : (p.fill f made).Plain p.counters.abandoned := by
  unfold fill
  split
  · cases f with
    | prepare => exact finish_plain (by rfl) _
    | upkeep out back => exact (finish_plain (by rfl) _).noting fun _ hn => nomatch hn
  · exact go_plain (by rfl) rfl

theorem add_plain : p.add.Plain p.counters.abandoned := by
  unfold add
  split
  · exact finish_plain (by rfl) _
  · split
    · exact finish_plain (by rfl) _
    · exact go_plain (by rfl) rfl

theorem notCreated_plain (m : Maker) (reason : String) :
    (p.notCreated m reason).Plain p.counters.abandoned := by
  unfold notCreated
  refine Stretch.Plain.noting ?_ fun _ hn => nomatch hn
  cases m with
  | lend b => exact finish_plain (by rfl) _
  | stock k => exact resume_plain (p := p.book Registry.cancelReservation) rfl (.notStocked k _)

theorem createdForStock_plain (now : Instant) (k : Stocker) (v : ρ) :
    (p.createdForStock now k v).Plain p.counters.abandoned := by
  rw [createdForStock_eq]
  dsimp only
  split
  · exact go_plain (by rfl) rfl
  · exact go_plain (by rfl) rfl

theorem validatedForStock_plain (id : Nat) (k : Stocker) (fit : Bool) :
    (p.validatedForStock id k fit).Plain p.counters.abandoned := by
  unfold validatedForStock
  split
  · exact go_plain (by rfl) rfl
  · exact settle_plain (by rfl) id k _

/-! ## Objects that come back -/

theorem unfitReturn_plain (h : p.counters.abandoned = c) (id : Nat)
    (answer : Option Reply) : (p.unfitReturn id answer).Plain c :=
  (destroy_plain (p := p.count fun x => { x with validationFailures := x.validationFailures + 1 }) h
    id _).noting fun _ hn => nomatch hn

theorem passivate_plain (h : p.counters.abandoned = c) (id : Nat)
    (answer : Option Reply) : (p.passivate id answer).Plain c := by
  unfold passivate
  split
  · exact go_plain h rfl
  · exact destroy_plain h id _

theorem takeBack_plain (now : Instant) (id : Nat) (answer : Option Reply) :
    (p.takeBack now id answer).Plain p.counters.abandoned := by
  unfold takeBack
  dsimp only
  split
  · exact (finish_plain (by rfl) _).noting fun _ hn => nomatch hn
  · split
    · exact (finish_plain (by rfl) _).noting fun _ hn => nomatch hn
    · split
      · exact destroy_plain (by rfl) id _
      · split
        · split
          · exact go_plain (by rfl) rfl
          · exact unfitReturn_plain (by rfl) id answer
        · exact passivate_plain (by rfl) id answer

theorem validatedReturn_plain (id : Nat) (answer : Option Reply) (fit : Bool) :
    (p.validatedReturn id answer fit).Plain p.counters.abandoned := by
  unfold validatedReturn
  split
  · exact passivate_plain (by rfl) id answer
  · exact unfitReturn_plain (by rfl) id answer

theorem passivatedReturn_plain (id : Nat) (answer : Option Reply) (v : ρ)
    (refusal : Option String) :
    (p.passivatedReturn id answer v refusal).Plain p.counters.abandoned := by
  unfold passivatedReturn
  dsimp only
  split
  · exact (destroy_plain (by rfl) id _).noting fun _ hn => nomatch hn
  · split
    · exact destroy_plain (by rfl) id _
    · split
      · exact (destroy_plain (by rfl) id _).noting fun _ hn => nomatch hn
      · refine (finish_plain ?_ _).noting fun _ hn => nomatch hn
        show (if (p.letGo id v).isIn id .returning then (p.letGo id v).setState id .idle
          else p.letGo id v).counters.abandoned = p.counters.abandoned
        split <;> rfl

theorem discard_plain (id : Nat) : (p.discard id).Plain p.counters.abandoned := by
  unfold discard
  split
  · exact finish_plain (by rfl) _
  · split
    · exact destroy_plain (by rfl) id _
    · exact finish_plain (by rfl) _

/-! ## Upkeep -/

theorem sweep_plain (now : Instant) (a : Abandonment) (w : Sweeper) :
    (p.sweep now a w).Plain p.counters.abandoned :=
  go_plain (p := (p.reclaimFrom now a.timeout p.registry.active).1)
    (congrArg Counters.abandoned (counters_reclaimFrom _)) rfl

theorem borrow_plain (now : Instant) (b : Borrowing) :
    (p.borrow now b).Plain p.counters.abandoned := by
  unfold borrow
  split
  · split
    · exact sweep_plain now _ _
    · exact go_plain (by rfl) rfl
  · exact go_plain (by rfl) rfl

theorem upkeep_plain (now : Instant) : (p.upkeep now).Plain p.counters.abandoned := by
  unfold upkeep evict
  split
  · exact finish_plain (by rfl) _
  · split
    · exact go_plain (by rfl) rfl
    · exact go_plain (congrArg Counters.abandoned (counters_sortIdle p now _ _)) rfl

theorem failTest_plain (h : p.counters.abandoned = c) (id : Nat) (tests : List Nat)
    (n : Nat) : (p.failTest id tests n).Plain c :=
  (destroy_plain (p := p.count fun x => { x with validationFailures := x.validationFailures + 1 }) h
    id _).noting fun _ hn => nomatch hn

theorem evictNext_plain (now : Instant) (out tests : List Nat) (n : Nat) :
    (p.evictNext now out tests n).Plain p.counters.abandoned := by
  unfold evictNext
  split
  · exact finishDestroy_plain (by rfl) _ _
  · exact activate_plain (by rfl) _ _ (failTest_plain (by rfl) _ _ _)
  · refine Stretch.Plain.notingIf ?_ _ fun _ hn => nomatch hn
    split
    · split
      · exact sweep_plain now _ _
      · exact go_plain (by rfl) rfl
    · exact go_plain (by rfl) rfl

theorem swept_plain (now : Instant) (n : Nat) (w : Sweeper) :
    (p.swept now n w).Plain p.counters.abandoned := by
  unfold swept
  refine Stretch.Plain.notingIf ?_ _ fun _ hn => nomatch hn
  cases w with
  | borrow b => exact go_plain (by rfl) rfl
  | upkeep out => exact go_plain (by rfl) rfl

theorem activatedForTest_plain (id : Nat) (tests : List Nat) (n : Nat) (v : ρ)
    (refusal : Option String) :
    (p.activatedForTest id tests n v refusal).Plain p.counters.abandoned := by
  unfold activatedForTest
  split
  · exact failTest_plain (by rfl) id tests n
  · exact go_plain (by rfl) rfl

theorem validatedForTest_plain (id : Nat) (tests : List Nat) (n : Nat) (fit : Bool) :
    (p.validatedForTest id tests n fit).Plain p.counters.abandoned := by
  unfold validatedForTest
  split
  · exact go_plain (by rfl) rfl
  · exact failTest_plain (by rfl) id tests n

theorem passivatedForTest_plain (id : Nat) (tests : List Nat) (n : Nat) (v : ρ)
    (refusal : Option String) :
    (p.passivatedForTest id tests n v refusal).Plain p.counters.abandoned := by
  unfold passivatedForTest passTest
  split
  · exact failTest_plain (by rfl) id tests n
  · split
    · exact go_plain (by rfl) rfl
    · exact destroy_plain (by rfl) id _

theorem close_plain (self : Nat) (k : Closer) : (p.close self k).Plain p.counters.abandoned := by
  unfold close
  dsimp only
  split
  · exact finish_plain (by rfl) _
  · split
    · split
      · exact go_plain (by rfl) rfl
      · exact go_plain (by rfl) rfl
    · exact go_plain (by rfl) rfl

theorem drainNext_plain (rest : List Nat) (d : Drainer) :
    (p.drainNext rest d).Plain p.counters.abandoned := by
  cases rest with
  | cons x rest => exact finishDestroy_plain (by rfl) x _
  | nil =>
    cases d with
    | clear => exact finish_plain (by rfl) _
    | close k => exact (finish_plain (by rfl) _).noting fun _ hn => nomatch hn

/-! ## Every stretch -/

/-- A stretch of a call that goes on by itself is plain, unless it disposes of the next object that
    was taken away from its borrower. -/
theorem advance_plain {self : Nat} {ended : Nat → Bool}
    (hs : p.advance now self ended pt = some s) : s.Plain p.counters.abandoned ∨
      ∃ x rest n w, pt = .reclaiming (x :: rest) n w ∧ s = p.reclaimNext x rest n w := by
  cases goesOn_of_advance hs with
  | borrow b => exact .inl (p.borrow_plain now b)
  | seek b => exact .inl (p.seek_plain now b none)
  | waiting b t _ => exact .inl (p.seek_plain now b (some t))
  | add => exact .inl p.add_plain
  | prepare =>
    refine .inl ?_
    unfold prepare
    split
    · exact finish_plain (by rfl) _
    · exact go_plain (by rfl) rfl
  | filling f made => exact .inl (p.fill_plain f made)
  | upkeep => exact .inl (p.upkeep_plain now)
  | evicting out tests n => exact .inl (p.evictNext_plain now out tests n)
  | swept n w => exact .inl (p.swept_plain now n w)
  -- the one stretch that may report or destroy an abandoned object
  | reclaiming x rest n w => exact .inr ⟨x, rest, n, w, rfl, rfl⟩
  | takeBack id answer => exact .inl (p.takeBack_plain now id answer)
  | discard id => exact .inl (p.discard_plain id)
  | clear => exact .inl (go_plain (by rfl) rfl)
  | close k => exact .inl (p.close_plain self k)
  | draining rest d => exact .inl (p.drainNext_plain rest d)
  | joining k rest w _ => exact .inl (go_plain (by rfl) rfl)

/-- So is a stretch of a call that gets an answer, unless the sink has taken its report. -/
theorem respond_plain {r : Response ρ} (hs : p.respond now pt r = some s) :
    s.Plain p.counters.abandoned ∨ ∃ report x rest n w, pt = .reporting report x rest n w ∧
      s = p.disposeReclaimed x rest n w := by
  cases answered_of_respond hs with
  | notCreated m reason => exact .inl (p.notCreated_plain m reason)
  | createdForLoan b v => exact .inl (p.createdForLoan_plain now b v)
  | createdForStock k v => exact .inl (p.createdForStock_plain now k v)
  | activatedForLoan id b fresh v refusal =>
    exact .inl (p.activatedForLoan_plain id b fresh v refusal)
  | activatedForTest id tests n v refusal =>
    exact .inl (p.activatedForTest_plain id tests n v refusal)
  | validatedForLoan id b fresh fit => exact .inl (p.validatedForLoan_plain id b fresh fit)
  | validatedForTest id tests n fit => exact .inl (p.validatedForTest_plain id tests n fit)
  | validatedForStock id k fit => exact .inl (p.validatedForStock_plain id k fit)
  | validatedReturn id answer fit => exact .inl (p.validatedReturn_plain id answer fit)
  | passivatedForTest id tests n v refusal =>
    exact .inl (p.passivatedForTest_plain id tests n v refusal)
  | passivatedForStock id k v refusal => exact .inl (settle_plain (p := p.letGo id v) rfl id k _)
  | passivatedReturn id answer v refusal =>
    exact .inl (p.passivatedReturn_plain id answer v refusal)
  | destroyed id v mode k refusal =>
    refine .inl ?_
    unfold destroyed
    split
    · exact (resume_plain (by rfl) k).noting fun _ hn => nomatch hn
    · exact resume_plain (by rfl) k
  -- the sink has the report, and the object is next
  | reported report x rest n w => exact .inr ⟨report, x, rest, n, w, rfl, rfl⟩

end Pool

end ObjectPool
