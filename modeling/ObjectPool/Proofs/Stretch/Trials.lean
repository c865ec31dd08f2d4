/-
  ObjectPool.Proofs.Stretch.Trials

  The idle objects that a call has drawn from the queue to lend or to try them out. A
  borrower draws the first one. Only the sweep of a round of upkeep begins trials: it
  takes the objects in the order in which they have been idle, and leaves none idle
  that it passes over. From then on objects only leave the list of those under trial.

    * `Point.trials`, `Point.loan`, `Next.drawn` — the objects drawn.
    * `Next.Apart`, `Next.Follows` — where calls stand that draw nothing.
    * `trials_sortIdle`, `idle_sortIdle` — what the sweep takes, and what it leaves.
    * `Stretch.Draws` — all that a stretch can do to these objects.
    * `advance_draws`, `respond_draws` — every stretch does one of these things.
-/

import ObjectPool.Proofs.Agreement
import ObjectPool.Proofs.Protocol.Obedience
import ObjectPool.Proofs.Stretch.Turn

namespace ObjectPool

variable {ρ : Type}

/-- The objects under trial that wait for what follows the end of another. -/
def After.trials : After ρ → List Nat
  | .evict _ tests _ => tests
  | _ => []

/-- The objects that a call has under trial at a point. -/
def Point.trials : Point ρ → List Nat
  | .activating id (.test tests _) | .validating id (.trial (.test tests _))
  | .passivating id (.test tests _) => id :: tests
  | .evicting _ tests _ => tests
  | .destroying _ _ _ k => k.trials
  | _ => []

/-- The idle object that a call has asked the factory to ready for a borrower. -/
def Point.loan : Point ρ → List Nat
  | .activating id (.lend _ false) => [id]
  | _ => []

/-- The objects that a call has under trial once a stretch is over. -/
def Next.trials : Next ρ → List Nat
  | .go pt => pt.trials
  | .finish _ => []

/-- The idle object that a call has for a borrower once a stretch is over. -/
def Next.loan : Next ρ → List Nat
  | .go pt => pt.loan
  | .finish _ => []

/-- The objects that a call has drawn from the idle queue once a stretch is over. -/
def Next.drawn (next : Next ρ) : List Nat := next.loan ++ next.trials

/-- What a call has before it once a stretch is over, if it is in its idle sweep. -/
def Next.agenda? : Next ρ → Option Agenda
  | .go pt => pt.agenda?
  | .finish _ => none

/-- The idle object whose trial a call begins with what it asks for once a stretch is over. -/
def Next.begun : Next ρ → List Nat
  | .go (.activating id (.test _ _)) => [id]
  | _ => []

/-- A call is in no idle sweep once a stretch is over, and has drawn nothing. -/
structure Next.Apart (next : Next ρ) : Prop where
  agenda : next.agenda? = none
  drawn : next.drawn = []
  begun : next.begun = []

/-- Once a stretch is over a call goes on with `k`, at once or when an object is destroyed. -/
structure Next.Follows (k : After ρ) (next : Next ρ) : Prop where
  agenda : next.agenda? = k.agenda?
  drawn : next.drawn = k.trials
  begun : next.begun = []

theorem After.trials_of_agenda {k : After ρ} (h : k.agenda? = none) : k.trials = [] := by
  cases k with
  | evict => cases h
  | _ => rfl

/-- A call tries out objects only in its idle sweep. -/
theorem Point.trials_of_agenda {pt : Point ρ} (h : pt.agenda? = none) : pt.trials = [] := by
  cases pt with
  | activating _ t =>
    cases t with
    | test => cases h
    | lend => rfl
  | validating _ c =>
    cases c with
    | trial t =>
      cases t with
      | test => cases h
      | lend => rfl
    | stock | takeBack => rfl
  | passivating _ k =>
    cases k with
    | test => cases h
    | stock | takeBack => rfl
  | evicting => cases h
  | destroying _ _ _ k => exact After.trials_of_agenda (k := k) h
  | _ => rfl

theorem Next.Follows.apart {k : After ρ} {next : Next ρ} (h : next.Follows k)
    (hk : k.agenda? = none) : next.Apart where
  agenda := h.agenda.trans hk
  drawn := h.drawn.trans (After.trials_of_agenda hk)
  begun := h.begun

/-- The objects of a list that are charged as under trial. -/
theorem tests_each (ids : List Nat) (c : Custody ρ) :
    ((each ids c).filter fun x => x.2.isTest).map (·.1) = if c.isTest then ids else [] := by
  induction ids with
  | nil => simp
  | cons id ids ih =>
    rw [each_cons, List.filter_cons]
    by_cases hc : c.isTest = true
    · rw [if_pos hc, List.map_cons, ih, if_pos hc, if_pos hc]
    · rw [if_neg hc, ih, if_neg hc, if_neg hc]

theorem tests_sweeping (out tests : List Nat) :
    ((sweeping (ρ := ρ) out tests).filter fun x => x.2.isTest).map (·.1) = tests := by
  rw [sweeping, List.filter_append, List.map_append, tests_each, tests_each]
  rfl

theorem tests_trying (id : Nat) (tests : List Nat) :
    (((id, Custody.trying) :: each tests (.untried (ρ := ρ))).filter fun x => x.2.isTest).map
      (·.1) = id :: tests := by
  rw [List.filter_cons_of_pos rfl, List.map_cons, tests_each]
  rfl

theorem tests_seizures (xs : List (Reclaimed ρ)) :
    ((seizures xs).filter fun x => x.2.isTest).map (·.1) = [] := by
  rw [List.map_eq_nil_iff, List.filter_eq_nil_iff]
  intro y hy
  obtain ⟨x, -, rfl⟩ := List.mem_map.mp hy
  exact Bool.false_ne_true

/-- The objects under trial are those that are charged so. -/
theorem Point.trials_eq (pt : Point ρ) :
    (pt.charges.filter fun x => x.2.isTest).map (·.1) = pt.trials := by
  cases pt with
  | activating id t =>
    cases t with
    | lend => rfl
    | test => exact tests_trying _ _
  | validating id k =>
    rcases k with ⟨_ | _⟩ | _ | _
    · rfl
    · exact tests_trying _ _
    · rfl
    · rfl
  | passivating id k =>
    cases k with
    | test => exact tests_trying _ _
    | stock | takeBack => rfl
  | destroying id r mode k =>
    cases k with
    | reclaim => exact tests_seizures _
    | evict => exact tests_sweeping _ _
    | drain => exact tests_each _ _
    | seek | reply | notStocked => rfl
  | evicting => exact tests_sweeping _ _
  | reclaiming => exact tests_seizures _
  | reporting => exact tests_seizures _
  | draining => exact tests_each _ _
  | joining => exact tests_each _ _
  | borrow | seek | waiting | add | prepare | filling | upkeep | takeBack | discard | clear
  | close | creating => rfl

namespace Pool

variable {p : Pool ρ} {id : Nat} {ℓ : Ledger ρ}

/-! ## Calls that are in no idle sweep -/

theorem filled_apart (p : Pool ρ) (f : Filler) (made : Nat) : (p.filled f made).next.Apart := by
  cases f <;> exact ⟨rfl, rfl, rfl⟩

theorem notStocked_apart (p : Pool ρ) (s : Stocker) (e : PoolError) :
    (p.notStocked s e).next.Apart := by
  rcases s with _ | ⟨_ | ⟨out, back⟩, made⟩ <;> exact ⟨rfl, rfl, rfl⟩

theorem resume_follows (p : Pool ρ) (k : After ρ) : (p.resume k).next.Follows k := by
  cases k with
  | notStocked s e =>
    obtain ⟨hagenda, hdrawn, hbegun⟩ := p.notStocked_apart s e
    exact ⟨hagenda, hdrawn, hbegun⟩
  | _ => exact ⟨rfl, rfl, rfl⟩

theorem dispose_follows (p : Pool ρ) (id : Nat) (r : Option ρ) (mode : DestroyMode) (k : After ρ) :
    (p.dispose id r mode k).next.Follows k := by
  cases r with
  | some r => exact ⟨rfl, rfl, rfl⟩
  | none => exact resume_follows _ k

theorem destroy_follows (p : Pool ρ) (id : Nat) (k : After ρ) : (p.destroy id k).next.Follows k :=
  dispose_follows _ _ _ _ _

theorem destroyed_follows (p : Pool ρ) (id : Nat) (k : After ρ) (refusal : Option String) :
    (p.destroyed id k refusal).next.Follows k := by
  cases refusal <;> exact p.resume_follows k

theorem reclaimNext_apart (p : Pool ρ) (x : Reclaimed ρ) (rest : List (Reclaimed ρ)) (n : Nat)
    (s : Sweeper) : (p.reclaimNext x rest n s).next.Apart := by
  have hdispose : (p.disposeReclaimed x rest n s).next.Apart :=
    (dispose_follows _ _ _ _ _).apart rfl
  unfold Pool.reclaimNext
  split
  · split
    · split
      · exact hdispose
      · exact ⟨rfl, rfl, rfl⟩
    · exact hdispose
  · exact hdispose

theorem borrow_apart (p : Pool ρ) (now : Instant) (b : Borrowing) :
    (p.borrow now b).next.Apart := by
  unfold Pool.borrow
  split
  · split <;> exact ⟨rfl, rfl, rfl⟩
  · exact ⟨rfl, rfl, rfl⟩

theorem swept_apart (p : Pool ρ) (now : Instant) (n : Nat) (s : Sweeper) :
    (p.swept now n s).next.Apart := by
  unfold Pool.swept
  dsimp only
  rw [Stretch.notingIf_next]
  cases s <;> exact ⟨rfl, rfl, rfl⟩

theorem refuse_apart (p : Pool ρ) (id : Nat) (b : Borrowing) (fresh : Bool) (e : PoolError) :
    (p.refuse id b fresh e).next.Apart := by
  unfold Pool.refuse
  split <;> exact (destroy_follows _ _ _).apart rfl

theorem activateForLoan_apart (p q : Pool ρ) (id : Nat) (b : Borrowing) (fresh : Bool)
    (e : PoolError) :
    (p.activate id (.lend b fresh) (q.refuse id b fresh e)).next.Apart ∨
      (p.activate id (.lend b fresh) (q.refuse id b fresh e)).next =
        .go (.activating id (.lend b fresh)) := by
  unfold Pool.activate
  split
  · exact .inr rfl
  · exact .inl (refuse_apart _ _ _ _ _)

/-- A borrower that looks for an object draws the first of the idle ones, or nothing. -/
theorem Sound.seek_apart (h : p.Sound ℓ) (now : Instant) (b : Borrowing) (ticket : Option Nat) :
    (p.seek now b ticket).next.Apart ∨
      ∃ id, p.registry.idle.head? = some id ∧
        (p.seek now b ticket).next = .go (.activating id (.lend b false)) := by
  have hvain : ∀ q : Pool ρ, (if q.givesUp now b then q.exhaust b ticket else
      q.standInLine b ticket).next.Apart := by
    intro q
    split
    · exact ⟨rfl, rfl, rfl⟩
    · cases ticket with
      | none => exact ⟨rfl, rfl, rfl⟩
      | some t =>
        unfold Pool.standInLine
        dsimp only
        split <;> exact ⟨rfl, rfl, rfl⟩
  unfold Pool.seek
  split
  · exact .inl ⟨rfl, rfl, rfl⟩
  · by_cases hturn : p.mayTake ticket = true
    · rw [if_pos hturn, h.acquire_eq now]
      cases hi : p.registry.idle with
      | cons id rest =>
        dsimp only
        exact (activateForLoan_apart _ _ _ _ _ _).imp_right fun hn => ⟨id, rfl, hn⟩
      | nil =>
        -- there may be room for a new object
        dsimp only
        split
        · rename_i hg
          split at hg
          · obtain rfl := Option.some.inj hg
            exact .inl ⟨rfl, rfl, rfl⟩
          · exact nomatch hg
        · exact .inl (hvain _)
    · rw [if_neg hturn]
      exact .inl (hvain p)

theorem activatedForLoan_apart (p : Pool ρ) (id : Nat) (b : Borrowing) (fresh : Bool) (v : ρ)
    (refusal : Option String) : (p.activatedForLoan id b fresh v refusal).next.Apart := by
  unfold Pool.activatedForLoan
  split
  · exact refuse_apart _ _ _ _ _
  · split <;> exact ⟨rfl, rfl, rfl⟩

theorem validatedForLoan_apart (p : Pool ρ) (id : Nat) (b : Borrowing) (fresh fit : Bool) :
    (p.validatedForLoan id b fresh fit).next.Apart := by
  cases fit with
  | true => exact ⟨rfl, rfl, rfl⟩
  | false => exact refuse_apart _ _ _ _ _

theorem createdForLoan_apart (p : Pool ρ) (now : Instant) (b : Borrowing) (v : ρ) :
    (p.createdForLoan now b v).next.Apart := by
  unfold Pool.createdForLoan
  dsimp only
  split
  · exact (dispose_follows _ _ _ _ _).apart rfl
  · rcases activateForLoan_apart _ _ _ _ _ _ with hn | hn
    · exact hn
    · rw [hn]
      exact ⟨rfl, rfl, rfl⟩

theorem add_apart (p : Pool ρ) : p.add.next.Apart := by
  unfold Pool.add
  split
  · exact ⟨rfl, rfl, rfl⟩
  · split <;> exact ⟨rfl, rfl, rfl⟩

theorem prepare_apart (p : Pool ρ) : p.prepare.next.Apart := by
  unfold Pool.prepare
  split <;> exact ⟨rfl, rfl, rfl⟩

theorem fill_apart (p : Pool ρ) (f : Filler) (made : Nat) : (p.fill f made).next.Apart := by
  unfold Pool.fill
  split
  · exact p.filled_apart f made
  · exact ⟨rfl, rfl, rfl⟩

theorem settle_apart (p : Pool ρ) (id : Nat) (s : Stocker) (fault : Option PoolError) :
    (p.settle id s fault).next.Apart := by
  unfold Pool.settle
  dsimp only
  split
  · cases s <;> exact ⟨rfl, rfl, rfl⟩
  · exact (dispose_follows _ _ _ _ _).apart rfl

theorem createdForStock_apart (p : Pool ρ) (now : Instant) (s : Stocker) (v : ρ) :
    (p.createdForStock now s v).next.Apart := by
  rw [Pool.createdForStock_eq]
  dsimp only
  split <;> exact ⟨rfl, rfl, rfl⟩

theorem validatedForStock_apart (p : Pool ρ) (id : Nat) (s : Stocker) (fit : Bool) :
    (p.validatedForStock id s fit).next.Apart := by
  cases fit with
  | true => exact ⟨rfl, rfl, rfl⟩
  | false => exact settle_apart _ _ _ _

theorem notCreated_apart (p : Pool ρ) (m : Maker) (reason : String) :
    (p.notCreated m reason).next.Apart := by
  cases m with
  | lend b => exact ⟨rfl, rfl, rfl⟩
  | stock s => exact notStocked_apart _ _ _

theorem passivate_apart (p : Pool ρ) (id : Nat) (answer : Option Reply) :
    (p.passivate id answer).next.Apart := by
  unfold Pool.passivate
  split
  · exact ⟨rfl, rfl, rfl⟩
  · exact (destroy_follows _ _ _).apart rfl

theorem takeBack_apart (p : Pool ρ) (now : Instant) (id : Nat) (answer : Option Reply) :
    (p.takeBack now id answer).next.Apart := by
  unfold Pool.takeBack
  dsimp only
  split
  · exact ⟨rfl, rfl, rfl⟩
  · split
    · exact ⟨rfl, rfl, rfl⟩
    · split
      · exact (destroy_follows _ _ _).apart rfl
      · split
        · split
          · exact ⟨rfl, rfl, rfl⟩
          · exact (destroy_follows _ _ _).apart rfl
        · exact passivate_apart _ _ _

theorem validatedReturn_apart (p : Pool ρ) (id : Nat) (answer : Option Reply) (fit : Bool) :
    (p.validatedReturn id answer fit).next.Apart := by
  cases fit with
  | true => exact passivate_apart _ _ _
  | false => exact (destroy_follows _ _ _).apart rfl

theorem passivatedReturn_apart (p : Pool ρ) (id : Nat) (answer : Option Reply) (v : ρ)
    (refusal : Option String) : (p.passivatedReturn id answer v refusal).next.Apart := by
  unfold Pool.passivatedReturn
  dsimp only
  split
  · exact (destroy_follows _ _ _).apart rfl
  · split
    · exact (destroy_follows _ _ _).apart rfl
    · split
      · exact (destroy_follows _ _ _).apart rfl
      · exact ⟨rfl, rfl, rfl⟩

theorem discard_apart (p : Pool ρ) (id : Nat) : (p.discard id).next.Apart := by
  unfold Pool.discard
  split
  · exact ⟨rfl, rfl, rfl⟩
  · split
    · exact (destroy_follows _ _ _).apart rfl
    · exact ⟨rfl, rfl, rfl⟩

theorem close_apart (p : Pool ρ) (self : Nat) (c : Closer) : (p.close self c).next.Apart := by
  unfold Pool.close
  split
  · exact ⟨rfl, rfl, rfl⟩
  · dsimp only
    split
    · split <;> exact ⟨rfl, rfl, rfl⟩
    · exact ⟨rfl, rfl, rfl⟩

theorem drainNext_apart (p : Pool ρ) (rest : List Nat) (d : Drainer) :
    (p.drainNext rest d).next.Apart := by
  cases rest with
  | cons id rest => exact (dispose_follows _ _ _ _ _).apart rfl
  | nil => cases d <;> exact ⟨rfl, rfl, rfl⟩

/-! ## The sweep over the idle objects -/

/-- The sweep takes the objects that are to be tried out in the order in which it looks at them. -/
theorem trials_sortIdle (p : Pool ρ) (now : Instant) (left : Nat) (ids : List Nat) :
    (p.sortIdle now left ids).tests.Sublist ids := by
  induction ids generalizing p left with
  | nil => exact .refl _
  | cons id rest ih =>
    rw [Pool.sortIdle]
    split
    · exact (ih p left).cons id
    · split
      · exact (ih p left).cons id
      · dsimp only
        split
        · exact (ih _ _).cons id
        · split
          · exact (ih _ _).cons_cons id
          · exact (ih _ _).cons id

theorem sortIdle_idle (p : Pool ρ) (now : Instant) (left : Nat) (ids : List Nat) :
    (p.sortIdle now left ids).pool.registry.idle.Sublist p.registry.idle :=
  (sortIdle_thins (.refl _) now left ids).idle

/-- An idle object is tracked. -/
theorem Sound.tracked_of_idle (h : p.Sound ℓ) (hid : id ∈ p.registry.idle) :
    id ∈ p.registry.tracked := by
  obtain ⟨r, hv⟩ := h.idle_position hid
  have hf : p.Focus ℓ id ⟨some ⟨.idle, some r, false⟩, 1, 1, 0, 0, [], []⟩ := hv ▸ h.focus id
  exact List.count_pos_iff.mp (hf.tracked.symm ▸ Nat.one_pos)

/-- If idle objects are tried out, the sweep leaves none idle that it looks at. -/
theorem Sound.idle_sortIdle (h : p.Sound ℓ) (ht : p.config.testWhileIdle = true) (now : Instant)
    (left : Nat) (ids : List Nat) {x : Nat} (hx : x ∈ ids) :
    x ∉ (p.sortIdle now left ids).pool.registry.idle := by
  induction ids generalizing p ℓ left with
  | nil => cases hx
  | cons id rest ih =>
    -- the sweep goes on with a pool in which the object is not idle
    have hrest : ∀ {q : Pool ρ} {m : Ledger ρ} (left : Nat), q.Sound m →
        q.config.testWhileIdle = true → id ∉ q.registry.idle →
        x ∉ (q.sortIdle now left rest).pool.registry.idle := by
      intro q m left hq hc hid hmem
      rcases List.mem_cons.mp hx with rfl | hx
      · exact hid ((sortIdle_idle q now left rest).mem hmem)
      · exact ih hq hc left hx hmem
    rw [Pool.sortIdle]
    split
    · -- an object that is listed as idle is there, and in that state
      rename_i hnone
      refine hrest left h ht fun hid => ?_
      have hin := h.isIn_idle hid
      rw [isIn, hnone] at hin
      cases hin
    · rename_i e he
      split
      · rename_i hidle
        refine hrest left h ht fun hid => ?_
        rcases hidle with hfree | hbusy
        · exact hfree (h.tracked_of_idle hid)
        · cases hbusy.symm.trans ((isIn_of_object? he).symm.trans (h.isIn_idle hid))
      · rename_i hidle
        rw [not_or, Decidable.not_not, Bool.not_eq_false] at hidle
        obtain ⟨r, hf⟩ := h.idle_of_isIn hidle.1 ((isIn_of_object? he).trans hidle.2)
        have htest := hf.setState .evictionTest
        dsimp only
        -- it is destroyed or tried out, and in the charge of the sweep either way
        split
        · have hout := ((htest.setState .invalid).detach rfl (.inl rfl)).entrust (.evicted r)
          refine hrest _ hout ?_ (hout.not_idle_of_charge (List.mem_cons_self ..))
          exact ht
        · have hkeep := ((htest.setState .validation).removeIdle).entrust (.untried r)
          exact hrest left hkeep ht (hkeep.not_idle_of_charge (List.mem_cons_self ..))

/-- What the sweep at the beginning of a round does: it takes objects in the order in which they
    have been idle, and then leaves none idle. -/
theorem Sound.upkeep_trials (h : p.Sound ℓ) (now : Instant) :
    (p.upkeep now).next.loan = [] ∧
      (p.upkeep now).next.trials.Sublist p.registry.idleOldestFirst ∧
      ((p.upkeep now).next.trials ≠ [] → (p.upkeep now).pool.registry.idle = []) := by
  unfold Pool.upkeep Pool.evict
  split
  · exact ⟨rfl, List.nil_sublist _, fun hn => absurd rfl hn⟩
  · split
    · exact ⟨rfl, List.nil_sublist _, fun hn => absurd rfl hn⟩
    · refine ⟨rfl, trials_sortIdle _ _ _ _, fun hn => ?_⟩
      -- something is tried out, and so the settings say that everything is
      obtain ⟨x, hx⟩ := List.exists_mem_of_ne_nil _ hn
      have ht := ((sortIdle_mem _ _ _ _).2 x hx).2
      refine List.eq_nil_iff_forall_not_mem.mpr fun id hid => ?_
      refine h.idle_sortIdle ht now _ _ ?_ hid
      exact Registry.mem_idleOldestFirst.mpr ((sortIdle_idle _ _ _ _).mem hid)

/-! ## Trying an idle object out -/

theorem failTest_follows (p : Pool ρ) (id : Nat) (tests : List Nat) (n : Nat) :
    (p.failTest id tests n).next.Follows (.evict [] tests n) :=
  destroy_follows _ _ _

theorem passTest_follows (p : Pool ρ) (id : Nat) (tests : List Nat) (n : Nat) :
    (p.passTest id tests n).next.Follows (.evict [] tests n) := by
  unfold Pool.passTest
  split
  · exact ⟨rfl, rfl, rfl⟩
  · exact destroy_follows _ _ _

/-- When nothing is left to destroy or to try out, the idle sweep is over. -/
theorem evicted_apart (p : Pool ρ) (now : Instant) (n : Nat) : (p.evicted now n).next.Apart := by
  unfold Pool.evicted
  dsimp only
  rw [Stretch.notingIf_next]
  split
  · split <;> exact ⟨rfl, rfl, rfl⟩
  · exact ⟨rfl, rfl, rfl⟩

/-- An idle object is tried out, or it was empty. -/
theorem tryNext_cases (p : Pool ρ) (now : Instant) (id : Nat) (tests : List Nat) (n : Nat) :
    (p.evictNext now [] (id :: tests) n).next = .go (.activating id (.test tests n)) ∨
      (p.slot? id = none ∧
        (p.evictNext now [] (id :: tests) n).next.Follows (.evict [] tests n)) := by
  unfold Pool.evictNext Pool.activate
  dsimp only
  split
  · exact .inl rfl
  · rename_i hslot
    exact .inr ⟨hslot, failTest_follows _ _ _ _⟩

theorem evictNext_drawn (p : Pool ρ) (now : Instant) (out tests : List Nat) (n : Nat) :
    (p.evictNext now out tests n).next.drawn.Sublist tests := by
  cases out with
  | cons id out =>
    rw [show (p.evictNext now (id :: out) tests n).next.drawn = tests from
      (dispose_follows _ _ _ _ _).drawn]
  | nil =>
    cases tests with
    | cons id tests =>
      rcases p.tryNext_cases now id tests n with hn | ⟨-, hn⟩
      · rw [hn]
        exact .refl _
      · rw [hn.drawn]
        exact List.sublist_cons_self ..
    | nil =>
      rw [show (p.evictNext now [] [] n).next.drawn = [] from (p.evicted_apart now n).drawn]

/-- A trial goes on, or it is over: then the sweep goes on with those that wait. -/
theorem activatedForTest_cases (p : Pool ρ) (id : Nat) (tests : List Nat) (n : Nat) (v : ρ)
    (refusal : Option String) :
    (p.activatedForTest id tests n v refusal).next =
        .go (.validating id (.trial (.test tests n))) ∨
      (p.activatedForTest id tests n v refusal).next.Follows (.evict [] tests n) := by
  cases refusal with
  | some reason => exact .inr (failTest_follows _ _ _ _)
  | none => exact .inl rfl

theorem validatedForTest_cases (p : Pool ρ) (id : Nat) (tests : List Nat) (n : Nat) (fit : Bool) :
    (p.validatedForTest id tests n fit).next = .go (.passivating id (.test tests n)) ∨
      (p.validatedForTest id tests n fit).next.Follows (.evict [] tests n) := by
  cases fit with
  | true => exact .inl rfl
  | false => exact .inr (failTest_follows _ _ _ _)

theorem passivatedForTest_follows (p : Pool ρ) (id : Nat) (tests : List Nat) (n : Nat) (v : ρ)
    (refusal : Option String) :
    (p.passivatedForTest id tests n v refusal).next.Follows (.evict [] tests n) := by
  cases refusal with
  | some reason => exact failTest_follows _ _ _ _
  | none => exact passTest_follows _ _ _ _

end Pool

/-! ## Every stretch -/

/-- What a stretch of a call at the point `pt` does to the objects that the call has under
    trial. -/
inductive Stretch.Draws (p : Pool ρ) (pt : Point ρ) (s : Stretch ρ) : Prop
  /-- No object is drawn. -/
  | keep (h : s.next.drawn.Sublist pt.trials)
  /-- A borrower draws the first of the idle objects. -/
  | lend {id : Nat} {b : Borrowing} (hid : p.registry.idle.head? = some id)
      (hn : s.next = .go (.activating id (.lend b false)))
  /-- The sweep over the idle objects begins trials, and leaves none idle then. -/
  | sweep (hpt : pt = .upkeep) (hl : s.next.loan = [])
      (ht : s.next.trials.Sublist p.registry.idleOldestFirst)
      (hi : s.next.trials ≠ [] → s.pool.registry.idle = [])

namespace Stretch.Draws

variable {p : Pool ρ} {pt : Point ρ} {s : Stretch ρ}

theorem of_nil (h : s.next.drawn = []) : s.Draws p pt := by
  refine .keep ?_
  rw [h]
  exact List.nil_sublist _

theorem of_seek {b : Borrowing} (h : s.next.Apart ∨ ∃ id, p.registry.idle.head? = some id ∧
    s.next = .go (.activating id (.lend b false))) : s.Draws p pt := by
  rcases h with hn | ⟨id, hid, hn⟩
  · exact .of_nil hn.drawn
  · exact .lend hid hn

/-- A trial goes on, or is over. -/
theorem of_trial {id : Nat} {tests : List Nat} {n : Nat} (hpt : pt.trials = id :: tests)
    (h : s.next.drawn = id :: tests ∨ s.next.Follows (.evict [] tests n)) : s.Draws p pt := by
  refine .keep ?_
  rw [hpt]
  rcases h with hn | hn
  · rw [hn]
  · rw [hn.drawn]
    exact List.sublist_cons_self ..

/-- What is under trial after a stretch was so before, unless a sweep has begun. -/
theorem trials (h : s.Draws p pt) : s.next.trials.Sublist pt.trials ∨
    (pt.trials = [] ∧ s.next.trials.Sublist p.registry.idleOldestFirst ∧
      (s.next.trials ≠ [] → s.pool.registry.idle = [])) := by
  cases h with
  | keep h => exact .inl ((List.sublist_append_right ..).trans h)
  | lend hid hn =>
    rw [hn]
    exact .inl (List.nil_sublist _)
  | sweep hpt hl ht hi =>
    rw [hpt]
    exact .inr ⟨rfl, ht, hi⟩

/-- An idle object that is readied for a borrower was the first of the idle ones. -/
theorem loan (h : s.Draws p pt) {id : Nat} (hid : id ∈ s.next.loan) (ht : id ∉ pt.trials) :
    p.registry.idle.head? = some id := by
  cases h with
  | keep h => exact absurd (h.mem (List.mem_append_left _ hid)) ht
  | lend hhead hn =>
    rw [hn] at hid
    rw [List.mem_singleton.mp hid]
    exact hhead
  | sweep hpt hl ht hi =>
    rw [hl] at hid
    exact nomatch hid

end Stretch.Draws

namespace Pool

variable {p : Pool ρ} {ℓ : Ledger ρ}

theorem advance_draws {pt : Point ρ} {s : Stretch ρ} {now : Instant} {self : Nat}
    {ended : Nat → Bool} (h : p.Sound ℓ) (hs : p.advance now self ended pt = some s) :
    s.Draws p pt := by
  cases goesOn_of_advance hs with
  | borrow b => exact .of_nil (p.borrow_apart now b).drawn
  | seek b => exact .of_seek (h.seek_apart now b none)
  | waiting b t _ => exact .of_seek (h.seek_apart now b (some t))
  | add => exact .of_nil p.add_apart.drawn
  | prepare => exact .of_nil p.prepare_apart.drawn
  | filling f made => exact .of_nil (p.fill_apart f made).drawn
  | upkeep =>
    obtain ⟨hl, ht, hi⟩ := h.upkeep_trials now
    exact .sweep rfl hl ht hi
  | evicting out tests n => exact .keep (p.evictNext_drawn now out tests n)
  | swept n w => exact .of_nil (p.swept_apart now n w).drawn
  | reclaiming x rest n w => exact .of_nil (p.reclaimNext_apart x rest n w).drawn
  | takeBack id answer => exact .of_nil (p.takeBack_apart now id answer).drawn
  | discard id => exact .of_nil (p.discard_apart id).drawn
  | clear => exact .of_nil rfl
  | close c => exact .of_nil (p.close_apart self c).drawn
  | draining rest d => exact .of_nil (p.drainNext_apart rest d).drawn
  | joining k rest c _ => exact .of_nil rfl

theorem respond_draws {pt : Point ρ} {s : Stretch ρ} {now : Instant} {c : Response ρ}
    (hs : p.respond now pt c = some s) : s.Draws p pt := by
  cases answered_of_respond hs with
  | notCreated m reason => exact .of_nil (p.notCreated_apart _ _).drawn
  | createdForLoan b v => exact .of_nil (p.createdForLoan_apart now _ _).drawn
  | createdForStock k v => exact .of_nil (p.createdForStock_apart now _ _).drawn
  | activatedForLoan id b fresh v refusal =>
    exact .of_nil (p.activatedForLoan_apart _ _ _ _ _).drawn
  | activatedForTest id tests n v refusal =>
    exact .of_trial rfl ((p.activatedForTest_cases id tests n v refusal).imp_left
      (congrArg Next.drawn))
  | validatedForLoan id b fresh fit => exact .of_nil (p.validatedForLoan_apart _ _ _ _).drawn
  | validatedForTest id tests n fit =>
    exact .of_trial rfl ((p.validatedForTest_cases id tests n fit).imp_left (congrArg Next.drawn))
  | validatedForStock id k fit => exact .of_nil (p.validatedForStock_apart _ _ _).drawn
  | validatedReturn id answer fit => exact .of_nil (p.validatedReturn_apart _ _ _).drawn
  | passivatedForTest id tests n v refusal =>
    exact .of_trial rfl (.inr (p.passivatedForTest_follows id tests n v refusal))
  | passivatedForStock id k v refusal => exact .of_nil (settle_apart _ _ _ _).drawn
  | passivatedReturn id answer v refusal => exact .of_nil (p.passivatedReturn_apart _ _ _ _).drawn
  | destroyed id v mode k refusal =>
    refine .keep ?_
    rw [(p.destroyed_follows id k refusal).drawn]
    exact .refl _
  | reported report x rest n w => exact .of_nil ((dispose_follows _ _ _ _ _).apart rfl).drawn

end Pool

end ObjectPool
