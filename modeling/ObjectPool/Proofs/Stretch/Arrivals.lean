/-
  ObjectPool.Proofs.Stretch.Arrivals

  When the objects of a pool came back for the last time, as the pool has it noted. An object that
  is new has the time at which it was made. A stretch notes the time in one other case: a borrower
  gives up an object that it still has. Either way the call has the object at hand from then on,
  to check it and to lay it to rest, until the object is idle or on its way out.

    * `Pool.returnTimes` — what is noted.
    * `Point.arrivals` — the object that a call brings to the idle ones.
    * `Stretch.Stamps` — what a stretch notes, and what the call brings after it.
    * `advance_stamps`, `respond_stamps` — every stretch.
-/

import ObjectPool.Proofs.Stretch.Dossiers

namespace ObjectPool

variable {ρ : Type}

/-! ## What is noted -/

/-- When the objects of a pool came back for the last time, or were made, by number. -/
def Pool.returnTimes (p : Pool ρ) : List Instant := p.entries.map (·.lastReturn)

/-- The object that a call brings to the idle ones, from a borrower or from the factory. -/
def Point.arrivals : Point ρ → List Nat
  | .validating id (.stock _) | .validating id (.takeBack _) | .passivating id (.stock _)
  | .passivating id (.takeBack _) => [id]
  | _ => []

/-- The object that a call brings to the idle ones once a stretch is over. -/
def Next.arrivals : Next ρ → List Nat
  | .go pt => pt.arrivals
  | .finish _ => []

theorem Entry.become_lastReturn (s : Lifecycle) (e : Entry ρ) :
    (e.become s).lastReturn = e.lastReturn := by
  unfold Entry.become
  split <;> rfl

namespace Pool

variable {p q : Pool ρ} {now : Instant} {id : Nat}

theorem length_returnTimes (p : Pool ρ) : p.returnTimes.length = p.entries.length :=
  List.length_map ..

theorem getElem?_returnTimes (p : Pool ρ) (id : Nat) :
    p.returnTimes[id]? = (p.object? id).map (·.lastReturn) := List.getElem?_map ..

theorem returnTimes_modify {f : Entry ρ → Entry ρ} {v : Instant → Instant}
    (hf : ∀ e, (f e).lastReturn = v e.lastReturn) :
    (p.modify id f).returnTimes = p.returnTimes.modify id v := map_entries_modify fun e _ => hf e

/-- A change to an object that does not bring it back. -/
theorem returnTimes_modify_same {f : Entry ρ → Entry ρ}
    (hf : ∀ e, (f e).lastReturn = e.lastReturn) : (p.modify id f).returnTimes = p.returnTimes := by
  rw [returnTimes_modify (v := fun t => t) hf]
  exact List.modify_id ..

@[simp] theorem returnTimes_book (f : Registry → Registry) (p : Pool ρ) :
    (p.book f).returnTimes = p.returnTimes := rfl

@[simp] theorem returnTimes_count (f : Counters → Counters) (p : Pool ρ) :
    (p.count f).returnTimes = p.returnTimes := rfl

@[simp] theorem returnTimes_detach (id : Nat) (p : Pool ρ) :
    (p.detach id).returnTimes = p.returnTimes := rfl

@[simp] theorem returnTimes_hold (id : Nat) (p : Pool ρ) :
    (p.hold id).returnTimes = p.returnTimes :=
  returnTimes_modify_same fun _ => rfl

@[simp] theorem returnTimes_release (id : Nat) (p : Pool ρ) :
    (p.release id).returnTimes = p.returnTimes :=
  returnTimes_modify_same fun _ => rfl

@[simp] theorem returnTimes_letGo (id : Nat) (r : ρ) (p : Pool ρ) :
    (p.letGo id r).returnTimes = p.returnTimes :=
  returnTimes_modify_same fun _ => rfl

@[simp] theorem returnTimes_emptySlot (id : Nat) (p : Pool ρ) :
    (p.emptySlot id).returnTimes = p.returnTimes :=
  returnTimes_modify_same fun _ => rfl

@[simp] theorem returnTimes_setState (id : Nat) (s : Lifecycle) (p : Pool ρ) :
    (p.setState id s).returnTimes = p.returnTimes :=
  returnTimes_modify_same fun e => e.become_lastReturn s

@[simp] theorem returnTimes_retire (id : Nat) (p : Pool ρ) :
    (p.retire id).returnTimes = p.returnTimes := by
  show ((p.setState id .invalid).forgetUse id).returnTimes = _
  exact (returnTimes_modify_same (f := fun e => { e with lastUse := none }) fun _ => rfl).trans
    (returnTimes_setState ..)

@[simp] theorem returnTimes_markLent (now : Instant) (id : Nat) (p : Pool ρ) :
    (p.markLent now id).returnTimes = p.returnTimes :=
  returnTimes_modify_same fun e => (e.markBorrowed now).become_lastReturn .allocated

@[simp] theorem returnTimes_takeAway (id : Nat) (p : Pool ρ) :
    (p.takeAway id).returnTimes = p.returnTimes := by
  show ((p.setState id .abandoned).emptySlot id).returnTimes = _
  rw [returnTimes_emptySlot, returnTimes_setState]

@[simp] theorem returnTimes_noteBorrower (id : Nat) (site : String) (p : Pool ρ) :
    (p.noteBorrower id site).returnTimes = p.returnTimes := by
  unfold noteBorrower
  split
  · split
    · exact returnTimes_modify_same fun _ => rfl
    · rfl
  · rfl

@[simp] theorem returnTimes_trackUse (now : Instant) (id : Nat) (site : String) (p : Pool ρ) :
    (p.trackUse now id site).returnTimes = p.returnTimes := by
  unfold trackUse
  split
  · split
    · exact returnTimes_modify_same fun _ => rfl
    · rfl
  · rfl

/-- The time of an object that comes back is noted. -/
theorem returnTimes_markReturned (now : Instant) (id : Nat) (p : Pool ρ) :
    (p.markReturned now id).returnTimes = p.returnTimes.modify id fun _ => now :=
  returnTimes_modify fun _ => rfl

theorem returnTimes_enlist (now : Instant) (r : ρ) (s : Lifecycle) (p : Pool ρ) :
    (p.enlist now r s).returnTimes = p.returnTimes ++ [now] := List.map_append

end Pool

/-! ## What a stretch notes -/

/-- What a stretch of a call at the point `pt` makes of the times that its pool `p` has noted, and
    what the call brings to the idle objects after it. -/
inductive Stretch.Stamps (p : Pool ρ) (now : Instant) (pt : Point ρ) (s : Stretch ρ) : Prop
  /-- Nothing is noted, and the call brings what it brought before or nothing. -/
  | keeps (same : s.pool.returnTimes = p.returnTimes)
      (next : ∀ id ∈ s.next.arrivals, id ∈ pt.arrivals)
  /-- An object is new, and nothing else is brought. -/
  | enlists (file : s.pool.returnTimes = p.returnTimes ++ [now]) (before : pt.arrivals = [])
      (next : ∀ id ∈ s.next.arrivals, id = p.entries.length)
  /-- A borrower gives up an object that it has, and nothing else is brought. -/
  | returns {id : Nat} (lent : p.isIn id .allocated = true)
      (file : s.pool.returnTimes = p.returnTimes.modify id fun _ => now)
      (before : pt.arrivals = []) (next : ∀ x ∈ s.next.arrivals, x = id)

namespace Stretch

variable {p : Pool ρ} {now : Instant} {pt : Point ρ} {s : Stretch ρ}

/-- A stretch that notes nothing, and after which the call brings nothing. -/
structure Still (p : Pool ρ) (s : Stretch ρ) : Prop where
  same : s.pool.returnTimes = p.returnTimes
  next : s.next.arrivals = []

theorem Still.stamps (h : s.Still p) (now : Instant) (pt : Point ρ) : s.Stamps p now pt :=
  .keeps h.same fun _ hid => nomatch h.next ▸ hid

theorem Still.noting (h : s.Still p) (n : Notice) : (s.noting n).Still p := ⟨h.same, h.next⟩

theorem Still.notingIf (h : s.Still p) (c : Bool) (n : Notice) : (s.notingIf c n).Still p := by
  unfold Stretch.notingIf
  split
  · exact h.noting n
  · exact h

end Stretch

namespace Pool

variable {p q : Pool ρ} {now : Instant} {pt : Point ρ} {id : Nat} {b : Borrowing}

/-! ### The end of an object -/

theorem resume_arrivals (p : Pool ρ) (k : After ρ) : (p.resume k).next.arrivals = [] := by
  cases k with
  | notStocked s e =>
    rcases s with _ | ⟨_ | ⟨out, back⟩, made⟩ <;> rfl
  | _ => rfl

theorem still_resume (same : q.returnTimes = p.returnTimes) (k : After ρ) :
    (q.resume k).Still p :=
  ⟨(congrArg returnTimes (q.resume_pool k)).trans same, q.resume_arrivals k⟩

theorem dispose_arrivals (p : Pool ρ) (id : Nat) (v : Option ρ) (mode : DestroyMode)
    (k : After ρ) : (p.dispose id v mode k).next.arrivals = [] := by
  cases v with
  | some v => rfl
  | none => exact resume_arrivals _ k

theorem returnTimes_dispose (p : Pool ρ) (id : Nat) (v : Option ρ) (mode : DestroyMode)
    (k : After ρ) : (p.dispose id v mode k).pool.returnTimes = p.returnTimes := by
  rw [dispose_pool, returnTimes_retire]

theorem still_dispose (same : q.returnTimes = p.returnTimes) (id : Nat) (v : Option ρ)
    (mode : DestroyMode) (k : After ρ) : (q.dispose id v mode k).Still p :=
  ⟨(q.returnTimes_dispose ..).trans same, q.dispose_arrivals ..⟩

theorem still_finishDestroy (same : q.returnTimes = p.returnTimes) (id : Nat) (k : After ρ) :
    (q.finishDestroy id k).Still p :=
  still_dispose (q := q.emptySlot id) ((returnTimes_emptySlot ..).trans same) id _ _ k

theorem still_destroy (same : q.returnTimes = p.returnTimes) (id : Nat) (k : After ρ) :
    (q.destroy id k).Still p :=
  still_finishDestroy (q := q.detach id) same id k

/-! ### Taking objects away -/

theorem returnTimes_reclaimFrom (now : Instant) (timeout : Duration) (ids : List Nat)
    (p : Pool ρ) : (p.reclaimFrom now timeout ids).1.returnTimes = p.returnTimes := by
  -- each object taken away leaves other books to the rest of the pass
  induction ids generalizing p with
  | nil => rfl
  | cons id rest ih =>
    rw [reclaimFrom]
    split
    · exact (ih (p.takeAway id)).trans (returnTimes_takeAway ..)
    · exact ih p

theorem still_sweep (p : Pool ρ) (now : Instant) (a : Abandonment) (k : Sweeper) :
    (p.sweep now a k).Still p :=
  ⟨p.returnTimes_reclaimFrom now a.timeout p.registry.active, rfl⟩

theorem still_borrow (p : Pool ρ) (now : Instant) (b : Borrowing) : (p.borrow now b).Still p := by
  unfold borrow
  split
  · split
    · exact p.still_sweep ..
    · exact ⟨rfl, rfl⟩
  · exact ⟨rfl, rfl⟩

theorem still_swept (p : Pool ρ) (now : Instant) (n : Nat) (k : Sweeper) :
    (p.swept now n k).Still p := by
  unfold swept
  refine .notingIf ?_ _ _
  cases k <;> exact ⟨rfl, rfl⟩

theorem still_disposeReclaimed (p : Pool ρ) (x : Reclaimed ρ) (rest : List (Reclaimed ρ)) (n : Nat)
    (k : Sweeper) : (p.disposeReclaimed x rest n k).Still p :=
  still_dispose (p := p) (q := p.count _) rfl _ _ _ _

theorem still_reclaimNext (p : Pool ρ) (x : Reclaimed ρ) (rest : List (Reclaimed ρ)) (n : Nat)
    (k : Sweeper) : (p.reclaimNext x rest n k).Still p := by
  have hdispose := p.still_disposeReclaimed x rest n k
  unfold reclaimNext
  split
  · split
    · split
      · exact hdispose.noting _
      · exact ⟨rfl, rfl⟩
    · exact hdispose
  · exact hdispose

/-! ### Lending -/

theorem returnTimes_leaveLine (p : Pool ρ) (ticket : Option Nat) :
    (p.leaveLine ticket).returnTimes = p.returnTimes := by
  cases ticket <;> rfl

theorem returnTimes_acquire (now : Instant) (p : Pool ρ) :
    (p.acquire now).1.returnTimes = p.returnTimes := by
  unfold acquire
  split
  · exact returnTimes_markLent ..
  · dsimp only
    split <;> rfl

theorem still_refuse (same : q.returnTimes = p.returnTimes) (id : Nat) (b : Borrowing)
    (fresh : Bool) (e : PoolError) : (q.refuse id b fresh e).Still p := by
  cases fresh with
  | true => exact still_destroy same id _
  | false => exact (still_destroy same id _).noting _

theorem still_activate {s : Stretch ρ} (same : q.returnTimes = p.returnTimes) (id : Nat) (t : Trial)
    (hs : s.Still p) : (q.activate id t s).Still p := by
  unfold activate
  split
  · exact ⟨(returnTimes_hold ..).trans same, rfl⟩
  · exact hs

/-- A borrower that gets nothing gives up or stands in line. -/
theorem still_vain (same : q.returnTimes = p.returnTimes) (now : Instant) (b : Borrowing)
    (ticket : Option Nat) :
    Stretch.Still p
      (if q.givesUp now b then q.exhaust b ticket else q.standInLine b ticket) := by
  split
  · refine ⟨?_, rfl⟩
    show (if q.outOfLine ticket then (q.leaveLine ticket).book Registry.wakeIfAvailable else
      q.leaveLine ticket).returnTimes = _
    split <;> exact (q.returnTimes_leaveLine ticket).trans same
  · cases ticket with
    | none => exact ⟨same, rfl⟩
    | some t =>
      refine ⟨?_, rfl⟩
      show (if q.registry.line.isWoken t then q.book fun r => { r with line := r.line.reenter t }
        else q).returnTimes = _
      split <;> exact same

theorem still_seek (p : Pool ρ) (now : Instant) (b : Borrowing) (ticket : Option Nat) :
    (p.seek now b ticket).Still p := by
  unfold seek
  split
  · exact ⟨p.returnTimes_leaveLine ticket, rfl⟩
  · by_cases hm : p.mayTake ticket = true
    · rw [if_pos hm]
      have hq := p.returnTimes_acquire now
      generalize p.acquire now = g at hq
      obtain ⟨q, g⟩ := g
      cases g with
      | none => exact still_vain hq now b ticket
      | some g =>
        have hleft : ((q.leaveLine ticket).book Registry.wakeIfAvailable).returnTimes =
            p.returnTimes := (q.returnTimes_leaveLine ticket).trans hq
        cases g with
        | idle id => exact still_activate hleft id _ (still_refuse hleft id b false _)
        | room => exact ⟨hleft, rfl⟩
    · rw [if_neg hm]
      exact still_vain rfl now b ticket

theorem still_handOut (same : q.returnTimes = p.returnTimes) (id : Nat) (b : Borrowing) :
    (q.handOut id b).Still p :=
  ⟨(returnTimes_noteBorrower ..).trans same, rfl⟩

theorem still_activatedForLoan (p : Pool ρ) (id : Nat) (b : Borrowing) (fresh : Bool) (v : ρ)
    (refusal : Option String) : (p.activatedForLoan id b fresh v refusal).Still p := by
  unfold activatedForLoan
  cases refusal with
  | some reason => exact still_refuse (returnTimes_letGo ..) id b fresh _
  | none =>
    dsimp only
    split
    · exact ⟨returnTimes_modify_same fun _ => rfl, rfl⟩
    · exact still_handOut (returnTimes_letGo ..) id b

theorem still_validatedForLoan (p : Pool ρ) (id : Nat) (b : Borrowing) (fresh fit : Bool) :
    (p.validatedForLoan id b fresh fit).Still p := by
  unfold validatedForLoan
  cases fit with
  | true => exact still_handOut (returnTimes_release ..) id b
  | false => exact still_refuse (q := (p.release id).count _) (returnTimes_release ..) id b fresh _

theorem stamps_createdForLoan (b : Borrowing) (v : ρ) (before : pt.arrivals = []) :
    (p.createdForLoan now b v).Stamps p now pt := by
  have hnew := (p.count fun c => { c with created := c.created + 1 }).returnTimes_enlist now v
    .allocated
  rw [returnTimes_count] at hnew
  unfold createdForLoan
  dsimp only
  generalize (p.count fun c => { c with created := c.created + 1 }).enlist now v .allocated = q
    at hnew ⊢
  -- whatever becomes of the new object, the call does not bring it to the idle ones
  have hnone : ∀ {s : Stretch ρ}, s.Still q → s.Stamps p now pt := fun hs =>
    .enlists (hs.same.trans hnew) before fun id hid => nomatch hs.next ▸ hid
  split
  · exact hnone (still_finishDestroy (p := q) (q := q.book Registry.cancelReservation) rfl _ _)
  · have hmarked : ((q.book (Registry.registerActive p.entries.length)).modify p.entries.length
        (Entry.markBorrowed now)).returnTimes = q.returnTimes :=
      returnTimes_modify_same fun _ => rfl
    exact hnone (still_activate hmarked _ _ (still_refuse hmarked _ b true _))

/-! ### Making idle objects -/

theorem still_add (p : Pool ρ) : p.add.Still p := by
  unfold add
  split
  · exact ⟨rfl, rfl⟩
  · split <;> exact ⟨rfl, rfl⟩

theorem still_prepare (p : Pool ρ) : p.prepare.Still p := by
  unfold prepare
  split <;> exact ⟨rfl, rfl⟩

theorem still_fill (p : Pool ρ) (f : Filler) (made : Nat) : (p.fill f made).Still p := by
  unfold fill
  split
  · cases f <;> exact ⟨rfl, rfl⟩
  · exact ⟨rfl, rfl⟩

theorem still_settle (same : q.returnTimes = p.returnTimes) (id : Nat) (k : Stocker)
    (fault : Option PoolError) : (q.settle id k fault).Still p := by
  unfold settle
  dsimp only
  split
  · cases k <;> exact ⟨same, rfl⟩
  · exact still_finishDestroy (q := q.book Registry.cancelReservation) same id _

theorem stamps_createdForStock (k : Stocker) (v : ρ) (before : pt.arrivals = []) :
    (p.createdForStock now k v).Stamps p now pt := by
  have hnew := (p.count fun c => { c with created := c.created + 1 }).returnTimes_enlist now v .idle
  rw [createdForStock_eq]
  dsimp only
  split <;> exact .enlists ((returnTimes_hold ..).trans hnew) before fun id => List.mem_singleton.mp

theorem still_notCreated (p : Pool ρ) (m : Maker) (reason : String) :
    (p.notCreated m reason).Still p := by
  cases m with
  | lend b => exact ⟨rfl, rfl⟩
  | stock k => rcases k with _ | ⟨_ | ⟨out, back⟩, made⟩ <;> exact ⟨rfl, rfl⟩

/-! ### Taking objects back -/

/-- A returned object is laid to rest, or destroyed. -/
theorem passivate_arrivals (q : Pool ρ) (id : Nat) (answer : Option Reply) :
    (q.passivate id answer).pool.returnTimes = q.returnTimes ∧
      ∀ x ∈ (q.passivate id answer).next.arrivals, x = id := by
  unfold passivate
  split
  · exact ⟨returnTimes_hold .., fun x => List.mem_singleton.mp⟩
  · have hnone := still_destroy (q := q) rfl id (.reply (answer.getD (.failed .reclaimed)))
    exact ⟨hnone.same, fun x hx => nomatch hnone.next ▸ hx⟩

theorem still_unfitReturn (same : q.returnTimes = p.returnTimes) (id : Nat)
    (answer : Option Reply) : (q.unfitReturn id answer).Still p :=
  (still_destroy (q := q.count _) same id _).noting _

theorem stamps_takeBack (answer : Option Reply) :
    (p.takeBack now id answer).Stamps p now (.takeBack id answer) := by
  have hmark := p.returnTimes_markReturned now id
  unfold takeBack
  dsimp only
  split
  · exact .keeps rfl fun _ hx => nomatch hx
  · split
    · exact .keeps rfl fun _ hx => nomatch hx
    · rename_i hin
      have hlent : p.isIn id .allocated = true := Bool.eq_true_of_not_eq_false hin
      have hnone : ∀ {s : Stretch ρ}, s.Still (p.markReturned now id) →
          s.Stamps p now (.takeBack id answer) := fun hs =>
        .returns hlent (hs.same.trans hmark) rfl fun x hx => nomatch hs.next ▸ hx
      split
      · exact hnone (still_destroy rfl id _)
      · split
        · split
          · exact .returns hlent ((returnTimes_hold ..).trans hmark) rfl fun x =>
              List.mem_singleton.mp
          · exact hnone (still_unfitReturn rfl id answer)
        · obtain ⟨hsame, hnext⟩ := passivate_arrivals (p.markReturned now id) id answer
          exact .returns hlent (hsame.trans hmark) rfl hnext

theorem stamps_validatedReturn (answer : Option Reply) (fit : Bool) :
    (p.validatedReturn id answer fit).Stamps p now (.validating id (.takeBack answer)) := by
  cases fit with
  | true =>
    obtain ⟨hsame, hnext⟩ := passivate_arrivals (p.release id) id answer
    exact .keeps (hsame.trans (returnTimes_release ..)) fun x hx =>
      List.mem_singleton.mpr (hnext x hx)
  | false => exact (still_unfitReturn (returnTimes_release ..) id answer).stamps ..

theorem still_passivatedReturn (p : Pool ρ) (id : Nat) (answer : Option Reply) (v : ρ)
    (refusal : Option String) : (p.passivatedReturn id answer v refusal).Still p := by
  have same : (p.letGo id v).returnTimes = p.returnTimes := returnTimes_letGo ..
  unfold passivatedReturn
  dsimp only
  split
  · exact (still_destroy same id _).noting _
  · split
    · exact still_destroy same id _
    · split
      · exact (still_destroy same id _).noting _
      · refine ⟨?_, rfl⟩
        show (if (p.letGo id v).isIn id .returning then (p.letGo id v).setState id .idle else
          p.letGo id v).returnTimes = _
        split
        · exact (returnTimes_setState ..).trans same
        · exact same

theorem still_discard (p : Pool ρ) (id : Nat) : (p.discard id).Still p := by
  unfold discard
  split
  · exact ⟨rfl, rfl⟩
  · split
    · exact still_destroy (returnTimes_setState ..) id _
    · exact ⟨rfl, rfl⟩

/-! ### Upkeep -/

theorem returnTimes_sortIdle (now : Instant) (ids : List Nat) (p : Pool ρ) (left : Nat) :
    (p.sortIdle now left ids).pool.returnTimes = p.returnTimes := by
  induction ids generalizing p left with
  | nil => rfl
  | cons id rest ih =>
    rw [sortIdle]
    split
    · exact ih p left
    · split
      · exact ih p left
      · have hmove : ∀ s : Lifecycle,
            ((p.setState id .evictionTest).setState id s).returnTimes = p.returnTimes := fun s =>
          (returnTimes_setState ..).trans (returnTimes_setState ..)
        dsimp only
        split
        · exact (ih _ _).trans (hmove .invalid)
        · split
          · exact (ih _ _).trans (hmove .validation)
          · exact (ih _ _).trans (hmove .idle)

theorem still_upkeep (p : Pool ρ) (now : Instant) : (p.upkeep now).Still p := by
  unfold upkeep evict
  split
  · exact ⟨rfl, rfl⟩
  · split
    · exact ⟨rfl, rfl⟩
    · exact ⟨returnTimes_sortIdle .., rfl⟩

theorem still_failTest (same : q.returnTimes = p.returnTimes) (id : Nat) (tests : List Nat)
    (n : Nat) : (q.failTest id tests n).Still p :=
  (still_destroy (q := q.count _) same id _).noting _

theorem still_passTest (same : q.returnTimes = p.returnTimes) (id : Nat) (tests : List Nat)
    (n : Nat) : (q.passTest id tests n).Still p := by
  unfold passTest
  split
  · exact ⟨(returnTimes_setState id .idle q).trans same, rfl⟩
  · exact still_destroy same id _

theorem still_activatedForTest (p : Pool ρ) (id : Nat) (tests : List Nat) (n : Nat) (v : ρ)
    (refusal : Option String) : (p.activatedForTest id tests n v refusal).Still p := by
  cases refusal with
  | some reason => exact still_failTest (returnTimes_letGo ..) id tests n
  | none => exact ⟨returnTimes_modify_same fun _ => rfl, rfl⟩

theorem still_validatedForTest (p : Pool ρ) (id : Nat) (tests : List Nat) (n : Nat) (fit : Bool) :
    (p.validatedForTest id tests n fit).Still p := by
  cases fit with
  | true => exact ⟨rfl, rfl⟩
  | false => exact still_failTest (returnTimes_release ..) id tests n

theorem still_passivatedForTest (p : Pool ρ) (id : Nat) (tests : List Nat) (n : Nat) (v : ρ)
    (refusal : Option String) : (p.passivatedForTest id tests n v refusal).Still p := by
  cases refusal with
  | some reason => exact still_failTest (returnTimes_letGo ..) id tests n
  | none => exact still_passTest (returnTimes_letGo ..) id tests n

theorem still_evictNext (p : Pool ρ) (now : Instant) (out tests : List Nat) (n : Nat) :
    (p.evictNext now out tests n).Still p := by
  cases out with
  | cons id out => exact still_finishDestroy (p := p) (q := p.count _) rfl id _
  | nil =>
    cases tests with
    | cons id tests => exact still_activate rfl id _ (still_failTest rfl id tests n)
    | nil =>
      rw [evictNext, evicted]
      refine .notingIf ?_ _ _
      split
      · split
        · exact p.still_sweep ..
        · exact ⟨rfl, rfl⟩
      · exact ⟨rfl, rfl⟩

/-! ### Closing -/

theorem still_close (p : Pool ρ) (self : Nat) (c : Closer) : (p.close self c).Still p := by
  unfold close
  split
  · exact ⟨rfl, rfl⟩
  · dsimp only
    split
    · split <;> exact ⟨rfl, rfl⟩
    · exact ⟨rfl, rfl⟩

theorem still_drainNext (p : Pool ρ) (rest : List Nat) (d : Drainer) :
    (p.drainNext rest d).Still p := by
  cases rest with
  | cons id rest => exact still_finishDestroy rfl id _
  | nil => cases d <;> exact ⟨rfl, rfl⟩

/-! ### Every stretch -/

variable {s : Stretch ρ}

/-- What a call notes that goes on by itself. -/
theorem advance_stamps {self : Nat} {ended : Nat → Bool}
    (hs : p.advance now self ended pt = some s) : s.Stamps p now pt := by
  cases goesOn_of_advance hs with
  | borrow b => exact (p.still_borrow now b).stamps ..
  | seek b => exact (p.still_seek now b none).stamps ..
  | waiting b t _ => exact (p.still_seek now b (some t)).stamps ..
  | add => exact p.still_add.stamps ..
  | prepare => exact p.still_prepare.stamps ..
  | filling f made => exact (p.still_fill f made).stamps ..
  | upkeep => exact (p.still_upkeep now).stamps ..
  | evicting out tests n => exact (p.still_evictNext now out tests n).stamps ..
  | swept n k => exact (p.still_swept now n k).stamps ..
  | reclaiming x rest n k => exact (p.still_reclaimNext x rest n k).stamps ..
  | takeBack id answer => exact stamps_takeBack answer
  | discard id => exact (p.still_discard id).stamps ..
  | clear => exact .keeps rfl fun _ hx => nomatch hx
  | close c => exact (p.still_close self c).stamps ..
  | draining rest d => exact (p.still_drainNext rest d).stamps ..
  | joining k rest c _ => exact .keeps rfl fun _ hx => nomatch hx

/-- What a call notes that gets an answer. -/
theorem respond_stamps {r : Response ρ} (hs : p.respond now pt r = some s) :
    s.Stamps p now pt := by
  cases answered_of_respond hs with
  | notCreated m reason => exact (p.still_notCreated m reason).stamps ..
  | createdForLoan b v => exact stamps_createdForLoan b v rfl
  | createdForStock k v => exact stamps_createdForStock k v rfl
  | activatedForLoan id b fresh v refusal =>
    exact (p.still_activatedForLoan id b fresh v refusal).stamps ..
  | activatedForTest id tests n v refusal =>
    exact (p.still_activatedForTest id tests n v refusal).stamps ..
  | validatedForLoan id b fresh fit => exact (p.still_validatedForLoan id b fresh fit).stamps ..
  | validatedForTest id tests n fit => exact (p.still_validatedForTest id tests n fit).stamps ..
  | validatedForStock id k fit =>
    cases fit with
    | true => exact .keeps rfl fun _ hx => hx
    | false =>
      exact (still_settle (q := (p.release id).count _) (returnTimes_release ..) id k _).stamps ..
  | validatedReturn id answer fit => exact stamps_validatedReturn answer fit
  | passivatedForTest id tests n v refusal =>
    exact (p.still_passivatedForTest id tests n v refusal).stamps ..
  | passivatedForStock id k v refusal =>
    exact (still_settle (q := p.letGo id v) (returnTimes_letGo ..) id k _).stamps ..
  | passivatedReturn id answer v refusal =>
    exact (p.still_passivatedReturn id answer v refusal).stamps ..
  | destroyed id v mode k refusal =>
    have hresume : (p.resume k).Still p := still_resume rfl k
    cases refusal with
    | some reason => exact (hresume.noting _).stamps ..
    | none => exact hresume.stamps ..
  | reported report x rest n k => exact (p.still_disposeReclaimed x rest n k).stamps ..

end Pool

end ObjectPool
