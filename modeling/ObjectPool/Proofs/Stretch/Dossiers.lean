/-
  ObjectPool.Proofs.Stretch.Dossiers

  What a pool keeps of the borrows of an object, and what every stretch makes of it. The dossier of
  an object is opened when the object is made. Each borrow is stamped and counted in it when the
  object is picked, and signed when the object is handed out. It is closed, and the last use struck
  out of it, when the object is on its way back or out of circulation. An object that is taken away
  from its borrower keeps its dossier as it is until it is disposed of.

    * `Dossier`, `Entry.dossier` — what is kept of the borrows of an object.
    * `Point.site?` — where the borrow came from on whose behalf a call runs.
    * `Stretch.Files` — what a stretch makes of the dossiers of its pool.
    * `advance_files`, `respond_files` — every stretch.
    * `Works.files` — the same of a call in a sound world.
-/

import ObjectPool.Proofs.Stretch.Quests

namespace ObjectPool

variable {ρ : Type}

/-! ## Dossiers -/

/-- What a pool keeps of the borrows of an object. -/
structure Dossier where
  /-- A borrower has the object or is to get it, or the pool has taken it away from one and not yet
      disposed of it. -/
  out : Bool
  lastBorrow : Instant
  borrowCount : Nat := 0
  borrowedBy : Option Evidence := none
  lastUse : Option Use := none
  deriving DecidableEq

namespace Dossier

/-- The dossier of a new object. -/
def fresh (now : Instant) : Dossier := { out := false, lastBorrow := now }

/-- The object is picked for a borrower. -/
def lend (now : Instant) (d : Dossier) : Dossier :=
  { d with out := true, lastBorrow := now, borrowCount := d.borrowCount + 1, borrowedBy := none }

/-- The borrower is known, if there is evidence of it. -/
def sign (e : Option Evidence) (d : Dossier) : Dossier := { d with borrowedBy := e.or d.borrowedBy }

/-- The borrower has used the object, if that is noted. -/
def use (u : Option Use) (d : Dossier) : Dossier := { d with lastUse := u.or d.lastUse }

/-- The object is no longer out. -/
def close (d : Dossier) : Dossier := { d with out := false, lastUse := none }

end Dossier

/-- Whether objects in a state are in the hands of borrowers or were taken from them. -/
def Lifecycle.isOut : Lifecycle → Bool
  | .allocated | .abandoned => true
  | _ => false

/-- What is kept of the borrows of an object. -/
def Entry.dossier (e : Entry ρ) : Dossier :=
  { out := e.state.isOut
    lastBorrow := e.lastBorrow
    borrowCount := e.borrowCount
    borrowedBy := e.borrowedBy
    lastUse := e.lastUse }

theorem Entry.dossier_become (s : Lifecycle) (e : Entry ρ) :
    (e.become s).dossier = { e.dossier with out := s.isOut } := by
  unfold Entry.become
  split
  · rename_i hs
    rw [← hs]
    rfl
  · rfl

theorem Entry.dossier_become_of_same {s : Lifecycle} {e : Entry ρ} (h : e.state.isOut = s.isOut) :
    (e.become s).dossier = e.dossier := by
  rw [Entry.dossier_become, ← h]
  rfl

/-! ## Evidence -/

namespace Config

/-- The evidence that is kept of a place, if abandoned objects are reported. -/
def evidence? (c : Config) (site : String) : Option Evidence :=
  match c.abandonment with
  | some a => if a.reported then some (Evidence.of a.fullStack site) else none
  | none => none

/-- What is noted of a use, if uses are tracked. -/
def use? (c : Config) (now : Instant) (site : String) : Option Use :=
  match c.abandonment with
  | some a => if a.tracksUse then some ⟨now, c.evidence? site⟩ else none
  | none => none

end Config

/-- Where the borrow came from on whose behalf objects are taken back. -/
def Sweeper.site? : Sweeper → Option String
  | .borrow b => some b.site
  | .upkeep _ => none

/-- Where the borrow came from that goes on after the end of an object. -/
def After.site? : After ρ → Option String
  | .seek b => some b.site
  | .reclaim _ _ k => k.site?
  | _ => none

/-- Where the borrow came from on whose behalf a call runs. -/
def Point.site? : Point ρ → Option String
  | .borrow b | .seek b | .waiting b _ | .creating (.lend b) | .activating _ (.lend b _)
  | .validating _ (.trial (.lend b _)) => some b.site
  | .reclaiming _ _ k | .reporting _ _ _ _ k => k.site?
  | .destroying _ _ _ k => k.site?
  | _ => none

namespace Pool

variable {p q : Pool ρ} {now : Instant} {id : Nat}

/-- What a pool keeps of the borrows of its objects. -/
def dossiers (p : Pool ρ) : List Dossier := p.entries.map Entry.dossier

/-! ## Small changes -/

theorem length_dossiers (p : Pool ρ) : p.dossiers.length = p.entries.length := List.length_map ..

theorem getElem?_dossiers (p : Pool ρ) (id : Nat) :
    p.dossiers[id]? = (p.object? id).map Entry.dossier := List.getElem?_map ..

/-- A change to one object, as something shows it that the pool keeps of each. -/
theorem map_entries_modify {α : Type} {view : Entry ρ → α} {f : Entry ρ → Entry ρ} {v : α → α}
    (hf : ∀ e, p.object? id = some e → view (f e) = v (view e)) :
    (p.modify id f).entries.map view = (p.entries.map view).modify id v := by
  refine List.ext_getElem? fun x => ?_
  have hmodify := p.object?_modify id x f
  unfold object? at hmodify hf
  rw [List.getElem?_map, hmodify, List.getElem?_modify, List.getElem?_map]
  by_cases hx : id = x
  · subst hx
    cases he : p.entries[id]? with
    | none => simp
    | some e => simp [hf e he]
  · simp [hx]

theorem dossiers_modify {f : Entry ρ → Entry ρ} {v : Dossier → Dossier}
    (hf : ∀ e, p.object? id = some e → (f e).dossier = v e.dossier) :
    (p.modify id f).dossiers = p.dossiers.modify id v := map_entries_modify hf

/-- A change to an object that its dossier does not show. -/
theorem dossiers_modify_same {f : Entry ρ → Entry ρ}
    (hf : ∀ e, p.object? id = some e → (f e).dossier = e.dossier) :
    (p.modify id f).dossiers = p.dossiers := by
  rw [dossiers_modify (v := fun d => d) hf]
  exact List.modify_id ..

@[simp] theorem dossiers_book (f : Registry → Registry) (p : Pool ρ) :
    (p.book f).dossiers = p.dossiers := rfl

@[simp] theorem dossiers_count (f : Counters → Counters) (p : Pool ρ) :
    (p.count f).dossiers = p.dossiers := rfl

@[simp] theorem dossiers_detach (id : Nat) (p : Pool ρ) : (p.detach id).dossiers = p.dossiers := rfl

@[simp] theorem dossiers_hold (id : Nat) (p : Pool ρ) : (p.hold id).dossiers = p.dossiers :=
  dossiers_modify_same fun _ _ => rfl

@[simp] theorem dossiers_release (id : Nat) (p : Pool ρ) : (p.release id).dossiers = p.dossiers :=
  dossiers_modify_same fun _ _ => rfl

@[simp] theorem dossiers_letGo (id : Nat) (r : ρ) (p : Pool ρ) :
    (p.letGo id r).dossiers = p.dossiers :=
  dossiers_modify_same fun _ _ => rfl

@[simp] theorem dossiers_emptySlot (id : Nat) (p : Pool ρ) :
    (p.emptySlot id).dossiers = p.dossiers :=
  dossiers_modify_same fun _ _ => rfl

/-- An object that moves from one state to another. -/
theorem dossiers_setState {s : Lifecycle} (hs : p.isIn id s = true) (u : Lifecycle)
    (h : s.isOut = u.isOut) : (p.setState id u).dossiers = p.dossiers := by
  refine dossiers_modify_same fun e he => Entry.dossier_become_of_same ?_
  have hin : (p.object? id).any (·.isIn s) = true := hs
  rw [he] at hin
  rw [← h, show e.state = s from of_decide_eq_true hin]

@[simp] theorem dossiers_retire (id : Nat) (p : Pool ρ) :
    (p.retire id).dossiers = p.dossiers.modify id .close := by
  have hone : (p.setState id .invalid).forgetUse id =
      p.modify id fun e => { e.become .invalid with lastUse := none } := by
    unfold Pool.forgetUse Pool.setState Pool.modify
    rw [List.modify_modify_eq]
    rfl
  show ((p.setState id .invalid).forgetUse id).dossiers = _
  rw [hone]
  refine dossiers_modify fun e _ => ?_
  show { (e.become .invalid).dossier with lastUse := none } = _
  rw [Entry.dossier_become]
  rfl

@[simp] theorem dossiers_markReturned (now : Instant) (id : Nat) (p : Pool ρ) :
    (p.markReturned now id).dossiers = p.dossiers.modify id .close := by
  refine dossiers_modify fun e _ => ?_
  show { (e.become .returning).dossier with lastUse := none } = _
  rw [Entry.dossier_become]
  rfl

@[simp] theorem dossiers_markLent (now : Instant) (id : Nat) (p : Pool ρ) :
    (p.markLent now id).dossiers = p.dossiers.modify id (.lend now) :=
  dossiers_modify fun e _ => (e.markBorrowed now).dossier_become .allocated

theorem dossiers_enlist (now : Instant) (r : ρ) (s : Lifecycle) (p : Pool ρ) :
    (p.enlist now r s).dossiers = p.dossiers ++ [{ Dossier.fresh now with out := s.isOut }] :=
  List.map_append

/-- An object that is taken away from its borrower keeps its dossier. -/
theorem dossiers_takeAway (h : p.isIn id .allocated = true) :
    (p.takeAway id).dossiers = p.dossiers := by
  show ((p.setState id .abandoned).emptySlot id).dossiers = _
  rw [dossiers_emptySlot, dossiers_setState h .abandoned rfl]

theorem dossiers_noteBorrower (id : Nat) (site : String) (p : Pool ρ) :
    (p.noteBorrower id site).dossiers =
      p.dossiers.modify id (.sign (p.config.evidence? site)) := by
  have hnone : p.dossiers.modify id (.sign none) = p.dossiers := List.modify_id ..
  unfold noteBorrower Config.evidence?
  cases p.config.abandonment with
  | none => exact hnone.symm
  | some a =>
    dsimp only
    split
    · exact dossiers_modify fun _ _ => rfl
    · exact hnone.symm

theorem dossiers_trackUse (now : Instant) (id : Nat) (site : String) (p : Pool ρ) :
    (p.trackUse now id site).dossiers =
      p.dossiers.modify id (.use (p.config.use? now site)) := by
  have hnone : p.dossiers.modify id (.use none) = p.dossiers := List.modify_id ..
  unfold trackUse Config.use? Config.evidence?
  cases p.config.abandonment with
  | none => exact hnone.symm
  | some a =>
    dsimp only
    split
    · exact dossiers_modify fun _ _ => rfl
    · exact hnone.symm

/-- A new dossier comes after those there are. -/
theorem getElem?_concat_of_ne {α : Type} {l : List α} {a : α} {x : Nat} (h : x ≠ l.length) :
    (l ++ [a])[x]? = l[x]? := by
  rcases Nat.lt_or_gt_of_ne h with hlt | hgt
  · exact List.getElem?_append_left hlt
  · rw [List.getElem?_eq_none_iff.mpr (Nat.le_of_lt hgt)]
    refine List.getElem?_eq_none_iff.mpr ?_
    rw [List.length_append, List.length_singleton]
    exact hgt

/-- The dossier of the object that was just made. -/
theorem modify_concat_self {α : Type} (l : List α) (a : α) (f : α → α) :
    (l ++ [a]).modify l.length f = l ++ [f a] := by
  refine List.ext_getElem? fun x => ?_
  rw [List.getElem?_modify]
  rcases Nat.lt_trichotomy x l.length with hx | rfl | hx
  · rw [List.getElem?_append_left hx, List.getElem?_append_left hx]
    simp [Nat.ne_of_gt hx]
  · simp
  · have hnone : ∀ b : α, (l ++ [b])[x]? = none := fun b =>
      List.getElem?_eq_none_iff.mpr (by simp; omega)
    rw [hnone, hnone]
    rfl

end Pool

/-! ## What a stretch writes -/

/-- What a stretch of a call at the point `pt` makes of the dossiers of its pool, which was `p`
    before. -/
inductive Stretch.Files (p : Pool ρ) (now : Instant) (pt : Point ρ) (s : Stretch ρ) : Prop
  /-- Nothing, and no object is readied for a borrower. -/
  | keeps (same : s.pool.dossiers = p.dossiers) (before : pt.lending = [])
      (next : s.next.lending = [])
  /-- Nothing, and an object that was readied is to be checked. -/
  | checks {id : Nat} {b : Borrowing} {fresh : Bool} (same : s.pool.dossiers = p.dossiers)
      (before : pt.lending = [id])
      (next : s.next = .go (.validating id (.trial (.lend b fresh))))
  /-- An object comes back or leaves circulation. If it was readied it is destroyed. -/
  | closes {id : Nat} (file : s.pool.dossiers = p.dossiers.modify id .close)
      (lost : ∀ x ∈ pt.lending, x = id ∧ x ∈ s.buried) (next : s.next.lending = [])
  /-- An object is new. -/
  | enlists (file : s.pool.dossiers = p.dossiers ++ [.fresh now]) (before : pt.lending = [])
      (next : s.next.lending = [])
  /-- An object is new and is readied for the borrower for whom it was made. -/
  | makes {b : Borrowing} (file : s.pool.dossiers = p.dossiers ++ [(Dossier.fresh now).lend now])
      (before : pt.lending = [])
      (next : s.next = .go (.activating p.entries.length (.lend b true)))
  /-- An object that was not out is readied for a borrower. -/
  | lends {id : Nat} {b : Borrowing} (file : s.pool.dossiers = p.dossiers.modify id (.lend now))
      (free : ∃ d, p.dossiers[id]? = some d ∧ d.out = false) (before : pt.lending = [])
      (next : s.next = .go (.activating id (.lend b false)))
  /-- The borrower gets the object that was readied for it. -/
  | hands {id : Nat} {site : String}
      (file : s.pool.dossiers = p.dossiers.modify id (.sign (p.config.evidence? site)))
      (before : pt.lending = [id]) (borrower : pt.site? = some site)
      (next : s.next = .finish (.lent id))

namespace Stretch.Files

variable {p : Pool ρ} {now : Instant} {pt : Point ρ} {s s' : Stretch ρ}

/-- What a stretch writes into the journal makes no difference. -/
theorem of_same (h : s.Files p now pt) (hp : s'.pool = s.pool) (hn : s'.next = s.next) :
    s'.Files p now pt := by
  have hb : s'.buried = s.buried := by
    unfold Stretch.buried
    rw [hn]
  cases h with
  | keeps same before next => exact .keeps (hp ▸ same) before (hn ▸ next)
  | checks same before next => exact .checks (hp ▸ same) before (hn ▸ next)
  | closes file lost next => exact .closes (hp ▸ file) (hb ▸ lost) (hn ▸ next)
  | enlists file before next => exact .enlists (hp ▸ file) before (hn ▸ next)
  | makes file before next => exact .makes (hp ▸ file) before (hn ▸ next)
  | lends file free before next => exact .lends (hp ▸ file) free before (hn ▸ next)
  | hands file before site next => exact .hands (hp ▸ file) before site (hn ▸ next)

theorem noting (h : s.Files p now pt) (n : Notice) : (s.noting n).Files p now pt :=
  h.of_same rfl rfl

end Stretch.Files

namespace Pool

variable {p q : Pool ρ} {now : Instant} {pt : Point ρ} {id : Nat} {k : After ρ} {b : Borrowing}
  {fresh : Bool}

/-! ### The end of an object -/

theorem close_congr (same : q.dossiers = p.dossiers) :
    q.dossiers.modify id .close = p.dossiers.modify id .close := by
  rw [same]

theorem files_resume (same : q.dossiers = p.dossiers) (before : pt.lending = [])
    (hk : ∀ x, .lent x ∉ k.promises) : (q.resume k).Files p now pt := by
  refine .keeps ?_ before (List.eq_nil_iff_forall_not_mem.mpr fun x hx => ?_)
  · rw [resume_pool]
    exact same
  · exact hk x (q.resume_lending k hx)

theorem files_dispose (file : (q.dossiers).modify id .close = p.dossiers.modify id .close)
    (before : pt.lending = []) (hk : ∀ x, .lent x ∉ k.promises) (v : Option ρ)
    (mode : DestroyMode) : (q.dispose id v mode k).Files p now pt := by
  have hclosed : (q.dispose id v mode k).pool.dossiers = p.dossiers.modify id .close := by
    rw [dispose_pool, dossiers_retire]
    exact file
  refine .closes hclosed (fun x hx => ?_) (List.eq_nil_iff_forall_not_mem.mpr fun x hx => ?_)
  · rw [before] at hx
    exact nomatch hx
  · exact hk x (q.dispose_lending hx)

theorem files_finishDestroy (file : q.dossiers.modify id .close = p.dossiers.modify id .close)
    (before : pt.lending = []) (hk : ∀ x, .lent x ∉ k.promises) :
    (q.finishDestroy id k).Files p now pt :=
  files_dispose (q := q.emptySlot id) (by rw [dossiers_emptySlot]; exact file) before hk _ _

theorem files_destroy (file : q.dossiers.modify id .close = p.dossiers.modify id .close)
    (before : pt.lending = []) (hk : ∀ x, .lent x ∉ k.promises) :
    (q.destroy id k).Files p now pt :=
  files_finishDestroy (q := q.detach id) file before hk

/-- An object that a call has readied for a borrower is destroyed instead. -/
theorem files_refuse {v : ρ} (same : q.dossiers = p.dossiers) (before : pt.lending = [id])
    (hslot : q.slot? id = some v) (b : Borrowing) (fresh : Bool) (e : PoolError) :
    (q.refuse id b fresh e).Files p now pt := by
  have hpool : (q.refuse id b fresh e).pool.dossiers = p.dossiers.modify id .close := by
    have hdestroy : ∀ k : After ρ,
        (q.destroy id k).pool.dossiers = p.dossiers.modify id .close := by
      intro k
      show (((q.detach id).emptySlot id).dispose id _ _ k).pool.dossiers = _
      rw [dispose_pool, dossiers_retire, dossiers_emptySlot, dossiers_detach, same]
    cases fresh <;> exact hdestroy _
  refine .closes hpool (fun x hx => ?_) (q.refuse_lending id b fresh e)
  rw [before] at hx
  obtain rfl := List.mem_singleton.mp hx
  refine ⟨rfl, ?_⟩
  have hslot' : (q.detach x).slot? x = some v := hslot
  -- the resource is there, so that the factory gets it
  cases fresh with
  | true =>
    show x ∈ Stretch.buried ((q.detach x).finishDestroy x _)
    unfold finishDestroy
    rw [hslot']
    exact List.mem_singleton.mpr rfl
  | false =>
    show x ∈ Stretch.buried ((q.detach x).finishDestroy x _)
    unfold finishDestroy
    rw [hslot']
    exact List.mem_singleton.mpr rfl

/-! ### Taking objects away -/

/-- The pass over the lent objects leaves their dossiers as they are. -/
theorem dossiers_reclaimFrom (now : Instant) (timeout : Duration) (ids : List Nat) (p : Pool ρ) :
    (p.reclaimFrom now timeout ids).1.dossiers = p.dossiers := by
  induction ids generalizing p with
  | nil => rfl
  | cons id rest ih =>
    rw [reclaimFrom]
    split
    · rename_i hdue
      exact (ih (p.takeAway id)).trans (dossiers_takeAway (Bool.and_eq_true_iff.mp hdue).2)
    · exact ih p

theorem files_sweep (a : Abandonment) (k : Sweeper) (before : pt.lending = []) :
    (p.sweep now a k).Files p now pt :=
  .keeps (dossiers_reclaimFrom now a.timeout p.registry.active p) before rfl

theorem files_borrow : (p.borrow now b).Files p now (.borrow b) := by
  unfold borrow
  split
  · split
    · exact files_sweep _ _ rfl
    · exact .keeps rfl rfl rfl
  · exact .keeps rfl rfl rfl

theorem files_swept (n : Nat) (k : Sweeper) :
    (p.swept now n k).Files p now (.reclaiming [] n k) := by
  refine .keeps ?_ rfl ?_
  · unfold swept
    rw [Stretch.notingIf_pool]
    cases k <;> rfl
  · unfold swept
    rw [Stretch.notingIf_next]
    cases k <;> rfl

theorem files_disposeReclaimed (x : Reclaimed ρ) (rest : List (Reclaimed ρ)) (n : Nat)
    (k : Sweeper) (before : pt.lending = []) :
    (p.disposeReclaimed x rest n k).Files p now pt :=
  files_dispose (p := p) (q := p.count fun c => { c with abandoned := c.abandoned + 1 })
    (k := .reclaim rest n k) rfl before (fun _ hx => nomatch hx) _ _

theorem files_reclaimNext (x : Reclaimed ρ) (rest : List (Reclaimed ρ)) (n : Nat) (k : Sweeper) :
    (p.reclaimNext x rest n k).Files p now (.reclaiming (x :: rest) n k) := by
  have hdispose : (p.disposeReclaimed x rest n k).Files p now (.reclaiming (x :: rest) n k) :=
    files_disposeReclaimed x rest n k rfl
  unfold reclaimNext
  split
  · split
    · split
      · exact hdispose.noting _
      · exact .keeps rfl rfl rfl
    · exact hdispose
  · exact hdispose

/-! ### Lending -/

theorem dossiers_leaveLine (p : Pool ρ) (ticket : Option Nat) :
    (p.leaveLine ticket).dossiers = p.dossiers := by
  cases ticket <;> rfl

/-- A borrower gets nothing. -/
theorem files_vain (before : pt.lending = []) (b : Borrowing) (ticket : Option Nat) :
    Stretch.Files p now pt
      (if p.givesUp now b then p.exhaust b ticket else p.standInLine b ticket) := by
  split
  · refine .keeps ?_ before rfl
    show (if p.outOfLine ticket then (p.leaveLine ticket).book Registry.wakeIfAvailable else
      p.leaveLine ticket).dossiers = _
    split <;> exact p.dossiers_leaveLine ticket
  · cases ticket with
    | none => exact .keeps rfl before rfl
    | some t =>
      refine .keeps ?_ before rfl
      show (if p.registry.line.isWoken t then p.book fun r => { r with line := r.line.reenter t }
        else p).dossiers = _
      split <;> rfl

/-- A borrower that looks for an object picks an idle one, or gets none yet. -/
theorem Sound.files_seek {ℓ : Ledger ρ} (h : p.Sound ℓ) (now : Instant) (b : Borrowing)
    (ticket : Option Nat) (before : pt.lending = []) :
    (p.seek now b ticket).Files p now pt := by
  unfold Pool.seek
  split
  · exact .keeps (p.dossiers_leaveLine ticket) before rfl
  · by_cases hmay : p.mayTake ticket = true
    · rw [if_pos hmay, h.acquire_eq now]
      cases hi : p.registry.idle with
      | cons id rest =>
        -- the object is idle, so that it is not out, and its resource is there
        obtain ⟨v, hf⟩ := h.lendIdle hi now
        obtain ⟨r, hv⟩ := h.idle_position (hi ▸ List.mem_cons_self ..)
        have hslot : ((((p.book (Registry.lend id rest)).markLent now id).leaveLine ticket).book
            Registry.wakeIfAvailable).slot? id = some v := by
          have hlent : ((p.book (Registry.lend id rest)).markLent now id).slot? id = some v :=
            hf.slot?
          cases ticket <;> exact hlent
        have hshape : p.shape? id = some ⟨.idle, some r, false⟩ := congrArg Position.shape hv
        obtain ⟨e, he, hshape⟩ := Option.map_eq_some_iff.mp hshape
        have hidle : e.state = .idle := congrArg Shape.state hshape
        dsimp only
        unfold activate
        rw [hslot]
        refine .lends ?_ ⟨e.dossier, ?_, ?_⟩ before rfl
        · show (Pool.hold id _).dossiers = _
          rw [dossiers_hold, dossiers_book, dossiers_leaveLine, dossiers_markLent, dossiers_book]
        · rw [getElem?_dossiers, he]
          rfl
        · show e.state.isOut = false
          rw [hidle]
          rfl
      | nil =>
        dsimp only
        by_cases hr : p.registry.hasRoom = true
        · rw [if_pos hr]
          refine .keeps ?_ before rfl
          show (Pool.book _ _).dossiers = _
          rw [dossiers_book, dossiers_leaveLine, dossiers_book]
        · rw [if_neg hr]
          exact files_vain before b ticket
    · rw [if_neg hmay]
      exact files_vain before b ticket

theorem files_handOut (same : q.dossiers = p.dossiers) (hc : q.config = p.config)
    (before : pt.lending = [id]) (site : pt.site? = some b.site) :
    (q.handOut id b).Files p now pt := by
  refine .hands ?_ before site rfl
  show (q.noteBorrower id b.site).dossiers = _
  rw [dossiers_noteBorrower, same, hc]

theorem files_activatedForLoan {y : Entry ρ} (hy : p.object? id = some y) (v : ρ)
    (refusal : Option String) :
    (p.activatedForLoan id b fresh v refusal).Files p now (.activating id (.lend b fresh)) := by
  have hslot : (p.letGo id v).slot? id = some v := by
    unfold slot? letGo
    rw [object?_modify, if_pos rfl, hy]
    rfl
  unfold activatedForLoan
  cases refusal with
  | some reason => exact files_refuse (dossiers_letGo ..) rfl hslot b fresh _
  | none =>
    dsimp only
    split
    · exact .checks (dossiers_modify_same fun _ _ => rfl) rfl rfl
    · exact files_handOut (dossiers_letGo ..) rfl rfl rfl

theorem files_validatedForLoan {v : ρ} (hslot : p.slot? id = some v) (fit : Bool) :
    (p.validatedForLoan id b fresh fit).Files p now (.validating id (.trial (.lend b fresh))) := by
  have hslot' : (p.release id).slot? id = some v :=
    slot?_modify_self (f := fun e => { e with held := false }) (fun _ => rfl) hslot
  unfold validatedForLoan
  cases fit with
  | true => exact files_handOut (dossiers_release ..) rfl rfl rfl
  | false =>
    exact files_refuse (q := (p.release id).count _) (dossiers_release ..) rfl hslot' b fresh _

theorem files_createdForLoan (b : Borrowing) (v : ρ) (before : pt.lending = []) :
    (p.createdForLoan now b v).Files p now pt := by
  have hslot := (p.count fun c => { c with created := c.created + 1 }).slot?_enlist_self now v
    .allocated
  have hnew := (p.count fun c => { c with created := c.created + 1 }).dossiers_enlist now v
    .allocated
  rw [count_entries] at hslot
  rw [dossiers_count] at hnew
  unfold createdForLoan
  dsimp only
  generalize hq : (p.count fun c => { c with created := c.created + 1 }).enlist now v .allocated = q
    at hslot hnew ⊢
  split
  · -- the pool was closed while the factory made the object
    refine .enlists ?_ before (List.eq_nil_iff_forall_not_mem.mpr fun x hx => ?_)
    · show (((q.book Registry.cancelReservation).emptySlot _).dispose _ _ _ _).pool.dossiers = _
      rw [dispose_pool, dossiers_retire, dossiers_emptySlot, dossiers_book, hnew,
        ← p.length_dossiers, modify_concat_self]
      rfl
    · have hmem : Reply.lent x ∈ [Reply.failed .closed] :=
        dispose_lending (k := .reply (.failed .closed)) _ hx
      cases List.mem_singleton.mp hmem
  · have hmarked : ((q.book (Registry.registerActive p.entries.length)).modify p.entries.length
        (Entry.markBorrowed now)).slot? p.entries.length = some v :=
      slot?_modify_self (f := Entry.markBorrowed now) (fun _ => rfl) hslot
    -- the new object is out from the start, and its borrow is stamped and counted
    have hfile : ((q.book (Registry.registerActive p.entries.length)).modify p.entries.length
        (Entry.markBorrowed now)).dossiers = p.dossiers ++ [(Dossier.fresh now).lend now] := by
      rw [dossiers_modify (v := fun d => { d.lend now with out := d.out }) fun _ _ => rfl,
        dossiers_book, hnew, ← p.length_dossiers, modify_concat_self]
      rfl
    unfold activate
    rw [hmarked]
    exact .makes ((dossiers_hold ..).trans hfile) before rfl

/-! ### Making idle objects -/

theorem files_add : p.add.Files p now .add := by
  unfold add
  split
  · exact .keeps rfl rfl rfl
  · split <;> exact .keeps rfl rfl rfl

theorem files_prepare : p.prepare.Files p now .prepare := by
  unfold prepare
  split <;> exact .keeps rfl rfl rfl

theorem files_fill (f : Filler) (made : Nat) : (p.fill f made).Files p now (.filling f made) := by
  unfold fill
  split
  · refine .keeps ?_ rfl (p.filled_lending f made)
    rw [filled_pool]
  · exact .keeps rfl rfl rfl

theorem files_settle (same : q.dossiers = p.dossiers) (before : pt.lending = []) (k : Stocker)
    (fault : Option PoolError) : (q.settle id k fault).Files p now pt := by
  unfold settle
  dsimp only
  split
  · cases k <;> exact .keeps same before rfl
  · exact files_finishDestroy (q := q.book Registry.cancelReservation)
      (close_congr same) before fun _ hx => nomatch hx

theorem files_createdForStock (k : Stocker) (v : ρ) (before : pt.lending = []) :
    (p.createdForStock now k v).Files p now pt := by
  have hnew := (p.count fun c => { c with created := c.created + 1 }).dossiers_enlist now v .idle
  rw [createdForStock_eq]
  dsimp only
  split <;> exact .enlists ((dossiers_hold ..).trans hnew) before rfl

theorem files_notCreated (m : Maker) (reason : String) :
    (p.notCreated m reason).Files p now (.creating m) := by
  cases m with
  | lend b => exact .keeps rfl rfl rfl
  | stock k =>
    refine .keeps ?_ rfl (notStocked_lending _ k _)
    show (Pool.notStocked _ k _).pool.dossiers = _
    rw [notStocked_pool]
    rfl

/-! ### Taking objects back -/

theorem not_promised {answer : Option Reply} (hp : ∀ x, .lent x ∉ answer.toList) {r : Reply}
    (hr : r.isLoan = false) (x : Nat) :
    .lent x ∉ (After.reply (ρ := ρ) (answer.getD r)).promises := by
  intro hx
  have heq : Reply.lent x = answer.getD r := List.mem_singleton.mp hx
  cases answer with
  | none =>
    obtain rfl : Reply.lent x = r := heq
    exact nomatch hr
  | some a => exact hp x (List.mem_singleton.mpr heq)

theorem files_refuseReturn {answer : Option Reply} (hp : ∀ x, .lent x ∉ answer.toList)
    (before : pt.lending = []) :
    (p.refuseReturn (answer.getD (.failed .invalidReturn))).Files p now pt :=
  .keeps rfl before (List.eq_nil_iff_forall_not_mem.mpr fun x hx =>
    hp x (refused_answer answer p (r := .failed .invalidReturn) rfl hx))

theorem files_passivate {answer : Option Reply} (hp : ∀ x, .lent x ∉ answer.toList)
    (before : pt.lending = []) (file : q.dossiers = p.dossiers ∨
      q.dossiers = p.dossiers.modify id .close) :
    (q.passivate id answer).Files p now pt := by
  unfold passivate
  split
  · rcases file with same | file
    · exact .keeps ((dossiers_hold ..).trans same) before rfl
    · exact .closes ((dossiers_hold ..).trans file) (by simp [before]) rfl
  · refine files_destroy ?_ before (not_promised hp rfl)
    rcases file with same | file
    · rw [same]
    · rw [file, List.modify_modify_eq]
      rfl

theorem files_unfitReturn {answer : Option Reply} (hp : ∀ x, .lent x ∉ answer.toList)
    (before : pt.lending = [])
    (file : q.dossiers.modify id .close = p.dossiers.modify id .close) :
    (q.unfitReturn id answer).Files p now pt :=
  (files_destroy (q := q.count _) file before (not_promised hp rfl)).noting _

theorem files_takeBack {answer : Option Reply} (hp : ∀ x, .lent x ∉ answer.toList) :
    (p.takeBack now id answer).Files p now (.takeBack id answer) := by
  have hmark := p.dossiers_markReturned now id
  have hclosed :
      (p.markReturned now id).dossiers.modify id .close = p.dossiers.modify id .close := by
    rw [hmark, List.modify_modify_eq]
    rfl
  unfold takeBack
  dsimp only
  split
  · exact (files_refuseReturn hp rfl).noting _
  · split
    · exact (files_refuseReturn hp rfl).noting _
    · split
      · exact files_destroy hclosed rfl (not_promised hp rfl)
      · split
        · split
          · exact .closes ((dossiers_hold ..).trans hmark) (fun _ hx => nomatch hx) rfl
          · exact files_unfitReturn hp rfl hclosed
        · exact files_passivate hp rfl (.inr hmark)

theorem files_validatedReturn {answer : Option Reply} (hp : ∀ x, .lent x ∉ answer.toList)
    (fit : Bool) :
    (p.validatedReturn id answer fit).Files p now (.validating id (.takeBack answer)) := by
  cases fit with
  | true => exact files_passivate (q := p.release id) hp rfl (.inl (dossiers_release ..))
  | false =>
    exact files_unfitReturn (q := p.release id) hp rfl
      (close_congr (dossiers_release ..))

theorem files_shelve {answer : Option Reply} (hp : ∀ x, .lent x ∉ answer.toList)
    (same : q.dossiers = p.dossiers) (before : pt.lending = []) :
    (q.shelve id answer).Files p now pt := by
  refine .keeps ?_ before (List.eq_nil_iff_forall_not_mem.mpr fun x hx =>
    hp x (refused_answer answer p (r := .done) rfl hx))
  show (if q.isIn id .returning then q.setState id .idle else q).dossiers = _
  split
  · rename_i hin
    exact (dossiers_setState hin .idle rfl).trans same
  · exact same

theorem files_passivatedReturn {answer : Option Reply} (hp : ∀ x, .lent x ∉ answer.toList) (v : ρ)
    (refusal : Option String) :
    (p.passivatedReturn id answer v refusal).Files p now (.passivating id (.takeBack answer)) := by
  have same : (p.letGo id v).dossiers = p.dossiers := dossiers_letGo ..
  have hdestroy : ∀ r : Reply, r.isLoan = false →
      ((p.letGo id v).destroy id (.reply (answer.getD r))).Files p now
        (.passivating id (.takeBack answer)) := fun r hr =>
    files_destroy (close_congr same) rfl (not_promised hp hr)
  unfold passivatedReturn
  dsimp only
  split
  · exact (hdestroy _ rfl).noting _
  · split
    · exact hdestroy _ rfl
    · split
      · exact (hdestroy _ rfl).noting _
      · exact files_shelve hp same rfl

theorem files_discard : (p.discard id).Files p now (.discard id) := by
  unfold discard
  split
  · exact .keeps rfl rfl rfl
  · split
    · refine files_destroy ?_ rfl fun x hx => ?_
      · have hset : (p.setState id .invalid).dossiers =
            p.dossiers.modify id fun d => { d with out := false } :=
          dossiers_modify fun e _ => e.dossier_become .invalid
        rw [hset, List.modify_modify_eq]
        rfl
      · have heq : Reply.lent x = if p.closed then .failed .closed else .done :=
          List.mem_singleton.mp hx
        split at heq <;> exact nomatch heq
    · exact .keeps rfl rfl rfl

/-! ### Upkeep -/

/-- The idle sweep changes no dossier: the objects that it looks at are not out. -/
theorem dossiers_sortIdle (now : Instant) (ids : List Nat) (p : Pool ρ) (left : Nat) :
    (p.sortIdle now left ids).pool.dossiers = p.dossiers := by
  induction ids generalizing p left with
  | nil => rfl
  | cons id rest ih =>
    rw [sortIdle]
    split
    · exact ih p left
    · rename_i e he
      split
      · exact ih p left
      · rename_i hlook
        have hidle : p.isIn id .idle = true := by
          unfold isIn
          rw [he]
          exact Bool.eq_true_of_not_eq_false fun hne => hlook (.inr hne)
        have htest : (p.setState id .evictionTest).dossiers = p.dossiers :=
          dossiers_setState hidle .evictionTest rfl
        have hmove : ∀ {s : Lifecycle}, s.isOut = false →
            ((p.setState id .evictionTest).setState id s).dossiers = p.dossiers := by
          intro s hs
          have hin : (p.setState id .evictionTest).isIn id .evictionTest = true := by
            unfold isIn setState
            rw [object?_modify, if_pos rfl, he]
            exact decide_eq_true (e.become_state .evictionTest)
          exact (dossiers_setState hin s hs.symm).trans htest
        dsimp only
        split
        · exact (ih _ _).trans (hmove rfl)
        · split
          · exact (ih _ _).trans (hmove rfl)
          · exact (ih _ _).trans (hmove rfl)

theorem files_upkeep : (p.upkeep now).Files p now .upkeep := by
  unfold upkeep evict
  split
  · exact .keeps rfl rfl rfl
  · split
    · exact .keeps rfl rfl rfl
    · exact .keeps (dossiers_sortIdle ..) rfl rfl

theorem files_failTest (same : q.dossiers = p.dossiers) (before : pt.lending = [])
    (tests : List Nat) (n : Nat) : (q.failTest id tests n).Files p now pt :=
  (files_destroy (q := q.count _) (k := .evict [] tests n) (close_congr same) before
    fun _ hx => nomatch hx).noting _

theorem files_passTest (same : q.dossiers = p.dossiers) (before : pt.lending = [])
    (tests : List Nat) (n : Nat) : (q.passTest id tests n).Files p now pt := by
  unfold passTest
  split
  · rename_i hpass
    exact .keeps ((dossiers_setState hpass.2 .idle rfl).trans same) before rfl
  · exact files_destroy (close_congr same) before fun _ hx => nomatch hx

theorem files_activatedForTest (tests : List Nat) (n : Nat) (v : ρ) (refusal : Option String) :
    (p.activatedForTest id tests n v refusal).Files p now (.activating id (.test tests n)) := by
  cases refusal with
  | some reason => exact files_failTest (dossiers_letGo ..) rfl tests n
  | none => exact .keeps (dossiers_modify_same fun _ _ => rfl) rfl rfl

theorem files_validatedForTest (tests : List Nat) (n : Nat) (fit : Bool) :
    (p.validatedForTest id tests n fit).Files p now (.validating id (.trial (.test tests n))) := by
  cases fit with
  | true => exact .keeps rfl rfl rfl
  | false => exact files_failTest (dossiers_release ..) rfl tests n

theorem files_passivatedForTest (tests : List Nat) (n : Nat) (v : ρ) (refusal : Option String) :
    (p.passivatedForTest id tests n v refusal).Files p now (.passivating id (.test tests n)) := by
  cases refusal with
  | some reason => exact files_failTest (dossiers_letGo ..) rfl tests n
  | none => exact files_passTest (dossiers_letGo ..) rfl tests n

theorem files_evictNext (out tests : List Nat) (n : Nat) :
    (p.evictNext now out tests n).Files p now (.evicting out tests n) := by
  cases out with
  | cons id out =>
    exact files_finishDestroy (q := p.count _) rfl rfl fun _ hx => nomatch hx
  | nil =>
    cases tests with
    | cons id tests =>
      rw [evictNext]
      unfold activate
      split
      · exact .keeps (dossiers_hold ..) rfl rfl
      · exact files_failTest rfl rfl tests n
    | nil =>
      rw [evictNext]
      unfold evicted
      refine .of_same (s := match p.config.abandonment with
        | some a => if a.onUpkeep then p.sweep now a (.upkeep n)
          else p.go (.filling (.upkeep n 0) 0)
        | none => p.go (.filling (.upkeep n 0) 0)) ?_ (Stretch.notingIf_pool ..)
        (Stretch.notingIf_next ..)
      split
      · split
        · exact files_sweep _ _ rfl
        · exact .keeps rfl rfl rfl
      · exact .keeps rfl rfl rfl

/-! ### Closing -/

theorem files_close (self : Nat) {c : Closer} (hp : ∀ x, .lent x ∉ c.promises) :
    (p.close self c).Files p now (.close c) := by
  unfold close
  split
  · refine .keeps rfl rfl (List.eq_nil_iff_forall_not_mem.mpr fun x hx => ?_)
    have heq : c.reply = .lent x := Reply.mem_loan.mp hx
    cases c with
    | call => exact nomatch heq
    | release r => exact hp x (List.mem_singleton.mpr heq.symm)
  · dsimp only
    split
    · split <;> exact .keeps rfl rfl rfl
    · exact .keeps rfl rfl rfl

theorem files_drainNext {d : Drainer} (hp : ∀ x, .lent x ∉ d.promises) (rest : List Nat) :
    (p.drainNext rest d).Files p now (.draining rest d) := by
  cases rest with
  | cons id rest => exact files_finishDestroy rfl rfl hp
  | nil =>
    cases d with
    | clear => exact .keeps rfl rfl rfl
    | close c =>
      refine .keeps rfl rfl (List.eq_nil_iff_forall_not_mem.mpr fun x hx => ?_)
      have heq : c.reply = .lent x := Reply.mem_loan.mp hx
      cases c with
      | call => exact nomatch heq
      | release r => exact hp x (List.mem_singleton.mpr heq.symm)

/-! ### Every stretch -/

variable {ℓ : Ledger ρ} {s : Stretch ρ}

/-- What a call writes into the dossiers that goes on by itself. -/
theorem Sound.advance_files {self : Nat} {ended : Nat → Bool} (h : p.Sound ℓ)
    (hp : ∀ x, .lent x ∉ pt.promises) (hs : p.advance now self ended pt = some s) :
    s.Files p now pt := by
  cases goesOn_of_advance hs with
  | borrow b => exact files_borrow
  | seek b => exact h.files_seek now b none rfl
  | waiting b t _ => exact h.files_seek now b (some t) rfl
  | add => exact files_add
  | prepare => exact files_prepare
  | filling f made => exact files_fill f made
  | upkeep => exact files_upkeep
  | evicting out tests n => exact files_evictNext out tests n
  | swept n k => exact files_swept n k
  | reclaiming x rest n k => exact files_reclaimNext x rest n k
  | takeBack id answer => exact files_takeBack hp
  | discard id => exact files_discard
  | clear => exact .keeps rfl rfl rfl
  | close c => exact files_close self hp
  | draining rest d => exact files_drainNext hp rest
  | joining k rest c _ => exact .keeps rfl rfl rfl

/-- What a call writes that gets an answer, if it finds the object that it has readied. -/
theorem respond_files {r : Response ρ} (hp : ∀ x, .lent x ∉ pt.promises)
    (hready : ∀ id ∈ pt.lending, ∃ y v, p.object? id = some y ∧ p.slot? id = some v)
    (hs : p.respond now pt r = some s) : s.Files p now pt := by
  cases answered_of_respond hs with
  | notCreated m reason => exact files_notCreated m reason
  | createdForLoan b v => exact files_createdForLoan b v rfl
  | createdForStock k v => exact files_createdForStock k v rfl
  | activatedForLoan id b fresh v refusal =>
    obtain ⟨y, -, hy, -⟩ := hready id (List.mem_singleton.mpr rfl)
    exact files_activatedForLoan hy v refusal
  | activatedForTest id tests n v refusal => exact files_activatedForTest tests n v refusal
  | validatedForLoan id b fresh fit =>
    obtain ⟨y, v, -, hv⟩ := hready id (List.mem_singleton.mpr rfl)
    exact files_validatedForLoan hv fit
  | validatedForTest id tests n fit => exact files_validatedForTest tests n fit
  | validatedForStock id k fit =>
    cases fit with
    | true => exact .keeps rfl rfl rfl
    | false => exact files_settle (q := (p.release id).count _) (dossiers_release ..) rfl k _
  | validatedReturn id answer fit => exact files_validatedReturn hp fit
  | passivatedForTest id tests n v refusal => exact files_passivatedForTest tests n v refusal
  | passivatedForStock id k v refusal =>
    exact files_settle (q := p.letGo id v) (dossiers_letGo ..) rfl k _
  | passivatedReturn id answer v refusal => exact files_passivatedReturn hp v refusal
  | destroyed id v mode k refusal =>
    have hresume : (p.resume k).Files p now (.destroying id v mode k) := files_resume rfl rfl hp
    cases refusal with
    | some reason => exact hresume.noting _
    | none => exact hresume
  | reported report x rest n k => exact files_disposeReclaimed x rest n k rfl

end Pool

/-- What a call writes into the dossiers of its pool. -/
theorem World.Works.files {w : World ρ} {g : Nat → List Nat} {e : Event ρ} {f : Effect ρ} {t : Nat}
    {a : Activity ρ} {q : Pool ρ} {s : Stretch ρ} (h : w.Works e f t a q s) (hw : w.Sound g) :
    s.Files q w.now a.point := by
  have hsound := (hw.pools a.pool).sound q h.pool
  -- no call has promised an object, and the resource of one that is readied is there
  have hp : ∀ x, .lent x ∉ a.point.promises := by
    intro x hx
    have hloan : Reply.isLoan (.lent x) = false :=
      (h.before hw).promises _ (List.mem_flatMap.mpr ⟨_, List.mem_cons_self .., hx⟩)
    exact nomatch hloan
  rcases h.runs with ⟨-, hs⟩ | ⟨r, -, hs⟩
  · exact hsound.advance_files hp hs
  · refine Pool.respond_files hp (fun id hid => ?_) hs
    exact hsound.slot_of_charge (h.charge_mem g (Point.mem_lending.mp hid)) fun _ => nofun

end ObjectPool
