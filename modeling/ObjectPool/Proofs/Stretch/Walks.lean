/-
  ObjectPool.Proofs.Stretch.Walks

  How the objects of a pool go from state to state. The diagram of the life cycle says which
  moves there are. Each object carries the states it has been in, and a stretch of any call
  only adds to them, one move of the diagram after the other. A move to a state other than
  the last one is made only by an operation that has looked at the state before; the last one
  can be reached from every other. Only a pass over the lent objects takes an object away from
  its borrower.

    * `Lifecycle.exits`, `Lifecycle.Leads` — the diagram.
    * `Entry.trail`, `Entry.OnCourse` — the states an object has been in, and that they are a
      path of the diagram.
    * `Pool.Walks` — every object goes on along the diagram.
    * `advance_walks`, `respond_walks` — every stretch.
-/

import ObjectPool.Proofs.Stretch.Reach

namespace ObjectPool

variable {ρ : Type}

/-! ## The diagram -/

namespace Lifecycle

/-- The states that an object can go to from a state. -/
def exits : Lifecycle → List Lifecycle
  | idle => [allocated, evictionTest, invalid]
  | allocated => [returning, abandoned, invalid]
  | evictionTest => [idle, validation, invalid]
  | validation => [idle, invalid]
  | abandoned => [invalid]
  | returning => [idle, invalid]
  | invalid => []

/-- The diagram has a move from one state to the other. -/
def Leads (s s' : Lifecycle) : Prop := s' ∈ s.exits

instance : DecidableRel Leads := fun s s' => inferInstanceAs (Decidable (s' ∈ s.exits))

/-- From every state but the last an object can go out of circulation. -/
theorem leads_invalid {s : Lifecycle} (h : s ≠ .invalid) : s.Leads .invalid := by
  cases s with
  | invalid => exact absurd rfl h
  | idle | allocated | evictionTest | validation | abandoned | returning => decide

end Lifecycle

/-! ## One object -/

namespace Entry

/-- The states that an object has been in, the present one first. -/
def trail (e : Entry ρ) : List Lifecycle := e.state :: e.past

/-- The states that an object has been in are a path of the diagram, from the idle or the lent
    ones on. -/
structure OnCourse (e : Entry ρ) : Prop where
  moves : e.trail.IsChain fun s' s => s.Leads s'
  start : e.trail.getLast? = some .idle ∨ e.trail.getLast? = some .allocated

/-- An object goes on along the diagram, if it does not stay where it is; `away` says whether it may
    be taken away from its borrower. -/
structure Walks (away : Prop) (e e' : Entry ρ) : Prop where
  trail : ∃ steps, e'.trail = steps ++ e.trail ∧ (.abandoned ∈ steps → away)
  course : e.OnCourse → e'.OnCourse

variable {e e' e'' : Entry ρ} {s : Lifecycle} {away : Prop}

theorem Walks.of_eq (h : e'.trail = e.trail) : e.Walks away e' where
  trail := ⟨[], h, fun ha => nomatch ha⟩
  course := fun hc => ⟨h ▸ hc.moves, h ▸ hc.start⟩

theorem Walks.trans (h : e.Walks away e') (h' : e'.Walks away e'') : e.Walks away e'' where
  trail := by
    obtain ⟨steps, hs, ha⟩ := h.trail
    obtain ⟨steps', hs', ha'⟩ := h'.trail
    refine ⟨steps' ++ steps, by rw [hs', hs, List.append_assoc], fun hmem => ?_⟩
    exact (List.mem_append.mp hmem).elim ha' ha
  course := fun hc => h'.course (h.course hc)

theorem Walks.suffix (h : e.Walks away e') : e.trail <:+ e'.trail := by
  obtain ⟨steps, hs, -⟩ := h.trail
  exact ⟨steps, hs.symm⟩

/-- An object comes to be taken away from its borrower only where that may be. -/
theorem Walks.away_of_abandoned (h : e.Walks away e') (hs : e.state ≠ .abandoned)
    (hs' : e'.state = .abandoned) : away := by
  obtain ⟨steps, htrail, haway⟩ := h.trail
  cases steps with
  | nil => exact absurd ((List.cons.inj htrail).1.symm.trans hs') hs
  | cons x steps =>
    obtain rfl : e'.state = x := (List.cons.inj htrail).1
    exact haway (hs' ▸ List.mem_cons_self ..)

theorem trail_become (hs : e.state ≠ s) : (e.become s).trail = s :: e.trail := by
  unfold become
  rw [if_neg hs]
  rfl

/-- An object takes one step along the diagram. -/
theorem walks_become (h : e.state = s ∨ e.state.Leads s) (ha : s = .abandoned → away) :
    e.Walks away (e.become s) := by
  by_cases hs : e.state = s
  · exact .of_eq (by unfold become; rw [if_pos hs])
  · have htrail := trail_become hs
    refine ⟨⟨[s], htrail, fun hmem => ha (List.mem_singleton.mp hmem).symm⟩, fun hc => ⟨?_, ?_⟩⟩
    · rw [htrail]
      exact List.isChain_cons_cons.mpr ⟨h.resolve_left hs, hc.moves⟩
    · rw [htrail, Entry.trail, List.getLast?_cons_cons]
      exact hc.start

/-- An object can go out of circulation whatever its state. -/
theorem walks_invalid (e : Entry ρ) : e.Walks away (e.become .invalid) :=
  walks_become (Classical.or_iff_not_imp_left.mpr fun hs => Lifecycle.leads_invalid hs)
    fun ha => nomatch ha

theorem onCourse_fresh (now : Instant) (r : ρ) (hs : s = .idle ∨ s = .allocated) :
    (fresh now r s).OnCourse where
  moves := List.IsChain.singleton _
  start := hs.imp (congrArg some) (congrArg some)

end Entry

/-! ## All objects of a pool -/

/-- Every object of a pool goes on along the diagram, and a new one begins at the idle or at the
    lent ones; the objects `away` may be taken away from their borrowers. -/
structure Entry.AllWalk (away : Nat → Prop) (l l' : List (Entry ρ)) : Prop where
  old : ∀ (id : Nat) (e : Entry ρ), l[id]? = some e → ∃ e', l'[id]? = some e' ∧ e.Walks (away id) e'
  new : ∀ (id : Nat) (e' : Entry ρ), l[id]? = none → l'[id]? = some e' → e'.OnCourse

namespace Entry.AllWalk

variable {away : Nat → Prop} {l l' l'' : List (Entry ρ)}

theorem refl (l : List (Entry ρ)) : AllWalk away l l where
  old := fun _ e he => ⟨e, he, .of_eq rfl⟩
  new := fun _ _ hn he => nomatch hn.symm.trans he

theorem trans (h : AllWalk away l l') (h' : AllWalk away l' l'') : AllWalk away l l'' where
  old := fun id e he => by
    obtain ⟨e', he', hw⟩ := h.old id e he
    obtain ⟨e'', he'', hw'⟩ := h'.old id e' he'
    exact ⟨e'', he'', hw.trans hw'⟩
  new := fun id e'' hn he'' => by
    cases hl : l'[id]? with
    | none => exact h'.new id e'' hl he''
    | some e' =>
      obtain ⟨y, hy, hw⟩ := h'.old id e' hl
      obtain rfl := Option.some.inj (hy.symm.trans he'')
      exact hw.course (h.new id e' hn hl)

/-- Objects that have been in the states of a path of the diagram still have when they go on. -/
theorem onCourse (h : AllWalk away l l')
    (hl : ∀ (id : Nat) (e : Entry ρ), l[id]? = some e → e.OnCourse) (id : Nat) (e' : Entry ρ)
    (he' : l'[id]? = some e') : e'.OnCourse := by
  cases hid : l[id]? with
  | none => exact h.new id e' hid he'
  | some e =>
    obtain ⟨y, hy, hw⟩ := h.old id e hid
    obtain rfl := Option.some.inj (hy.symm.trans he')
    exact hw.course (hl id e hid)

end Entry.AllWalk

namespace Pool

/-- Every object of a pool goes on along the diagram. -/
abbrev Walks (away : Nat → Prop) (p p' : Pool ρ) : Prop :=
  Entry.AllWalk away p.entries p'.entries

theorem state_of_isIn {p : Pool ρ} {id : Nat} {s : Lifecycle} {e : Entry ρ}
    (h : p.isIn id s = true) (he : p.object? id = some e) : e.state = s := by
  unfold isIn at h
  rw [he] at h
  exact of_decide_eq_true h

variable {p₀ p q : Pool ρ} {now : Instant} {id : Nat} {k : After ρ} {away : Nat → Prop}

/-- The first idle object that is free is in the idle state. -/
theorem isIn_of_firstFree {ids rest : List Nat} (h : p.firstFree ids = some (id, rest)) :
    p.isIn id .idle = true := by
  induction ids with
  | nil => exact nomatch h
  | cons x ids ih =>
    rw [firstFree] at h
    split at h
    · rename_i hfree
      obtain ⟨rfl, rfl⟩ := Prod.mk.inj (Option.some.inj h)
      exact hfree.2
    · exact ih h

namespace Walks

theorem refl (p : Pool ρ) : p.Walks away p := Entry.AllWalk.refl p.entries

theorem trans (h : p₀.Walks away p) (h' : p.Walks away q) : p₀.Walks away q :=
  Entry.AllWalk.trans h h'

/-- Nothing happens to the objects themselves. -/
theorem of_entries (h : q.entries = p.entries) : p.Walks away q := by
  rw [Pool.Walks, h]
  exact .refl p.entries

/-- One object goes on along the diagram. -/
theorem modify (h : p₀.Walks away p) {f : Entry ρ → Entry ρ}
    (hf : ∀ e, p.object? id = some e → e.Walks (away id) (f e)) :
    p₀.Walks away (p.modify id f) := by
  have hobject : ∀ x, (p.modify id f).entries[x]? =
      if id = x then (p.entries[x]?).map f else p.entries[x]? := fun x => object?_modify id x f p
  refine h.trans ⟨fun x e he => ?_, fun x e' hn he' => ?_⟩
  · rw [hobject]
    split
    · rename_i hx
      subst hx
      exact ⟨f e, by rw [he]; rfl, hf e he⟩
    · exact ⟨e, he, .of_eq rfl⟩
  · rw [hobject, hn] at he'
    split at he' <;> exact nomatch he'

/-- A change to one object that leaves its states alone. -/
theorem touch (h : p₀.Walks away p) {f : Entry ρ → Entry ρ} (hf : ∀ e, (f e).trail = e.trail) :
    p₀.Walks away (p.modify id f) :=
  h.modify fun e _ => .of_eq (hf e)

theorem hold (h : p₀.Walks away p) (id : Nat) : p₀.Walks away (p.hold id) := h.touch fun _ => rfl

theorem release (h : p₀.Walks away p) (id : Nat) : p₀.Walks away (p.release id) :=
  h.touch fun _ => rfl

theorem letGo (h : p₀.Walks away p) (id : Nat) (r : ρ) : p₀.Walks away (p.letGo id r) :=
  h.touch fun _ => rfl

theorem emptySlot (h : p₀.Walks away p) (id : Nat) : p₀.Walks away (p.emptySlot id) :=
  h.touch fun _ => rfl

/-- Something happens to the pool besides its objects. -/
theorem beside (h : p₀.Walks away p) (he : q.entries = p.entries) : p₀.Walks away q :=
  h.trans (of_entries he)

theorem book (h : p₀.Walks away p) (f : Registry → Registry) : p₀.Walks away (p.book f) :=
  h.beside rfl

theorem count (h : p₀.Walks away p) (f : Counters → Counters) : p₀.Walks away (p.count f) :=
  h.beside rfl

/-- An object goes to a state, which the diagram allows. -/
theorem setState (h : p₀.Walks away p) {s : Lifecycle}
    (hs : ∀ e, p.object? id = some e → e.state = s ∨ e.state.Leads s)
    (ha : s = .abandoned → away id) : p₀.Walks away (p.setState id s) :=
  h.modify fun e he => Entry.walks_become (hs e he) ha

/-- An object goes from a state in which it was found to another. -/
theorem setState_of_isIn (h : p₀.Walks away p) {s : Lifecycle} (s' : Lifecycle)
    (hin : p.isIn id s = true) (hs : s.Leads s') (ha : s' ≠ .abandoned) :
    p₀.Walks away (p.setState id s') :=
  h.setState (fun e he => .inr (by rwa [state_of_isIn hin he])) fun hn => absurd hn ha

theorem invalidate (h : p₀.Walks away p) (id : Nat) : p₀.Walks away (p.setState id .invalid) :=
  h.modify fun e _ => e.walks_invalid

theorem retire (h : p₀.Walks away p) (id : Nat) : p₀.Walks away (p.retire id) :=
  ((h.invalidate id).touch (f := fun e => { e with lastUse := none }) fun _ => rfl).count _

theorem enlist (h : p₀.Walks away p) (now : Instant) (r : ρ) {s : Lifecycle}
    (hs : s = .idle ∨ s = .allocated) : p₀.Walks away (p.enlist now r s) := by
  refine h.trans ⟨fun x e he => ?_, fun x e' hn he' => ?_⟩
  · have hlt : x < p.entries.length := (List.getElem?_eq_some_iff.mp he).1
    exact ⟨e, (object?_enlist_of_lt hlt).trans he, .of_eq rfl⟩
  · -- the new object is the last
    have hle : p.entries.length ≤ x := List.getElem?_eq_none_iff.mp hn
    have hlast : (p.entries ++ [Entry.fresh now r s])[x]? = some e' := he'
    rw [List.getElem?_append_right hle] at hlast
    obtain rfl := List.mem_singleton.mp (List.mem_of_getElem? hlast)
    exact Entry.onCourse_fresh now r hs

/-! ### The end of an object -/

theorem dispose (h : p₀.Walks away p) (id : Nat) (r : Option ρ) (mode : DestroyMode) (k : After ρ) :
    p₀.Walks away (p.dispose id r mode k).pool := by
  rw [dispose_pool]
  exact h.retire id

theorem finishDestroy (h : p₀.Walks away p) (id : Nat) (k : After ρ) :
    p₀.Walks away (p.finishDestroy id k).pool :=
  (h.emptySlot id).dispose id _ _ k

theorem destroy (h : p₀.Walks away p) (id : Nat) (k : After ρ) :
    p₀.Walks away (p.destroy id k).pool :=
  (h.book (Registry.detach id)).finishDestroy id k

/-! ### Taking back from borrowers -/

theorem takeAway (h : p₀.Walks away p) (hin : p.isIn id .allocated = true) (ha : away id) :
    p₀.Walks away (p.takeAway id) := by
  have hleads : ∀ e, p.object? id = some e → e.state = .abandoned ∨ e.state.Leads .abandoned :=
    fun e he => .inr (by rw [state_of_isIn hin he]; decide)
  exact ((h.setState hleads fun _ => ha).emptySlot id).book (Registry.detach id)

theorem reclaimFrom (h : p₀.Walks away p) (now : Instant) (timeout : Duration) (ids : List Nat)
    (ha : ∀ x ∈ (p.reclaimFrom now timeout ids).2, away x.object) :
    p₀.Walks away (p.reclaimFrom now timeout ids).1 := by
  induction ids generalizing p with
  | nil => exact h
  | cons id rest ih =>
    rw [Pool.reclaimFrom] at ha ⊢
    split at ha
    · rename_i htake
      rw [if_pos htake]
      refine ih (h.takeAway (Bool.and_eq_true_iff.mp htake).2 (ha _ List.mem_cons_self)) ?_
      exact fun y hy => ha y (List.mem_cons_of_mem _ hy)
    · rename_i htake
      rw [if_neg htake]
      exact ih h ha

theorem sweep (h : p₀.Walks away p) (now : Instant) (a : Abandonment) (s : Sweeper)
    (ha : ∀ id ∈ (p.sweep now a s).next.taken, away id) : p₀.Walks away (p.sweep now a s).pool :=
  h.reclaimFrom now a.timeout p.registry.active fun _ hx => ha _ (List.mem_map_of_mem hx)

theorem disposeReclaimed (h : p₀.Walks away p) (x : Reclaimed ρ) (rest : List (Reclaimed ρ))
    (n : Nat) (s : Sweeper) : p₀.Walks away (p.disposeReclaimed x rest n s).pool :=
  (h.count _).dispose x.object _ _ _

theorem reclaimNext (h : p₀.Walks away p) (x : Reclaimed ρ) (rest : List (Reclaimed ρ)) (n : Nat)
    (s : Sweeper) : p₀.Walks away (p.reclaimNext x rest n s).pool := by
  unfold Pool.reclaimNext
  split
  · split
    · split
      · exact h.disposeReclaimed x rest n s
      · exact h
    · exact h.disposeReclaimed x rest n s
  · exact h.disposeReclaimed x rest n s

theorem swept (h : p₀.Walks away p) (now : Instant) (n : Nat) (s : Sweeper) :
    p₀.Walks away (p.swept now n s).pool := by
  unfold Pool.swept
  rw [Stretch.notingIf_pool]
  cases s <;> exact h

/-! ### Lending -/

theorem borrow (h : p₀.Walks away p) (now : Instant) (b : Borrowing)
    (ha : ∀ id ∈ (p.borrow now b).next.taken, away id) : p₀.Walks away (p.borrow now b).pool := by
  unfold Pool.borrow at ha ⊢
  split at ha
  · split at ha
    · rename_i hsweep
      rw [if_pos hsweep]
      exact h.sweep now _ _ ha
    · rename_i hsweep
      rw [if_neg hsweep]
      exact h
  · exact h

theorem leaveLine (h : p₀.Walks away p) (ticket : Option Nat) :
    p₀.Walks away (p.leaveLine ticket) := by
  cases ticket with
  | some t => exact h.beside rfl
  | none => exact h

theorem refuse (h : p₀.Walks away p) (id : Nat) (b : Borrowing) (fresh : Bool) (e : PoolError) :
    p₀.Walks away (p.refuse id b fresh e).pool := by
  cases fresh with
  | true => exact h.destroy id _
  | false => exact h.destroy id (.seek b)

theorem activate (h : p₀.Walks away p) (id : Nat) (t : Trial) {refused : Stretch ρ}
    (hr : p₀.Walks away refused.pool) : p₀.Walks away (p.activate id t refused).pool := by
  unfold Pool.activate
  split
  · exact h.hold id
  · exact hr

/-- A borrower takes an object that it has found idle. -/
theorem acquire (h : p₀.Walks away p) (now : Instant) : p₀.Walks away (p.acquire now).1 := by
  unfold Pool.acquire
  split
  · rename_i id rest hfirst
    refine (h.book (Registry.lend id rest)).modify fun e he => ?_
    have hin : e.state = .idle := state_of_isIn (isIn_of_firstFree hfirst) he
    have hstamp : e.Walks (away id) (e.markBorrowed now) := .of_eq rfl
    refine hstamp.trans (Entry.walks_become (.inr ?_) nofun)
    show e.state.Leads .allocated
    rw [hin]
    decide
  · dsimp only
    split <;> exact h.beside rfl

theorem exhaust (h : p₀.Walks away p) (b : Borrowing) (ticket : Option Nat) :
    p₀.Walks away (p.exhaust b ticket).pool := by
  show p₀.Walks away (Pool.count (fun c => { c with exhausted := c.exhausted + 1 }) _)
  refine .count ?_ _
  split
  · exact (h.leaveLine ticket).book _
  · exact h.leaveLine ticket

theorem standInLine (h : p₀.Walks away p) (b : Borrowing) (ticket : Option Nat) :
    p₀.Walks away (p.standInLine b ticket).pool := by
  cases ticket with
  | none => exact h.beside rfl
  | some t =>
    show p₀.Walks away (if p.registry.line.isWoken t then _ else p)
    split
    · exact h.beside rfl
    · exact h

theorem seek (h : p₀.Walks away p) (now : Instant) (b : Borrowing) (ticket : Option Nat) :
    p₀.Walks away (p.seek now b ticket).pool := by
  have hvain : ∀ q : Pool ρ, p₀.Walks away q →
      p₀.Walks away (if q.givesUp now b then q.exhaust b ticket
        else q.standInLine b ticket).pool := by
    intro q hq
    split
    · exact hq.exhaust b ticket
    · exact hq.standInLine b ticket
  unfold Pool.seek
  split
  · exact h.leaveLine ticket
  · by_cases hm : p.mayTake ticket = true
    · rw [if_pos hm]
      have hq := h.acquire now
      generalize p.acquire now = g at hq
      obtain ⟨q, g⟩ := g
      have hwake : p₀.Walks away ((q.leaveLine ticket).book Registry.wakeIfAvailable) :=
        (hq.leaveLine ticket).book _
      cases g with
      | none => exact hvain q hq
      | some g =>
        cases g with
        | room => exact hwake
        | idle id => exact hwake.activate id _ (hwake.refuse id b false _)
    · rw [if_neg hm]
      exact hvain p h

theorem handOut (h : p₀.Walks away p) (id : Nat) (b : Borrowing) :
    p₀.Walks away (p.handOut id b).pool := by
  show p₀.Walks away (Pool.count (fun c => { c with borrowed := c.borrowed + 1 }) _)
  refine .count ?_ _
  unfold noteBorrower
  split
  · split
    · exact h.touch fun _ => rfl
    · exact h
  · exact h

theorem activatedForLoan (h : p₀.Walks away p) (id : Nat) (b : Borrowing) (fresh : Bool) (v : ρ)
    (refusal : Option String) : p₀.Walks away (p.activatedForLoan id b fresh v refusal).pool := by
  unfold Pool.activatedForLoan
  split
  · exact (h.letGo id v).refuse id b fresh _
  · split
    · exact h.touch fun _ => rfl
    · exact (h.letGo id v).handOut id b

theorem validatedForLoan (h : p₀.Walks away p) (id : Nat) (b : Borrowing) (fresh fit : Bool) :
    p₀.Walks away (p.validatedForLoan id b fresh fit).pool := by
  cases fit with
  | true => exact (h.release id).handOut id b
  | false => exact ((h.release id).count _).refuse id b fresh _

theorem createdForLoan (h : p₀.Walks away p) (now : Instant) (b : Borrowing) (v : ρ) :
    p₀.Walks away (p.createdForLoan now b v).pool := by
  have hnew := (h.count fun c => { c with created := c.created + 1 }).enlist now v
    (s := .allocated) (.inr rfl)
  unfold Pool.createdForLoan
  dsimp only
  split
  · exact (hnew.book _).finishDestroy _ _
  · have hmark : p₀.Walks away (Pool.modify p.entries.length (Entry.markBorrowed now) _) :=
      (hnew.book (Registry.registerActive p.entries.length)).touch fun _ => rfl
    exact hmark.activate _ _ (hmark.refuse _ b true _)

/-! ### Making idle objects -/

theorem settle (h : p₀.Walks away p) (id : Nat) (s : Stocker) (fault : Option PoolError) :
    p₀.Walks away (p.settle id s fault).pool := by
  unfold Pool.settle
  dsimp only
  split
  · cases s <;> exact h.book _
  · exact (h.book _).finishDestroy id _

theorem createdForStock (h : p₀.Walks away p) (now : Instant) (s : Stocker) (v : ρ) :
    p₀.Walks away (p.createdForStock now s v).pool := by
  have hnew := (h.count fun c => { c with created := c.created + 1 }).enlist now v
    (s := .idle) (.inl rfl)
  rw [Pool.createdForStock_eq]
  dsimp only
  split <;> exact hnew.hold _

theorem notCreated (h : p₀.Walks away p) (m : Maker) (reason : String) :
    p₀.Walks away (p.notCreated m reason).pool := by
  cases m with
  | lend b => exact h.book _
  | stock s =>
    show p₀.Walks away (Pool.notStocked _ s _).pool
    rw [notStocked_pool]
    exact h.book _

theorem fill (h : p₀.Walks away p) (f : Filler) (made : Nat) :
    p₀.Walks away (p.fill f made).pool := by
  unfold Pool.fill
  split
  · rwa [filled_pool]
  · exact h.book _

theorem add (h : p₀.Walks away p) : p₀.Walks away p.add.pool := by
  unfold Pool.add
  split
  · exact h
  · split
    · exact h
    · exact h.book _

/-! ### Taking objects back -/

theorem passivate (h : p₀.Walks away p) (id : Nat) (answer : Option Reply) :
    p₀.Walks away (p.passivate id answer).pool := by
  unfold Pool.passivate
  split
  · exact h.hold id
  · exact h.destroy id _

theorem unfitReturn (h : p₀.Walks away p) (id : Nat) (answer : Option Reply) :
    p₀.Walks away (p.unfitReturn id answer).pool :=
  (h.count _).destroy id _

/-- An object that was found lent is on its way back. -/
theorem markReturned (h : p₀.Walks away p) (now : Instant) (hin : p.isIn id .allocated = true) :
    p₀.Walks away (p.markReturned now id) := by
  refine .count (.modify h fun e he => ?_) _
  have hstate := state_of_isIn hin he
  exact (Entry.walks_become (.inr (by rw [hstate]; decide)) nofun).trans (.of_eq rfl)

theorem takeBack (h : p₀.Walks away p) (now : Instant) (id : Nat) (answer : Option Reply) :
    p₀.Walks away (p.takeBack now id answer).pool := by
  have hrefused : p₀.Walks away (p.refuseReturn (answer.getD (.failed .invalidReturn))).pool :=
    h.beside rfl
  unfold Pool.takeBack
  dsimp only
  split
  · exact hrefused
  · split
    · exact hrefused
    · rename_i hin
      have hmark := h.markReturned now ((Bool.not_eq_false _).mp hin)
      split
      · exact hmark.destroy id _
      · split
        · split
          · exact hmark.hold id
          · exact hmark.unfitReturn id answer
        · exact hmark.passivate id answer

theorem validatedReturn (h : p₀.Walks away p) (id : Nat) (answer : Option Reply) (fit : Bool) :
    p₀.Walks away (p.validatedReturn id answer fit).pool := by
  cases fit with
  | true => exact (h.release id).passivate id answer
  | false => exact (h.release id).unfitReturn id answer

theorem shelve (h : p₀.Walks away p) (id : Nat) (answer : Option Reply) :
    p₀.Walks away (p.shelve id answer).pool := by
  show p₀.Walks away (Pool.book (Registry.checkin id) _)
  split
  · rename_i hin
    exact (h.setState_of_isIn .idle hin (by decide) (by decide)).book _
  · exact h.book _

theorem passivatedReturn (h : p₀.Walks away p) (id : Nat) (answer : Option Reply) (v : ρ)
    (refusal : Option String) : p₀.Walks away (p.passivatedReturn id answer v refusal).pool := by
  have hgo := h.letGo id v
  unfold Pool.passivatedReturn
  dsimp only
  split
  · exact hgo.destroy id _
  · split
    · exact hgo.destroy id _
    · split
      · exact hgo.destroy id _
      · exact hgo.shelve id answer

theorem discard (h : p₀.Walks away p) (id : Nat) : p₀.Walks away (p.discard id).pool := by
  have hrefused : p₀.Walks away (p.refuseReturn (.failed .invalidReturn)).pool := h.beside rfl
  unfold Pool.discard
  split
  · exact hrefused
  · split
    · exact (h.invalidate id).destroy id _
    · exact hrefused

/-! ### Upkeep -/

/-- The sweep over the idle objects takes each that it finds idle through its test. -/
theorem sortIdle (h : p₀.Walks away p) (now : Instant) (left : Nat) (ids : List Nat) :
    p₀.Walks away (p.sortIdle now left ids).pool := by
  induction ids generalizing p left with
  | nil => exact h
  | cons id rest ih =>
    rw [Pool.sortIdle]
    cases he : p.object? id with
    | none => exact ih h left
    | some e =>
      dsimp only
      split
      · exact ih h left
      · rename_i hfree
        have hin : p.isIn id .idle = true := by
          unfold Pool.isIn
          rw [he]
          exact (Bool.not_eq_false _).mp fun hn => hfree (.inr hn)
        have hlook := h.setState_of_isIn .evictionTest hin (by decide) (by decide)
        have htest : (p.setState id .evictionTest).isIn id .evictionTest = true := by
          unfold Pool.isIn Pool.setState
          rw [object?_modify, if_pos rfl, he]
          exact decide_eq_true (Entry.become_state ..)
        split
        · exact ih ((hlook.invalidate id).book (Registry.detach id)) _
        · split
          · exact ih
              ((hlook.setState_of_isIn .validation htest (by decide) (by decide)).book _) left
          · exact ih (hlook.setState_of_isIn .idle htest (by decide) (by decide)) left

theorem upkeep (h : p₀.Walks away p) (now : Instant) : p₀.Walks away (p.upkeep now).pool := by
  unfold Pool.upkeep Pool.evict
  split
  · exact h
  · split
    · exact h
    · exact h.sortIdle now _ _

theorem failTest (h : p₀.Walks away p) (id : Nat) (tests : List Nat) (n : Nat) :
    p₀.Walks away (p.failTest id tests n).pool :=
  (h.count _).destroy id _

theorem passTest (h : p₀.Walks away p) (id : Nat) (tests : List Nat) (n : Nat) :
    p₀.Walks away (p.passTest id tests n).pool := by
  unfold Pool.passTest
  split
  · rename_i hpass
    exact (h.setState_of_isIn .idle hpass.2 (by decide) (by decide)).book _
  · exact h.destroy id _

theorem activatedForTest (h : p₀.Walks away p) (id : Nat) (tests : List Nat) (n : Nat) (v : ρ)
    (refusal : Option String) : p₀.Walks away (p.activatedForTest id tests n v refusal).pool := by
  cases refusal with
  | some reason => exact (h.letGo id v).failTest id tests n
  | none => exact h.touch fun _ => rfl

theorem validatedForTest (h : p₀.Walks away p) (id : Nat) (tests : List Nat) (n : Nat)
    (fit : Bool) : p₀.Walks away (p.validatedForTest id tests n fit).pool := by
  cases fit with
  | true => exact h
  | false => exact (h.release id).failTest id tests n

theorem passivatedForTest (h : p₀.Walks away p) (id : Nat) (tests : List Nat) (n : Nat) (v : ρ)
    (refusal : Option String) : p₀.Walks away (p.passivatedForTest id tests n v refusal).pool := by
  cases refusal with
  | some reason => exact (h.letGo id v).failTest id tests n
  | none => exact (h.letGo id v).passTest id tests n

theorem evictNext (h : p₀.Walks away p) (now : Instant) (out tests : List Nat) (n : Nat)
    (ha : out = [] → tests = [] → ∀ id ∈ (p.evictNext now out tests n).next.taken, away id) :
    p₀.Walks away (p.evictNext now out tests n).pool := by
  unfold Pool.evictNext at ha ⊢
  split
  · exact (h.count _).finishDestroy _ _
  · exact h.activate _ _ (h.failTest _ _ n)
  · unfold Pool.evicted at ha ⊢
    dsimp only at ha ⊢
    rw [Stretch.notingIf_next] at ha
    rw [Stretch.notingIf_pool]
    split
    · rename_i a hset
      split
      · rename_i hsweep
        rw [hset] at ha
        dsimp only at ha
        rw [if_pos hsweep] at ha
        exact h.sweep now a _ (ha rfl rfl)
      · exact h
    · exact h

/-! ### Closing -/

theorem close (h : p₀.Walks away p) (self : Nat) (c : Closer) :
    p₀.Walks away (p.close self c).pool := by
  unfold Pool.close
  split
  · exact h
  · have hshut : p₀.Walks away { (p.book fun r => r.close.drainIdle) with keeper := none } :=
      h.trans (of_entries rfl)
    dsimp only
    split
    · split <;> exact hshut
    · exact hshut

theorem drainNext (h : p₀.Walks away p) (rest : List Nat) (d : Drainer) :
    p₀.Walks away (p.drainNext rest d).pool := by
  cases rest with
  | cons id rest => exact h.finishDestroy id _
  | nil => cases d <;> exact h

end Walks

/-! ## Every stretch -/

/-- A call that goes on takes away only the objects that its pass over the lent ones takes. -/
theorem advance_walks {pt : Point ρ} {s : Stretch ρ} {self : Nat} {ended : Nat → Bool}
    (hs : p.advance now self ended pt = some s) :
    p.Walks (fun id => id ∈ pt.takes s.next) s.pool := by
  have h : p.Walks (fun id => id ∈ pt.takes s.next) p := .refl p
  cases goesOn_of_advance hs with
  | borrow b => exact h.borrow now b fun _ hid => hid
  | seek b => exact h.seek now b none
  | waiting b t _ => exact h.seek now b (some t)
  | add => exact h.add
  | prepare => unfold Pool.prepare; split <;> exact h
  | filling f made => exact h.fill f made
  | upkeep => exact h.upkeep now
  | evicting out tests n =>
    refine h.evictNext now out tests n fun hout htests id hid => ?_
    subst hout htests
    exact hid
  | swept n w => exact h.swept now n w
  | reclaiming x rest n w => exact h.reclaimNext x rest n w
  | takeBack id answer => exact h.takeBack now id answer
  | discard id => exact h.discard id
  | clear => exact h.book _
  | close c => exact h.close self c
  | draining rest d => exact h.drainNext rest d
  | joining k rest c _ => exact h

/-- An answer of the factory takes nothing away. -/
theorem respond_walks {pt : Point ρ} {s : Stretch ρ} {c : Response ρ}
    (hs : p.respond now pt c = some s) : p.Walks (fun id => id ∈ pt.takes s.next) s.pool := by
  have h : p.Walks (fun id => id ∈ pt.takes s.next) p := .refl p
  cases answered_of_respond hs with
  | notCreated m reason => exact h.notCreated m reason
  | createdForLoan b v => exact h.createdForLoan now b v
  | createdForStock k v => exact h.createdForStock now k v
  | activatedForLoan id b fresh v refusal => exact h.activatedForLoan id b fresh v refusal
  | activatedForTest id tests n v refusal => exact h.activatedForTest id tests n v refusal
  | validatedForLoan id b fresh fit => exact h.validatedForLoan id b fresh fit
  | validatedForTest id tests n fit => exact h.validatedForTest id tests n fit
  | validatedForStock id k fit =>
    cases fit with
    | true => exact h
    | false => exact ((h.release id).count _).settle id k _
  | validatedReturn id answer fit => exact h.validatedReturn id answer fit
  | passivatedForTest id tests n v refusal => exact h.passivatedForTest id tests n v refusal
  | passivatedForStock id k v refusal => exact (h.letGo id v).settle id k _
  | passivatedReturn id answer v refusal => exact h.passivatedReturn id answer v refusal
  | destroyed id v mode k refusal => rwa [destroyed_pool]
  | reported report x rest n w => exact h.disposeReclaimed x rest n w

end Pool

end ObjectPool
