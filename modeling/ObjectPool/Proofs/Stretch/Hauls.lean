/-
  ObjectPool.Proofs.Stretch.Hauls

  How far a borrow has come, as long as nobody else calls the pool. The borrower tries the idle
  objects in the order in which they are handed out, gives up those that are refused, and gets the
  first that is not. If all are refused, a new object is made for it as long as there is room.

    * `Haul` — what a borrow has taken from a pool so far, and `Haul.From` — what is left of it.
    * `Refusal`, `turnedDown` — an object is refused.
    * `Pool.Stage`, `Pool.Outcome` — how far a borrow has come, and how it can come out.
    * `furthers_…`, one for each point, and `Stage.turn` — one turn of a borrow.
-/

import ObjectPool.Proofs.Stretch.Quests

namespace ObjectPool

variable {ρ : Type}

/-! ## What a borrow takes from a pool -/

/-- What a borrow has taken from a pool so far. -/
structure Haul where
  /-- Overdue objects, from other borrowers. -/
  seized : List Nat := []
  /-- Idle objects that were refused. -/
  refused : List Nat := []
  /-- The idle object that it has. -/
  tried : List Nat := []
  /-- The new object that it has. -/
  made : List Nat := []
  /-- Places for an object on its way. -/
  places : Nat := 0

/-- The pool `p` is what a borrow has left of the pool `p₀`. -/
structure Haul.From (h : Haul) (p₀ p : Pool ρ) : Prop where
  config : p.config = p₀.config
  born : p₀.entries.length ≤ p.entries.length
  closed : p.registry.closed = p₀.registry.closed
  idle : p₀.registry.idle = h.refused ++ (h.tried ++ p.registry.idle)
  tracked : p.registry.tracked =
    p₀.registry.tracked.filter (· ∉ h.seized ++ h.refused) ++ h.made
  active : p.registry.active = p₀.registry.active.filter (· ∉ h.seized) ++ (h.tried ++ h.made)
  creating : p.registry.creating = p₀.registry.creating + h.places

/-- A pool keeps its settings, and has no fewer objects than before. -/
structure Pool.Goes (p q : Pool ρ) : Prop where
  config : q.config = p.config
  born : p.entries.length ≤ q.entries.length

theorem filter_not_mem_nil (l : List Nat) : l.filter (· ∉ ([] : List Nat)) = l :=
  List.filter_eq_self.mpr fun _ _ => decide_eq_true List.not_mem_nil

namespace Haul.From

variable {p₀ p q : Pool ρ} {ℓ ℓ₀ : Ledger ρ} {h : Haul} {id : Nat} {rest S : List Nat}

theorem refl (p : Pool ρ) : From {} p p where
  config := rfl
  born := Nat.le_refl _
  closed := rfl
  idle := rfl
  tracked := by
    show _ = p.registry.tracked.filter (· ∉ ([] : List Nat)) ++ []
    rw [filter_not_mem_nil, List.append_nil]
  active := by
    show _ = p.registry.active.filter (· ∉ ([] : List Nat)) ++ []
    rw [filter_not_mem_nil, List.append_nil]
  creating := rfl

/-- A turn that leaves the books as they are, but for the line. -/
theorem same (hf : h.From p₀ p) (hg : p.Goes q) (books : p.registry.UpToLine q.registry) :
    h.From p₀ q where
  config := hg.config.trans hf.config
  born := Nat.le_trans hf.born hg.born
  closed := books.closed.trans hf.closed
  idle := books.idle ▸ hf.idle
  tracked := books.tracked.trans hf.tracked
  active := books.active.trans hf.active
  creating := books.creating.trans hf.creating

/-- Overdue objects are taken from their borrowers. -/
theorem seizes {now : Instant} {timeout : Duration} {xs : List (Reclaimed ρ)}
    (hf : From {} p₀ p) (hg : p.Goes q) (hs : p.Seizes now timeout q xs)
    (hS : objects xs = S) : From { seized := S } p₀ q where
  config := hg.config.trans hf.config
  born := Nat.le_trans hf.born hg.born
  closed := hs.closed.trans hf.closed
  idle := hs.idle ▸ hf.idle
  tracked := by
    have hall := (refl p₀).tracked
    rw [hs.tracked, hf.tracked, ← hall, hS, List.append_nil, List.append_nil]
  active := by
    have hall := (refl p₀).active
    rw [hs.active, hf.active, ← hall, hS, List.append_nil, List.append_nil]
  creating := hs.creating.trans hf.creating

/-- The first of the idle objects is taken. -/
theorem takes (hf : h.From p₀ p) (htried : h.tried = []) (hmade : h.made = []) (hp : p.Sound ℓ)
    (hidle : p.registry.idle = id :: rest) (hg : p.Goes q)
    (books : (p.registry.lend id rest).UpToLine q.registry) :
    From { h with tried := [id] } p₀ q where
  config := hg.config.trans hf.config
  born := Nat.le_trans hf.born hg.born
  closed := books.closed.trans hf.closed
  idle := by
    rw [hf.idle, htried, hidle, books.idle]
    rfl
  tracked := books.tracked.trans hf.tracked
  active := by
    have hmem : id ∈ p.registry.idle := hidle ▸ List.mem_cons_self ..
    -- an idle object is not lent, so that it joins the lent ones as a new one
    obtain ⟨v, hv⟩ := hp.idle_position hmem
    have hnot : id ∉ p.registry.active := List.count_eq_zero.mp (congrArg Position.active hv)
    have hjoin : (p.registry.lend id rest).active = p.registry.active ++ [id] := if_neg hnot
    rw [books.active, hjoin, hf.active, htried, hmade]
    simp
  creating := books.creating.trans hf.creating

/-- A place is held. -/
theorem reserves (hf : h.From p₀ p) (hplaces : h.places = 0) (hg : p.Goes q)
    (books : p.registry.reserve.UpToLine q.registry) : From { h with places := 1 } p₀ q where
  config := hg.config.trans hf.config
  born := Nat.le_trans hf.born hg.born
  closed := books.closed.trans hf.closed
  idle := by
    rw [hf.idle, books.idle]
    rfl
  tracked := books.tracked.trans hf.tracked
  active := books.active.trans hf.active
  creating := by
    rw [books.creating]
    show p.registry.creating + 1 = _
    rw [hf.creating, hplaces]
    rfl

/-- The place is given up. -/
theorem cancels (hf : h.From p₀ p) (hplaces : h.places = 1) (hg : p.Goes q)
    (books : q.registry = p.registry.cancelReservation) : From { h with places := 0 } p₀ q where
  config := hg.config.trans hf.config
  born := Nat.le_trans hf.born hg.born
  closed := (congrArg Registry.closed books).trans hf.closed
  idle := by
    rw [hf.idle, books]
    rfl
  tracked := (congrArg Registry.tracked books).trans hf.tracked
  active := (congrArg Registry.active books).trans hf.active
  creating := by
    rw [books]
    show p.registry.creating - 1 = _
    rw [hf.creating, hplaces]
    rfl

/-- Nothing is listed under a number that is still free. -/
theorem unlisted (hp : p.Sound ℓ) (hid : p.entries.length ≤ id) :
    id ∉ p.registry.tracked ∧ id ∉ p.registry.active := by
  have hlegal := hp.objects id
  have hshape : (p.position ℓ id).shape = none := Pool.shape?_eq_none_iff.mpr hid
  rw [← List.count_eq_zero, ← List.count_eq_zero]
  show (p.position ℓ id).tracked = 0 ∧ (p.position ℓ id).active = 0
  generalize p.position ℓ id = v at hlegal hshape
  cases hlegal with
  | unborn => exact ⟨rfl, rfl⟩
  | entrusted he => cases he <;> exact nomatch hshape
  | _ => exact nomatch hshape

/-- A new object takes the place. -/
theorem makes (hf : h.From p₀ p) (hplaces : h.places = 1) (hmade : h.made = []) (hp : p.Sound ℓ)
    (hg : p.Goes q) (books : q.registry = p.registry.registerActive p.entries.length) :
    From { h with made := [p.entries.length], places := 0 } p₀ q := by
  obtain ⟨htracked, hactive⟩ := unlisted hp (Nat.le_refl p.entries.length)
  refine ⟨hg.config.trans hf.config, Nat.le_trans hf.born hg.born,
    (congrArg Registry.closed books).trans hf.closed, ?_, ?_, ?_, ?_⟩
  · rw [hf.idle, books]
    rfl
  · rw [books]
    refine Eq.trans (if_neg htracked) ?_
    rw [hf.tracked, hmade, List.append_nil]
  · rw [books]
    refine Eq.trans (if_neg hactive) ?_
    rw [hf.active, hmade, List.append_nil, List.append_assoc]
  · rw [books]
    show p.registry.creating - 1 = _
    rw [hf.creating, hplaces]
    rfl

/-- What is in the charge of a borrower is tracked and lent. -/
theorem listed (hp : p.Sound ℓ) (hc : (id, .lending) ∈ ℓ.charges) :
    id ∈ p.registry.tracked ∧ id ∈ p.registry.active := by
  obtain ⟨u, hhas, hv⟩ := hp.position_of_charge hc
  cases hhas
  have htracked : p.registry.tracked.count id = 1 := congrArg Position.tracked hv
  have hactive : p.registry.active.count id = 1 := congrArg Position.active hv
  exact ⟨List.count_pos_iff.mp (htracked ▸ Nat.one_pos),
    List.count_pos_iff.mp (hactive ▸ Nat.one_pos)⟩

/-- The idle object that the borrower has is given up. -/
theorem drops (hf : h.From p₀ p) (htried : h.tried = [id]) (hmade : h.made = [])
    (h₀ : p₀.Sound ℓ₀) (hp : p.Sound ℓ) (hc : (id, .lending) ∈ ℓ.charges) (hg : p.Goes q)
    (books : q.registry = p.registry.detach id) :
    From { h with refused := h.refused ++ [id], tried := [] } p₀ q := by
  obtain ⟨htracked, hactive⟩ := listed hp hc
  have hbooks : q.registry = _ := books.trans (if_pos htracked)
  -- it was idle at first, and so nobody had it
  have hidle₀ : id ∈ p₀.registry.idle := by
    rw [hf.idle, htried]
    exact List.mem_append_right _ (List.mem_cons_self ..)
  obtain ⟨v, hv⟩ := h₀.idle_position hidle₀
  have hnot : id ∉ p₀.registry.active := List.count_eq_zero.mp (congrArg Position.active hv)
  refine ⟨hg.config.trans hf.config, Nat.le_trans hf.born hg.born, ?_, ?_, ?_, ?_, ?_⟩
  · rw [hbooks]
    exact hf.closed
  · rw [hbooks, hf.idle, htried]
    show _ = _ ++ ([] ++ if id ∈ p.registry.active then p.registry.idle else _)
    rw [if_pos hactive]
    simp
  · rw [hbooks]
    show Registry.without id p.registry.tracked = _
    rw [hf.tracked, hmade, List.append_nil, List.append_nil, Registry.without, List.filter_filter]
    refine List.filter_congr fun x _ => ?_
    simp only [List.mem_append, List.mem_singleton]
    by_cases hx : x = id <;> simp [hx]
  · rw [hbooks]
    show Registry.without id p.registry.active = _
    rw [hf.active, htried, hmade, List.append_nil, Registry.without, List.filter_append,
      List.append_nil, List.append_nil]
    have hnone : [id].filter (· ≠ id) = [] := by simp
    have hall : (p₀.registry.active.filter (· ∉ h.seized)).filter (· ≠ id) =
        p₀.registry.active.filter (· ∉ h.seized) := by
      refine List.filter_eq_self.mpr fun x hx => decide_eq_true fun he => hnot ?_
      exact he ▸ (List.mem_filter.mp hx).1
    rw [hnone, hall, List.append_nil]
  · rw [hbooks]
    exact hf.creating

/-- The new object that the borrower has is given up. -/
theorem discards (hf : h.From p₀ p) (htried : h.tried = []) (hmade : h.made = [id])
    (hnew : p₀.entries.length ≤ id) (h₀ : p₀.Sound ℓ₀) (hp : p.Sound ℓ)
    (hc : (id, .lending) ∈ ℓ.charges) (hg : p.Goes q) (books : q.registry = p.registry.detach id) :
    From { h with made := [] } p₀ q := by
  obtain ⟨htracked, hactive⟩ := listed hp hc
  have hbooks : q.registry = _ := books.trans (if_pos htracked)
  -- it is new, so that nothing was listed under its number
  have hunlisted := unlisted h₀ hnew
  have hnone : [id].filter (· ≠ id) = [] := by simp
  have hall : ∀ {l : List Nat} {f : Nat → Bool}, id ∉ l →
      (l.filter f).filter (· ≠ id) = l.filter f := fun hl =>
    List.filter_eq_self.mpr fun x hx => decide_eq_true fun he => hl (he ▸ (List.mem_filter.mp hx).1)
  refine ⟨hg.config.trans hf.config, Nat.le_trans hf.born hg.born, ?_, ?_, ?_, ?_, ?_⟩
  · rw [hbooks]
    exact hf.closed
  · rw [hbooks, hf.idle]
    show _ = _ ++ (_ ++ if id ∈ p.registry.active then p.registry.idle else _)
    rw [if_pos hactive]
  · rw [hbooks]
    show Registry.without id p.registry.tracked = _
    rw [hf.tracked, hmade, Registry.without, List.filter_append, hnone, hall hunlisted.1]
  · rw [hbooks]
    show Registry.without id p.registry.active = _
    rw [hf.active, htried, hmade, List.nil_append, Registry.without, List.filter_append, hnone,
      hall hunlisted.2]
    rfl
  · rw [hbooks]
    exact hf.creating

end Haul.From

/-! ## What the factory does for a borrow -/

/-- Why an object is refused. -/
inductive Refusal where
  /-- The factory has not readied it, for the reason given. -/
  | stiff (reason : String)
  /-- The factory has checked it and found it unfit. -/
  | unfit

namespace Refusal

/-- What a borrower is told of it. -/
def error : Refusal → PoolError
  | stiff reason => .factory .activate reason
  | unfit => .validationFailed

/-- What the factory did. -/
def deeds (id : Nat) : Refusal → List Deed
  | stiff reason => [.readied id (some reason)]
  | unfit => [.readied id none, .checked id false]

/-- An object can be found unfit only if the settings have it checked. -/
def Fair (c : Config) (fresh : Bool) (r : Refusal) : Prop :=
  r = unfit → Pool.checksLent c fresh = true

end Refusal

/-- An object is refused, and destroyed. -/
def turnedDown (x : Nat × Refusal) : List Deed := x.2.deeds x.1 ++ [.destroyed x.1 .normal]

/-- An object is readied, and checked if the settings say so. -/
def accepted (c : Config) (fresh : Bool) (id : Nat) : List Deed :=
  .readied id none :: if Pool.checksLent c fresh then [.checked id true] else []

theorem accepted_unchecked {c : Config} {fresh : Bool} (h : Pool.checksLent c fresh = false)
    (id : Nat) : accepted c fresh id = [.readied id none] := by
  rw [accepted, h, if_neg Bool.false_ne_true]

theorem accepted_checked {c : Config} {fresh : Bool} (h : Pool.checksLent c fresh = true)
    (id : Nat) : accepted c fresh id = [.readied id none, .checked id true] := by
  rw [accepted, if_pos h]

/-! ## How far a borrow has come -/

namespace Pool

/-- The pool is open, and each of the idle objects `R` was refused for a reason that there can
    be. -/
structure Refuses (p₀ : Pool ρ) (R : List (Nat × Refusal)) : Prop where
  fair : ∀ x ∈ R, x.2.Fair p₀.config false
  isOpen : p₀.closed = false

/-- All idle objects were refused, and there is room for a new one. -/
structure RunsOut (p₀ : Pool ρ) (S : List Nat) (R : List (Nat × Refusal)) : Prop
    extends p₀.Refuses R where
  all : p₀.registry.idle = R.map (·.1)
  room : (p₀.registry.tracked.filter (· ∉ S ++ R.map (·.1))).length + p₀.registry.creating <
    p₀.config.maxTotal

/-- How far a borrow has come that began when the pool stood at `p₀`, has taken the objects `S` from
    others and given up the idle objects `R`: what it has of the pool, and what the factory has done
    since it looked for the first time. -/
inductive Stage (p₀ : Pool ρ) : List Nat → List (Nat × Refusal) → Point ρ → Haul → List Deed → Prop
  | begins (b : Borrowing) : Stage p₀ [] [] (.borrow b) {} []
  | sweeps {pt : Point ρ} {S : List Nat} (b : Borrowing) (sweeping : pt.Sweeping (.borrow b)) :
      Stage p₀ S [] pt { seized := S } []
  | seeks {S : List Nat} {R : List (Nat × Refusal)} (b : Borrowing)
      (fair : ∀ x ∈ R, x.2.Fair p₀.config false) :
      Stage p₀ S R (.seek b) { seized := S, refused := R.map (·.1) } (R.flatMap turnedDown)
  | tries {S : List Nat} {R : List (Nat × Refusal)} {id : Nat} (b : Borrowing)
      (refuses : p₀.Refuses R) : Stage p₀ S R (.activating id (.lend b false))
        { seized := S, refused := R.map (·.1), tried := [id] } (R.flatMap turnedDown)
  | checks {S : List Nat} {R : List (Nat × Refusal)} {id : Nat} (b : Borrowing)
      (refuses : p₀.Refuses R) (test : checksLent p₀.config false = true) :
      Stage p₀ S R (.validating id (.trial (.lend b false)))
        { seized := S, refused := R.map (·.1), tried := [id] }
        (R.flatMap turnedDown ++ [.readied id none])
  | drops {S : List Nat} {R : List (Nat × Refusal)} {id : Nat} (b : Borrowing) (v : ρ) (r : Refusal)
      (refuses : p₀.Refuses R) (fair : r.Fair p₀.config false) :
      Stage p₀ S R (.destroying id v .normal (.seek b))
        { seized := S, refused := R.map (·.1) ++ [id] } (R.flatMap turnedDown ++ r.deeds id)
  | makes {S : List Nat} {R : List (Nat × Refusal)} (b : Borrowing) (out : p₀.RunsOut S R) :
      Stage p₀ S R (.creating (.lend b)) { seized := S, refused := R.map (·.1), places := 1 }
        (R.flatMap turnedDown)
  | readies {S : List Nat} {R : List (Nat × Refusal)} {id : Nat} (b : Borrowing)
      (out : p₀.RunsOut S R) (new : p₀.entries.length ≤ id) :
      Stage p₀ S R (.activating id (.lend b true))
        { seized := S, refused := R.map (·.1), made := [id] } (R.flatMap turnedDown ++ [.made none])
  | tests {S : List Nat} {R : List (Nat × Refusal)} {id : Nat} (b : Borrowing)
      (out : p₀.RunsOut S R) (new : p₀.entries.length ≤ id)
      (test : checksLent p₀.config true = true) :
      Stage p₀ S R (.validating id (.trial (.lend b true)))
        { seized := S, refused := R.map (·.1), made := [id] }
        (R.flatMap turnedDown ++ [.made none, .readied id none])
  | fails {S : List Nat} {R : List (Nat × Refusal)} {id : Nat} (v : ρ) (r : Refusal)
      (out : p₀.RunsOut S R) (new : p₀.entries.length ≤ id) (fair : r.Fair p₀.config true) :
      Stage p₀ S R (.destroying id v .normal (.reply (.failed r.error)))
        { seized := S, refused := R.map (·.1) } (R.flatMap turnedDown ++ .made none :: r.deeds id)

/-- How a borrow can come out: with an object, with an error, or in line. -/
inductive Outcome (p₀ : Pool ρ) (S : List Nat) (R : List (Nat × Refusal)) :
    Next ρ → Haul → List Deed → Prop
  /-- The borrower has the first idle object that was not refused. -/
  | lent {id : Nat} (refuses : p₀.Refuses R) :
      Outcome p₀ S R (.finish (.lent id)) { seized := S, refused := R.map (·.1), tried := [id] }
        (R.flatMap turnedDown ++ accepted p₀.config false id)
  /-- It has a new object. -/
  | made {id : Nat} (out : p₀.RunsOut S R) (new : p₀.entries.length ≤ id) :
      Outcome p₀ S R (.finish (.lent id)) { seized := S, refused := R.map (·.1), made := [id] }
        (R.flatMap turnedDown ++ .made none :: accepted p₀.config true id)
  /-- The factory has not made a new object. -/
  | unmade (reason : String) (out : p₀.RunsOut S R) :
      Outcome p₀ S R (.finish (.failed (.factory .create reason)))
        { seized := S, refused := R.map (·.1) } (R.flatMap turnedDown ++ [.made (some reason)])
  /-- The new object was refused. -/
  | unfit {id : Nat} (r : Refusal) (out : p₀.RunsOut S R) (new : p₀.entries.length ≤ id)
      (fair : r.Fair p₀.config true) :
      Outcome p₀ S R (.finish (.failed r.error)) { seized := S, refused := R.map (·.1) }
        (R.flatMap turnedDown ++ .made none :: turnedDown (id, r))
  | shut (fair : ∀ x ∈ R, x.2.Fair p₀.config false) (closed : p₀.closed = true) :
      Outcome p₀ S R (.finish (.failed .closed)) { seized := S, refused := R.map (·.1) }
        (R.flatMap turnedDown)
  | givesUp (d : Duration) (refuses : p₀.Refuses R)
      (inVain : p₀.registry.line.queue = [] → p₀.registry.idle = R.map (·.1) ∧
        p₀.config.maxTotal ≤ (p₀.registry.tracked.filter (· ∉ S ++ R.map (·.1))).length +
          p₀.registry.creating) :
      Outcome p₀ S R (.finish (.failed (.exhausted d))) { seized := S, refused := R.map (·.1) }
        (R.flatMap turnedDown)
  | waits (b : Borrowing) (x : Nat) (refuses : p₀.Refuses R)
      (inVain : p₀.registry.line.queue = [] → p₀.registry.idle = R.map (·.1) ∧
        p₀.config.maxTotal ≤ (p₀.registry.tracked.filter (· ∉ S ++ R.map (·.1))).length +
          p₀.registry.creating) :
      Outcome p₀ S R (.go (.waiting b x)) { seized := S, refused := R.map (·.1) }
        (R.flatMap turnedDown)

end Pool

/-- A borrow is yet to begin. -/
def Point.isOpening : Point ρ → Bool
  | .borrow _ => true
  | _ => false

/-- A borrower is about to look for an object. -/
def Point.isSeek : Point ρ → Bool
  | .seek _ => true
  | _ => false

/-- How often a borrower has looked since the last object that it gave up. -/
def Point.looked : Point ρ → Nat
  | .activating _ _ | .validating _ _ | .creating _ | .destroying _ _ .normal _ => 1
  | _ => 0

/-- How many turns a borrow has had at most since then, besides those for overdue objects. -/
def Point.spent : Point ρ → Nat
  | .reclaiming _ _ _ | .reporting _ _ _ _ _ | .destroying _ _ .abandoned _ => 1
  | .seek _ => 2
  | .activating _ (.lend _ false) | .creating _ => 3
  | .validating _ (.trial (.lend _ false)) | .activating _ _ => 4
  | .destroying _ _ .normal (.seek _) | .validating _ _ => 5
  | .destroying _ _ .normal _ => 6
  | _ => 0

theorem Point.Sweeping.counts {k : Sweeper} {pt : Point ρ} (h : pt.Sweeping k) :
    pt.spent = 1 ∧ pt.looked = 0 ∧ pt.isSeek = false ∧ pt.isOpening = false := by
  cases h <;> exact ⟨rfl, rfl, rfl, rfl⟩

namespace Pool

/-- What a turn of a borrow from the pool `q` comes to that had come so far: it goes on, or it
    comes out. -/
inductive Furthers (p₀ q : Pool ρ) (now : Instant) (S : List Nat) (R : List (Nat × Refusal))
    (pt : Point ρ) (ds : List Deed) (deed : Option Deed) (s : Stretch ρ) : Prop
  | goesOn {pt' : Point ρ} {S' : List Nat} {R' : List (Nat × Refusal)} {h : Haul}
      {ds' : List Deed} (next : s.next = .go pt') (stage : p₀.Stage S' R' pt' h ds')
      (haul : h.From p₀ s.pool)
      (seized : S' = if pt.isOpening then q.overdue now else S)
      (begun : pt'.isOpening = false)
      (deeds : ds' = ds ++ deed.toList ∨
        (ds = [] ∧ ds' = [] ∧ ∀ x ∈ deed, x.isSweep = true))
      (rounds : R'.length + pt'.looked = R.length + pt.looked + if pt.isSeek then 1 else 0)
      (turns : 3 * S.length + 4 * R.length + pt.spent + pt'.ahead + 1 ≤
        3 * S'.length + 4 * R'.length + pt'.spent + pt.ahead) : Furthers p₀ q now S R pt ds deed s
  | comesOut {h : Haul} (outcome : p₀.Outcome S R s.next h (ds ++ deed.toList))
      (haul : h.From p₀ s.pool)
      (rounds : R.length + 1 = R.length + pt.looked + if pt.isSeek then 1 else 0) :
      Furthers p₀ q now S R pt ds deed s

variable {p₀ q : Pool ρ} {ℓ ℓ₀ : Ledger ρ} {now : Instant} {S : List Nat}
  {R : List (Nat × Refusal)} {pt : Point ρ} {hl : Haul} {ds : List Deed} {deed : Option Deed}
  {s : Stretch ρ}

/-- A borrower looks for an object. -/
theorem furthers_seeks {b : Borrowing} (fair : ∀ x ∈ R, x.2.Fair p₀.config false)
    (hf : Haul.From { seized := S, refused := R.map (·.1) } p₀ q) (hq : q.Sound ℓ)
    (hqueue : p₀.registry.line.queue = [] → q.registry.line.queue = [])
    (hg : q.Goes s.pool) (hs : q.Seeks b none s) :
    p₀.Furthers q now S R (.seek b) (R.flatMap turnedDown) none s := by
  have hclosed : q.closed = p₀.closed := hf.closed
  have hroom : q.registry.hasRoom = (!q.closed && decide
      ((p₀.registry.tracked.filter (· ∉ S ++ R.map (·.1))).length + p₀.registry.creating <
        p₀.config.maxTotal)) := by
    have htotal : q.registry.total = (p₀.registry.tracked.filter (· ∉ S ++ R.map (·.1))).length +
        p₀.registry.creating := by
      unfold Registry.total
      rw [hf.tracked, hf.creating, List.append_nil]
      rfl
    unfold Registry.hasRoom
    rw [htotal, hq.capacity, hf.config]
    rfl
  have hidle : q.registry.idle = [] → p₀.registry.idle = R.map (·.1) := by
    intro hi
    rw [hf.idle, hi]
    exact List.append_nil _
  -- a borrower that finds nothing although nobody is in line before it
  have hnone : q.closed = false →
      (q.mayTake none = true → q.registry.idle = [] ∧ q.registry.hasRoom = false) →
      p₀.registry.line.queue = [] → p₀.registry.idle = R.map (·.1) ∧
        p₀.config.maxTotal ≤ (p₀.registry.tracked.filter (· ∉ S ++ R.map (·.1))).length +
          p₀.registry.creating := by
    intro hopen hvain hq₀
    have hmay : q.mayTake none = true := List.isEmpty_iff.mpr (hqueue hq₀)
    obtain ⟨hi, hr⟩ := hvain hmay
    rw [hroom, hopen, Bool.not_false, Bool.true_and, decide_eq_false_iff_not] at hr
    exact ⟨hidle hi, Nat.le_of_not_lt hr⟩
  have hds : R.flatMap turnedDown = R.flatMap turnedDown ++ (none : Option Deed).toList :=
    (List.append_nil _).symm
  cases hs with
  | shut closed next books =>
    refine .comesOut ?_ (hf.same hg books) rfl
    rw [next, ← hds]
    exact .shut fair (hclosed.symm.trans closed)
  | takes isOpen may idle next books =>
    exact .goesOn next (.tries b ⟨fair, hclosed.symm.trans isOpen⟩)
      (hf.takes rfl rfl hq idle hg books) rfl rfl (.inl hds) rfl (Nat.le_refl _)
  | reserves isOpen may idle room next books =>
    rw [hroom, isOpen, Bool.not_false, Bool.true_and, decide_eq_true_eq] at room
    exact .goesOn next (.makes b ⟨⟨fair, hclosed.symm.trans isOpen⟩, hidle idle, room⟩)
      (hf.reserves rfl hg books) rfl rfl (.inl hds) rfl (Nat.le_refl _)
  | givesUp isOpen inVain next books =>
    refine .comesOut ?_ (hf.same hg books) rfl
    rw [next, ← hds]
    exact .givesUp _ ⟨fair, hclosed.symm.trans isOpen⟩ (hnone isOpen inVain)
  | waits isOpen inVain next _ books =>
    refine .comesOut ?_ (hf.same hg books) rfl
    rw [next, ← hds]
    exact .waits b _ ⟨fair, hclosed.symm.trans isOpen⟩ (hnone isOpen inVain)

/-- A borrow begins. -/
theorem furthers_begins {b : Borrowing} (hf : Haul.From {} p₀ q) (hq : q.Sound ℓ)
    (hg : q.Goes s.pool) (hs : q.Quests now (.borrow b) deed s) :
    p₀.Furthers q now [] [] (.borrow b) [] deed s := by
  cases hs with
  | @sweeps _ a _ due pool next =>
    have hseizes := hq.seizes now a.timeout (.refl q.registry.active)
    rw [← pool] at hseizes
    refine .goesOn next (.sweeps b (.next _ _)) (hf.seizes hg hseizes rfl)
      due.symm rfl (.inr ⟨rfl, rfl, fun _ hx => absurd hx (Option.not_mem_none _)⟩) rfl ?_
    show _ ≤ 3 * (List.map _ _).length + _ + 1 + 0
    -- each object that was taken is good for three turns
    rw [List.length_map]
    show 0 + 0 + 0 + 3 * _ + 1 ≤ 3 * _ + 0 + 1 + 0
    omega
  | begins due same next =>
    refine .goesOn next (.seeks _ fun _ hx => absurd hx List.not_mem_nil)
      (hf.same hg (.of_eq (congrArg Pool.registry same))) due.symm rfl (.inl rfl) rfl ?_
    exact (by decide : 0 + 0 + 0 + 0 + 1 ≤ 0 + 0 + 2 + 0)
  | clears stood => cases stood

/-- A borrow goes through what it has taken from others. -/
theorem furthers_sweeps {b : Borrowing} (sweeping : pt.Sweeping (.borrow b))
    (hf : Haul.From { seized := S } p₀ q) (hg : q.Goes s.pool) (hs : q.Quests now pt deed s) :
    p₀.Furthers q now S [] pt [] deed s := by
  cases hs with
  | @clears _ _ pt' _ _ stood stands next same _ ahead sweep =>
    -- the points of a sweep differ in what lies ahead of them alone
    obtain ⟨hpt, hlooked, hseek, hopening⟩ := sweeping.counts
    obtain ⟨hpt', hlooked', -, hopening'⟩ := stands.counts
    refine .goesOn next (.sweeps _ stands) (hf.same hg (.of_eq same)) ?_ hopening'
      (.inr ⟨rfl, rfl, sweep⟩) ?_ ?_
    · rw [hopening]
      rfl
    · rw [hlooked, hlooked', hseek]
      rfl
    · rw [hpt, hpt']
      omega
  | swept same next =>
    exact .goesOn next (.seeks _ fun _ hx => absurd hx List.not_mem_nil)
      (hf.same hg (.of_eq (congrArg Pool.registry same))) rfl rfl (.inl rfl) rfl (Nat.le_refl _)
  | _ => cases sweeping

/-! ### An idle object -/

/-- An idle object is readied, or refused. -/
theorem furthers_tries {b : Borrowing} {id : Nat} (refuses : p₀.Refuses R)
    (hf : Haul.From { seized := S, refused := R.map (·.1), tried := [id] } p₀ q)
    (h₀ : p₀.Sound ℓ₀) (hq : q.Sound ℓ) (hc : (id, .lending) ∈ ℓ.charges) (hg : q.Goes s.pool)
    (hs : q.Quests now (.activating id (.lend b false)) deed s) :
    p₀.Furthers q now S R (.activating id (.lend b false)) (R.flatMap turnedDown) deed s := by
  cases hs with
  | clears stood => cases stood
  | stiff reason gives =>
    obtain ⟨v, next⟩ := gives.next
    exact .goesOn next (.drops b v (.stiff reason) refuses fun hn => nomatch hn)
      (hf.drops rfl rfl h₀ hq hc hg gives.registry) rfl rfl (.inl rfl) rfl (Nat.le_succ _)
  | ready test next same =>
    exact .goesOn next (.checks b refuses (hf.config ▸ test)) (hf.same hg (.of_eq same)) rfl rfl
      (.inl rfl) rfl (Nat.le_refl _)
  -- no check is asked for, so that the object is accepted
  | hands test next same =>
    refine .comesOut ?_ (hf.same hg (.of_eq same)) rfl
    have hdone := accepted_unchecked (hf.config ▸ test) id
    rw [next, show (some (Deed.readied id none)).toList = _ from hdone.symm]
    exact .lent refuses

/-- It is checked. -/
theorem furthers_checks {b : Borrowing} {id : Nat} (refuses : p₀.Refuses R)
    (test : checksLent p₀.config false = true)
    (hf : Haul.From { seized := S, refused := R.map (·.1), tried := [id] } p₀ q)
    (h₀ : p₀.Sound ℓ₀) (hq : q.Sound ℓ) (hc : (id, .lending) ∈ ℓ.charges) (hg : q.Goes s.pool)
    (hs : q.Quests now (.validating id (.trial (.lend b false))) deed s) :
    p₀.Furthers q now S R (.validating id (.trial (.lend b false)))
      (R.flatMap turnedDown ++ [.readied id none]) deed s := by
  cases hs with
  | clears stood => cases stood
  | fit next same =>
    refine .comesOut ?_ (hf.same hg (.of_eq same)) rfl
    have hdone := accepted_checked test id
    rw [next, List.append_assoc,
      show [_] ++ (some (Deed.checked id true)).toList = _ from hdone.symm]
    exact .lent refuses
  | unfit gives =>
    obtain ⟨v, next⟩ := gives.next
    refine .goesOn next (.drops b v .unfit refuses fun _ => test)
      (hf.drops rfl rfl h₀ hq hc hg gives.registry) rfl rfl (.inl ?_) rfl (Nat.le_refl _)
    exact (List.append_assoc _ [Deed.readied id none] [.checked id false]).symm

/-- It was refused, and is destroyed now. -/
theorem furthers_drops {b : Borrowing} {id : Nat} {v : ρ} {r : Refusal} (refuses : p₀.Refuses R)
    (fair : r.Fair p₀.config false)
    (hf : Haul.From { seized := S, refused := R.map (·.1) ++ [id] } p₀ q) (hg : q.Goes s.pool)
    (hs : q.Quests now (.destroying id v .normal (.seek b)) deed s) :
    p₀.Furthers q now S R (.destroying id v .normal (.seek b))
      (R.flatMap turnedDown ++ r.deeds id) deed s := by
  cases hs with
  | clears stood => cases stood
  | dropped next same =>
    -- the object joins the refused ones, last
    have hmap : (R ++ [(id, r)]).map (·.1) = R.map (·.1) ++ [id] := List.map_append
    have hdeeds : (R ++ [(id, r)]).flatMap turnedDown =
        R.flatMap turnedDown ++ r.deeds id ++ [.destroyed id .normal] := by
      rw [List.flatMap_append, List.append_assoc]
      exact congrArg _ (List.append_nil _)
    have hfair : ∀ x ∈ R ++ [(id, r)], x.2.Fair p₀.config false := by
      intro x hx
      rcases List.mem_append.mp hx with hx | hx
      · exact refuses.fair x hx
      · obtain rfl := List.mem_singleton.mp hx
        exact fair
    have hstage : Stage p₀ S _ _ _ _ := .seeks b hfair
    rw [hmap, hdeeds] at hstage
    refine .goesOn next hstage (hf.same hg (.of_eq (congrArg Pool.registry same))) rfl rfl
      (.inl rfl) ?_ ?_
    · rw [List.length_append]
      rfl
    · rw [List.length_append]
      show _ + _ + 5 + 0 + 1 ≤ _ + 4 * (_ + 1) + 2 + 0
      omega

/-! ### A new object -/

/-- A new object is made, or not. -/
theorem furthers_makes {b : Borrowing} (out : p₀.RunsOut S R)
    (hf : Haul.From { seized := S, refused := R.map (·.1), places := 1 } p₀ q) (hq : q.Sound ℓ)
    (hg : q.Goes s.pool) (hs : q.Quests now (.creating (.lend b)) deed s) :
    p₀.Furthers q now S R (.creating (.lend b)) (R.flatMap turnedDown) deed s := by
  cases hs with
  | clears stood => cases stood
  | unmade reason next books =>
    refine .comesOut ?_ (hf.cancels rfl hg books) rfl
    rw [next]
    exact .unmade reason out
  | made isOpen next books =>
    exact .goesOn next (.readies b out hf.born) (hf.makes rfl rfl hq hg books) rfl rfl
      (.inl rfl) rfl (Nat.le_refl _)
  | late v closed =>
    have hopen : q.closed = false := hf.closed.trans out.isOpen
    exact nomatch hopen.symm.trans closed

/-- It is readied, or refused. -/
theorem furthers_readies {b : Borrowing} {id : Nat} (out : p₀.RunsOut S R)
    (new : p₀.entries.length ≤ id)
    (hf : Haul.From { seized := S, refused := R.map (·.1), made := [id] } p₀ q)
    (h₀ : p₀.Sound ℓ₀) (hq : q.Sound ℓ) (hc : (id, .lending) ∈ ℓ.charges) (hg : q.Goes s.pool)
    (hs : q.Quests now (.activating id (.lend b true)) deed s) :
    p₀.Furthers q now S R (.activating id (.lend b true))
      (R.flatMap turnedDown ++ [.made none]) deed s := by
  cases hs with
  | clears stood => cases stood
  | stiff reason gives =>
    obtain ⟨v, next⟩ := gives.next
    refine .goesOn next (.fails v (.stiff reason) out new fun hn => nomatch hn)
      (hf.discards rfl rfl new h₀ hq hc hg gives.registry) rfl rfl (.inl ?_) rfl (Nat.le_succ _)
    exact (List.append_assoc _ [Deed.made none] [Deed.readied id (some reason)]).symm
  | ready test next same =>
    refine .goesOn next (.tests b out new (hf.config ▸ test)) (hf.same hg (.of_eq same)) rfl rfl
      (.inl ?_) rfl (Nat.le_refl _)
    exact (List.append_assoc _ [Deed.made none] [Deed.readied id none]).symm
  | hands test next same =>
    refine .comesOut ?_ (hf.same hg (.of_eq same)) rfl
    have hdone := accepted_unchecked (hf.config ▸ test) id
    rw [next, List.append_assoc, show [_] ++ (some (Deed.readied id none)).toList =
      .made none :: _ from congrArg (_ :: ·) hdone.symm]
    exact .made out new

/-- It is checked. -/
theorem furthers_tests {b : Borrowing} {id : Nat} (out : p₀.RunsOut S R)
    (new : p₀.entries.length ≤ id) (test : checksLent p₀.config true = true)
    (hf : Haul.From { seized := S, refused := R.map (·.1), made := [id] } p₀ q)
    (h₀ : p₀.Sound ℓ₀) (hq : q.Sound ℓ) (hc : (id, .lending) ∈ ℓ.charges) (hg : q.Goes s.pool)
    (hs : q.Quests now (.validating id (.trial (.lend b true))) deed s) :
    p₀.Furthers q now S R (.validating id (.trial (.lend b true)))
      (R.flatMap turnedDown ++ [.made none, .readied id none]) deed s := by
  cases hs with
  | clears stood => cases stood
  | fit next same =>
    refine .comesOut ?_ (hf.same hg (.of_eq same)) rfl
    have hdone := accepted_checked test id
    rw [next, List.append_assoc, show [_, _] ++ (some (Deed.checked id true)).toList =
      .made none :: _ from congrArg (_ :: ·) hdone.symm]
    exact .made out new
  | unfit gives =>
    obtain ⟨v, next⟩ := gives.next
    refine .goesOn next (.fails v .unfit out new fun _ => test)
      (hf.discards rfl rfl new h₀ hq hc hg gives.registry) rfl rfl (.inl ?_) rfl (Nat.le_refl _)
    exact (List.append_assoc _ [Deed.made none, Deed.readied id none] [.checked id false]).symm

/-- It was refused, and is destroyed now. -/
theorem furthers_fails {id : Nat} {v : ρ} {r : Refusal} (out : p₀.RunsOut S R)
    (new : p₀.entries.length ≤ id) (fair : r.Fair p₀.config true)
    (hf : Haul.From { seized := S, refused := R.map (·.1) } p₀ q) (hg : q.Goes s.pool)
    (hs : q.Quests now (.destroying id v .normal (.reply (.failed r.error))) deed s) :
    p₀.Furthers q now S R (.destroying id v .normal (.reply (.failed r.error)))
      (R.flatMap turnedDown ++ .made none :: r.deeds id) deed s := by
  cases hs with
  | clears stood => cases stood
  | failed next same =>
    refine .comesOut ?_ (hf.same hg (.of_eq (congrArg Pool.registry same))) rfl
    rw [next, List.append_assoc]
    exact .unfit r out new fair

/-- One turn of a borrow. -/
theorem Stage.turn (h : p₀.Stage S R pt hl ds) (hf : hl.From p₀ q) (h₀ : p₀.Sound ℓ₀)
    (hq : q.Sound ℓ) (hc : ∀ x ∈ pt.charges, x ∈ ℓ.charges)
    (hqueue : p₀.registry.line.queue = [] → q.registry.line.queue = [])
    (hg : q.Goes s.pool) (hs : q.Quests now pt deed s) :
    p₀.Furthers q now S R pt ds deed s := by
  -- the object that the call is busy with is in the ledger, hence listed
  have hcharge : ∀ {id : Nat}, (id, .lending) ∈ pt.charges → (id, .lending) ∈ ℓ.charges :=
    fun h => hc _ h
  cases h with
  | begins b => exact furthers_begins hf hq hg hs
  | sweeps b sweeping => exact furthers_sweeps sweeping hf hg hs
  | seeks b fair =>
    cases hs with
    | seeks looks => exact furthers_seeks fair hf hq hqueue hg looks
    | clears stood => cases stood
  | tries b refuses =>
    exact furthers_tries refuses hf h₀ hq (hcharge (List.mem_singleton.mpr rfl)) hg hs
  | checks b refuses test =>
    exact furthers_checks refuses test hf h₀ hq (hcharge (List.mem_singleton.mpr rfl)) hg hs
  | drops b v r refuses fair => exact furthers_drops refuses fair hf hg hs
  | makes b out => exact furthers_makes out hf hq hg hs
  | readies b out new =>
    exact furthers_readies out new hf h₀ hq (hcharge (List.mem_singleton.mpr rfl)) hg hs
  | tests b out new test =>
    exact furthers_tests out new test hf h₀ hq (hcharge (List.mem_singleton.mpr rfl)) hg hs
  | fails v r out new fair => exact furthers_fails out new fair hf hg hs

end Pool

end ObjectPool
