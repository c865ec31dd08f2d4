/-
  ObjectPool.Proofs.Stretch.Quests

  A borrower's way to an object, stretch by stretch. The borrower may take overdue objects from
  others first. Then it looks for an idle object or a free place; what it finds is readied and
  checked. An idle object that turns out unfit is given up, and the borrower looks again; a new one
  that does is given up, and the borrow fails.

    * `Registry.UpToLine` — books that differ in the line of borrowers alone.
    * `Point.Quests` — where a borrower can stand.
    * `Pool.overdue` — what it takes from others to begin with.
    * `Pool.Seeks`, `Pool.Quests` — what a stretch of a borrow can come to.
    * `IsTurn.quests` — every turn of a borrow is one of these.
-/

import ObjectPool.Proofs.Funerals
import ObjectPool.Proofs.Stretch.Homecoming
import ObjectPool.Proofs.Stretch.Seizure

namespace ObjectPool

variable {ρ : Type}

/-! ## Books up to the line -/

/-- Books that differ in the line of borrowers alone. -/
def Registry.UpToLine (r r' : Registry) : Prop := r' = { r with line := r'.line }

namespace Registry.UpToLine

variable {r r' r'' : Registry}

theorem refl (r : Registry) : r.UpToLine r := rfl

theorem of_eq (h : r' = r) : r.UpToLine r' := h ▸ refl r

theorem trans (h : r.UpToLine r') (h' : r'.UpToLine r'') : r.UpToLine r'' := by
  unfold UpToLine
  rw [h', h]

theorem wakeIfAvailable (h : r.UpToLine r') : r.UpToLine r'.wakeIfAvailable :=
  h.trans r'.wakeIfAvailable_eq

theorem idle (h : r.UpToLine r') : r'.idle = r.idle := by rw [h]

theorem active (h : r.UpToLine r') : r'.active = r.active := by rw [h]

theorem tracked (h : r.UpToLine r') : r'.tracked = r.tracked := by rw [h]

theorem creating (h : r.UpToLine r') : r'.creating = r.creating := by rw [h]

theorem closed (h : r.UpToLine r') : r'.closed = r.closed := by rw [h]

end Registry.UpToLine

theorem Pool.upToLine_leaveLine (p : Pool ρ) (ticket : Option Nat) :
    p.registry.UpToLine (p.leaveLine ticket).registry := by
  cases ticket <;> rfl

/-! ## Where a borrower stands -/

/-- What follows if an object is unfit for a borrower. -/
def Borrowing.afterwards (b : Borrowing) (fresh : Bool) (e : PoolError) : After ρ :=
  if fresh then .reply (.failed e) else .seek b

/-- A call that goes through objects that it has taken from their borrowers. -/
inductive Point.Sweeping (k : Sweeper) : Point ρ → Prop
  | next (xs : List (Reclaimed ρ)) (n : Nat) : Sweeping k (.reclaiming xs n k)
  | tells (r : Report) (x : Reclaimed ρ) (rest : List (Reclaimed ρ)) (n : Nat) :
      Sweeping k (.reporting r x rest n k)
  | given (id : Nat) (v : ρ) (rest : List (Reclaimed ρ)) (n : Nat) :
      Sweeping k (.destroying id v .abandoned (.reclaim rest n k))

/-- A point of a borrow. -/
inductive Point.Quests : Point ρ → Prop
  | begins (b : Borrowing) : Quests (.borrow b)
  | sweeps {pt : Point ρ} (b : Borrowing) (h : pt.Sweeping (.borrow b)) : Quests pt
  | seeks (b : Borrowing) : Quests (.seek b)
  | waits (b : Borrowing) (x : Nat) : Quests (.waiting b x)
  | tries (id : Nat) (b : Borrowing) (fresh : Bool) : Quests (.activating id (.lend b fresh))
  | checks (id : Nat) (b : Borrowing) (fresh : Bool) :
      Quests (.validating id (.trial (.lend b fresh)))
  | drops (id : Nat) (v : ρ) (b : Borrowing) : Quests (.destroying id v .normal (.seek b))
  | makes (b : Borrowing) : Quests (.creating (.lend b))
  | fails (id : Nat) (v : ρ) (e : PoolError) :
      Quests (.destroying id v .normal (.reply (.failed e)))

/-- What is done for a borrow while it goes through objects that were taken from their borrowers. -/
def Deed.isSweep : Deed → Bool
  | .destroyed _ .abandoned | .tookReport _ => true
  | _ => false

/-- The objects that a call has in its charge at a point, or gives to the factory to be
    destroyed. -/
def Point.has (pt : Point ρ) : List Nat := pt.charges.map (·.1) ++ pt.buried

namespace Pool

/-- The objects that a borrow takes from other borrowers to begin with. -/
def overdue (p : Pool ρ) (now : Instant) : List Nat :=
  match p.config.abandonment with
  | some a =>
    if a.onBorrow && !p.closed && a.trigger p.status then
      objects (p.reclaimFrom now a.timeout p.registry.active).2
    else []
  | none => []

/-! ## What a stretch of a borrow can come to -/

/-- What a borrower comes to that looks for an object in the pool `p`, with the ticket that it has
    if it has been in line. -/
inductive Seeks (p : Pool ρ) (b : Borrowing) (ticket : Option Nat) (s : Stretch ρ) : Prop
  | shut (closed : p.closed = true) (next : s.next = .finish (.failed .closed))
      (books : p.registry.UpToLine s.pool.registry)
  | takes {id : Nat} {rest : List Nat} (isOpen : p.closed = false)
      (may : p.mayTake ticket = true) (idle : p.registry.idle = id :: rest)
      (next : s.next = .go (.activating id (.lend b false)))
      (books : (p.registry.lend id rest).UpToLine s.pool.registry)
  | reserves (isOpen : p.closed = false) (may : p.mayTake ticket = true)
      (idle : p.registry.idle = []) (room : p.registry.hasRoom = true)
      (next : s.next = .go (.creating (.lend b)))
      (books : p.registry.reserve.UpToLine s.pool.registry)
  | givesUp (isOpen : p.closed = false)
      (inVain : p.mayTake ticket = true → p.registry.idle = [] ∧ p.registry.hasRoom = false)
      (next : s.next = .finish (.failed (.exhausted (b.timeout.getD .zero))))
      (books : p.registry.UpToLine s.pool.registry)
  | waits {x : Nat} (isOpen : p.closed = false)
      (inVain : p.mayTake ticket = true → p.registry.idle = [] ∧ p.registry.hasRoom = false)
      (next : s.next = .go (.waiting b x)) (same : ∀ y, ticket = some y → x = y)
      (books : p.registry.UpToLine s.pool.registry)

/-- What a stretch of a borrow from the pool `p` comes to, point by point, with what the factory has
    done before. -/
inductive Quests (p : Pool ρ) (now : Instant) : Point ρ → Option Deed → Stretch ρ → Prop
  /-- Overdue objects are taken from their borrowers. -/
  | sweeps {b : Borrowing} {a : Abandonment} {s : Stretch ρ}
      (due : p.overdue now = objects (p.reclaimFrom now a.timeout p.registry.active).2)
      (pool : s.pool = (p.reclaimFrom now a.timeout p.registry.active).1)
      (next : s.next = .go (.reclaiming (p.reclaimFrom now a.timeout p.registry.active).2
        (p.reclaimFrom now a.timeout p.registry.active).2.length (.borrow b))) :
      Quests p now (.borrow b) none s
  | begins {b : Borrowing} {s : Stretch ρ} (due : p.overdue now = []) (same : s.pool = p)
      (next : s.next = .go (.seek (b.start now))) : Quests p now (.borrow b) none s
  | clears {b : Borrowing} {pt pt' : Point ρ} {deed : Option Deed} {s : Stretch ρ}
      (stood : pt.Sweeping (.borrow b)) (stands : pt'.Sweeping (.borrow b))
      (next : s.next = .go pt') (same : s.pool.registry = p.registry)
      (kept : ∀ id ∈ pt.charges.map (·.1), id ∈ pt'.has) (ahead : pt'.ahead < pt.ahead)
      (sweep : ∀ x ∈ deed, x.isSweep = true) : Quests p now pt deed s
  | swept {b : Borrowing} {n : Nat} {s : Stretch ρ} (same : s.pool = p)
      (next : s.next = .go (.seek (b.start now))) :
      Quests p now (.reclaiming [] n (.borrow b)) none s
  | seeks {b : Borrowing} {s : Stretch ρ} (looks : p.Seeks b none s) :
      Quests p now (.seek b) none s
  | returns {b : Borrowing} {x : Nat} {s : Stretch ρ} (looks : p.Seeks b (some x) s) :
      Quests p now (.waiting b x) none s
  | stiff {id : Nat} {b : Borrowing} {fresh : Bool} {s : Stretch ρ} (reason : String)
      (gives : s.Discards p id (b.afterwards fresh (.factory .activate reason))) :
      Quests p now (.activating id (.lend b fresh)) (some (.readied id (some reason))) s
  | ready {id : Nat} {b : Borrowing} {fresh : Bool} {s : Stretch ρ}
      (test : checksLent p.config fresh = true)
      (next : s.next = .go (.validating id (.trial (.lend b fresh))))
      (same : s.pool.registry = p.registry) :
      Quests p now (.activating id (.lend b fresh)) (some (.readied id none)) s
  | hands {id : Nat} {b : Borrowing} {fresh : Bool} {s : Stretch ρ}
      (test : checksLent p.config fresh = false) (next : s.next = .finish (.lent id))
      (same : s.pool.registry = p.registry) :
      Quests p now (.activating id (.lend b fresh)) (some (.readied id none)) s
  | fit {id : Nat} {b : Borrowing} {fresh : Bool} {s : Stretch ρ}
      (next : s.next = .finish (.lent id)) (same : s.pool.registry = p.registry) :
      Quests p now (.validating id (.trial (.lend b fresh))) (some (.checked id true)) s
  | unfit {id : Nat} {b : Borrowing} {fresh : Bool} {s : Stretch ρ}
      (gives : s.Discards p id (b.afterwards fresh .validationFailed)) :
      Quests p now (.validating id (.trial (.lend b fresh))) (some (.checked id false)) s
  | dropped {id : Nat} {v : ρ} {b : Borrowing} {s : Stretch ρ} (next : s.next = .go (.seek b))
      (same : s.pool = p) :
      Quests p now (.destroying id v .normal (.seek b)) (some (.destroyed id .normal)) s
  | unmade {b : Borrowing} {s : Stretch ρ} (reason : String)
      (next : s.next = .finish (.failed (.factory .create reason)))
      (books : s.pool.registry = p.registry.cancelReservation) :
      Quests p now (.creating (.lend b)) (some (.made (some reason))) s
  | made {b : Borrowing} {s : Stretch ρ} (isOpen : p.closed = false)
      (next : s.next = .go (.activating p.entries.length (.lend b true)))
      (books : s.pool.registry = p.registry.registerActive p.entries.length) :
      Quests p now (.creating (.lend b)) (some (.made none)) s
  | late {b : Borrowing} {s : Stretch ρ} (v : ρ) (closed : p.closed = true)
      (next : s.next = .go (.destroying p.entries.length v .normal (.reply (.failed .closed))))
      (books : s.pool.registry = p.registry.cancelReservation) :
      Quests p now (.creating (.lend b)) (some (.made none)) s
  | failed {id : Nat} {v : ρ} {e : PoolError} {s : Stretch ρ} (next : s.next = .finish (.failed e))
      (same : s.pool = p) : Quests p now (.destroying id v .normal (.reply (.failed e)))
        (some (.destroyed id .normal)) s

variable {p : Pool ρ} {ℓ : Ledger ρ} {now : Instant} {id : Nat} {b : Borrowing} {fresh : Bool}
  {v : ρ}

/-! ### Point by point -/

theorem quests_borrow : p.Quests now (.borrow b) none (p.borrow now b) := by
  unfold borrow
  -- what is due depends on the settings, on the state of the pool, and on the trigger
  split
  · rename_i a hset
    have hdue : p.overdue now = if a.onBorrow && !p.closed && a.trigger p.status then
        objects (p.reclaimFrom now a.timeout p.registry.active).2 else [] := by
      unfold overdue
      rw [hset]
    split
    · rename_i hsweep
      exact .sweeps (hdue.trans (if_pos hsweep)) rfl rfl
    · rename_i hsweep
      exact .begins (hdue.trans (if_neg hsweep)) rfl rfl
  · rename_i hset
    refine .begins ?_ rfl rfl
    unfold overdue
    rw [hset]

theorem Sound.seeks (h : p.Sound ℓ) (now : Instant) (b : Borrowing) (ticket : Option Nat) :
    p.Seeks b ticket (p.seek now b ticket) := by
  have hleft : ∀ q : Pool ρ,
      q.registry.UpToLine ((q.leaveLine ticket).book Registry.wakeIfAvailable).registry :=
    fun q => (q.upToLine_leaveLine ticket).wakeIfAvailable
  -- a borrower that finds nothing
  have hnone : p.closed = false →
      (p.mayTake ticket = true → p.registry.idle = [] ∧ p.registry.hasRoom = false) →
      p.Seeks b ticket
        (if p.givesUp now b then p.exhaust b ticket else p.standInLine b ticket) := by
    intro hopen hvain
    split
    · refine .givesUp hopen hvain rfl ?_
      show p.registry.UpToLine (if p.outOfLine ticket then
        (p.leaveLine ticket).book Registry.wakeIfAvailable else p.leaveLine ticket).registry
      split
      · exact hleft p
      · exact p.upToLine_leaveLine ticket
    · cases ticket with
      | none => exact .waits hopen hvain rfl (fun y hy => nomatch hy) rfl
      | some x =>
        refine .waits (x := x) hopen hvain rfl (fun y hy => Option.some.inj hy) ?_
        show p.registry.UpToLine (if p.registry.line.isWoken x then
          p.book fun r => { r with line := r.line.reenter x } else p).registry
        split <;> rfl
  unfold Pool.seek
  split
  · rename_i hclosed
    exact .shut hclosed rfl (p.upToLine_leaveLine ticket)
  · rename_i hopen
    have hopen' : p.closed = false := Bool.eq_false_iff.mpr hopen
    -- a borrower looks if nobody is in line before it, or if it was woken
    by_cases hmay : p.mayTake ticket = true
    · rw [if_pos hmay, h.acquire_eq now]
      cases hi : p.registry.idle with
      | cons id rest =>
        obtain ⟨v, hf⟩ := h.lendIdle hi now
        have hslot : ((((p.book (Registry.lend id rest)).markLent now id).leaveLine ticket).book
            Registry.wakeIfAvailable).slot? id = some v := by
          have hlent : ((p.book (Registry.lend id rest)).markLent now id).slot? id = some v :=
            hf.slot?
          cases ticket <;> exact hlent
        dsimp only
        unfold activate
        rw [hslot]
        exact .takes hopen' hmay hi rfl (hleft _)
      | nil =>
        dsimp only
        by_cases hr : p.registry.hasRoom = true
        · rw [if_pos hr]
          exact .reserves hopen' hmay hi hr rfl (hleft _)
        · rw [if_neg hr]
          exact hnone hopen' fun _ => ⟨hi, Bool.eq_false_iff.mpr hr⟩
    · rw [if_neg hmay]
      exact hnone hopen' fun hm => absurd hm hmay

/-- An object that is unfit for the borrower is given up. -/
theorem SameBut.refuse {q : Pool ρ} (h : SameBut id p q) (hslot : q.slot? id = some v)
    (b : Borrowing) (fresh : Bool) (e : PoolError) :
    (q.refuse id b fresh e).Discards p id (b.afterwards fresh e) := by
  cases fresh with
  | true => exact h.destroy hslot (.reply (.failed e))
  | false =>
    have hgives := h.destroy hslot (.seek b)
    exact ⟨hgives.next, hgives.config, hgives.registry, hgives.others, hgives.forgot⟩

theorem quests_activated {y : Entry ρ} (hy : p.object? id = some y) (v : ρ)
    (refusal : Option String) : p.Quests now (.activating id (.lend b fresh))
      (some (.readied id refusal)) (p.activatedForLoan id b fresh v refusal) := by
  have hfree : SameBut id p (p.letGo id v) := (SameBut.refl id p).modify _
  have hslot : (p.letGo id v).slot? id = some v := by
    unfold slot? letGo
    rw [object?_modify, if_pos rfl, hy]
    rfl
  unfold activatedForLoan
  cases refusal with
  | some reason => exact .stiff reason (hfree.refuse hslot b fresh _)
  | none =>
    dsimp only
    -- the object is checked next, or handed out as it is
    split
    · rename_i htest
      exact .ready htest rfl rfl
    · rename_i htest
      refine .hands (Bool.eq_false_iff.mpr htest) rfl ?_
      exact noteBorrower_registry (p.letGo id v) id b.site

theorem quests_validated (hslot : p.slot? id = some v) (fit : Bool) :
    p.Quests now (.validating id (.trial (.lend b fresh))) (some (.checked id fit))
      (p.validatedForLoan id b fresh fit) := by
  have hreleased : SameBut id p (p.release id) := (SameBut.refl id p).modify _
  have hslot' : (p.release id).slot? id = some v :=
    slot?_modify_self (f := fun e => { e with held := false }) (fun _ => rfl) hslot
  unfold validatedForLoan
  cases fit with
  | true => exact .fit rfl (noteBorrower_registry (p.release id) id b.site)
  | false => exact .unfit ((hreleased.count _).refuse hslot' b fresh _)

theorem quests_created (b : Borrowing) (v : ρ) :
    p.Quests now (.creating (.lend b)) (some (.made none)) (p.createdForLoan now b v) := by
  have hslot : (p.enlist now v .allocated).slot? p.entries.length = some v := by
    rw [slot?_eq_shape?, shape?_enlist, if_pos rfl]
    rfl
  -- a pool that was closed meanwhile does not enlist the new object among the lent ones
  cases hclosed : p.closed with
  | true =>
    refine .late v hclosed (createdForLoan_closed hclosed now b v) ?_
    unfold createdForLoan
    dsimp only
    rw [if_pos (show ((p.count _).enlist now v .allocated).closed = true from hclosed)]
    unfold finishDestroy
    rw [dispose_pool]
    rfl
  | false =>
    unfold createdForLoan
    dsimp only
    rw [if_neg (by
      rw [show ((p.count _).enlist now v .allocated).closed = false from hclosed]
      exact Bool.false_ne_true)]
    have hmarked : ((((p.count fun c => { c with created := c.created + 1 }).enlist now v
        .allocated).book (Registry.registerActive p.entries.length)).modify p.entries.length
          (Entry.markBorrowed now)).slot? p.entries.length = some v :=
      slot?_modify_self (f := Entry.markBorrowed now) (fun _ => rfl) hslot
    unfold activate
    rw [hmarked]
    exact .made hclosed rfl rfl

/-! ### Objects that were taken from others -/

/-- The books list such an object no longer. -/
theorem disposeReclaimed_registry (p : Pool ρ) (x : Reclaimed ρ) (rest : List (Reclaimed ρ))
    (n : Nat) (k : Sweeper) : (p.disposeReclaimed x rest n k).pool.registry = p.registry := by
  unfold disposeReclaimed
  rw [dispose_pool]
  rfl

theorem reclaimNext_registry (p : Pool ρ) (x : Reclaimed ρ) (rest : List (Reclaimed ρ))
    (n : Nat) (k : Sweeper) : (p.reclaimNext x rest n k).pool.registry = p.registry := by
  have hdispose := p.disposeReclaimed_registry x rest n k
  unfold reclaimNext
  split
  · split
    · split
      · exact hdispose
      · rfl
    · exact hdispose
  · exact hdispose

theorem quests_reclaimNext {x : Reclaimed ρ} (hv : x.resource = some v) (rest : List (Reclaimed ρ))
    (n : Nat) : p.Quests now (.reclaiming (x :: rest) n (.borrow b)) none
      (p.reclaimNext x rest n (.borrow b)) := by
  have hregistry := p.reclaimNext_registry x rest n (.borrow b)
  have hcharges : ∀ id ∈ (Point.reclaiming (x :: rest) n (.borrow b)).charges.map (·.1),
      id = x.object ∨ id ∈ (seizures rest).map (·.1) := fun id hid => List.mem_cons.mp hid
  have hahead : ∀ {m : Nat}, m < 3 → 3 * rest.length + m < 3 * (x :: rest).length := by
    intro m hm
    rw [List.length_cons]
    omega
  -- the object goes to the factory, or its report to the sink first
  rcases (reclaimNext_shows hv p rest n (.borrow b)).2 with hd | ⟨-, hgo⟩
  · refine .clears (.next _ n) (.given x.object v rest n) hd.next hregistry (fun id hid => ?_)
      (hahead (by decide)) fun _ hx => nomatch hx
    exact List.mem_append.mpr ((hcharges id hid).symm.imp_right List.mem_singleton.mpr)
  · refine .clears (.next _ n) (.tells _ x rest n) (congrArg Stretch.next hgo) hregistry
      (fun id hid => ?_) (hahead (by decide)) fun _ hx => nomatch hx
    exact List.mem_append_left _ hid

theorem quests_reported {x : Reclaimed ρ} (hv : x.resource = some v) (r : Report)
    (rest : List (Reclaimed ρ)) (n : Nat) : p.Quests now (.reporting r x rest n (.borrow b))
      (some (.tookReport r.object)) (p.disposeReclaimed x rest n (.borrow b)) := by
  have hd := (disposeReclaimed_shows hv p rest n (.borrow b)).1
  refine .clears (.tells r x rest n) (.given x.object v rest n) hd.next
    (p.disposeReclaimed_registry x rest n _) (fun id hid => ?_) (Nat.lt_succ_self _) fun y hy => ?_
  · exact List.mem_append.mpr ((List.mem_cons.mp hid).symm.imp_right List.mem_singleton.mpr)
  · obtain rfl := Option.some.inj hy
    rfl

theorem quests_reclaimed (id : Nat) (v : ρ) (rest : List (Reclaimed ρ)) (n : Nat)
    (refusal : Option String) :
    p.Quests now (.destroying id v .abandoned (.reclaim rest n (.borrow b)))
      (some (.destroyed id .abandoned)) (p.destroyed id (.reclaim rest n (.borrow b)) refusal) := by
  refine .clears (.given id v rest n) (.next rest n) ?_ ?_ (fun x hx => ?_) (Nat.lt_succ_self _)
    fun y hy => ?_
  · cases refusal <;> rfl
  · rw [destroyed_pool]
  · exact List.mem_append_left _ hx
  · obtain rfl := Option.some.inj hy
    rfl

theorem quests_swept (n : Nat) :
    p.Quests now (.reclaiming [] n (.borrow b)) none (p.swept now n (.borrow b)) := by
  refine .swept ?_ ?_
  · exact Stretch.notingIf_pool ..
  · exact Stretch.notingIf_next ..

end Pool

/-- An object in the charge of a call has its resource, unless it was taken from a borrower. -/
theorem Pool.Sound.slot_of_charge {p : Pool ρ} {ℓ : Ledger ρ} {id : Nat} {c : Custody ρ}
    (h : p.Sound ℓ) (hc : (id, c) ∈ ℓ.charges) (hkept : ∀ r, c ≠ .seized r) :
    ∃ y v, p.object? id = some y ∧ p.slot? id = some v := by
  obtain ⟨u, hhas, hv⟩ := h.position_of_charge hc
  obtain ⟨v, x, hx, hslot⟩ : ∃ v x, u.shape = some x ∧ x.slot = some v := by
    cases hhas with
    | seized r => exact absurd rfl (hkept _)
    | _ => exact ⟨_, _, rfl, rfl⟩
  have hshape : p.shape? id = some x := (congrArg Position.shape hv).trans hx
  obtain ⟨y, hy, -⟩ := Option.map_eq_some_iff.mp hshape
  refine ⟨y, v, hy, ?_⟩
  rw [slot?_eq_shape?, hshape]
  exact hslot

/-- Every turn of a borrow is one of the kinds listed. -/
theorem Episode.IsTurn.quests {t d : Nat} {e : Episode ρ} {a : Activity ρ} {q : Pool ρ}
    {s : Stretch ρ} {g : Nat → List Nat} (h : e.IsTurn t d a q s) (hw : e.before.Sound g)
    (hpt : a.point.Quests) : q.Quests e.before.now a.point e.deed? s := by
  have hsound := (hw.pools a.pool).sound q h.works.pool
  have hcharge : ∀ {pt : Point ρ} {id : Nat}, a.point = pt → (id, .lending) ∈ pt.charges →
      ∃ y v, q.object? id = some y ∧ q.slot? id = some v := fun hpt hc =>
    hsound.slot_of_charge (c := .lending) (h.works.charge_mem g (hpt ▸ hc))
      fun _ => nofun
  have hseized : ∀ id r, (id, .seized r) ∈ a.point.charges → ∃ v, r = some v :=
    fun _ _ => h.works.resource_of_seized hw
  -- at each point the pool has one way to go on, or one to take the answer
  obtain ⟨i, pt⟩ := a
  rcases h.cases with ⟨hdeed, hs⟩ | ⟨r, -, hdeed, hs⟩
  · rw [hdeed]
    cases hpt with
    | begins b =>
      cases hs
      exact Pool.quests_borrow
    | sweeps b hsweep =>
      cases hsweep with
      | next xs n =>
        cases hs with
        | swept => exact Pool.quests_swept n
        | reclaiming x rest =>
          obtain ⟨v, hv⟩ := hseized x.object x.resource (List.mem_cons_self ..)
          exact Pool.quests_reclaimNext hv rest n
      | tells | given => cases hs
    | seeks b =>
      cases hs
      exact .seeks (hsound.seeks _ b none)
    | waits b x =>
      cases hs
      exact .returns (hsound.seeks _ b (some x))
    | tries | checks | drops | makes | fails => cases hs
  · rw [hdeed]
    cases hpt with
    | begins => cases hs
    | sweeps b hsweep =>
      cases hsweep with
      | next => cases hs
      | tells r x rest n =>
        cases hs
        obtain ⟨v, hv⟩ := hseized x.object x.resource (List.mem_cons_self ..)
        exact Pool.quests_reported hv r rest n
      | given id v rest n =>
        cases hs with
        | destroyed _ _ _ _ refusal => exact Pool.quests_reclaimed id v rest n refusal
    | seeks | waits => cases hs
    | tries id b fresh =>
      cases hs with
      | activatedForLoan _ _ _ v refusal =>
        obtain ⟨y, -, hy, -⟩ := hcharge rfl (List.mem_singleton.mpr rfl)
        exact Pool.quests_activated hy v refusal
    | checks id b fresh =>
      cases hs with
      | validatedForLoan _ _ _ fit =>
        obtain ⟨y, v, -, hslot⟩ := hcharge rfl (List.mem_singleton.mpr rfl)
        exact Pool.quests_validated hslot fit
    | drops id v b =>
      cases hs with
      | destroyed _ _ _ _ refusal =>
        refine .dropped ?_ (q.destroyed_pool id (.seek b) refusal)
        cases refusal <;> rfl
    | makes b =>
      cases hs with
      | notCreated _ reason => exact .unmade reason rfl rfl
      | createdForLoan _ v => exact Pool.quests_created b v
    | fails id v err =>
      cases hs with
      | destroyed _ _ _ _ refusal =>
        refine .failed ?_ (q.destroyed_pool id (.reply (.failed err)) refusal)
        cases refusal <;> rfl

end ObjectPool
