/-
  ObjectPool.Proofs.Stretch.Refilling

  How the reserve of idle objects is filled, stretch by stretch. Whoever fills it looks whether it
  needs one more object and whether there is room for one, has it made, checked and laid to rest,
  and looks again. Each stretch works on the books and on one object, the new one.

    * `Filler.reply`, `Filler.notices` — what a call tells in the end.
    * `Pool.ConfinedTo` — a change to the books and to one object.
    * `Pool.Unwanted` — why a new object does not join the idle ones.
    * `Pool.Refills`, `IsTurn.refills` — every turn of such a call.
-/

import ObjectPool.Proofs.Stretch.Supplies

namespace ObjectPool

variable {ρ : Type}

/-! ## What a call tells in the end -/

namespace Filler

/-- The reply of a call that has filled the reserve with so many objects, or was stopped by an
    error. -/
def reply : Filler → Except PoolError Nat → Reply
  | .prepare, .ok n => .made n
  | .prepare, .error e => .failed e
  | .upkeep _ _, _ => .done

/-- What it writes into the journal. -/
def notices : Filler → Except PoolError Nat → List Notice
  | .prepare, _ => []
  | .upkeep out back, .ok n => [.upkeepDone out back n]
  | .upkeep out back, .error e => [.refillFailed e, .upkeepDone out back 0]

end Filler

/-- A stretch in which a call ends that has filled the reserve, with the result `x`. -/
structure Stretch.Tells (f : Filler) (x : Except PoolError Nat) (s : Stretch ρ) : Prop where
  next : s.next = .finish (f.reply x)
  /-- They are the last that the stretch writes. -/
  notices : f.notices x <:+ s.notices

theorem Stretch.Tells.noting {f : Filler} {x : Except PoolError Nat} {s : Stretch ρ}
    (h : s.Tells f x) (n : Notice) : (s.noting n).Tells f x :=
  ⟨h.next, h.notices.trans (List.suffix_cons ..)⟩

/-- The error with which a call is stopped after an answer of the factory. -/
def Deed.fault? : Deed → Option PoolError
  | .made refusal => refusal.map (PoolError.factory .create)
  | .checked _ fit => if fit then none else some .validationFailed
  | .laidToRest _ refusal => refusal.map (PoolError.factory .passivate)
  | _ => none

namespace Pool

variable {p q : Pool ρ} {f : Filler} {k : Stocker} {id m : Nat} {v : ρ} {e : PoolError}
  {now : Instant}

theorem filled_tells (p : Pool ρ) (f : Filler) (m : Nat) : (p.filled f m).Tells f (.ok m) := by
  cases f <;> exact ⟨rfl, List.suffix_rfl⟩

theorem notStocked_tells (p : Pool ρ) (f : Filler) (m : Nat) (e : PoolError) :
    (p.notStocked (.fill f m) e).Tells f (.error e) := by
  cases f <;> exact ⟨rfl, List.suffix_rfl⟩

/-! ## Where the work shows -/

/-- What has become of the pool `p` is confined to the object `id`: there are `n` objects then, and
    `r` are the books. -/
structure ConfinedTo (p : Pool ρ) (id n : Nat) (r : Registry) (q : Pool ρ) : Prop where
  registry : q.registry = r
  length : q.entries.length = n
  others : ∀ x, x ≠ id → q.object? x = p.object? x

/-- What is counted is no matter. -/
theorem ConfinedTo.of_count {c : Counters → Counters} {n : Nat} {r : Registry}
    (h : (p.count c).ConfinedTo id n r q) : p.ConfinedTo id n r q :=
  ⟨h.registry, h.length, h.others⟩

theorem ConfinedTo.trans {p' : Pool ρ} {n n' : Nat} {r r' : Registry} (h : p.ConfinedTo id n r q)
    (h' : q.ConfinedTo id n' r' p') : p.ConfinedTo id n' r' p' :=
  ⟨h'.registry, h'.length, fun x hx => (h'.others x hx).trans (h.others x hx)⟩

theorem confinedTo_modify (p : Pool ρ) (id : Nat) (g : Entry ρ → Entry ρ) :
    p.ConfinedTo id p.entries.length p.registry (p.modify id g) where
  registry := rfl
  length := List.length_modify ..
  others x hx := by rw [object?_modify, if_neg (Ne.symm hx)]

/-- A new object is the one with the next number. -/
theorem confinedTo_enlist (p : Pool ρ) (now : Instant) (v : ρ) (s : Lifecycle) :
    p.ConfinedTo p.entries.length (p.entries.length + 1) p.registry (p.enlist now v s) where
  registry := rfl
  length := List.length_append
  others x hx := by
    show (p.entries ++ [_])[x]? = p.entries[x]?
    rcases Nat.lt_or_ge x p.entries.length with hlt | hge
    · exact List.getElem?_append_left hlt
    · rw [List.getElem?_eq_none hge, List.getElem?_append_right hge,
        List.getElem?_eq_none (Nat.le_sub_of_add_le' (Nat.lt_of_le_of_ne hge (Ne.symm hx)))]

theorem confinedTo_retire (p : Pool ρ) (id : Nat) :
    p.ConfinedTo id p.entries.length p.registry (p.retire id) := by
  have hstate := p.confinedTo_modify id (Entry.become .invalid)
  have huse := (p.setState id .invalid).confinedTo_modify id fun y => { y with lastUse := none }
  rw [show (p.setState id .invalid).entries.length = p.entries.length from hstate.length] at huse
  have h : p.ConfinedTo id p.entries.length p.registry ((p.setState id .invalid).forgetUse id) :=
    hstate.trans huse
  exact ⟨h.registry, h.length, h.others⟩

/-- An object that is not tracked is destroyed. -/
theorem confinedTo_finishDestroy (p : Pool ρ) (id : Nat) (k : After ρ) :
    p.ConfinedTo id p.entries.length p.registry (p.finishDestroy id k).pool := by
  have hslot := p.confinedTo_modify id fun y => { y with slot := none }
  have hretire := (p.emptySlot id).confinedTo_retire id
  rw [show (p.emptySlot id).entries.length = p.entries.length from hslot.length] at hretire
  unfold finishDestroy
  rw [dispose_pool]
  exact hslot.trans hretire

/-! ## What a stretch can come to -/

/-- Why a new object does not join the idle ones, with the fault that it may have. -/
inductive Unwanted (p : Pool ρ) (fault : Option PoolError) : PoolError → Prop
  | shut (closed : p.closed = true) : Unwanted p fault .closed
  | full (isOpen : p.closed = false) (full : p.config.maxIdle ≤ p.registry.idle.length) :
      Unwanted p fault (.exhausted .zero)
  | unfit {e : PoolError} (isOpen : p.closed = false)
      (room : p.registry.idle.length < p.config.maxIdle) (faulty : fault = some e) :
      Unwanted p fault e

/-- Only the books and the settings matter. -/
theorem Unwanted.of_same {fault : Option PoolError} (h : q.Unwanted fault e)
    (hreg : q.registry = p.registry) (hcfg : q.config = p.config) : p.Unwanted fault e := by
  have hclosed : p.closed = q.closed := congrArg Registry.closed hreg.symm
  cases h with
  | shut closed => exact .shut (hclosed.trans closed)
  | full isOpen full =>
    rw [hreg, hcfg] at full
    exact .full (hclosed.trans isOpen) full
  | unfit isOpen room faulty =>
    rw [hreg, hcfg] at room
    exact .unfit (hclosed.trans isOpen) room faulty

/-- What a stretch of a call comes to that fills the reserve and has made `m` objects before, from
    the pool `p`. -/
inductive Refills (p : Pool ρ) (f : Filler) (m : Nat) : Point ρ → Option Deed → Stretch ρ → Prop
  /-- There is nothing left to do. -/
  | enough {s : Stretch ρ}
      (reason : p.closed = true ∨ p.config.minIdle ≤ p.registry.idle.length ∨
        p.registry.hasRoom = false)
      (tells : s.Tells f (.ok m)) (same : s.pool = p) : Refills p f m (.filling f m) none s
  | reserves {s : Stretch ρ} (isOpen : p.closed = false)
      (short : p.registry.idle.length < p.config.minIdle) (room : p.registry.hasRoom = true)
      (next : s.next = .go (.creating (.stock (.fill f m))))
      (books : s.pool = p.book Registry.reserve) : Refills p f m (.filling f m) none s
  | unmade {s : Stretch ρ} (reason : String)
      (tells : s.Tells f (.error (.factory .create reason)))
      (books : s.pool = p.book Registry.cancelReservation) :
      Refills p f m (.creating (.stock (.fill f m))) (some (.made (some reason))) s
  | made {s : Stretch ρ}
      (next : s.next = .go (if p.config.testOnCreate
        then .validating p.entries.length (.stock (.fill f m))
        else .passivating p.entries.length (.stock (.fill f m))))
      (confined : p.ConfinedTo p.entries.length (p.entries.length + 1) p.registry s.pool) :
      Refills p f m (.creating (.stock (.fill f m))) (some (.made none)) s
  | fit {id : Nat} {s : Stretch ρ}
      (next : s.next = .go (.passivating id (.stock (.fill f m)))) (same : s.pool = p) :
      Refills p f m (.validating id (.stock (.fill f m))) (some (.checked id true)) s
  /-- The new object is among the idle ones, and the call looks again. -/
  | joins {id : Nat} {s : Stretch ρ} (isOpen : p.closed = false)
      (room : p.registry.idle.length < p.config.maxIdle)
      (next : s.next = .go (.filling f (m + 1)))
      (confined : p.ConfinedTo id p.entries.length (p.registry.registerIdle id) s.pool) :
      Refills p f m (.passivating id (.stock (.fill f m))) (some (.laidToRest id none)) s
  /-- The new object and the place for it are given up. -/
  | unfit {id : Nat} {v : ρ} {s : Stretch ρ} {e : PoolError}
      (unwanted : p.Unwanted (Deed.checked id false).fault? e)
      (next : s.next = .go (.destroying id v .normal (.notStocked (.fill f m) e)))
      (confined : p.ConfinedTo id p.entries.length p.registry.cancelReservation s.pool) :
      Refills p f m (.validating id (.stock (.fill f m))) (some (.checked id false)) s
  | spare {id : Nat} {v : ρ} {s : Stretch ρ} {e : PoolError} (refusal : Option String)
      (unwanted : p.Unwanted (Deed.laidToRest id refusal).fault? e)
      (next : s.next = .go (.destroying id v .normal (.notStocked (.fill f m) e)))
      (confined : p.ConfinedTo id p.entries.length p.registry.cancelReservation s.pool) :
      Refills p f m (.passivating id (.stock (.fill f m))) (some (.laidToRest id refusal)) s
  | unstocked {id : Nat} {v : ρ} {e : PoolError} {s : Stretch ρ} (tells : s.Tells f (.error e))
      (same : s.pool = p) :
      Refills p f m (.destroying id v .normal (.notStocked (.fill f m) e))
        (some (.destroyed id .normal)) s

/-! ## Point by point -/

/-- A look at the reserve. -/
theorem refills_fill (p : Pool ρ) (f : Filler) (m : Nat) :
    p.Refills f m (.filling f m) none (p.fill f m) := by
  unfold Pool.fill
  split
  · rename_i hreason
    refine .enough hreason (p.filled_tells f m) ?_
    cases f <;> rfl
  · rename_i hreason
    simp only [not_or, Bool.not_eq_true, Bool.not_eq_false, Nat.not_le] at hreason
    exact .reserves hreason.1 hreason.2.1 hreason.2.2 rfl rfl

theorem refills_notCreated (p : Pool ρ) (f : Filler) (m : Nat) (reason : String) :
    p.Refills f m (.creating (.stock (.fill f m))) (some (.made (some reason)))
      (p.notCreated (.stock (.fill f m)) reason) := by
  refine .unmade reason (((p.book _).notStocked_tells f m _).noting _) ?_
  exact (notStocked_ends (p.book _) (.fill f m) _).2

theorem refills_created (p : Pool ρ) (now : Instant) (f : Filler) (m : Nat) (v : ρ) :
    p.Refills f m (.creating (.stock (.fill f m))) (some (.made none))
      (p.createdForStock now (.fill f m) v) := by
  have hnew := (p.count fun c => { c with created := c.created + 1 }).confinedTo_enlist now v .idle
  have hhold := ((p.count fun c => { c with created := c.created + 1 }).enlist now v
    .idle).confinedTo_modify p.entries.length fun y => { y with held := true }
  rw [hnew.length, hnew.registry] at hhold
  have hconfined := (hnew.trans hhold).of_count
  rw [createdForStock_eq]
  refine .made ?_ ?_
  · dsimp only
    show Stretch.next (if p.config.testOnCreate then _ else _) = _
    split <;> rfl
  · dsimp only
    split <;> exact hconfined

/-- A new object with its resource joins the idle ones, or it is given up for a reason. -/
theorem settle_outcome (hslot : p.slot? id = some v) (k : Stocker) (fault : Option PoolError) :
    (fault = none ∧ p.closed = false ∧ p.registry.idle.length < p.config.maxIdle ∧
      p.settle id k fault = (p.book (Registry.registerIdle id)).stocked k) ∨
    ∃ e, p.Unwanted fault e ∧
      (p.settle id k fault).next = .go (.destroying id v .normal (.notStocked k e)) ∧
      p.ConfinedTo id p.entries.length p.registry.cancelReservation (p.settle id k fault).pool := by
  have hgives : ∀ e, ((p.book Registry.cancelReservation).finishDestroy id (.notStocked k e)).next =
      .go (.destroying id v .normal (.notStocked k e)) := by
    intro e
    show (dispose _ id (p.slot? id) .normal _).next = _
    rw [hslot]
    rfl
  have hconfined : ∀ e, p.ConfinedTo id p.entries.length p.registry.cancelReservation
      ((p.book Registry.cancelReservation).finishDestroy id (.notStocked k e)).pool := by
    intro e
    have hbook : p.ConfinedTo id p.entries.length p.registry.cancelReservation
        (p.book Registry.cancelReservation) := ⟨rfl, rfl, fun _ _ => rfl⟩
    exact hbook.trans ((p.book Registry.cancelReservation).confinedTo_finishDestroy id _)
  unfold settle
  dsimp only
  by_cases hclosed : p.closed = true
  · rw [if_pos hclosed]
    exact .inr ⟨_, .shut hclosed, hgives _, hconfined _⟩
  · rw [if_neg hclosed]
    have hopen : p.closed = false := Bool.eq_false_iff.mpr hclosed
    by_cases hfull : p.config.maxIdle ≤ p.registry.idle.length
    · rw [if_pos hfull]
      exact .inr ⟨_, .full hopen hfull, hgives _, hconfined _⟩
    · rw [if_neg hfull]
      have hroom := Nat.lt_of_not_le hfull
      cases fault with
      | none => exact .inl ⟨rfl, hopen, hroom, rfl⟩
      | some e => exact .inr ⟨e, .unfit hopen hroom rfl, hgives e, hconfined e⟩

theorem refills_validated (hslot : p.slot? id = some v) (f : Filler) (m : Nat) (fit : Bool) :
    p.Refills f m (.validating id (.stock (.fill f m))) (some (.checked id fit))
      (p.validatedForStock id (.fill f m) fit) := by
  unfold validatedForStock
  cases fit with
  | true => exact .fit rfl rfl
  | false =>
    have hslot' : (p.release id).slot? id = some v :=
      slot?_modify_self (f := fun y => { y with held := false }) (fun _ => rfl) hslot
    have hrelease := p.confinedTo_modify id fun y => { y with held := false }
    rcases settle_outcome (p := (p.release id).count fun c =>
      { c with validationFailures := c.validationFailures + 1 }) hslot' (.fill f m)
      (some .validationFailed) with ⟨hnone, -⟩ | ⟨e, hunwanted, hnext, hconfined⟩
    · exact nomatch hnone
    · refine .unfit (hunwanted.of_same rfl rfl) hnext ⟨hconfined.registry, ?_, fun x hx => ?_⟩
      · exact hconfined.length.trans hrelease.length
      · exact (hconfined.others x hx).trans (hrelease.others x hx)

theorem refills_passivated {y : Entry ρ} (hy : p.object? id = some y) (f : Filler) (m : Nat) (v : ρ)
    (refusal : Option String) :
    p.Refills f m (.passivating id (.stock (.fill f m))) (some (.laidToRest id refusal))
      (p.passivatedForStock id (.fill f m) v refusal) := by
  have hslot : (p.letGo id v).slot? id = some v := by
    unfold slot? letGo
    rw [object?_modify, if_pos rfl, hy]
    rfl
  have hletGo : p.ConfinedTo id p.entries.length p.registry (p.letGo id v) :=
    p.confinedTo_modify id _
  unfold passivatedForStock
  rcases settle_outcome hslot (.fill f m) (refusal.map (PoolError.factory .passivate)) with
    ⟨hnone, hopen, hroom, hjoins⟩ | ⟨e, hunwanted, hnext, hconfined⟩
  · obtain rfl := Option.map_eq_none_iff.mp hnone
    rw [hjoins]
    have hbook : p.ConfinedTo id p.entries.length (p.registry.registerIdle id)
        ((p.letGo id v).book (Registry.registerIdle id)) :=
      ⟨rfl, hletGo.length, hletGo.others⟩
    exact .joins hopen hroom rfl hbook
  · rw [hletGo.length] at hconfined
    exact .spare refusal (hunwanted.of_same rfl rfl) hnext (hletGo.trans hconfined)

end Pool

/-- Every turn of a call that fills the reserve is one of the kinds listed. -/
theorem Episode.IsTurn.refills {t d m : Nat} {e : Episode ρ} {a : Activity ρ} {q : Pool ρ}
    {s : Stretch ρ} {g : Nat → List Nat} {f : Filler} (h : e.IsTurn t d a q s)
    (hw : e.before.Sound g) (hpt : a.point.Supplies (.fill f m)) :
    q.Refills f m a.point e.deed? s := by
  have hsound := (hw.pools a.pool).sound q h.works.pool
  -- a new object is in the charge of the call
  have hcharge : ∀ {pt : Point ρ} {id : Nat}, a.point = pt → (id, .stocking) ∈ pt.charges →
      ∃ y v, q.object? id = some y ∧ q.slot? id = some v := fun hpt hc =>
    hsound.slot_of_charge (c := .stocking) (h.works.charge_mem g (hpt ▸ hc)) fun _ => nofun
  obtain ⟨i, pt⟩ := a
  rcases h.cases with ⟨hdeed, hs⟩ | ⟨r, -, hdeed, hs⟩
  · rw [hdeed]
    cases hpt with
    | asks =>
      cases hs
      exact q.refills_fill f m
    | makes | checks | lays | fails => cases hs
  · rw [hdeed]
    cases hpt with
    | asks => cases hs
    | makes =>
      cases hs with
      | notCreated _ reason => exact q.refills_notCreated f m reason
      | createdForStock _ v => exact q.refills_created _ f m v
    | checks id =>
      cases hs with
      | validatedForStock _ _ fit =>
        obtain ⟨y, v, -, hslot⟩ := hcharge rfl (List.mem_singleton.mpr rfl)
        exact Pool.refills_validated hslot f m fit
    | lays id =>
      cases hs with
      | passivatedForStock _ _ v refusal =>
        obtain ⟨y, -, hy, -⟩ := hcharge rfl (List.mem_singleton.mpr rfl)
        exact Pool.refills_passivated hy f m v refusal
    | fails id v err =>
      cases hs with
      | destroyed _ _ _ _ refusal =>
        have htells := q.notStocked_tells f m err
        refine .unstocked ?_ (q.destroyed_pool id _ refusal)
        cases refusal with
        | none => exact htells
        | some reason => exact htells.noting _

end ObjectPool
