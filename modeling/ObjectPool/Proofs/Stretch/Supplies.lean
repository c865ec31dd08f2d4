/-
  ObjectPool.Proofs.Stretch.Supplies

  How a new object joins the idle ones, stretch by stretch. A place is held for it, the factory
  makes it, checks it if the settings say so and lays it to rest. If something goes wrong, or there
  is no use for it any more, the place is given up in the same stretch that sends the object to be
  destroyed.

    * `Stocker.asks`, `Point.Supplies` — where such a call can stand.
    * `Pool.Supplies` — what a stretch of it can come to.
    * `IsTurn.supplies` — every turn of such a call is one of these.
-/

import ObjectPool.Proofs.Stretch.Quests

namespace ObjectPool

variable {ρ : Type}

/-- Where a call stands that is about to ask for an idle object. -/
def Stocker.asks : Stocker → Point ρ
  | .add => .add
  | .fill f m => .filling f m

/-- A point of a call on its way to a new idle object. -/
inductive Point.Supplies (k : Stocker) : Point ρ → Prop
  | asks : Supplies k k.asks
  | makes : Supplies k (.creating (.stock k))
  | checks (id : Nat) : Supplies k (.validating id (.stock k))
  | lays (id : Nat) : Supplies k (.passivating id (.stock k))
  | fails (id : Nat) (v : ρ) (e : PoolError) :
      Supplies k (.destroying id v .normal (.notStocked k e))

namespace Pool

/-- What a stretch of such a call from the pool `p` comes to, point by point, with what the factory
    has done before. -/
inductive Supplies (p : Pool ρ) (k : Stocker) : Point ρ → Option Deed → Stretch ρ → Prop
  | refused {s : Stretch ρ} (r : Reply) (next : s.next = .finish r) (same : s.pool = p) :
      Supplies p k k.asks none s
  | reserves {s : Stretch ρ} (next : s.next = .go (.creating (.stock k)))
      (books : s.pool.registry = p.registry.reserve) : Supplies p k k.asks none s
  | unmade {s : Stretch ρ} (reason : String) (r : Reply) (next : s.next = .finish r)
      (books : s.pool.registry = p.registry.cancelReservation) :
      Supplies p k (.creating (.stock k)) (some (.made (some reason))) s
  | checks {s : Stretch ρ} (next : s.next = .go (.validating p.entries.length (.stock k)))
      (same : s.pool.registry = p.registry) :
      Supplies p k (.creating (.stock k)) (some (.made none)) s
  | lays {s : Stretch ρ} (next : s.next = .go (.passivating p.entries.length (.stock k)))
      (same : s.pool.registry = p.registry) :
      Supplies p k (.creating (.stock k)) (some (.made none)) s
  | fit {id : Nat} {s : Stretch ρ} (next : s.next = .go (.passivating id (.stock k)))
      (same : s.pool.registry = p.registry) :
      Supplies p k (.validating id (.stock k)) (some (.checked id true)) s
  /-- The object is among the idle ones, and the call ends or goes on to the next. -/
  | stocked {id : Nat} {s : Stretch ρ}
      (next : s.next = .finish .done ∨ ∃ f m, k = .fill f m ∧ s.next = .go (.filling f (m + 1))) :
      Supplies p k (.passivating id (.stock k)) (some (.laidToRest id none)) s
  /-- The object and the place for it are given up. -/
  | spare {id : Nat} {v : ρ} {pt : Point ρ} {deed : Deed} {s : Stretch ρ} (e : PoolError)
      (stood : pt = .validating id (.stock k) ∨ pt = .passivating id (.stock k))
      (unmade : ∀ x, deed ≠ .made x)
      (next : s.next = .go (.destroying id v .normal (.notStocked k e)))
      (books : s.pool.registry = p.registry.cancelReservation) : Supplies p k pt (some deed) s
  | unstocked {id : Nat} {v : ρ} {e : PoolError} {s : Stretch ρ} (r : Reply)
      (next : s.next = .finish r) (same : s.pool.registry = p.registry) :
      Supplies p k (.destroying id v .normal (.notStocked k e)) (some (.destroyed id .normal)) s

variable {p : Pool ρ} {k : Stocker} {id : Nat} {v : ρ} {pt : Point ρ} {deed : Deed}

/-! ## Point by point -/

/-- A call that has not stocked an object ends. -/
theorem notStocked_ends (p : Pool ρ) (k : Stocker) (e : PoolError) :
    (∃ r, (p.notStocked k e).next = .finish r) ∧ (p.notStocked k e).pool = p := by
  rcases k with _ | ⟨_ | ⟨out, back⟩, m⟩ <;> exact ⟨⟨_, rfl⟩, rfl⟩

theorem supplies_asks (now : Instant) (self : Nat) (ended : Nat → Bool) {s : Stretch ρ}
    (hs : p.GoesOn now self ended k.asks s) : p.Supplies k k.asks none s := by
  cases k with
  | add =>
    cases hs
    unfold Pool.add
    split
    · exact .refused (k := .add) _ rfl rfl
    · split
      · exact .refused (k := .add) _ rfl rfl
      · exact .reserves (k := .add) rfl rfl
  | fill f m =>
    cases hs
    unfold Pool.fill
    split
    · have hfilled : (∃ r, (p.filled f m).next = .finish r) ∧ (p.filled f m).pool = p := by
        cases f <;> exact ⟨⟨_, rfl⟩, rfl⟩
      obtain ⟨⟨r, hr⟩, hsame⟩ := hfilled
      exact .refused (k := .fill f m) r hr hsame
    · exact .reserves (k := .fill f m) rfl rfl

/-- A new object with its resource joins the idle ones, or it is given up. -/
theorem supplies_settle (hslot : p.slot? id = some v) (fault : Option PoolError)
    (stood : pt = .validating id (.stock k) ∨ pt = .passivating id (.stock k))
    (unmade : ∀ x, deed ≠ .made x)
    (hlays : fault = none → pt = .passivating id (.stock k) ∧ deed = .laidToRest id none)
    {q : Pool ρ} (hq : p.registry = q.registry) :
    q.Supplies k pt (some deed) (p.settle id k fault) := by
  unfold settle
  dsimp only
  split
  · -- nothing stands against it, and so there is no fault
    rename_i hnone
    have hfault : fault = none := by
      split at hnone
      · exact nomatch hnone
      · split at hnone
        · exact nomatch hnone
        · exact hnone
    obtain ⟨rfl, rfl⟩ := hlays hfault
    refine .stocked ?_
    cases k with
    | add => exact .inl rfl
    | fill f m => exact .inr ⟨f, m, rfl, rfl⟩
  · rename_i e _
    refine .spare (v := v) e stood unmade ?_ ?_
    · show (dispose _ id (p.slot? id) .normal _).next = _
      rw [hslot]
      rfl
    · show (dispose ((p.book _).emptySlot id) id (p.slot? id) .normal _).pool.registry = _
      rw [dispose_pool, ← hq]
      rfl

theorem supplies_created (now : Instant) (k : Stocker) (v : ρ) :
    p.Supplies k (.creating (.stock k)) (some (.made none)) (p.createdForStock now k v) := by
  rw [createdForStock_eq]
  dsimp only
  split
  · exact .checks rfl rfl
  · exact .lays rfl rfl

theorem supplies_validated (hslot : p.slot? id = some v) (k : Stocker) (fit : Bool) :
    p.Supplies k (.validating id (.stock k)) (some (.checked id fit))
      (p.validatedForStock id k fit) := by
  unfold validatedForStock
  cases fit with
  | true => exact .fit rfl rfl
  | false =>
    have hslot' : (p.release id).slot? id = some v :=
      slot?_modify_self (f := fun e => { e with held := false }) (fun _ => rfl) hslot
    have hunmade : ∀ x, Deed.checked id false ≠ .made x := fun _ => nofun
    have hunfit : (some PoolError.validationFailed) = none →
        Point.validating (ρ := ρ) id (.stock k) = .passivating id (.stock k) ∧
          Deed.checked id false = .laidToRest id none := nofun
    exact supplies_settle (p := (p.release id).count fun c =>
      { c with validationFailures := c.validationFailures + 1 }) hslot' _ (.inl rfl) hunmade hunfit
      rfl

theorem supplies_passivated {y : Entry ρ} (hy : p.object? id = some y) (k : Stocker) (v : ρ)
    (refusal : Option String) :
    p.Supplies k (.passivating id (.stock k)) (some (.laidToRest id refusal))
      (p.passivatedForStock id k v refusal) := by
  have hslot : (p.letGo id v).slot? id = some v := by
    unfold slot? letGo
    rw [object?_modify, if_pos rfl, hy]
    rfl
  have hunmade : ∀ x, Deed.laidToRest id refusal ≠ .made x := fun _ => nofun
  refine supplies_settle hslot _ (.inr rfl) hunmade (fun hnone => ⟨rfl, ?_⟩) rfl
  rw [Option.map_eq_none_iff.mp hnone]

end Pool

/-- Every turn of a call on its way to a new idle object is one of the kinds listed. -/
theorem Episode.IsTurn.supplies {t d : Nat} {e : Episode ρ} {a : Activity ρ} {q : Pool ρ}
    {s : Stretch ρ} {g : Nat → List Nat} {k : Stocker} (h : e.IsTurn t d a q s)
    (hw : e.before.Sound g) (hpt : a.point.Supplies k) : q.Supplies k a.point e.deed? s := by
  have hsound := (hw.pools a.pool).sound q h.works.pool
  have hcharge : ∀ {pt : Point ρ} {id : Nat}, a.point = pt → (id, .stocking) ∈ pt.charges →
      ∃ y v, q.object? id = some y ∧ q.slot? id = some v := fun hpt hc =>
    hsound.slot_of_charge (c := .stocking) (h.works.charge_mem g (hpt ▸ hc))
      fun _ => nofun
  -- at each point the pool has one way to go on, or one to take the answer
  obtain ⟨i, pt⟩ := a
  rcases h.cases with ⟨hdeed, hs⟩ | ⟨r, -, hdeed, hs⟩
  · rw [hdeed]
    cases hpt with
    | asks => exact Pool.supplies_asks _ _ _ hs
    | makes | checks | lays | fails => cases hs
  · rw [hdeed]
    cases hpt with
    | asks => cases k <;> cases hs
    | makes =>
      cases hs with
      | notCreated _ reason =>
        obtain ⟨⟨r, hr⟩, hsame⟩ :=
          Pool.notStocked_ends (q.book Registry.cancelReservation) k (.factory .create reason)
        exact .unmade reason r hr (congrArg Pool.registry hsame)
      | createdForStock _ v => exact Pool.supplies_created _ k v
    | checks id =>
      cases hs with
      | validatedForStock _ _ fit =>
        obtain ⟨y, v, -, hslot⟩ := hcharge rfl (List.mem_singleton.mpr rfl)
        exact Pool.supplies_validated hslot k fit
    | lays id =>
      cases hs with
      | passivatedForStock _ _ v refusal =>
        obtain ⟨y, -, hy, -⟩ := hcharge rfl (List.mem_singleton.mpr rfl)
        exact Pool.supplies_passivated hy k v refusal
    | fails id v err =>
      cases hs with
      | destroyed _ _ _ _ refusal =>
        obtain ⟨⟨r, hr⟩, -⟩ := Pool.notStocked_ends q k err
        refine .unstocked r ?_ (congrArg Pool.registry (q.destroyed_pool id _ refusal))
        cases refusal <;> exact hr

end ObjectPool
