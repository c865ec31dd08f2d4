/-
  ObjectPool.Proofs.Stretch.Carries

  What a call that tries to get an object, for a borrower or for the stock, carries from one stretch
  to the next. An object that it has in its charge, or that was just made for it, stays there or
  goes to the factory to be destroyed, unless the call has reached its aim; and it holds one place
  at most, once.

    * `Point.Strives` — where such a call stands.
    * `Point.chances` — how many places it may yet take.
    * `Pool.Carries` — what it carries on.
    * `Quests.carries`, `Supplies.carries` — every stretch of such a call does so.
-/

import ObjectPool.Proofs.Stretch.Supplies

namespace ObjectPool

variable {ρ : Type}

/-! ## Calls that try to get an object -/

/-- Where a call stands that tries to get an object and began at the point `start`. -/
inductive Point.Strives (start : Point ρ) : Point ρ → Prop
  | quests {pt : Point ρ} (b : Borrowing) (begun : start = .borrow b) (h : pt.Quests) :
      Strives start pt
  | supplies {pt : Point ρ} (k : Stocker) (begun : start = k.asks) (h : pt.Supplies k) :
      Strives start pt

/-- How many places such a call may yet take. -/
def Point.chances : Point ρ → Nat
  | .borrow _ | .seek _ | .waiting _ _ | .add | .filling _ _ | .reclaiming _ _ _
  | .reporting _ _ _ _ _ | .activating _ (.lend _ false)
  | .validating _ (.trial (.lend _ false)) | .destroying _ _ .abandoned _
  | .destroying _ _ .normal (.seek _) => 1
  | _ => 0

theorem Point.Sweeping.chances {k : Sweeper} {pt : Point ρ} (h : pt.Sweeping k) :
    pt.chances = 1 ∧ pt.places = 0 := by
  cases h <;> exact ⟨rfl, rfl⟩

/-- No turn of a call that began at the point `start` loses sight of an object, unless the object is
    among the idle ones or has found its borrower. -/
structure Pool.Carries (p : Pool ρ) (start pt : Point ρ) (deed : Option Deed) (s : Stretch ρ) :
    Prop where
  onward : ∀ pt', s.next = .go pt' →
    (∃ f m f' m', start = .filling f m ∧ pt' = .filling f' m') ∨
      (start.Strives pt' ∧ (∀ id ∈ pt.charges.map (·.1), id ∈ pt'.has) ∧
        (deed = some (.made none) → p.entries.length ∈ pt'.has) ∧
        pt'.chances + (pt'.places - pt.places) ≤ pt.chances)
  failed : ∀ e, s.next = .finish (.failed e) → pt.charges = [] ∧ deed ≠ some (.made none)

namespace Pool

variable {p : Pool ρ} {start pt pt' : Point ρ} {deed : Option Deed} {s : Stretch ρ} {k : Stocker}
  {now : Instant} {b b₀ : Borrowing}

namespace Carries

/-- A turn after which the call goes on. -/
theorem of_go (next : s.next = .go pt') (strives : start.Strives pt')
    (kept : ∀ id ∈ pt.charges.map (·.1), id ∈ pt'.has)
    (made : deed = some (.made none) → p.entries.length ∈ pt'.has)
    (chances : pt'.chances + (pt'.places - pt.places) ≤ pt.chances) :
    p.Carries start pt deed s := by
  refine ⟨fun pt'' hn => .inr ?_, fun e hn => (nomatch hn.symm.trans next)⟩
  obtain rfl := Next.go.inj (hn.symm.trans next)
  exact ⟨strives, kept, made, chances⟩

/-- The last turn. -/
theorem of_finish {r : Reply} (next : s.next = .finish r)
    (failed : ∀ e, r = .failed e → pt.charges = [] ∧ deed ≠ some (.made none)) :
    p.Carries start pt deed s := by
  refine ⟨fun pt' hn => (nomatch hn.symm.trans next), fun e hn => failed e ?_⟩
  exact Next.finish.inj (next.symm.trans hn)

/-- The last turn of a call that has nothing in its charge. -/
theorem of_end {r : Reply} (next : s.next = .finish r) (hpt : pt.charges = [])
    (hdeed : deed ≠ some (.made none)) : p.Carries start pt deed s :=
  of_finish next fun _ _ => ⟨hpt, hdeed⟩

end Carries

theorem Seeks.carries {ticket : Option Nat} (h : p.Seeks b ticket s) (hpt : pt.charges = [])
    (hchances : pt.chances = 1) : p.Carries (.borrow b₀) pt none s := by
  have hgo : ∀ {pt' : Point ρ}, s.next = .go pt' → pt'.Quests → pt'.chances + pt'.places = 1 →
      p.Carries (.borrow b₀) pt none s := by
    intro pt' next hquests hone
    refine .of_go next (.quests b₀ rfl hquests) ?_ nofun (by omega)
    rw [hpt]
    exact fun _ hid => nomatch hid
  cases h with
  | shut _ next => exact .of_end next hpt nofun
  | takes _ _ _ next => exact hgo next (.tries _ b false) rfl
  | reserves _ _ _ _ next => exact hgo next (.makes b) rfl
  | givesUp _ _ next => exact .of_end next hpt nofun
  | waits _ _ next => exact hgo next (.waits b _) rfl

theorem Quests.carries (h : p.Quests now pt deed s) : p.Carries (.borrow b₀) pt deed s := by
  have hgo : ∀ {pt' : Point ρ}, s.next = .go pt' → pt'.Quests →
      (∀ id ∈ pt.charges.map (·.1), id ∈ pt'.has) →
      (deed = some (.made none) → p.entries.length ∈ pt'.has) →
      pt'.chances + (pt'.places - pt.places) ≤ pt.chances →
      p.Carries (.borrow b₀) pt deed s :=
    fun next hquests => .of_go next (.quests b₀ rfl hquests)
  -- an object that is given up is in the factory's hands at the next point
  have hgives : ∀ {id : Nat} {b : Borrowing} {fresh : Bool} {e : PoolError},
      pt.charges.map (·.1) = [id] → deed ≠ some (.made none) →
      pt.chances = (if fresh then 0 else 1) → s.Discards p id (b.afterwards fresh e) →
      p.Carries (.borrow b₀) pt deed s := by
    intro id b fresh e hcharges hdeed hchances gives
    obtain ⟨v, next⟩ := gives.next
    have hkept : ∀ {pt' : Point ρ}, pt'.buried = [id] →
        ∀ x ∈ pt.charges.map (·.1), x ∈ pt'.has := by
      intro pt' hburied x hx
      rw [hcharges] at hx
      exact List.mem_append_right _ (hburied ▸ hx)
    cases fresh with
    | true =>
      refine hgo next (.fails id v e) (hkept rfl) (fun hm => absurd hm hdeed) ?_
      show 0 + (0 - pt.places) ≤ pt.chances
      omega
    | false =>
      refine hgo next (.drops id v b) (hkept rfl) (fun hm => absurd hm hdeed) ?_
      show 1 + (0 - pt.places) ≤ pt.chances
      rw [hchances]
      exact Nat.add_le_add_left (Nat.le_of_eq (Nat.zero_sub _)) 1
  cases h with
  | sweeps _ _ next =>
    exact hgo next (.sweeps _ (.next _ _)) (fun _ hid => nomatch hid) nofun (Nat.le_refl _)
  | begins _ _ next => exact hgo next (.seeks _) (fun _ hid => nomatch hid) nofun (Nat.le_refl _)
  | clears stood stands next _ kept _ sweep =>
    refine hgo next (.sweeps _ stands) kept (fun hm => ?_) ?_
    · have hsweep := sweep (.made none) hm
      exact nomatch hsweep
    · rw [stood.chances.1, stands.chances.1, stands.chances.2, Nat.zero_sub]
  | swept _ next => exact hgo next (.seeks _) (fun _ hid => nomatch hid) nofun (Nat.le_refl _)
  | seeks looks => exact looks.carries rfl rfl
  | returns looks => exact looks.carries rfl rfl
  | @stiff _ _ fresh _ reason gives => exact hgives rfl nofun (by cases fresh <;> rfl) gives
  | @ready _ _ fresh _ _ next =>
    refine hgo next (.checks _ _ fresh) (fun _ hid => List.mem_append_left _ hid) nofun ?_
    cases fresh <;> exact Nat.le_refl _
  | hands _ next => exact .of_finish next fun _ => nofun
  | fit next => exact .of_finish next fun _ => nofun
  | @unfit _ _ fresh _ gives => exact hgives rfl nofun (by cases fresh <;> rfl) gives
  | dropped next => exact hgo next (.seeks _) (fun _ hid => nomatch hid) nofun (Nat.le_refl _)
  | unmade reason next => exact .of_end next rfl nofun
  | made _ next =>
    refine hgo next (.tries _ _ true) (fun _ hid => nomatch hid) (fun _ => ?_) (Nat.le_refl _)
    exact List.mem_append_left _ (List.mem_singleton.mpr rfl)
  | late v _ next =>
    refine hgo next (.fails _ v _) (fun _ hid => nomatch hid) (fun _ => ?_) (Nat.le_refl _)
    exact List.mem_append_right _ (List.mem_singleton.mpr rfl)
  | failed next => exact .of_end next rfl nofun

theorem Supplies.carries (h : p.Supplies k pt deed s) : p.Carries k.asks pt deed s := by
  have hgo : ∀ {pt' : Point ρ}, s.next = .go pt' → pt'.Supplies k →
      (∀ id ∈ pt.charges.map (·.1), id ∈ pt'.has) →
      (deed = some (.made none) → p.entries.length ∈ pt'.has) →
      pt'.chances + (pt'.places - pt.places) ≤ pt.chances → p.Carries k.asks pt deed s :=
    fun next hsupplies => .of_go next (.supplies k rfl hsupplies)
  have hasks : (k.asks (ρ := ρ)).charges = [] ∧ (k.asks (ρ := ρ)).chances = 1 ∧
      (k.asks (ρ := ρ)).places = 0 := by
    cases k <;> exact ⟨rfl, rfl, rfl⟩
  cases h with
  | refused r next => exact .of_end next hasks.1 nofun
  | reserves next =>
    refine hgo next .makes (fun id hid => ?_) nofun ?_
    · rw [hasks.1] at hid
      exact nomatch hid
    · rw [hasks.2.1, hasks.2.2]
      exact Nat.le_refl _
  | unmade reason r next => exact .of_end next rfl nofun
  | checks next =>
    refine hgo next (.checks _) (fun _ hid => nomatch hid) (fun _ => ?_) (Nat.le_refl _)
    exact List.mem_append_left _ (List.mem_singleton.mpr rfl)
  | lays next =>
    refine hgo next (.lays _) (fun _ hid => nomatch hid) (fun _ => ?_) (Nat.le_refl _)
    exact List.mem_append_left _ (List.mem_singleton.mpr rfl)
  | fit next =>
    exact hgo next (.lays _) (fun _ hid => List.mem_append_left _ hid) nofun (Nat.le_refl _)
  | stocked next =>
    -- the call has reached its aim, and may go on to another object
    rcases next with next | ⟨f, m, rfl, next⟩
    · exact .of_finish next fun _ => nofun
    · refine ⟨fun pt' hn => .inl ⟨f, m, f, m + 1, rfl, ?_⟩,
        fun e hn => (nomatch hn.symm.trans next)⟩
      exact Next.go.inj (hn.symm.trans next)
  | @spare id v pt deed _ e stood unmade next =>
    have hstood : pt.charges.map (·.1) = [id] ∧ pt.chances = 0 := by
      rcases stood with rfl | rfl <;> exact ⟨rfl, rfl⟩
    refine hgo next (.fails id v e) (fun x hx => ?_) (fun hm => ?_) ?_
    · rw [hstood.1] at hx
      exact List.mem_append_right _ hx
    · exact absurd (Option.some.inj hm) (unmade none)
    · rw [hstood.2]
      show 0 + (0 - pt.places) ≤ 0
      omega
  | unstocked r next => exact .of_end next rfl nofun

end Pool

end ObjectPool
