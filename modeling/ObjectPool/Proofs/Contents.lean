/-
  ObjectPool.Proofs.Contents

  Where the resources of a pool are: in the slots of its objects and, once taken out
  of them, with the calls that destroy them. A stretch passes resources on and never
  swaps them: whatever is true of every resource and its object before the stretch,
  and of what the factory has just brought, is true of them after it.

    * `Point.resources` — the resources that a call has taken out of their slots.
    * `Pool.Keeps`, `Stretch.Keeps` — what is true of every resource.
-/

import ObjectPool.Call

namespace ObjectPool

variable {ρ : Type}

/-! ## Resources out of their slots -/

/-- The resources of objects that were taken back from their borrowers. -/
def takenBack (xs : List (Reclaimed ρ)) : List (Nat × ρ) :=
  xs.flatMap fun x => x.resource.toList.map (x.object, ·)

/-- The resources that wait for what follows the end of an object. -/
def After.resources : After ρ → List (Nat × ρ)
  | .reclaim rest _ _ => takenBack rest
  | .seek _ | .reply _ | .notStocked _ _ | .evict _ _ _ | .drain _ _ => []

/-- The resources that a call has taken out of their slots, each with its object. -/
def Point.resources : Point ρ → List (Nat × ρ)
  | .reclaiming rest _ _ => takenBack rest
  | .reporting _ x rest _ _ => takenBack (x :: rest)
  | .destroying id r _ k => (id, r) :: k.resources
  | _ => []

/-- The resources that a call has taken out of their slots once a stretch is over. -/
def Next.resources : Next ρ → List (Nat × ρ)
  | .go pt => pt.resources
  | .finish _ => []

/-- The object whose resource the factory changes when it answers. -/
def Point.subject? : Point ρ → Option Nat
  | .activating id _ | .passivating id _ => some id
  | _ => none

/-- The resource that the factory gives back. -/
def Response.resource? : Response ρ → Option ρ
  | .activated r _ | .passivated r _ => some r
  | _ => none

/-! ## What is true of every resource -/

section Keeps

variable {ok : Nat → ρ → Prop}

/-- Something is true of each resource and its object. -/
def AllFit (ok : Nat → ρ → Prop) (l : List (Nat × ρ)) : Prop := ∀ x ∈ l, ok x.1 x.2

theorem AllFit.nil : AllFit ok [] := fun _ hx => nomatch hx

theorem AllFit.cons {id : Nat} {r : ρ} {l : List (Nat × ρ)} (hr : ok id r) (hl : AllFit ok l) :
    AllFit ok ((id, r) :: l) := by
  intro x hx
  rcases List.mem_cons.mp hx with rfl | hx
  · exact hr
  · exact hl x hx

theorem AllFit.append {l m : List (Nat × ρ)} (hl : AllFit ok l) (hm : AllFit ok m) :
    AllFit ok (l ++ m) := by
  intro x hx
  rcases List.mem_append.mp hx with hx | hx
  · exact hl x hx
  · exact hm x hx

/-- Something is true of the resource in each slot of a pool. -/
def Pool.Keeps (ok : Nat → ρ → Prop) (p : Pool ρ) : Prop :=
  ∀ id r, p.slot? id = some r → ok id r

/-- Something is true of what the factory brings with an answer: a new object, or the resource
    that it gives back. -/
structure Pool.Brings (ok : Nat → ρ → Prop) (p : Pool ρ) (pt : Point ρ) (c : Response ρ) :
    Prop where
  created : ∀ m r, pt = .creating m → c = .created (.ok r) → ok p.entries.length r
  changed : ∀ id r, pt.subject? = some id → c.resource? = some r → ok id r

/-- Something is true of every resource once a stretch is over. -/
structure Stretch.Keeps (ok : Nat → ρ → Prop) (s : Stretch ρ) : Prop where
  pool : s.pool.Keeps ok
  next : AllFit ok s.next.resources

/-- A record in the journal moves no resource. -/
theorem Stretch.Keeps.noting {s : Stretch ρ} (h : s.Keeps ok) (n : Notice) :
    (s.noting n).Keeps ok := ⟨h.pool, h.next⟩

theorem Stretch.Keeps.notingIf {s : Stretch ρ} (h : s.Keeps ok) (c : Bool) (n : Notice) :
    (s.notingIf c n).Keeps ok := by
  unfold Stretch.notingIf
  split
  · exact h.noting n
  · exact h

namespace Pool.Keeps

variable {p : Pool ρ} {id : Nat} {r : ρ}

theorem modify (h : p.Keeps ok) {f : Entry ρ → Entry ρ}
    (hf : ∀ e r, (f e).slot = some r → e.slot = some r ∨ ok id r) : (p.modify id f).Keeps ok := by
  intro x r hr
  rw [slot?, object?_modify] at hr
  split at hr
  · rename_i hx
    subst hx
    rw [Option.bind_map] at hr
    obtain ⟨e, he, hslot⟩ := Option.bind_eq_some_iff.mp hr
    rcases hf e r hslot with hold | hok
    · exact h id r (Option.bind_eq_some_iff.mpr ⟨e, he, hold⟩)
    · exact hok
  · exact h x r hr

/-- A change to an object beside its resource. -/
theorem beside (h : p.Keeps ok) {f : Entry ρ → Entry ρ} (hf : ∀ e, (f e).slot = e.slot) :
    (p.modify id f).Keeps ok :=
  h.modify fun e _ hr => .inl ((hf e).symm.trans hr)

theorem book (h : p.Keeps ok) (f : Registry → Registry) : (p.book f).Keeps ok := h

theorem count (h : p.Keeps ok) (f : Counters → Counters) : (p.count f).Keeps ok := h

theorem detach (h : p.Keeps ok) : (p.detach id).Keeps ok := h

theorem setState (h : p.Keeps ok) (s : Lifecycle) : (p.setState id s).Keeps ok :=
  h.beside (Entry.become_slot s)

theorem hold (h : p.Keeps ok) : (p.hold id).Keeps ok := h.beside fun _ => rfl

theorem release (h : p.Keeps ok) : (p.release id).Keeps ok := h.beside fun _ => rfl

theorem letGo (h : p.Keeps ok) (hr : ok id r) : (p.letGo id r).Keeps ok :=
  h.modify fun _ _ he => .inr (Option.some.inj he ▸ hr)

/-- The factory goes on with the resource that it gives back. -/
theorem update (h : p.Keeps ok) (hr : ok id r) :
    (p.modify id fun e => { e with slot := some r }).Keeps ok :=
  h.modify fun _ _ he => .inr (Option.some.inj he ▸ hr)

theorem emptySlot (h : p.Keeps ok) : (p.emptySlot id).Keeps ok :=
  h.modify fun _ _ he => nomatch he

theorem retire (h : p.Keeps ok) : (p.retire id).Keeps ok :=
  (h.setState .invalid).beside (f := fun e => { e with lastUse := none }) fun _ => rfl

theorem markBorrowed (h : p.Keeps ok) (now : Instant) (id : Nat) :
    (p.modify id (Entry.markBorrowed now)).Keeps ok :=
  h.beside fun _ => rfl

theorem markLent (h : p.Keeps ok) (now : Instant) : (p.markLent now id).Keeps ok :=
  h.beside fun e => Entry.become_slot .allocated (e.markBorrowed now)

theorem enlist (h : p.Keeps ok) (now : Instant) (s : Lifecycle) (hr : ok p.entries.length r) :
    (p.enlist now r s).Keeps ok := by
  intro x v hv
  obtain ⟨e, he, hslot⟩ := Option.bind_eq_some_iff.mp hv
  have he : (p.entries ++ [Entry.fresh now r s])[x]? = some e := he
  rw [List.getElem?_append] at he
  split at he
  · exact h x v (Option.bind_eq_some_iff.mpr ⟨e, he, hslot⟩)
  · rename_i hlt
    obtain ⟨hx, rfl⟩ := List.getElem?_eq_some_iff.mp he
    -- the new object is the last one
    have hx : x = p.entries.length := by
      rw [List.length_singleton] at hx
      omega
    subst hx
    simp only [List.getElem_singleton, Entry.fresh, Option.some.injEq] at hslot
    exact hslot ▸ hr

/-! ## How a stretch ends -/

theorem go (h : p.Keeps ok) {pt : Point ρ} (hpt : AllFit ok pt.resources) : (p.go pt).Keeps ok :=
  ⟨h, hpt⟩

theorem finish (h : p.Keeps ok) (r : Reply) : (p.finish r).Keeps ok := ⟨h, .nil⟩

end Pool.Keeps

end Keeps

end ObjectPool
