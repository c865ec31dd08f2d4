/-
  ObjectPool.Proofs.Conservation

  No resource is lost and none is destroyed twice, in every run. Each object that
  the factory made is at one place: with the call that has just got it, among the
  tracked objects, with a call that is about to destroy it, or destroyed; and until
  it is destroyed its resource is there (`World.Conserves`). When the last reference
  to a pool is gone, every resource of the pool was destroyed.
-/

import ObjectPool.Proofs.Agreement
import ObjectPool.Proofs.Identity
import ObjectPool.Proofs.Ownership

namespace ObjectPool

variable {ρ : Type}

namespace Custody

/-- An object is new, and only the call that got it from the factory knows of it. -/
def isNew : Custody ρ → Bool
  | .stocking => true
  | _ => false

/-- An object is no longer tracked and is about to be destroyed. -/
def isDoomed : Custody ρ → Bool
  | .evicted | .drained | .seized _ => true
  | _ => false

end Custody

/-! ## One object -/

namespace Position.Legal

variable {v : Position ρ}

/-- An object is at one place, once it was made. -/
theorem place (h : v.Legal) : v.charges.countP Custody.isNew + v.tracked +
    v.charges.countP Custody.isDoomed + v.graves = if v.shape.isSome then 1 else 0 := by
  cases h with
  | unborn | idle | lent | dead => rfl
  | entrusted he => cases he <;> rfl

/-- The resource of an object is in its slot or with the call that took it out, until it is
    destroyed. -/
theorem resource (h : v.Legal) (hs : v.shape.isSome = true) (hg : v.graves = 0) :
    (∃ r, v.shape.bind (·.slot) = some r) ∨ ∃ r, .seized (some r) ∈ v.charges := by
  cases h with
  | unborn => exact nomatch hs
  | dead => exact nomatch hg
  | idle r | lent g r => exact .inl ⟨r, rfl⟩
  | entrusted he =>
    cases he with
    | seized r _ => exact .inr ⟨r, List.mem_singleton.mpr rfl⟩
    | _ => exact .inl ⟨_, rfl⟩

end Position.Legal

/-- A call that has taken a resource from a borrower has it. -/
theorem mem_takenBack {id : Nat} {r : ρ} {xs : List (Reclaimed ρ)}
    (h : (id, .seized (some r)) ∈ seizures xs) : (id, r) ∈ takenBack xs := by
  obtain ⟨x, hx, heq⟩ := List.mem_map.mp h
  obtain ⟨rfl, hr⟩ := Prod.mk.inj heq
  refine List.mem_flatMap.mpr ⟨x, hx, List.mem_map.mpr ⟨r, ?_, rfl⟩⟩
  exact Option.mem_toList.mpr (Custody.seized.inj hr)

theorem not_seized_of_each {id : Nat} {r : Option ρ} {ids : List Nat} {c : Custody ρ}
    (hc : c ≠ .seized r) : (id, .seized r) ∉ each ids c := by
  intro h
  obtain ⟨x, -, heq⟩ := List.mem_map.mp h
  exact hc (Prod.mk.inj heq).2

theorem Point.resource_of_charge {pt : Point ρ} {id : Nat} {r : ρ}
    (h : (id, .seized (some r)) ∈ pt.charges) : (id, r) ∈ pt.resources := by
  -- charges of the other kinds are none of an object taken from its borrower
  have hsweep : ∀ out tests : List Nat, (id, .seized (some r)) ∉ sweeping (ρ := ρ) out tests := by
    intro out tests hmem
    rcases List.mem_append.mp hmem with hout | htests
    · exact not_seized_of_each (by simp) hout
    · exact not_seized_of_each (by simp) htests
  have htest : ∀ (x : Nat) (tests : List Nat),
      (id, .seized (some r)) ∉ ((x, .trying) :: each tests .untried : List (Nat × Custody ρ)) := by
    intro x tests hmem
    rcases List.mem_cons.mp hmem with heq | htests
    · exact nomatch (Prod.mk.inj heq).2
    · exact not_seized_of_each (by simp) htests
  have hone : ∀ (x : Nat) (c : Custody ρ), c ≠ .seized (some r) →
      (id, .seized (some r)) ∉ [(x, c)] := by
    intro x c hc hmem
    exact hc (Prod.mk.inj (List.mem_singleton.mp hmem)).2.symm
  cases pt with
  | reclaiming rest n s => exact mem_takenBack h
  | reporting report x rest n s =>
    have hseized : (id, .seized (some r)) ∈ seizures (x :: rest) := h
    exact mem_takenBack hseized
  | destroying x v mode k =>
    refine List.mem_cons_of_mem _ ?_
    cases k with
    | reclaim rest n s => exact mem_takenBack h
    | evict out tests n => exact absurd h (hsweep _ _)
    | drain rest d => exact absurd h (not_seized_of_each (by simp))
    | seek b | reply r | notStocked s e => exact nomatch h
  | evicting out tests n => exact absurd h (hsweep _ _)
  | draining rest d => exact absurd h (not_seized_of_each (by simp))
  | joining k rest c => exact absurd h (not_seized_of_each (by simp))
  | activating x t =>
    cases t with
    | lend b fresh => exact absurd h (hone _ _ (by simp))
    | test tests n => exact absurd h (htest _ _)
  | validating x c =>
    cases c with
    | trial t =>
      cases t with
      | lend b fresh => exact absurd h (hone _ _ (by simp))
      | test tests n => exact absurd h (htest _ _)
    | stock s => exact absurd h (hone _ _ (by simp))
    | takeBack answer => exact absurd h (hone _ _ (by simp))
  | passivating x t =>
    cases t with
    | test tests n => exact absurd h (htest _ _)
    | stock s => exact absurd h (hone _ _ (by simp))
    | takeBack answer => exact absurd h (hone _ _ (by simp))
  | borrow | seek | waiting | add | prepare | filling | upkeep | takeBack | discard | clear
  | close | creating => exact nomatch h

/-! ## All objects of a pool -/

namespace World

variable {w : World ρ} {gs : List Nat} {i id : Nat} {p : Pool ρ}

/-- A resource of an object is in the slot or with a call that has taken it out. -/
def HasResource (w : World ρ) (i id : Nat) (r : ρ) : Prop :=
  ((w.entriesOf i)[id]?).bind (·.slot) = some r ∨ ∃ pt ∈ w.points i, (id, r) ∈ pt.resources

theorem Keeps.of_hasResource {ok : Nat → Nat → ρ → Prop} (h : w.Keeps ok) {r : ρ}
    (hr : w.HasResource i id r) : ok i id r := by
  rcases hr with hslot | ⟨pt, hpt, hmem⟩
  · exact h.objects i id r hslot
  · obtain ⟨th, hth, ha⟩ := mem_points.mp hpt
    exact h.calls _ (mem_activities.mpr ⟨th, hth, ha⟩) (id, r) hmem

/-- The resources that the factory made for the pool `i` in some episodes, and what became of
    them. -/
structure Conserves (w : World ρ) (es : List (Episode ρ)) (i : Nat) (p : Pool ρ) : Prop where
  /-- No number was given to two resources. -/
  distinct : ((births es i).map (·.1)).Nodup
  /-- Each resource is new, or tracked, or about to be destroyed, or destroyed, and no two of
      these; and it was destroyed at most once. -/
  places : ((births es i).map (·.1)).Perm
    (w.inCharge i Custody.isNew ++ p.registry.tracked ++ w.inCharge i Custody.isDoomed ++
      (burials es i).map (·.1))
  /-- A resource that was not destroyed is still there. -/
  there : ∀ x ∈ births es i, x.1 ∉ (burials es i).map (·.1) → ∃ r, w.HasResource i x.1 r
  /-- What is there and what was destroyed has the marks of what the factory made. -/
  same : ∀ {μ : Type} (mark : ρ → μ), (∀ e ∈ es, e.Preserves mark) →
    (∀ id r, w.HasResource i id r → Made mark es i id r) ∧
      ∀ x ∈ burials es i, Made mark es i x.1 x.2
  /-- The pool counts what was made and what was destroyed. -/
  counted : p.metrics.counters.created = (births es i).length ∧
    p.metrics.counters.destroyed = (burials es i).length
  /-- Between calls every resource is idle, or lent, or was destroyed. -/
  balance : w.Quiet i → p.metrics.counters.created =
    p.metrics.counters.destroyed + p.metrics.status.idle + p.metrics.status.active
  /-- Once nobody refers to the pool each of its resources was destroyed. -/
  gone : w.references i = 0 → ((burials es i).map (·.1)).Perm ((births es i).map (·.1))

/-- Each object that was made is at one place. -/
theorem perm_places (h : p.Sound (.of p (w.points i) (w.lent i) gs)) :
    (List.range p.entries.length).Perm
      (w.inCharge i Custody.isNew ++ p.registry.tracked ++ w.inCharge i Custody.isDoomed ++
        gs) := by
  rw [List.perm_iff_count]
  intro id
  have hplace := (h.objects id).place
  -- the objects that were made are those with a number below the next one
  have hmade : (p.position (.of p (w.points i) (w.lent i) gs) id).shape.isSome =
      decide (id < p.entries.length) := by
    show (p.shape? id).isSome = _
    by_cases hid : id < p.entries.length <;> simp [Pool.shape?, Pool.object?, hid]
  rw [hmade] at hplace
  simp only [decide_eq_true_eq] at hplace
  rw [List.count_append, List.count_append, List.count_append, count_inCharge, count_inCharge,
    List.nodup_range.count]
  simp only [List.mem_range]
  exact hplace.symm

/-- A pool to which nobody refers is closed, so that it has no idle objects and nobody has any of
    its objects. -/
theorem Sound.closed_of_unreferenced {g : Nat → List Nat} (h : w.Sound g)
    (hp : w.pools[i]? = some p) (hr : w.references i = 0) :
    p.closed = true ∧ w.points i = [] ∧ w.lent i = [] := by
  have hrefs := hr
  rw [references_eq] at hrefs
  have hpoints : w.points i = [] := List.eq_nil_of_length_eq_zero (by omega)
  have hlent : w.lent i = [] := List.eq_nil_of_length_eq_zero (by omega)
  refine ⟨?_, hpoints, hlent⟩
  rcases (h.pools i).shutting p hp (h.kept i p hp hr) with hc | ⟨c, hc⟩
  · exact hc
  · rw [hpoints] at hc
    exact nomatch hc

/-- Nothing is tracked by a pool to which nobody refers. -/
theorem Sound.tracked_of_unreferenced {g : Nat → List Nat} (h : w.Sound g)
    (hp : w.pools[i]? = some p) (hr : w.references i = 0) : p.registry.tracked = [] := by
  obtain ⟨hclosed, hpoints, hlent⟩ := h.closed_of_unreferenced hp hr
  have hsound := (h.pools i).sound p hp
  have hidle : p.registry.idle = [] := hsound.books.shut hclosed
  have hquiet : w.Quiet i := by
    intro pt hpt
    rw [hpoints] at hpt
    exact nomatch hpt
  -- a lent object would have a handle, which would be a reference
  have hactive : p.registry.active = [] := by
    rw [List.eq_nil_iff_forall_not_mem]
    intro id hid
    obtain ⟨n, x, hx, hxi, -, -⟩ := (h.pools i).lent hp hquiet hid
    have hmem : x ∈ w.lent i := mem_lent.mpr ⟨⟨n, hx⟩, hxi⟩
    rw [hlent] at hmem
    exact nomatch hmem
  have hperm := (((h.pools i).agrees hp).quiet hquiet).2
  rw [hidle, hactive] at hperm
  exact List.perm_nil.mp hperm

/-- A pool without calls that have objects has none in a charge. -/
theorem inCharge_eq_nil (h : (w.points i).flatMap Point.charges = []) (kind : Custody ρ → Bool) :
    w.inCharge i kind = [] := by
  rw [inCharge, h]
  rfl

end World

variable {es : List (Episode ρ)} {w : World ρ} {i : Nat} {p : Pool ρ}

theorem Run.births_perm (h : Run es w) (hp : w.pools[i]? = some p) :
    ((births es i).map (·.1)).Perm (List.range p.entries.length) := by
  rw [h.births_eq i, World.entriesOf_eq hp]
  exact List.reverse_perm _

/-- Each resource that was made is at one place. -/
theorem Run.places (h : Run es w) (hp : w.pools[i]? = some p) :
    ((births es i).map (·.1)).Perm
      (w.inCharge i Custody.isNew ++ p.registry.tracked ++ w.inCharge i Custody.isDoomed ++
        (burials es i).map (·.1)) := by
  have hplaces := World.perm_places ((h.sound.pools i).sound p hp)
  rw [← graves_eq]
  exact (h.births_perm hp).trans hplaces

/-- A resource that was not destroyed is still there. -/
theorem Run.there (h : Run es w) (hp : w.pools[i]? = some p) {x : Nat × ρ} (hx : x ∈ births es i)
    (hb : x.1 ∉ (burials es i).map (·.1)) : ∃ r, w.HasResource i x.1 r := by
  have hsound := (h.sound.pools i).sound p hp
  have hmade : (p.shape? x.1).isSome = true := by
    have hmem : x.1 ∈ (births es i).map (·.1) := List.mem_map.mpr ⟨x, hx, rfl⟩
    have hlt := List.mem_range.mp ((h.births_perm hp).mem_iff.mp hmem)
    simp [Pool.shape?, Pool.object?, hlt]
  have hgraves : (graves es i).count x.1 = 0 := by
    rw [graves_eq]
    exact List.count_eq_zero.mpr hb
  -- the resource is in the slot of its object, or with the call that took it out
  rcases (hsound.objects x.1).resource hmade hgraves with ⟨r, hslot⟩ | ⟨r, hcharge⟩
  · refine ⟨r, .inl ?_⟩
    rw [World.entriesOf_eq hp]
    exact (Pool.slot?_eq_shape? p x.1).trans hslot
  · obtain ⟨pt, hpt, hmem⟩ := List.mem_flatMap.mp (mem_claims.mp hcharge)
    exact ⟨r, .inr ⟨pt, hpt, Point.resource_of_charge hmem⟩⟩

theorem Run.counted (h : Run es w) (hp : w.pools[i]? = some p) :
    p.metrics.counters.created = (births es i).length ∧
      p.metrics.counters.destroyed = (burials es i).length := by
  have hsound := (h.sound.pools i).sound p hp
  refine ⟨?_, ?_⟩
  · have hlen := (h.births_perm hp).length_eq
    rw [List.length_map, List.length_range] at hlen
    exact (hsound.created.trans hsound.born.symm).trans hlen.symm
  · have hdestroyed : p.counters.destroyed = (graves es i).length := hsound.destroyed
    rw [graves_eq, List.length_map] at hdestroyed
    exact hdestroyed

/-- Between calls every resource is idle, or lent, or was destroyed. -/
theorem Run.balance (h : Run es w) (hp : w.pools[i]? = some p) (hq : w.Quiet i) :
    p.metrics.counters.created =
      p.metrics.counters.destroyed + p.metrics.status.idle + p.metrics.status.active := by
  have hcharges : (w.points i).flatMap Point.charges = [] := hq.flatMap_eq_nil fun _ _ => rfl
  have hplaces := (h.places hp).length_eq
  have htracked := (((h.sound.pools i).agrees hp).quiet hq).2.length_eq
  obtain ⟨hcreated, hdestroyed⟩ := h.counted hp
  -- no object is new or about to be destroyed between calls
  rw [World.inCharge_eq_nil hcharges, World.inCharge_eq_nil hcharges] at hplaces
  simp only [List.length_append, List.length_map, List.length_nil] at hplaces htracked
  have hidle : p.metrics.status.idle = p.registry.idle.length := rfl
  have hactive : p.metrics.status.active = p.registry.active.length := rfl
  omega

/-- Once nobody refers to a pool each of its resources was destroyed. -/
theorem Run.gone (h : Run es w) (hp : w.pools[i]? = some p) (hr : w.references i = 0) :
    ((burials es i).map (·.1)).Perm ((births es i).map (·.1)) := by
  have hplaces := h.places hp
  have hcharges : (w.points i).flatMap Point.charges = [] := by
    rw [(h.sound.closed_of_unreferenced hp hr).2.1]
    rfl
  -- every place but the graves is empty
  rw [World.inCharge_eq_nil hcharges, World.inCharge_eq_nil hcharges,
    h.sound.tracked_of_unreferenced hp hr] at hplaces
  exact hplaces.symm

/-- In every run each resource that the factory made is at one place, is destroyed at most once,
    and is destroyed by the time the pool is gone. -/
theorem resources_conserved (h : Run es w) (hp : w.pools[i]? = some p) : w.Conserves es i p where
  distinct := (h.births_perm hp).nodup_iff.mpr List.nodup_range
  places := h.places hp
  there := fun _ => h.there hp
  same := fun _ hm => ⟨fun _ _ => (h.keeps hm).of_hasResource, fun _ => h.burials_made hm⟩
  counted := h.counted hp
  balance := h.balance hp
  gone := h.gone hp

/-- Of two objects one is given up, and the factory fails to destroy it; the other comes back and
    is destroyed when the last reference to the pool goes. -/
def lastReferenceEvents : List (Event Nat) :=
  [.create { maxTotal := 2 }, .spawn, .spawn,
    .begin 0 0 (.borrow none "first"), .step 0, .step 0, .answer 0 (.created (.ok 7)),
    .answer 0 (.activated 7 none),
    .begin 1 0 (.borrow none "second"), .step 1, .step 1, .answer 1 (.created (.ok 8)),
    .answer 1 (.activated 8 none),
    .invalidate 0 0 0, .step 0, .answer 0 (.destroyed (some "busy")),
    .giveBack 1 0 1, .step 1, .answer 1 (.passivated 8 none),
    .drop 0 0, .step 0, .step 0, .answer 0 (.destroyed none), .step 0]

theorem resources_conserved_to_the_last :
    ∃ p, Run (episodes lastReferenceEvents) (reached lastReferenceEvents) ∧
      (reached lastReferenceEvents).pools[0]? = some p ∧
      (reached lastReferenceEvents).references 0 = 0 ∧
      births (episodes lastReferenceEvents) 0 = [(1, 8), (0, 7)] ∧
      burials (episodes lastReferenceEvents) 0 = [(1, 8), (0, 7)] ∧
      (reached lastReferenceEvents).Conserves (episodes lastReferenceEvents) 0 p :=
  ⟨_, Run.of_events rfl, rfl, rfl, rfl, rfl, resources_conserved (Run.of_events rfl) rfl⟩

end ObjectPool
