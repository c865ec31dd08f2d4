/-
  ObjectPool.Proofs.Dossiers

  The dossiers of a pool's objects, event by event. The callers add to a dossier only by a use of
  which the pool takes note: nobody works on the object, and the pool has not taken it back. All
  else is written by the calls of borrowers and by the calls that take objects back, each into the
  dossier of the object that it has at hand.

    * `Episode.usage?` — a use of which the pool takes note.
    * `World.dossiersOf`, `World.dossier?` — the dossiers of a pool.
    * `World.Files`, `Run.files` — what an event makes of the dossier of one object.
    * `Run.filed` — an object that is not out, or is readied for a borrower, shows no use.
-/

import ObjectPool.Proofs.Slots
import ObjectPool.Proofs.Stretch.Dossiers

namespace ObjectPool

variable {ρ : Type}

/-! ## Uses of which a pool takes note -/

/-- The handle through which an object is used in an event, and where that is. -/
def Event.usage? : Event ρ → Option (Nat × String)
  | .access n site _ | .lock n site | .markUsed n site => some (n, site)
  | _ => none

/-- The same if the pool takes note of it: the borrower does not work on the object already, and
    the pool has not taken the object back. -/
def Episode.usage? (e : Episode ρ) : Option (Nat × String) :=
  e.event.usage?.filter fun u => (e.before.loose? u.1).any fun x => (e.before.resource? x).isSome

namespace World

variable {w w' : World ρ} {g : Nat → List Nat} {e : Event ρ} {f : Effect ρ} {t i p n id : Nat}
  {site : String} {x : Handle} {a : Activity ρ} {q : Pool ρ} {s : Stretch ρ} {d : Dossier}

theorem usage?_eq_some (hx : w.handle? n = some x) : Episode.usage? ⟨w, e, f⟩ = some (n, site) ↔
    e.usage? = some (n, site) ∧ x.guarded = false ∧ (w.resource? x).isSome = true := by
  unfold Episode.usage? World.loose?
  rw [Option.filter_eq_some_iff]
  refine and_congr_right fun _ => ?_
  show ((w.handle? n).filter fun x => !x.guarded).any (fun x => (w.resource? x).isSome) = true ↔ _
  rw [hx]
  cases hg : x.guarded <;> simp [Option.filter, hg]

theorem handle_of_usage? (h : Episode.usage? ⟨w, e, f⟩ = some (n, site)) :
    ∃ x, w.handle? n = some x := by
  obtain ⟨-, hloose⟩ := Option.filter_eq_some_iff.mp h
  obtain ⟨x, hx, -⟩ := (Option.any_eq_true _ _).mp hloose
  exact ⟨x, (handle?_of_loose? hx).1⟩

/-- A use through a handle without its resource goes unnoted. -/
theorem usage?_eq_none (hx : w.handle? n = some x) (hu : e.usage? = some (n, site))
    (h : ¬ (x.guarded = false ∧ (w.resource? x).isSome = true)) :
    Episode.usage? ⟨w, e, f⟩ = none := by
  cases hsome : Episode.usage? ⟨w, e, f⟩ with
  | none => rfl
  | some u =>
    have hevent : e.usage? = some u := (Option.filter_eq_some_iff.mp hsome).1
    obtain rfl := Option.some.inj (hu.symm.trans hevent)
    exact absurd ((usage?_eq_some hx).mp hsome).2 h

theorem Works.usage? (h : w.Works e f t a q s) : Episode.usage? ⟨w, e, f⟩ = none := by
  rcases h.runs with ⟨rfl, -⟩ | ⟨r, rfl, -⟩ <;> rfl

/-! ## The dossiers of a pool -/

/-- What the pool `i` keeps of the borrows of its objects, by number. -/
def dossiersOf (w : World ρ) (i : Nat) : List Dossier := (w.entriesOf i).map Entry.dossier

/-- What the pool `i` keeps of the borrows of one object. -/
def dossier? (w : World ρ) (i id : Nat) : Option Dossier := (w.dossiersOf i)[id]?

theorem dossiersOf_eq (hq : w.pools[i]? = some q) : w.dossiersOf i = q.dossiers :=
  congrArg (List.map Entry.dossier) (entriesOf_eq hq)

theorem dossiersOf_congr (h : w'.entriesOf i = w.entriesOf i) :
    w'.dossiersOf i = w.dossiersOf i := congrArg (List.map Entry.dossier) h

theorem dossier?_eq (w : World ρ) (i id : Nat) :
    w.dossier? i id = ((w.entriesOf i)[id]?).map Entry.dossier := List.getElem?_map ..

theorem dossiersOf_onPool (hq : w.pools[p]? = some q) (v : Pool ρ → Pool ρ) (i : Nat) :
    (w.onPool p v).dossiersOf i = if i = p then (v q).dossiers else w.dossiersOf i := by
  unfold dossiersOf
  rw [entriesOf_onPool, hq]
  split <;> rfl

/-- A change to a pool that its dossiers do not show. -/
theorem dossiersOf_onPool_same (hq : w.pools[p]? = some q) {v : Pool ρ → Pool ρ}
    (hv : (v q).dossiers = q.dossiers) (i : Nat) :
    (w.onPool p v).dossiersOf i = w.dossiersOf i := by
  rw [dossiersOf_onPool hq]
  split
  · rename_i hi
    rw [hi, dossiersOf_eq hq, hv]
  · rfl

/-- The dossier of an object tells from its state whether it is out. -/
theorem dossier_of_shape (hq : w.pools[i]? = some q) {v : Shape ρ} (hv : q.shape? id = some v) :
    ∃ d, w.dossier? i id = some d ∧ d.out = v.state.isOut := by
  obtain ⟨y, hy, rfl⟩ := Option.map_eq_some_iff.mp hv
  refine ⟨y.dossier, ?_, rfl⟩
  rw [dossier?_eq, entriesOf_eq hq, show q.entries[id]? = some y from hy]
  rfl

/-- A change to the dossier of one object. -/
theorem dossier?_modify (h : ∀ j, w'.dossiersOf j =
      if j = p then (w.dossiersOf j).modify n v else w.dossiersOf j) (i id : Nat) :
    w'.dossier? i id =
      if p = i ∧ n = id then (w.dossier? i id).map v else w.dossier? i id := by
  unfold dossier?
  rw [h]
  by_cases hi : i = p
  · subst hi
    rw [if_pos rfl, List.getElem?_modify]
    by_cases hn : n = id <;> simp [hn]
  · rw [if_neg hi, if_neg fun hc => hi hc.1.symm]

/-! ### What the callers write -/

/-- What an event without a stretch makes of the dossiers: nothing, or a use is noted. -/
inductive Notes (w : World ρ) (e : Event ρ) (f : Effect ρ) : Prop
  | rests (unused : Episode.usage? ⟨w, e, f⟩ = none)
      (same : ∀ i, f.world.dossiersOf i = w.dossiersOf i)
  | uses {n : Nat} {site : String} {x : Handle} {q : Pool ρ}
      (usage : Episode.usage? ⟨w, e, f⟩ = some (n, site)) (handle : w.handle? n = some x)
      (pool : w.pools[x.pool]? = some q)
      (file : ∀ i, f.world.dossiersOf i = if i = x.pool then
        (w.dossiersOf i).modify x.object (.use (q.config.use? w.now site)) else w.dossiersOf i)

/-- A borrower that finds the resource of its object there has the object to itself. -/
theorem Sound.held_of_handle (hw : w.Sound g) (hx : w.handle? n = some x)
    (hq : w.pools[x.pool]? = some q) (hs : (q.slot? x.object).isSome = true) :
    q.isHeld x.object = x.guarded := by
  have hloan := mem_loans hx q (w.points x.pool) (g x.pool)
  have hsound := (hw.pools x.pool).sound q hq
  have hrec : (q.stateOf x.object).isReclaimed = false := by
    refine Bool.eq_false_iff.mpr fun hr => ?_
    rw [(hsound.slot_of_loan hloan).mpr hr] at hs
    exact nomatch hs
  obtain ⟨r, -, hv⟩ := hsound.lent_of_loan hloan hrec
  rw [Pool.isHeld_eq_shape?, show q.shape? x.object = _ from congrArg Position.shape hv]
  rfl

/-- What a use makes of the dossiers after which something is done that they do not show. -/
theorem notes_uses (hx : w.handle? n = some x) (hg : x.guarded = false) {r : ρ}
    (hr : w.resource? x = some r) (hu : e.usage? = some (n, site)) {v : Pool ρ → Pool ρ}
    (hv : ∀ q : Pool ρ, (v q).dossiers = (q.trackUse w.now x.object site).dossiers)
    (hf : ∀ i, f.world.dossiersOf i = (w.onPool x.pool v).dossiersOf i) : w.Notes e f := by
  obtain ⟨q, hq, -⟩ := slot?_of_resource? hr
  refine .uses ((usage?_eq_some hx).mpr ⟨hu, hg, Option.isSome_iff_exists.mpr ⟨r, hr⟩⟩) hx hq
    fun i => ?_
  rw [hf, dossiersOf_onPool hq]
  split
  · rename_i hi
    rw [hv, Pool.dossiers_trackUse, hi, dossiersOf_eq hq]
  · rfl

theorem Called.notes (hw : w.Sound g) (hc : w.Called e f) : w.Notes e f := by
  cases hc with
  | tick _ | spawn | notCreated _ | begin _ _ _ => exact .rests rfl fun _ => rfl
  | create hw => exact .rests rfl fun i => dossiersOf_congr (create_entries hw i)
  | clone hq _ =>
    exact .rests rfl
      (dossiersOf_onPool_same (v := fun q => { q with clones := q.clones + 1 }) hq rfl)
  | @drop t p _ hq _ _ =>
    refine .rests rfl fun i => (dossiersOf_congr (entriesOf_forsake _ t p .done i)).trans ?_
    exact dossiersOf_onPool_same (v := fun q => { q with clones := q.clones - 1 }) hq rfl i
  | giveBack _ _ _ _ _ => exact .rests rfl fun i => dossiersOf_congr ((giveBack_parts ..).entries i)
  | invalidate _ _ _ _ _ =>
    exact .rests rfl fun i => dossiersOf_congr ((invalidate_parts ..).entries i)
  | letGo _ _ _ => exact .rests rfl fun i => dossiersOf_congr ((letGo_parts ..).entries i)
  | @access n x site c r hx hg hr =>
    exact notes_uses hx hg hr rfl
      (v := fun q => (q.trackUse w.now x.object site).letGo x.object (c r))
      (fun q => Pool.dossiers_letGo ..) fun i => rfl
  | noAccess hx hr | noLock hx hr =>
    refine .rests (usage?_eq_none hx rfl fun h => ?_) fun _ => rfl
    rw [hr] at h
    exact nomatch h.2
  | @lock n x site r hx hg hr =>
    exact notes_uses hx hg hr rfl
      (v := fun q => (q.trackUse w.now x.object site).hold x.object)
      (fun q => Pool.dossiers_hold ..) fun i => rfl
  | @unlock n x c r hx hg hr =>
    obtain ⟨q, hq, -⟩ := slot?_of_resource? hr
    exact .rests rfl (dossiersOf_onPool_same (v := Pool.letGo x.object (c r)) hq
      (Pool.dossiers_letGo ..))
  | @markUsed n x site hx =>
    obtain ⟨q, hq⟩ := hw.pool_of_handle hx
    have hslot := resource?_of_pool hq
    by_cases hnoted : x.guarded = false ∧ (w.resource? x).isSome = true
    · obtain ⟨r, hr⟩ := Option.isSome_iff_exists.mp hnoted.2
      refine .uses ((usage?_eq_some hx).mpr ⟨rfl, hnoted⟩) hx hq fun i => ?_
      rw [World.markUsed, dossiersOf_onPool hq]
      split
      · rename_i hi
        have hsome : (q.slot? x.object).isSome = true := hslot ▸ hnoted.2
        rw [if_pos ⟨(hw.held_of_handle hx hq hsome).trans hnoted.1, hsome⟩,
          Pool.dossiers_trackUse, hi, dossiersOf_eq hq]
      · rfl
    · -- the pool finds the object held, or its slot empty
      refine .rests (usage?_eq_none hx rfl hnoted) (dossiersOf_onPool_same hq ?_)
      rw [if_neg fun h => hnoted ⟨(hw.held_of_handle hx hq h.2).symm.trans h.1, hslot ▸ h.2⟩]

/-- What an event makes of the dossiers of a pool on which no call runs in it. -/
theorem react_notes (hw : w.Sound g) (hr : w.react e = some f)
    (hn : ∀ a, Episode.call? ⟨w, e, f⟩ = some a → a.pool ≠ i) :
    w.Notes e f ∨ Episode.usage? ⟨w, e, f⟩ = none ∧ f.world.dossiersOf i = w.dossiersOf i := by
  cases react_happens hr with
  | called hc => exact .inl (hc.notes hw)
  | keeps event _ _ hk =>
    subst event
    exact .inr ⟨rfl, dossiersOf_congr (keeperStep_entries hk i)⟩
  | @works t a q s h =>
    refine .inr ⟨h.usage?, dossiersOf_congr ?_⟩
    rw [h.effect, apply_entries h.pool, if_neg (Ne.symm (hn a h.call))]

/-! ### What is readied for a borrower -/

theorem Calls.readied {pts : List (Point ρ)} (h : w.Calls i pts) :
    id ∈ w.readied i ↔ id ∈ pts.flatMap Point.lending := by
  rw [mem_readied, ← h.charges.mem_iff, List.mem_flatMap, List.mem_flatMap]
  simp only [Point.mem_lending]

namespace Works

/-- An object was readied by the call that runs, or by another one. -/
theorem readied_before (h : w.Works e f t a q s) (id : Nat) : id ∈ w.readied a.pool ↔
    id ∈ a.point.lending ∨ id ∈ ((w.pop t).points a.pool).flatMap Point.lending := by
  rw [(Calls.of_perm h.stretches.points.symm).readied, List.flatMap_cons, List.mem_append]

theorem readied_after (h : w.Works e f t a q s) (id : Nat) : id ∈ f.world.readied a.pool ↔
    id ∈ s.next.points.flatMap Point.lending ∨
      id ∈ ((w.pop t).points a.pool).flatMap Point.lending := by
  rw [h.lands.2.readied, List.flatMap_append, List.mem_append]

theorem finish_of_handsOut (h : w.Works e f t a q s)
    (ho : Episode.handsOut i id ⟨w, e, f⟩ = true) : s.next = .finish (.lent id) := by
  have hreply : f.reply = some (.lent id) := of_decide_eq_true (Bool.and_eq_true_iff.mp ho).1
  obtain ⟨rest, -, ⟨pt, -, hnone, -⟩ | ⟨r, hn, ⟨hr, -⟩ | ⟨hnone, -⟩⟩⟩ := h.stackOf
  · exact nomatch hnone.symm.trans hreply
  · rw [hn, Option.some.inj (hr.symm.trans hreply)]
  · exact nomatch hnone.symm.trans hreply

theorem not_handsOut (h : w.Works e f t a q s) (hn : s.next ≠ .finish (.lent id)) :
    Episode.handsOut i id ⟨w, e, f⟩ = false :=
  Bool.eq_false_iff.mpr fun ho => hn (h.finish_of_handsOut ho)

theorem dossier?_before (h : w.Works e f t a q s) : w.dossier? a.pool id = q.dossiers[id]? :=
  congrArg (·[id]?) (dossiersOf_eq h.pool)

theorem dossier?_after (h : w.Works e f t a q s) :
    f.world.dossier? a.pool id = s.pool.dossiers[id]? := by
  unfold World.dossier? World.dossiersOf
  rw [h.entriesOf]
  rfl

end Works

/-- An object that is readied for a borrower is out. -/
theorem Sound.out_of_readied (hw : w.Sound g) (hid : id ∈ w.readied i) :
    ∃ d, w.dossier? i id = some d ∧ d.out = true := by
  have hcharge := mem_readied.mp hid
  cases hq : w.pools[i]? with
  | none =>
    obtain ⟨pt, hpt, -⟩ := List.mem_flatMap.mp hcharge
    rw [((hw.pools i).housed hq).1] at hpt
    exact nomatch hpt
  | some q =>
    obtain ⟨v, hhas, hv⟩ := ((hw.pools i).sound q hq).position_of_charge hcharge
    cases hhas with
    | lending r =>
      have hshape : q.shape? id = some ⟨.allocated, some r, true⟩ := congrArg Position.shape hv
      exact dossier_of_shape hq hshape

/-- An object that a borrower has for itself is out, and no call readies it. -/
theorem Sound.out_of_handle (hw : w.Sound g) (hx : w.handle? n = some x)
    (hr : (w.resource? x).isSome = true) :
    (∃ d, w.dossier? x.pool x.object = some d ∧ d.out = true) ∧
      x.object ∉ w.readied x.pool := by
  obtain ⟨q, hq⟩ := hw.pool_of_handle hx
  have hrec : (w.stateOf x).isReclaimed = false := by
    refine Bool.eq_false_iff.mpr fun hrec => ?_
    rw [(hw.resource?_eq_none_iff hx).mpr hrec] at hr
    exact nomatch hr
  obtain ⟨hactive, hstate, -⟩ := (hw.pools x.pool).held hq hx rfl hrec
  constructor
  · rw [stateOf_eq] at hstate
    cases hy : (w.entriesOf x.pool)[x.object]? with
    | none =>
      rw [hy] at hstate
      exact nomatch hstate
    | some y =>
      rw [hy] at hstate
      refine ⟨y.dossier, ?_, ?_⟩
      · rw [dossier?_eq, hy]
        rfl
      · show y.state.isOut = true
        rw [show y.state = .allocated from hstate]
        rfl
  · intro hid
    have hnone := ((hw.pools x.pool).sound q hq).no_loan_of_charge (mem_readied.mp hid) hactive
    exact claims_eq_nil_iff.mp hnone _ (mem_loans hx q (w.points x.pool) (g x.pool))

/-! ## The dossier of one object -/

/-- What an event makes of the dossier of an object of the pool `i`. -/
inductive Files (w : World ρ) (e : Event ρ) (f : Effect ρ) (i id : Nat) : Prop
  /-- Nothing. -/
  | rests (same : f.world.dossier? i id = w.dossier? i id)
      (still : id ∈ f.world.readied i ↔ id ∈ w.readied i)
      (kept : Episode.handsOut i id ⟨w, e, f⟩ = false)
      (unused : ∀ n site x, Episode.usage? ⟨w, e, f⟩ = some (n, site) → w.handle? n = some x →
        x.pool = i → x.object ≠ id)
  /-- Its borrower uses it. -/
  | uses {n : Nat} {site : String} {x : Handle} {q : Pool ρ} {d : Dossier}
      (usage : Episode.usage? ⟨w, e, f⟩ = some (n, site)) (handle : w.handle? n = some x)
      (pool : x.pool = i) (object : x.object = id) (config : w.pools[i]? = some q)
      (before : w.dossier? i id = some d) (out : d.out = true)
      (file : f.world.dossier? i id = some (d.use (q.config.use? w.now site)))
      (apart : id ∉ w.readied i) (still : id ∉ f.world.readied i)
      (kept : Episode.handsOut i id ⟨w, e, f⟩ = false)
  /-- It comes back or leaves circulation. -/
  | closes (file : f.world.dossier? i id = (w.dossier? i id).map .close)
      (lost : id ∈ w.readied i → id ∈ Episode.buried i ⟨w, e, f⟩)
      (after : id ∉ f.world.readied i) (kept : Episode.handsOut i id ⟨w, e, f⟩ = false)
  /-- It is new. -/
  | enlists (new : w.dossier? i id = none) (file : f.world.dossier? i id = some (.fresh w.now))
      (apart : id ∉ w.readied i) (after : id ∉ f.world.readied i)
      (kept : Episode.handsOut i id ⟨w, e, f⟩ = false)
  /-- It was not out, or is new, and is readied for a borrower. -/
  | lends {d : Dossier} (free : d.out = false)
      (before : w.dossier? i id = some d ∨ w.dossier? i id = none ∧ d = .fresh w.now)
      (file : f.world.dossier? i id = some (d.lend w.now))
      (apart : id ∉ w.readied i) (after : id ∈ f.world.readied i)
      (kept : Episode.handsOut i id ⟨w, e, f⟩ = false)
  /-- The borrower gets it for whom it was readied. -/
  | hands {t : Nat} {a : Activity ρ} {q : Pool ρ} {s : Stretch ρ} {site : String}
      (works : w.Works e f t a q s) (pool : a.pool = i) (next : s.next = .finish (.lent id))
      (borrower : a.point.site? = some site)
      (file : f.world.dossier? i id =
        (w.dossier? i id).map (.sign (q.config.evidence? site)))
      (ready : id ∈ w.readied i) (after : id ∉ f.world.readied i)

/-- What is handed out goes to the borrower for whom it was readied. -/
theorem Files.of_handsOut (h : w.Files e f i id) (ho : Episode.handsOut i id ⟨w, e, f⟩ = true) :
    ∃ t a q s site, w.Works e f t a q s ∧ a.point.site? = some site ∧ id ∈ w.readied i ∧
      f.world.dossier? i id = (w.dossier? i id).map (.sign (q.config.evidence? site)) := by
  cases h with
  | hands works _ _ borrower file ready => exact ⟨_, _, _, _, _, works, borrower, ready, file⟩
  | rests _ _ kept | uses _ _ _ _ _ _ _ _ _ _ kept | closes _ _ _ kept | enlists _ _ _ _ kept
  | lends _ _ _ _ _ kept => exact absurd (kept.symm.trans ho) Bool.false_ne_true

end World

/-- What a call readies at its next point it has for its borrower. -/
theorem Next.lending_of_points {n : Next ρ} {id : Nat}
    (h : id ∈ n.points.flatMap Point.lending) : id ∈ n.lending := by
  cases n with
  | finish r => exact nomatch h
  | go pt => rwa [Next.points, List.flatMap_singleton] at h

section Runs

open World

variable {es : List (Episode ρ)} {w : World ρ} {e : Event ρ} {f : Effect ρ} {i id : Nat} {t : Nat}
  {a : Activity ρ} {q : Pool ρ} {s : Stretch ρ}

/-- An object of its pool with which a call that runs has nothing to do. -/
theorem World.Works.files_rests (h : w.Works e f t a q s)
    (same : s.pool.dossiers[id]? = q.dossiers[id]?)
    (still : id ∈ s.next.points.flatMap Point.lending ↔ id ∈ a.point.lending)
    (hn : s.next ≠ .finish (.lent id)) : w.Files e f a.pool id := by
  refine .rests ?_ ?_ (h.not_handsOut hn) fun n site x hu => ?_
  · rw [h.dossier?_after, h.dossier?_before, same]
  · rw [h.readied_before, h.readied_after, still]
  · rw [h.usage?] at hu
    exact nomatch hu

/-- What a call that runs makes of the dossier of an object of its pool. -/
theorem Run.files_works (run : Run es w) (react : w.react e = some f) (h : w.Works e f t a q s)
    (id : Nat) : w.Files e f a.pool id := by
  have hbefore := h.readied_before id
  have hafter := h.readied_after id
  have hnext : s.next.lending = [] → id ∉ s.next.points.flatMap Point.lending ∧
      s.next ≠ .finish (.lent id) := by
    refine fun hnil => ⟨fun hid => ?_, fun hn => ?_⟩
    · have hmem := Next.lending_of_points hid
      rw [hnil] at hmem
      exact nomatch hmem
    · rw [hn] at hnil
      exact nomatch hnil
  -- what is readied is out, which tells it from what has just been closed, or is not there yet
  have hold (hid : id ∈ w.readied a.pool) : ∃ d, q.dossiers[id]? = some d ∧ d.out = true :=
    h.dossier?_before ▸ run.sound.out_of_readied hid
  have hnew (hid : id ∈ f.world.readied a.pool) :
      ∃ d, s.pool.dossiers[id]? = some d ∧ d.out = true :=
    h.dossier?_after ▸ (World.react_sound run.sound react).out_of_readied hid
  cases h.files run.sound with
  | keeps same before next =>
    obtain ⟨hnone, hfin⟩ := hnext next
    refine h.files_rests (by rw [same]) (iff_of_false hnone ?_) hfin
    rw [before]
    exact List.not_mem_nil
  | checks same before next =>
    refine h.files_rests (by rw [same]) ?_ (by rw [next]; nofun)
    rw [before, next]
    rfl
  | @closes x file lost next =>
    obtain ⟨hnone, hfin⟩ := hnext next
    by_cases hx : x = id
    · subst hx
      have hclosed : s.pool.dossiers[x]? = (q.dossiers[x]?).map .close := by
        rw [file]
        simp
      have hgone : x ∉ f.world.readied a.pool := fun hid => by
        obtain ⟨d, hd, hout⟩ := hnew hid
        obtain ⟨d₀, -, rfl⟩ := Option.map_eq_some_iff.mp (hclosed.symm.trans hd)
        exact nomatch hout
      refine .closes ?_ (fun hid => ?_) hgone (h.not_handsOut hfin)
      · rw [h.dossier?_after, h.dossier?_before, hclosed]
      · rcases hbefore.mp hid with hpt | hrest
        · exact (h.buried run.sound).symm ▸ (lost x hpt).2
        · exact absurd (hafter.mpr (.inr hrest)) hgone
    · refine h.files_rests ?_ (iff_of_false hnone fun hid => hx (lost id hid).1.symm) hfin
      rw [file, List.getElem?_modify]
      simp [hx]
  | enlists file before next =>
    obtain ⟨hnone, hfin⟩ := hnext next
    by_cases hid : id = q.dossiers.length
    · subst hid
      have hfresh : s.pool.dossiers[q.dossiers.length]? = some (.fresh w.now) := by
        rw [file]
        exact List.getElem?_concat_length
      refine .enlists ?_ ?_ (fun hid => ?_) (fun hid => ?_) (h.not_handsOut hfin)
      · rw [h.dossier?_before]
        exact List.getElem?_eq_none_iff.mpr (Nat.le_refl _)
      · rw [h.dossier?_after, hfresh]
      · obtain ⟨d, hd, -⟩ := hold hid
        exact absurd (List.getElem?_eq_some_iff.mp hd).1 (Nat.lt_irrefl _)
      · obtain ⟨d, hd, hout⟩ := hnew hid
        obtain rfl := Option.some.inj (hfresh.symm.trans hd)
        exact nomatch hout
    · refine h.files_rests ?_ (iff_of_false hnone ?_) hfin
      · rw [file, Pool.getElem?_concat_of_ne hid]
      · rw [before]
        exact List.not_mem_nil
  | makes file before next =>
    by_cases hid : id = q.dossiers.length
    · subst hid
      refine .lends (d := .fresh w.now) rfl (.inr ⟨?_, rfl⟩) ?_ (fun hid => ?_) ?_
        (h.not_handsOut (by rw [next]; nofun))
      · rw [h.dossier?_before]
        exact List.getElem?_eq_none_iff.mpr (Nat.le_refl _)
      · rw [h.dossier?_after, file]
        exact List.getElem?_concat_length
      · obtain ⟨d, hd, -⟩ := hold hid
        exact absurd (List.getElem?_eq_some_iff.mp hd).1 (Nat.lt_irrefl _)
      · rw [hafter, next, q.length_dossiers]
        exact .inl (List.mem_singleton.mpr rfl)
    · refine h.files_rests ?_ (iff_of_false (fun hmem => ?_) ?_) (by rw [next]; nofun)
      · rw [file, Pool.getElem?_concat_of_ne hid]
      · rw [next, ← q.length_dossiers] at hmem
        exact hid (List.mem_singleton.mp hmem)
      · rw [before]
        exact List.not_mem_nil
  | @lends x b file free before next =>
    by_cases hx : x = id
    · subst hx
      obtain ⟨d, hd, hin⟩ := free
      refine .lends hin (.inl ?_) ?_ (fun hid => ?_) ?_ (h.not_handsOut (by rw [next]; nofun))
      · rw [h.dossier?_before, hd]
      · rw [h.dossier?_after, file]
        simp [hd]
      · obtain ⟨d', hd', hout⟩ := hold hid
        obtain rfl := Option.some.inj (hd.symm.trans hd')
        exact nomatch hin.symm.trans hout
      · rw [hafter, next]
        exact .inl (List.mem_singleton.mpr rfl)
    · refine h.files_rests ?_ (iff_of_false (fun hmem => ?_) ?_) (by rw [next]; nofun)
      · rw [file, List.getElem?_modify]
        simp [hx]
      · rw [next] at hmem
        exact hx (List.mem_singleton.mp hmem).symm
      · rw [before]
        exact List.not_mem_nil
  | @hands x site file before borrower next =>
    by_cases hx : x = id
    · subst hx
      refine .hands h rfl next borrower ?_ ?_ fun hid => ?_
      · rw [h.dossier?_after, h.dossier?_before, file]
        simp
      · rw [hbefore, before]
        exact .inl (List.mem_singleton.mpr rfl)
      · exact claims_eq_nil_iff.mp (run.claims_of_finish h next) _ (World.mem_readied.mp hid)
    · refine h.files_rests ?_ (iff_of_false (fun hmem => ?_) fun hmem => ?_) fun hn => ?_
      · rw [file, List.getElem?_modify]
        simp [hx]
      · rw [next] at hmem
        exact nomatch hmem
      · rw [before] at hmem
        exact hx (List.mem_singleton.mp hmem).symm
      · rw [next] at hn
        exact hx (Reply.lent.inj (Next.finish.inj hn))

/-- What an event makes of the dossier of an object. -/
theorem Run.files (run : Run es w) (react : w.react e = some f) (i id : Nat) :
    w.Files e f i id := by
  rcases World.react_at react i with ⟨hspares, hn⟩ | ⟨t, a, q, s, h, rfl⟩
  · have hkept : Episode.handsOut i id ⟨w, e, f⟩ = false := by
      have hlends : Episode.picks i id ⟨w, e, f⟩ = false ∧ Episode.lends i id ⟨w, e, f⟩ = false :=
        hspares.lends hn
      exact (Bool.or_eq_false_iff.mp hlends.2).2
    have hrests : f.world.dossier? i id = w.dossier? i id →
        (∀ n site x, Episode.usage? ⟨w, e, f⟩ = some (n, site) → w.handle? n = some x →
          x.pool = i → x.object ≠ id) → w.Files e f i id :=
      fun same => .rests same hspares.readied hkept
    rcases World.react_notes run.sound react hn with hnotes | ⟨hunused, hsame⟩
    · cases hnotes with
      | rests hunused hsame =>
        refine hrests (congrArg (·[id]?) (hsame i)) fun n site x hu => ?_
        rw [hunused] at hu
        exact nomatch hu
      | @uses n site x q usage handle pool file =>
        have hfile := World.dossier?_modify file i id
        by_cases hx : x.pool = i ∧ x.object = id
        · obtain ⟨rfl, rfl⟩ := hx
          obtain ⟨⟨d, hd, hout⟩, hapart⟩ :=
            run.sound.out_of_handle handle ((World.usage?_eq_some handle).mp usage).2.2
          refine .uses usage handle rfl rfl pool hd hout ?_ hapart
            (fun hid => hapart (hspares.readied.mp hid)) hkept
          rw [hfile, if_pos ⟨rfl, rfl⟩, hd]
          rfl
        · refine hrests (by rw [hfile, if_neg hx]) fun m place y hu hy hp ho => hx ?_
          obtain ⟨rfl, -⟩ := Prod.mk.inj (Option.some.inj (usage.symm.trans hu))
          obtain rfl := Option.some.inj (handle.symm.trans hy)
          exact ⟨hp, ho⟩
    · refine hrests (congrArg (·[id]?) hsame) fun n site x hu => ?_
      rw [hunused] at hu
      exact nomatch hu
  · exact run.files_works react h id

/-- An object that is not out shows no use, and one that is readied for a borrower shows neither a
    use nor the borrower before. -/
theorem Run.filed (run : Run es w) {d : Dossier} (hd : w.dossier? i id = some d) :
    (d.out = false → d.lastUse = none) ∧
      (id ∈ w.readied i → d.lastUse = none ∧ d.borrowedBy = none) := by
  induction run generalizing d with
  | start => exact nomatch hd
  | @next es w e f run react ih =>
    cases run.files react i id with
    | rests same still =>
      rw [same] at hd
      rw [still]
      exact ih hd
    | uses _ _ _ _ _ _ out file _ still =>
      obtain rfl := Option.some.inj (file.symm.trans hd)
      exact ⟨fun hin => (nomatch out.symm.trans hin), fun hid => absurd hid still⟩
    | closes file _ after =>
      obtain ⟨d₀, -, rfl⟩ := Option.map_eq_some_iff.mp (file.symm.trans hd)
      exact ⟨fun _ => rfl, fun hid => absurd hid after⟩
    | enlists _ file _ after =>
      obtain rfl := Option.some.inj (file.symm.trans hd)
      exact ⟨fun _ => rfl, fun hid => absurd hid after⟩
    | @lends d₀ free before file =>
      obtain rfl := Option.some.inj (file.symm.trans hd)
      have hunused : d₀.lastUse = none := by
        rcases before with hold | ⟨-, rfl⟩
        · exact (ih hold).1 free
        · rfl
      exact ⟨fun hin => (nomatch hin), fun _ => ⟨hunused, rfl⟩⟩
    | hands _ _ _ _ file ready after =>
      obtain ⟨d₀, hd₀, rfl⟩ := Option.map_eq_some_iff.mp (file.symm.trans hd)
      exact ⟨fun _ => ((ih hd₀).2 ready).1, fun hid => absurd hid after⟩

end Runs

end ObjectPool
