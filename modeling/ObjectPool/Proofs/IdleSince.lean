/-
  ObjectPool.Proofs.IdleSince

  Since when the objects of a pool are idle. The pool notes the time at which a borrower gives an
  object up, and that at which an object is made; the object joins the idle ones when it has been
  checked and laid to rest. If no time goes by in between, the time that the pool has noted is the
  time at which the object joined the idle ones for the last time, also if it has been tried out
  since.

    * `joinedAt?` — when an object joined the idle ones for the last time, as the run tells it.
    * `Episode.Timeless` — no time goes by while an object is on its way to the idle ones.
    * `World.Noted`, `Run.noted` — what the pool has noted agrees with that.
-/

import ObjectPool.Proofs.IdleQueue
import ObjectPool.Proofs.Loans
import ObjectPool.Proofs.Stretch.Arrivals

namespace ObjectPool

variable {ρ : Type}

/-! ## Times -/

/-- An object joins the idle ones of the pool `i` in an episode. -/
def Episode.joins (i id : Nat) (e : Episode ρ) : Bool := decide (id ∈ e.joined i)

/-- When an object of the pool `i` joined the idle ones for the last time. -/
def joinedAt? (es : List (Episode ρ)) (i id : Nat) : Option Instant :=
  (es.find? (Episode.joins i id)).map (·.before.now)

namespace World

/-- The objects that calls bring to the idle ones of the pool `i`. -/
def arrivals (w : World ρ) (i : Nat) : List Nat := (w.points i).flatMap Point.arrivals

/-- When an object of the pool `i` came back for the last time, or was made. -/
def returnTime? (w : World ρ) (i id : Nat) : Option Instant :=
  ((w.entriesOf i)[id]?).map (·.lastReturn)

/-- An object of the pool `i` is idle, or is tried out. -/
def Rests (w : World ρ) (i id : Nat) : Prop := id ∈ w.idleOf i ∨ id ∈ w.inCharge i Custody.isTest

/-- What the pool `i` has noted of its objects agrees with the times at which they joined the idle
    ones. -/
structure Noted (w : World ρ) (es : List (Episode ρ)) (i : Nat) : Prop where
  resting : ∀ id, w.Rests i id → ∀ t, w.returnTime? i id = some t → joinedAt? es i id = some t
  arriving : ∀ id ∈ w.arrivals i, ∀ t, w.returnTime? i id = some t → t = w.now

end World

/-- No time goes by while an object of the pool `i` is on its way to the idle ones, as when the
    clock stands still until the factory has answered. -/
def Episode.Timeless (i : Nat) (e : Episode ρ) : Prop :=
  e.after.now = e.before.now ∨ e.before.arrivals i = []

instance (i : Nat) (e : Episode ρ) : Decidable (e.Timeless i) :=
  inferInstanceAs (Decidable (_ ∨ _))

section Times

variable {es : List (Episode ρ)} {e : Episode ρ} {i id : Nat}

theorem joinedAt?_cons_of_mem (h : id ∈ e.joined i) :
    joinedAt? (e :: es) i id = some e.before.now := by
  have hjoins : e.joins i id = true := decide_eq_true h
  rw [joinedAt?, List.find?_cons_of_pos hjoins]
  rfl

theorem joinedAt?_cons_of_not_mem (h : id ∉ e.joined i) :
    joinedAt? (e :: es) i id = joinedAt? es i id := by
  have hjoins : ¬e.joins i id = true := fun hmem => h (of_decide_eq_true hmem)
  rw [joinedAt?, List.find?_cons_of_neg hjoins]
  rfl

/-- An object joins the idle ones before now. -/
theorem Run.joinedAt?_le {w : World ρ} (h : Run es w) {t : Instant}
    (ht : joinedAt? es i id = some t) : t.nanos ≤ w.now.nanos := by
  obtain ⟨e, he, rfl⟩ := Option.map_eq_some_iff.mp ht
  exact h.clock e (List.mem_of_find?_eq_some he)

end Times

/-! ## What an event notes -/

/-- An object on its way to the idle ones is in the charge of the call that brings it. -/
theorem Point.charge_of_arrivals {pt : Point ρ} {id : Nat} (h : id ∈ pt.arrivals) :
    ∃ c, (id, c) ∈ pt.charges ∧ c.state ≠ .allocated := by
  unfold arrivals at h
  split at h
  · exact ⟨.stocking, List.mem_singleton.mp h ▸ List.mem_singleton.mpr rfl, nofun⟩
  · exact ⟨.returning, List.mem_singleton.mp h ▸ List.mem_singleton.mpr rfl, nofun⟩
  · exact ⟨.stocking, List.mem_singleton.mp h ▸ List.mem_singleton.mpr rfl, nofun⟩
  · exact ⟨.returning, List.mem_singleton.mp h ▸ List.mem_singleton.mpr rfl, nofun⟩
  · exact absurd h List.not_mem_nil

theorem Point.Opens.arrivals {pt : Point ρ} (h : pt.Opens) : pt.arrivals = [] := by
  refine List.eq_nil_iff_forall_not_mem.mpr fun id hid => ?_
  obtain ⟨c, hc, -⟩ := Point.charge_of_arrivals hid
  rw [h.charges] at hc
  exact List.not_mem_nil hc

/-- An object that joins the idle ones was brought there. -/
theorem Rest.arrivals {id : Nat} {k : Rest} (h : k.isTest = false) :
    (Point.passivating (ρ := ρ) id k).arrivals = [id] := by
  cases k with
  | test => exact nomatch h
  | stock | takeBack => rfl

namespace World

variable {w : World ρ} {g : Nat → List Nat} {gs : List Nat} {es : List (Episode ρ)} {e : Event ρ}
  {f : Effect ρ} {t i id : Nat} {a : Activity ρ} {q : Pool ρ} {s : Stretch ρ} {τ : Instant}

theorem returnTime?_eq (hq : w.pools[i]? = some q) :
    w.returnTime? i id = q.returnTimes[id]? := by
  rw [Pool.getElem?_returnTimes, returnTime?, entriesOf_eq hq]
  rfl

theorem Calls.arrivals {pts : List (Point ρ)} (h : w.Calls i pts) :
    id ∈ w.arrivals i ↔ id ∈ pts.flatMap Point.arrivals := by
  obtain ⟨new, hopens, hperm⟩ := h
  have hnone : new.flatMap Point.arrivals = [] :=
    List.flatMap_eq_nil_iff.mpr fun pt hpt => (hopens pt hpt).arrivals
  rw [World.arrivals, ← (hperm.flatMap_right _).mem_iff, List.flatMap_append, hnone,
    List.nil_append]

/-- No borrower has an object that is idle, is tried out or is on its way to the idle ones. -/
theorem SoundAt.unlent (h : w.SoundAt i gs) (hq : w.pools[i]? = some q)
    (hid : w.Rests i id ∨ id ∈ w.arrivals i) :
    ∃ k, q.isIn id k = true ∧ k ≠ .allocated := by
  rcases hid with (hid | hid) | hid
  · exact ⟨.idle, (h.sound q hq).isIn_idle (idleOf_eq hq ▸ hid), nofun⟩
  · exact ⟨.validation, (h.agrees hq).tested id hid, nofun⟩
  · obtain ⟨pt, hpt, hmem⟩ := List.mem_flatMap.mp hid
    obtain ⟨c, hc, hne⟩ := Point.charge_of_arrivals hmem
    have hcharge : (id, c) ∈ (w.points i).flatMap Point.charges :=
      List.mem_flatMap.mpr ⟨pt, hpt, hc⟩
    exact ⟨c.state, (h.sound q hq).isIn_charge hcharge, hne⟩

theorem Works.stamps (h : w.Works e f t a q s) : s.Stamps q w.now a.point := by
  rcases h.runs with ⟨-, hs⟩ | ⟨r, -, hs⟩
  · exact Pool.advance_stamps hs
  · exact Pool.respond_stamps hs

theorem Works.now (h : w.Works e f t a q s) : f.world.now = w.now := by
  rw [h.effect]
  exact apply_now ..

theorem Works.returnTime? (h : w.Works e f t a q s) :
    f.world.returnTime? a.pool id = s.pool.returnTimes[id]? := by
  rw [Pool.getElem?_returnTimes, World.returnTime?, h.entriesOf]
  rfl

/-- A stretch notes nothing of an object that no borrower has. -/
theorem Works.returnTime?_of_unlent (h : w.Works e f t a q s) {k : Lifecycle}
    (hin : q.isIn id k = true) (hne : k ≠ .allocated) :
    f.world.returnTime? a.pool id = w.returnTime? a.pool id := by
  rw [h.returnTime?, returnTime?_eq h.pool]
  obtain ⟨y, hy, hstate⟩ := (Option.any_eq_true _ _).mp hin
  have hlt : id < q.entries.length := (List.getElem?_eq_some_iff.mp hy).1
  cases h.stamps with
  | keeps same => rw [same]
  | enlists file => rw [file, List.getElem?_append_left (q.length_returnTimes ▸ hlt)]
  | @returns x lent file =>
    have hx : x ≠ id := by
      rintro rfl
      obtain ⟨y', hy', hlent⟩ := (Option.any_eq_true _ _).mp lent
      obtain rfl := Option.some.inj (hy.symm.trans hy')
      exact hne ((of_decide_eq_true hstate).symm.trans (of_decide_eq_true hlent))
    rw [file, List.getElem?_modify_ne _ _ hx]

/-- What a call brings to the idle ones after a stretch has come back now, if it was not on its
    way before. -/
theorem Works.arrives (h : w.Works e f t a q s) (hid : id ∈ s.next.arrivals) :
    id ∈ a.point.arrivals ∨ ∀ τ, f.world.returnTime? a.pool id = some τ → τ = w.now := by
  rw [h.returnTime?]
  cases h.stamps with
  | keeps same next => exact .inl (next id hid)
  | enlists file before next =>
    obtain rfl := next id hid
    refine .inr fun τ hτ => ?_
    rw [file, ← q.length_returnTimes, List.getElem?_concat_length] at hτ
    exact (Option.some.inj hτ).symm
  | returns lent file before next =>
    obtain rfl := next id hid
    refine .inr fun τ hτ => ?_
    rw [file, List.getElem?_modify_eq] at hτ
    obtain ⟨y, -, hy⟩ := Option.map_eq_some_iff.mp hτ
    exact hy.symm

/-- What is on its way to the idle ones after a stretch is so for the call that ran, or was so
    before. -/
theorem Works.arrivals (h : w.Works e f t a q s) (hid : id ∈ f.world.arrivals a.pool) :
    id ∈ s.next.arrivals ∨ id ∈ w.arrivals a.pool := by
  have hin := h.lands.2.arrivals.mp hid
  rw [List.flatMap_append] at hin
  rcases List.mem_append.mp hin with hin | hin
  · refine .inl ?_
    cases hn : s.next with
    | go pt =>
      rw [hn] at hin
      simpa [Next.points, Next.arrivals] using hin
    | finish r =>
      rw [hn] at hin
      exact absurd hin List.not_mem_nil
  · refine .inr ?_
    obtain ⟨pt, hpt, hmem⟩ := List.mem_flatMap.mp hin
    exact List.mem_flatMap.mpr ⟨pt, h.stretches.points.mem_iff.mpr (.tail _ hpt), hmem⟩

/-- An object that is idle or tried out after an event was so before, or has just joined the idle
    ones. -/
theorem react_rests (hw : w.Sound g) (hr : w.react e = some f) (hid : f.world.Rests i id) :
    id ∈ Episode.joined i ⟨w, e, f⟩ ∨ w.Rests i id := by
  rcases hid with hid | hid
  · by_cases hold : w.Rests i id
    · exact .inr hold
    · exact .inl (List.mem_filter.mpr ⟨hid, decide_eq_true (not_or.mp hold)⟩)
  · exact .inr (react_trials hw hr hid)

theorem Works.noted (h : w.Works e f t a q s) (hw : w.Sound g) (hr : w.react e = some f)
    (hn : w.Noted es a.pool) : f.world.Noted (⟨w, e, f⟩ :: es) a.pool := by
  have hat := hw.pools a.pool
  have hsame : ∀ id, w.Rests a.pool id ∨ id ∈ w.arrivals a.pool →
      f.world.returnTime? a.pool id = w.returnTime? a.pool id := by
    intro id hid
    obtain ⟨k, hin, hne⟩ := hat.unlent h.pool hid
    exact h.returnTime?_of_unlent hin hne
  refine ⟨fun id hid τ hτ => ?_, fun id hid τ hτ => ?_⟩
  · by_cases hjoined : id ∈ Episode.joined a.pool ⟨w, e, f⟩
    · -- the call that ran has brought it there
      obtain ⟨k, hk, hpoint⟩ := h.joined hjoined
      have harrives : id ∈ w.arrivals a.pool :=
        List.mem_flatMap.mpr ⟨_, h.call_mem, hpoint ▸ Rest.arrivals hk ▸ List.mem_cons_self ..⟩
      rw [hsame id (.inr harrives)] at hτ
      rw [joinedAt?_cons_of_mem hjoined, hn.arriving id harrives τ hτ]
    · have hold := (react_rests hw hr hid).resolve_left hjoined
      rw [hsame id (.inl hold)] at hτ
      rw [joinedAt?_cons_of_not_mem hjoined]
      exact hn.resting id hold τ hτ
  · rw [h.now]
    have hbefore : id ∈ w.arrivals a.pool → τ = w.now := fun hold =>
      hn.arriving id hold τ (hsame id (.inr hold) ▸ hτ)
    rcases h.arrivals hid with hnext | hold
    · rcases h.arrives hnext with hpoint | hnew
      · exact hbefore (List.mem_flatMap.mpr ⟨_, h.call_mem, hpoint⟩)
      · exact hnew τ hτ
    · exact hbefore hold

theorem Spares.rests (h : w.Spares f.world i) : f.world.Rests i id ↔ w.Rests i id :=
  or_congr (by rw [h.idleOf]) h.tests

/-- What is noted goes on to agree while no call on the pool runs. -/
theorem Spares.noted (h : w.Spares f.world i) (ht : w.Touched f.world i)
    (hn : w.Noted es i) (htime : Episode.Timeless i ⟨w, e, f⟩) :
    f.world.Noted (⟨w, e, f⟩ :: es) i := by
  have hsame : ∀ id τ, f.world.returnTime? i id = some τ → w.returnTime? i id = some τ := by
    intro id τ hτ
    obtain ⟨y', hy', rfl⟩ := Option.map_eq_some_iff.mp hτ
    obtain ⟨y, hy, htouched⟩ := ht id y' hy'
    rw [returnTime?, hy, htouched.back]
    rfl
  refine ⟨fun id hid τ hτ => ?_, fun id hid τ hτ => ?_⟩
  · rw [joinedAt?_cons_of_not_mem (h.joined ▸ List.not_mem_nil)]
    exact hn.resting id (h.rests.mp hid) τ (hsame id τ hτ)
  · have hold : id ∈ w.arrivals i := h.calls.arrivals.mp hid
    have hnow : f.world.now = w.now := htime.resolve_right fun hnone =>
      List.not_mem_nil (hnone ▸ hold)
    rw [hnow]
    exact hn.arriving id hold τ (hsame id τ hτ)

end World

/-! ## In every run -/

section Runs

variable {es : List (Episode ρ)} {w : World ρ} {i : Nat} {p : Pool ρ}

/-- What a pool has noted agrees with the times at which its objects joined the idle ones. -/
theorem Run.noted (h : Run es w) (ht : ∀ e ∈ es, e.Timeless i) : w.Noted es i := by
  induction h with
  | start =>
    refine ⟨fun id hid => ?_, fun id hid => absurd hid List.not_mem_nil⟩
    rcases hid with hid | hid <;> exact absurd hid List.not_mem_nil
  | @next es w e f run react ih =>
    have hn := ih fun x hx => ht x (List.mem_cons_of_mem _ hx)
    rcases World.react_at react i with ⟨hspares, hcall⟩ | ⟨t, a, q, s, h, rfl⟩
    · exact hspares.noted (World.react_touched react hcall) hn (ht _ (List.mem_cons_self ..))
    · exact h.noted run.sound react hn

/-- An idle object has the time noted at which it joined the idle ones for the last time. -/
theorem Run.returnTime?_of_idle (h : Run es w) (hp : w.pools[i]? = some p)
    (ht : ∀ e ∈ es, e.Timeless i) {id : Nat} (hid : id ∈ p.registry.idle) :
    ∃ τ, p.returnTimes[id]? = some τ ∧ joinedAt? es i id = some τ := by
  obtain ⟨y, hy, -⟩ :=
    (Option.any_eq_true _ _).mp (((h.sound.pools i).sound p hp).isIn_idle hid)
  have hτ : w.returnTime? i id = some y.lastReturn := by
    rw [World.returnTime?_eq hp, Pool.getElem?_returnTimes, hy]
    rfl
  refine ⟨y.lastReturn, World.returnTime?_eq hp ▸ hτ, ?_⟩
  exact (h.noted ht).resting id (.inl (World.idleOf_eq hp ▸ hid)) _ hτ

end Runs

end ObjectPool
