/-
  ObjectPool.Proofs.Records

  The records of uses, in every run. A record belongs to an object that a borrower has, or to one
  that was taken away from its borrower and is still to be disposed of. Only a use through a handle
  whose object was not taken back makes a record or renews it, and none outlives the loan: an
  object that is lent again starts without one.

    * `World.record?`, `World.recorded` — the records of a pool.
    * `Legal.of_out` — who has an object that is out.
    * `react_of_reclaimed` — a use through a handle whose object was taken back changes nothing.
    * `RecordsKept`, `records_kept` — the main statement.
-/

import Mathlib.Data.List.Perm.Subperm
import ObjectPool.Proofs.Dossiers

namespace ObjectPool

variable {ρ : Type}

/-! ## Records -/

namespace World

/-- The record of the last use of an object of the pool `i`. -/
def record? (w : World ρ) (i id : Nat) : Option Use := ((w.entriesOf i)[id]?).bind (·.lastUse)

/-- The objects of the pool `i` of which there is a record. -/
def recorded (w : World ρ) (i : Nat) : List Nat :=
  (List.range (w.entriesOf i).length).filter fun id => (w.record? i id).isSome

variable {w : World ρ} {g : Nat → List Nat} {e : Event ρ} {f : Effect ρ} {i id n : Nat}
  {site : String} {x : Handle} {p q : Pool ρ} {u : Use} {d : Dossier}

theorem record?_eq (w : World ρ) (i id : Nat) :
    w.record? i id = (w.dossier? i id).bind (·.lastUse) := by
  unfold record?
  rw [dossier?_eq]
  cases (w.entriesOf i)[id]? <;> rfl

theorem record?_of_dossier (hd : w.dossier? i id = some d) : w.record? i id = d.lastUse := by
  rw [record?_eq, hd]
  rfl

theorem dossier_of_record (hu : w.record? i id = some u) :
    ∃ d, w.dossier? i id = some d ∧ d.lastUse = some u := by
  rw [record?_eq] at hu
  exact Option.bind_eq_some_iff.mp hu

end World

/-! ## Who has an object that is out -/

/-- An object that is out is with a borrower or readied for one, or a call has taken it away and is
    to dispose of it. -/
theorem Position.Legal.of_out {v : Position ρ} (h : v.Legal) {s : Shape ρ} (hs : v.shape = some s)
    (hout : s.state.isOut = true) :
    (0 < v.active ∧ s.state = .allocated) ∨ 0 < v.charges.countP Custody.isSeized := by
  cases h with
  | unborn => exact nomatch hs
  | lent =>
    obtain rfl := Option.some.inj hs
    exact .inl ⟨Nat.one_pos, rfl⟩
  | idle | dead =>
    obtain rfl := Option.some.inj hs
    exact nomatch hout
  | entrusted he =>
    cases he with
    | lending =>
      obtain rfl := Option.some.inj hs
      exact .inl ⟨Nat.one_pos, rfl⟩
    | seized => exact .inr Nat.one_pos
    | _ =>
      obtain rfl := Option.some.inj hs
      exact nomatch hout

theorem World.Sound.of_out {w : World ρ} {g : Nat → List Nat} {i id : Nat} {p : Pool ρ}
    {d : Dossier} (hw : w.Sound g) (hp : w.pools[i]? = some p) (hd : w.dossier? i id = some d)
    (hout : d.out = true) : (id ∈ p.registry.active ∧ p.isIn id .allocated = true) ∨
      id ∈ w.inCharge i Custody.isSeized := by
  rw [dossier?_eq, entriesOf_eq hp] at hd
  obtain ⟨y, hy, rfl⟩ := Option.map_eq_some_iff.mp hd
  have hshape : p.shape? id = some y.shape := congrArg (Option.map Entry.shape) hy
  rcases (((hw.pools i).sound p hp).objects id).of_out hshape hout with ⟨ha, hs⟩ | hc
  · refine .inl ⟨List.count_pos_iff.mp ha, ?_⟩
    rw [Pool.isIn_eq_shape?, hshape]
    exact decide_eq_true hs
  · refine .inr (List.count_pos_iff.mp ?_)
    rw [World.count_inCharge]
    exact hc

/-- A borrower does not work on an object that was taken back. -/
theorem Position.Legal.unguarded {v : Position ρ} (h : v.Legal) {x : Loan ρ} (hx : x ∈ v.loans)
    {s : Shape ρ} (hs : v.shape = some s) (hr : s.state.isReclaimed = true) :
    x.guarded = false := by
  have hstale : ∀ l, Stale l → x ∈ l → x.guarded = false := by
    rintro l (rfl | ⟨r, rfl⟩) hl
    · exact nomatch hl
    · rw [List.mem_singleton.mp hl]
  cases h with
  | unborn | idle => exact nomatch hx
  | lent =>
    obtain rfl := Option.some.inj hs
    exact nomatch hr
  | dead hstal => exact hstale _ hstal hx
  | entrusted he =>
    cases he with
    | seized r hstal => exact hstale _ hstal hx
    | _ => exact nomatch hx

namespace World

variable {w : World ρ} {g : Nat → List Nat} {e : Event ρ} {f : Effect ρ} {i id n : Nat}
  {site : String} {x : Handle} {p q : Pool ρ} {u : Use} {d : Dossier}

theorem Sound.unguarded (hw : w.Sound g) (hx : w.handle? n = some x)
    (hr : (w.stateOf x).isReclaimed = true) : x.guarded = false := by
  obtain ⟨q, hq⟩ := hw.pool_of_handle hx
  have hloan := mem_loans hx q (w.points x.pool) (g x.pool)
  have hsound := (hw.pools x.pool).sound q hq
  obtain ⟨s, hs⟩ : ∃ s, q.shape? x.object = some s := by
    cases hs : q.shape? x.object with
    | some s => exact ⟨s, rfl⟩
    | none =>
      have hlt := hsound.object_of_loan hloan
      exact absurd (Pool.shape?_eq_none_iff.mp hs) (Nat.not_le_of_lt hlt)
  refine (hsound.objects x.object).unguarded (mem_claims.mpr hloan) hs ?_
  rw [stateOf_of_pool hq, Pool.stateOf_eq_shape?, hs] at hr
  exact hr

/-- A use through a handle whose object was taken back changes nothing. -/
theorem react_of_reclaimed (hw : w.Sound g) (hx : w.handle? n = some x)
    (hr : (w.stateOf x).isReclaimed = true) (hu : e.usage? = some (n, site)) :
    w.react e = some { world := w } := by
  have hnone : w.resource? x = none := (hw.resource?_eq_none_iff hx).mpr hr
  have hloose : w.loose? n = some x := by
    unfold World.loose?
    rw [hx, Option.filter_some, hw.unguarded hx hr]
    rfl
  cases e with
  | access m place c =>
    obtain ⟨rfl, rfl⟩ := Prod.mk.inj (Option.some.inj hu)
    rw [World.react, hloose, Option.map_some, World.access, hnone]
  | lock m place =>
    obtain ⟨rfl, rfl⟩ := Prod.mk.inj (Option.some.inj hu)
    rw [World.react, hloose, Option.map_some, World.lock, hnone]
  | markUsed m place =>
    obtain ⟨rfl, rfl⟩ := Prod.mk.inj (Option.some.inj hu)
    have hsame : w.markUsed x place = w := by
      refine onPool_eq_self fun q hq => if_neg fun h => ?_
      rw [← resource?_of_pool hq, hnone] at h
      exact Bool.false_ne_true h.2
    rw [World.react, hx, Option.map_some, hsame]
  | _ => cases hu

/-- What a use of which the pool takes note makes of the record. -/
theorem react_records (hw : w.Sound g) (hr : w.react e = some f)
    (hu : Episode.usage? ⟨w, e, f⟩ = some (n, site)) (hx : w.handle? n = some x)
    (hq : w.pools[x.pool]? = some q) : f.world.record? x.pool x.object =
      (q.config.use? w.now site).or (w.record? x.pool x.object) := by
  have hevent : e.usage? = some (n, site) := (Option.filter_eq_some_iff.mp hu).1
  rcases react_cases hr with hc | ⟨t, rfl, -⟩ | ⟨t, r, rfl, -⟩
  · cases hc.notes hw with
    | rests unused => exact nomatch unused.symm.trans hu
    | uses usage handle pool file =>
      obtain ⟨rfl, rfl⟩ := Prod.mk.inj (Option.some.inj (hu.symm.trans usage))
      obtain rfl := Option.some.inj (hx.symm.trans handle)
      obtain rfl := Option.some.inj (hq.symm.trans pool)
      obtain ⟨⟨d, hd, -⟩, -⟩ := hw.out_of_handle hx ((usage?_eq_some hx).mp hu).2.2
      have hfile := dossier?_modify file x.pool x.object
      rw [if_pos ⟨rfl, rfl⟩, hd] at hfile
      rw [record?_of_dossier hfile, record?_of_dossier hd]
      rfl
  · exact nomatch hevent
  · exact nomatch hevent

end World

/-! ## Every run -/

section Runs

open World

variable {es : List (Episode ρ)} {w : World ρ} {e : Event ρ} {f : Effect ρ} {i id : Nat}
  {p : Pool ρ} {u : Use}

theorem Run.out_of_record (run : Run es w) (hu : w.record? i id = some u) :
    ∃ d, w.dossier? i id = some d ∧ d.out = true := by
  obtain ⟨d, hd, hlast⟩ := dossier_of_record hu
  refine ⟨d, hd, Bool.eq_true_of_not_eq_false fun hin => ?_⟩
  exact nomatch ((run.filed hd).1 hin).symm.trans hlast

/-- An object that is picked for a borrower, or handed out to one, has no record. -/
theorem Run.unrecorded_of_lends (run : Run es w) (react : w.react e = some f)
    (h : Episode.lends i id ⟨w, e, f⟩ = true) : f.world.record? i id = none := by
  rw [Option.eq_none_iff_forall_ne_some]
  intro u hu
  obtain ⟨d, hd, hlast⟩ := dossier_of_record hu
  rcases Bool.or_eq_true_iff.mp h with hpicks | hout
  · have hready : id ∈ f.world.readied i := of_decide_eq_true (Bool.and_eq_true_iff.mp hpicks).1
    exact nomatch (((run.next react).filed hd).2 hready).1.symm.trans hlast
  · obtain ⟨_, _, _, _, _, -, -, ready, file⟩ := (run.files react i id).of_handsOut hout
    obtain ⟨d₀, hd₀, rfl⟩ := Option.map_eq_some_iff.mp (file.symm.trans hd)
    exact nomatch ((run.filed hd₀).2 ready).1.symm.trans hlast

/-- A new record is of a use through a handle whose object was not taken back. -/
theorem Run.use_of_record (run : Run es w) (react : w.react e = some f)
    (hu : f.world.record? i id = some u) (hnew : w.record? i id ≠ some u) :
    ∃ n site x q, Episode.usage? ⟨w, e, f⟩ = some (n, site) ∧ w.handle? n = some x ∧ x.pool = i ∧
      x.object = id ∧ (w.stateOf x).isReclaimed = false ∧ w.pools[i]? = some q ∧
      q.config.use? w.now site = some u := by
  obtain ⟨d, hd, hlast⟩ := dossier_of_record hu
  have hold (d₀ : Dossier) (hd₀ : w.dossier? i id = some d₀) : d₀.lastUse ≠ some u :=
    record?_of_dossier hd₀ ▸ hnew
  cases run.files react i id with
  | rests same => exact absurd hlast (hold d (same.symm.trans hd))
  | @uses n site x q d₀ usage handle pool object config before out file =>
    obtain rfl := Option.some.inj (file.symm.trans hd)
    have hres := ((usage?_eq_some handle).mp usage).2.2
    refine ⟨n, site, x, q, usage, handle, pool, object, Bool.eq_false_iff.mpr fun hr => ?_,
      config, ?_⟩
    · rw [(run.sound.resource?_eq_none_iff handle).mpr hr] at hres
      exact nomatch hres
    · have hor : (q.config.use? w.now site).or d₀.lastUse = some u := hlast
      cases huse : q.config.use? w.now site with
      | some v =>
        rw [huse] at hor
        exact hor
      | none =>
        rw [huse] at hor
        exact absurd hor (hold d₀ before)
  | closes file =>
    obtain ⟨d₀, -, rfl⟩ := Option.map_eq_some_iff.mp (file.symm.trans hd)
    exact nomatch hlast
  | enlists new file =>
    obtain rfl := Option.some.inj (file.symm.trans hd)
    exact nomatch hlast
  | @lends d₀ free before file =>
    obtain rfl := Option.some.inj (file.symm.trans hd)
    rcases before with hd₀ | ⟨-, rfl⟩
    · exact absurd hlast (hold d₀ hd₀)
    · exact nomatch hlast
  | hands _ _ _ _ file =>
    obtain ⟨d₀, hd₀, rfl⟩ := Option.map_eq_some_iff.mp (file.symm.trans hd)
    exact absurd hlast (hold d₀ hd₀)

/-- The objects of a pool with a record that no call is working on are lent. -/
theorem Run.recorded_active (run : Run es w) (hp : w.pools[i]? = some p) (hq : w.Quiet i)
    (hid : id ∈ w.recorded i) : id ∈ p.registry.active := by
  obtain ⟨u, hu⟩ := Option.isSome_iff_exists.mp (List.mem_filter.mp hid).2
  obtain ⟨d, hd, hout⟩ := run.out_of_record hu
  rcases run.sound.of_out hp hd hout with ⟨hactive, -⟩ | hseized
  · exact hactive
  · obtain ⟨c, hc, -⟩ := mem_inCharge.mp hseized
    rw [hq.flatMap_eq_nil fun _ _ => rfl] at hc
    exact nomatch hc

/-- The records of uses that the pool `i`, which is `p`, has. -/
structure RecordsKept (es : List (Episode ρ)) (w : World ρ) (i : Nat) (p : Pool ρ) : Prop where
  /-- A record is of an object that is lent, or of one that a sweep on its way has taken from its
      borrower and is still to dispose of. -/
  current : ∀ id u, w.record? i id = some u →
    (id ∈ p.registry.active ∧ p.isIn id .allocated = true) ∨ id ∈ w.inCharge i Custody.isSeized
  /-- It goes when the object comes back, is destroyed on request, or is disposed of. -/
  settled : ∀ id, p.stateOf id ≠ .allocated → p.stateOf id ≠ .abandoned → w.record? i id = none
  disposed : ∀ id ∈ graves es i, w.record? i id = none
  /-- A record is new or another one only by a use, through a handle whose object was not taken
      back. -/
  inserted : ∀ e f id u, w.react e = some f → f.world.record? i id = some u →
    w.record? i id ≠ some u → ∃ n site x, Episode.usage? ⟨w, e, f⟩ = some (n, site) ∧
      w.handle? n = some x ∧ x.pool = i ∧ x.object = id ∧ (w.stateOf x).isReclaimed = false ∧
      p.config.use? w.now site = some u
  /-- If uses are tracked, every such use is on record. -/
  noted : ∀ e f n site x u, w.react e = some f → Episode.usage? ⟨w, e, f⟩ = some (n, site) →
    w.handle? n = some x → x.pool = i → p.config.use? w.now site = some u →
    f.world.record? i x.object = some u
  /-- A use through a handle whose object was taken back changes nothing. -/
  reclaimed : ∀ n x, w.handle? n = some x → x.pool = i → (w.stateOf x).isReclaimed = true →
    ∀ e site, e.usage? = some (n, site) → w.react e = some { world := w }
  /-- An object that is picked for a borrower, or handed out to one, has no record. -/
  fresh : ∀ e f id, w.react e = some f → Episode.lends i id ⟨w, e, f⟩ = true →
    f.world.record? i id = none
  /-- While no call is on its way there are no more records than lent objects. -/
  quiet : w.Quiet i → (w.recorded i).length ≤ p.status.active

/-- In every run a record of a use goes with the loan in which the use was. -/
theorem records_kept (h : Run es w) (hp : w.pools[i]? = some p) : RecordsKept es w i p := by
  have hsettled {id : Nat} (ha : p.stateOf id ≠ .allocated) (hb : p.stateOf id ≠ .abandoned) :
      w.record? i id = none := by
    rw [Option.eq_none_iff_forall_ne_some]
    intro u hu
    obtain ⟨d, hd, hout⟩ := h.out_of_record hu
    rw [dossier?_eq, entriesOf_eq hp] at hd
    obtain ⟨y, hy, rfl⟩ := Option.map_eq_some_iff.mp hd
    have hstate : p.stateOf id = y.state := by
      unfold Pool.stateOf
      rw [show p.object? id = some y from hy]
    rw [hstate] at ha hb
    have hout : y.state.isOut = true := hout
    cases hs : y.state with
    | allocated => exact ha hs
    | abandoned => exact hb hs
    | _ =>
      rw [hs] at hout
      exact nomatch hout
  refine ⟨fun id u hu => ?_, fun id => hsettled, fun id hid => ?_, fun e f id u hr hu hnew => ?_,
    fun e f n site x u hr hu hx hi huse => ?_, fun n x hx _ hrec e site hu => ?_,
    fun e f id hr => h.unrecorded_of_lends hr, fun hq => ?_⟩
  · obtain ⟨d, hd, hout⟩ := h.out_of_record hu
    exact h.sound.of_out hp hd hout
  · obtain ⟨l, hv⟩ := ((h.sound.pools i).sound p hp).position_of_grave hid
    have hstate : p.stateOf id = .invalid := by
      rw [Pool.stateOf_eq_shape?, show p.shape? id = _ from congrArg Position.shape hv]
      rfl
    exact hsettled (by rw [hstate]; nofun) (by rw [hstate]; nofun)
  · obtain ⟨n, site, x, q, husage, hx, hi, ho, hrec, hq, huse⟩ := h.use_of_record hr hu hnew
    obtain rfl := Option.some.inj (hq.symm.trans hp)
    exact ⟨n, site, x, husage, hx, hi, ho, hrec, huse⟩
  · subst hi
    rw [react_records h.sound hr hu hx hp, huse]
    rfl
  · exact react_of_reclaimed h.sound hx hrec hu
  · have hnodup : (w.recorded i).Nodup := List.nodup_range.filter _
    exact (hnodup.subperm fun id hid => h.recorded_active hp hq hid).length_le

end Runs

/-- Of three objects the first is used and comes back, the second is used and taken away from its
    borrower, and the third is in use. -/
def recordEvents : List (Event Nat) :=
  [.create { maxTotal := 3, abandonment := some {
      onUpkeep := true, timeout := ⟨10⟩, reported := true, tracksUse := true } },
    .spawn, .spawn,
    .begin 0 0 (.borrow none "first"), .step 0, .step 0, .answer 0 (.created (.ok 7)),
    .answer 0 (.activated 7 none), .access 0 "work" fun r => r,
    .begin 0 0 (.borrow none "second"), .step 0, .step 0, .answer 0 (.created (.ok 8)),
    .answer 0 (.activated 8 none), .access 1 "work" fun r => r,
    .giveBack 0 0 0, .step 0, .answer 0 (.passivated 7 none),
    .tick ⟨15⟩, .begin 0 0 (.borrow none "third"), .step 0, .step 0,
    .answer 0 (.activated 7 none), .lock 2 "work",
    .begin 1 0 .maintain, .step 1, .step 1]

theorem records_kept_in_sweep :
    ∃ p, Run (episodes recordEvents) (reached recordEvents) ∧
      (reached recordEvents).pools[0]? = some p ∧ (reached recordEvents).recorded 0 = [0, 1] ∧
      p.registry.active = [0] ∧ (reached recordEvents).inCharge 0 Custody.isSeized = [1] ∧
      RecordsKept (episodes recordEvents) (reached recordEvents) 0 p :=
  ⟨_, Run.of_events rfl, rfl, rfl, rfl, rfl, records_kept (Run.of_events rfl) rfl⟩

end ObjectPool
