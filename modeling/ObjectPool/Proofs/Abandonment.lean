/-
  ObjectPool.Proofs.Abandonment

  When a pool takes an object back from its borrower, in every run. The object went
  unused for longer than the timeout since it was picked for the borrower, and since
  each use through its handle if uses are tracked; nobody works on it. A use that is
  noted while the borrower works on the object does not count, and the time that the
  factory takes to ready the object counts as the borrower's.

    * `Episode.Uses`, `Episode.Reclaims` — an object is used, or taken back.
    * `Run.used` — the pool knows of every use of a lent object.
    * `KeepsUsed`, `used_objects_kept` — what that protects an object from.
    * `TimesBorrowers`, `borrowers_timed` — from when on the timeout runs.
-/

import ObjectPool.Proofs.Loans

namespace ObjectPool

variable {ρ : Type}

/-! ## Uses -/

/-- The handle through which an object is used in an event. -/
def Event.use? : Event ρ → Option Nat
  | .access n _ _ | .lock n _ | .markUsed n _ => some n
  | _ => none

namespace Episode

/-- An object of the pool `i` is used in an episode through the handle that a borrower has of it,
    and nobody works on the object already. -/
def Uses (i id : Nat) (e : Episode ρ) : Prop :=
  ∃ n x, e.event.use? = some n ∧ e.before.handle? n = some x ∧ x.pool = i ∧ x.object = id ∧
    x.guarded = false

/-- An object of the pool `i` is taken back from its borrower in an episode. -/
def Reclaims (i id : Nat) (e : Episode ρ) : Prop :=
  e.before.stateOf { pool := i, object := id } ≠ .abandoned ∧
    e.after.stateOf { pool := i, object := id } = .abandoned

end Episode

/-- The last sign of life is no earlier than the borrow, nor than the last use. -/
theorem Entry.le_lastActive {y : Entry ρ} {t : Instant} : t.nanos ≤ y.lastActive.nanos ↔
    t.nanos ≤ y.lastBorrow.nanos ∨ ∃ u, y.lastUse = some u ∧ t.nanos ≤ u.time.nanos := by
  unfold Entry.lastActive Instant.later
  cases y.lastUse with
  | none => simp
  | some u =>
    simp only [Option.some.injEq, exists_eq_left']
    omega

namespace Pool

variable {p : Pool ρ} {ℓ : Ledger ρ} {now : Instant} {id : Nat} {y : Entry ρ}

/-- A use is noted with its time, if uses are tracked. -/
theorem lastUse_trackUse {a : Abandonment} (ha : p.config.abandonment = some a)
    (ht : a.tracksUse = true) {site : String} (hy : (p.trackUse now id site).object? id = some y) :
    ∃ u, y.lastUse = some u ∧ u.time = now := by
  unfold Pool.trackUse at hy
  rw [ha] at hy
  dsimp only at hy
  rw [if_pos ht, object?_modify, if_pos rfl] at hy
  obtain ⟨z, -, rfl⟩ := Option.map_eq_some_iff.mp hy
  exact ⟨_, rfl, rfl⟩

theorem lastUse_modify (f : Entry ρ → Entry ρ) (hf : ∀ z, (f z).lastUse = z.lastUse)
    (hy : (p.modify id f).object? id = some y) :
    ∃ z, p.object? id = some z ∧ y.lastUse = z.lastUse := by
  rw [object?_modify, if_pos rfl] at hy
  obtain ⟨z, hz, rfl⟩ := Option.map_eq_some_iff.mp hy
  exact ⟨z, hz, hf z⟩

/-- A borrower that works on its object has it for sure. -/
theorem Sound.lent_of_guarded (h : p.Sound ℓ) {r : Option ρ} (hl : (id, ⟨true, r⟩) ∈ ℓ.loans) :
    p.isHeld id = true := by
  have hmem : ⟨true, r⟩ ∈ (p.position ℓ id).loans := mem_claims.mpr hl
  have hlegal := h.objects id
  have hstale : ∀ l, Stale l → (⟨true, r⟩ : Loan ρ) ∉ l := by
    rintro l (rfl | ⟨r', rfl⟩) hm
    · exact nomatch hm
    · exact nomatch (Loan.mk.inj (List.mem_singleton.mp hm)).1
  rw [isHeld_eq_shape?, show p.shape? id = (p.position ℓ id).shape from rfl]
  generalize p.position ℓ id = v at hmem hlegal
  cases hlegal with
  | unborn | idle => exact nomatch hmem
  | lent g r' => exact (Loan.mk.inj (List.mem_singleton.mp hmem)).1.symm
  | dead hs => exact absurd hmem (hstale _ hs)
  | entrusted he =>
    cases he with
    | seized r' hs => exact absurd hmem (hstale _ hs)
    | _ => exact nomatch hmem

end Pool

namespace World

variable {w : World ρ} {e : Event ρ} {f : Effect ρ} {i id n : Nat} {p : Pool ρ} {x : Handle}
  {y y' : Entry ρ} {g : Nat → List Nat} {a : Abandonment}

/-- A borrower of an object that is lent finds the resource there, and the object held exactly if
    it works on it. -/
theorem Sound.lent_of_handle (hw : w.Sound g) (hx : w.handle? n = some x)
    (hp : w.pools[x.pool]? = some p) (hy : p.object? x.object = some y)
    (hs : y.state = .allocated) :
    (p.slot? x.object).isSome = true ∧ p.isHeld x.object = x.guarded := by
  have hrec : (p.stateOf x.object).isReclaimed = false := by
    unfold Pool.stateOf
    rw [hy]
    dsimp only
    rw [hs]
    rfl
  obtain ⟨r, -, hv⟩ := ((hw.pools x.pool).sound p hp).lent_of_loan
    (mem_loans hx p (w.points x.pool) (g x.pool)) hrec
  have hshape : p.shape? x.object = some ⟨.allocated, some r, x.guarded⟩ :=
    congrArg Position.shape hv
  rw [Pool.slot?_eq_shape?, Pool.isHeld_eq_shape?, hshape]
  exact ⟨rfl, rfl⟩

/-- A use of a lent object is noted, if uses are tracked. -/
theorem react_used (hw : w.Sound g) (hr : w.react e = some f)
    (hu : Episode.Uses i id ⟨w, e, f⟩) (hp : w.pools[i]? = some p)
    (ha : p.config.abandonment = some a) (ht : a.tracksUse = true)
    (hy : (f.world.entriesOf i)[id]? = some y') (hs : y'.state = .allocated) :
    ∃ u, y'.lastUse = some u ∧ u.time = w.now := by
  obtain ⟨n, x, huse, hx, rfl, rfl, hg⟩ := hu
  have hcalled : w.Called e f := by
    rcases react_cases hr with hc | ⟨t, rfl, -⟩ | ⟨t, r, rfl, -⟩
    · exact hc
    · exact nomatch huse
    · exact nomatch huse
  -- the object was lent before the event, too
  obtain ⟨y, hbefore, htouched⟩ := hcalled.touched x.pool x.object y' hy
  rw [entriesOf_eq hp] at hbefore
  obtain ⟨hslot, hheld⟩ := hw.lent_of_handle hx hp hbefore (htouched.state.symm.trans hs)
  have hresource : w.resource? x ≠ none := by
    rw [resource?_of_pool hp]
    exact fun hnone => nomatch hnone ▸ hslot
  have honPool : ∀ v : Pool ρ → Pool ρ, (w.onPool x.pool v).entriesOf x.pool = (v p).entries := by
    intro v
    rw [entriesOf_onPool, if_pos rfl, hp]
    rfl
  cases hcalled with
  | @access _ z site c r hz _ _ =>
    obtain rfl := Option.some.inj huse
    obtain rfl := Option.some.inj (hx.symm.trans hz)
    have hafter : ((p.trackUse w.now x.object site).letGo x.object (c r)).object? x.object =
      some y' := (congrArg (·[x.object]?) (honPool _)).symm.trans hy
    obtain ⟨z, hz, hlast⟩ := Pool.lastUse_modify
      (fun y => { y with held := false, slot := some (c r) }) (fun _ => rfl) hafter
    rw [hlast]
    exact Pool.lastUse_trackUse ha ht hz
  | @lock _ z site r hz _ _ =>
    obtain rfl := Option.some.inj huse
    obtain rfl := Option.some.inj (hx.symm.trans hz)
    have hafter : ((p.trackUse w.now x.object site).hold x.object).object? x.object = some y' :=
      (congrArg (·[x.object]?) (honPool _)).symm.trans hy
    obtain ⟨z, hz, hlast⟩ :=
      Pool.lastUse_modify (fun y => { y with held := true }) (fun _ => rfl) hafter
    rw [hlast]
    exact Pool.lastUse_trackUse ha ht hz
  | noAccess hz hnone | noLock hz hnone =>
    obtain rfl := Option.some.inj huse
    obtain rfl := Option.some.inj (hx.symm.trans hz)
    exact absurd hnone hresource
  | @markUsed _ z site hz =>
    obtain rfl := Option.some.inj huse
    obtain rfl := Option.some.inj (hx.symm.trans hz)
    have hafter : (if p.isHeld x.object = false ∧ (p.slot? x.object).isSome then
        p.trackUse w.now x.object site else p).object? x.object = some y' :=
      (congrArg (·[x.object]?) (honPool fun q => if q.isHeld x.object = false ∧
        (q.slot? x.object).isSome then q.trackUse w.now x.object site else q)).symm.trans hy
    rw [if_pos ⟨hheld.trans hg, hslot⟩] at hafter
    exact Pool.lastUse_trackUse ha ht hafter
  | _ => exact nomatch huse

/-- A borrower that works on its object and marks it as used leaves no trace of that. -/
theorem react_markUsed (hw : w.Sound g) (hx : w.handle? n = some x) (hg : x.guarded = true)
    (site : String) : w.react (.markUsed n site) = some { world := w } := by
  obtain ⟨p, hp⟩ := hw.pool_of_handle hx
  have hloan := mem_loans hx p (w.points x.pool) (g x.pool)
  rw [hg] at hloan
  have hheld := ((hw.pools x.pool).sound p hp).lent_of_guarded hloan
  have hsame : w.markUsed x site = w := by
    refine onPool_eq_self fun q hq => if_neg fun h => ?_
    obtain rfl := Option.some.inj (hp.symm.trans hq)
    exact nomatch hheld.symm.trans h.1
  rw [World.react, hx, Option.map_some, hsame]

/-- What is taken back from a borrower was overdue. -/
theorem react_reclaims (hr : w.react e = some f) (h : Episode.Reclaims i id ⟨w, e, f⟩) :
    ∃ p a, w.pools[i]? = some p ∧ p.config.abandonment = some a ∧
      p.isAbandoned w.now a.timeout id = true := by
  obtain ⟨hbefore, hafter⟩ := h
  rw [stateOf_eq] at hbefore hafter
  obtain ⟨y, hy, hs⟩ : ∃ y, (f.world.entriesOf i)[id]? = some y ∧ y.state = .abandoned := by
    cases hy : (f.world.entriesOf i)[id]? with
    | none =>
      rw [show Episode.after ⟨w, e, f⟩ = f.world from rfl, hy] at hafter
      exact nomatch hafter
    | some y =>
      refine ⟨y, rfl, ?_⟩
      rw [show Episode.after ⟨w, e, f⟩ = f.world from rfl, hy] at hafter
      exact hafter
  have hnew : ∀ z, (w.entriesOf i)[id]? = some z → z.state ≠ .abandoned := by
    intro z hz he
    refine hbefore ?_
    rw [show Episode.before ⟨w, e, f⟩ = w from rfl, hz]
    exact he
  rcases react_at hr i with ⟨-, hn⟩ | ⟨t, b, q, s, h, rfl⟩
  · obtain ⟨z, hz, ht⟩ := react_touched hr hn id y hy
    exact absurd (ht.state.symm.trans hs) (hnew z hz)
  · rw [h.entriesOf] at hy
    rcases h.reaches.pool.abandoned hy hs with ⟨z, hz, he⟩ | ⟨a, ha, hdue⟩
    · exact absurd he (hnew z (by rw [entriesOf_eq h.pool]; exact hz))
    · exact ⟨q, a, h.pool, ha, hdue⟩

end World

/-- What is taken back is lent, nobody works on it, and it went unused for too long. -/
theorem Pool.unused_of_isAbandoned {p : Pool ρ} {now : Instant} {timeout : Duration} {id : Nat}
    (h : p.isAbandoned now timeout id = true) : p.isHeld id = false ∧ ∃ y, p.object? id = some y ∧
      y.state = .allocated ∧ timeout.nanos < (now.since y.lastActive).nanos := by
  unfold Pool.isAbandoned Pool.unusedFor Pool.isIn at h
  obtain ⟨h, hstate⟩ := Bool.and_eq_true_iff.mp h
  obtain ⟨h, hheld⟩ := Bool.and_eq_true_iff.mp h
  obtain ⟨-, hunused⟩ := Bool.and_eq_true_iff.mp h
  obtain ⟨y, hy, hs⟩ := (Option.any_eq_true _ _).mp hstate
  rw [hy] at hunused
  exact ⟨by simpa using hheld, y, hy, of_decide_eq_true hs, of_decide_eq_true hunused⟩

theorem Instant.since_le {now t u : Instant} (h : t.nanos ≤ u.nanos) :
    (now.since u).nanos ≤ (now.since t).nanos :=
  Nat.sub_le_sub_left h now.nanos

section Runs

variable {es : List (Episode ρ)} {w : World ρ} {i id : Nat}

/-! ## Uses are remembered -/

/-- The pool `i` is there and tracks the uses of its objects. -/
def World.TracksUses (w : World ρ) (i : Nat) : Prop :=
  ∃ p a, w.pools[i]? = some p ∧ p.config.abandonment = some a ∧ a.tracksUse = true

/-- Whether a pool tracks uses was settled when it was made. -/
theorem World.TracksUses.before {e : Event ρ} {f : Effect ρ} (h : f.world.TracksUses i)
    (run : Run es w) (hr : w.react e = some f) {q : Pool ρ} (hq : w.pools[i]? = some q) :
    w.TracksUses i := by
  obtain ⟨p, a, hp, ha, ht⟩ := h
  obtain ⟨p', hp', hc⟩ := World.react_config run.sound hr hq
  obtain rfl := Option.some.inj (hp.symm.trans hp')
  exact ⟨q, a, hq, hc ▸ ha, ht⟩

theorem World.pool_of_entry {y : Entry ρ} (hy : (w.entriesOf i)[id]? = some y) :
    ∃ q, w.pools[i]? = some q := by
  cases hq : w.pools[i]? with
  | some q => exact ⟨q, rfl⟩
  | none =>
    have hempty : w.entriesOf i = [] := by
      rw [World.entriesOf, hq]
      rfl
    rw [hempty, List.getElem?_nil] at hy
    cases hy

/-- A pool that tracks uses knows of every use of an object that is lent: it was no later than the
    last sign of life that the pool has. -/
theorem Run.used (h : Run es w) {y : Entry ρ} (ht : w.TracksUses i)
    (hy : (w.entriesOf i)[id]? = some y) (hs : y.state = .allocated) :
    ∀ u ∈ es, u.Uses i id → u.before.now.nanos ≤ y.lastActive.nanos := by
  induction h generalizing y with
  | start => exact fun u hu => nomatch hu
  | @next es w e f run react ih =>
    have hclock := run.clock
    rcases World.react_at react i with ⟨-, hn⟩ | ⟨t, b, q, s, h, rfl⟩
    · obtain ⟨y₀, hy₀, htouched⟩ := World.react_touched react hn id y hy
      obtain ⟨q, hq⟩ := World.pool_of_entry hy₀
      have htracks := ht.before run react hq
      intro u hu huse
      rcases List.mem_cons.mp hu with rfl | hu
      · -- the use is noted with the time at which it happens
        obtain ⟨p, a, hp, ha, hta⟩ := htracks
        obtain ⟨v, hv, hnow⟩ := World.react_used run.sound react huse hp ha hta hy hs
        have hnanos := Nat.le_of_eq (congrArg Instant.nanos hnow.symm)
        exact Entry.le_lastActive.mpr (.inr ⟨v, hv, hnanos⟩)
      · have hold := ih htracks hy₀ (htouched.state.symm.trans hs) u hu huse
        rw [Entry.le_lastActive, htouched.borrow]
        refine (Entry.le_lastActive.mp hold).imp_right fun hlast => ?_
        rcases htouched.use with hsame | ⟨v, hv, hnow⟩
        · rw [hsame]
          exact hlast
        · exact ⟨v, hv, hnow ▸ hclock u hu⟩
    · rw [h.entriesOf] at hy
      intro u hu huse
      have hu : u ∈ es := by
        rcases List.mem_cons.mp hu with rfl | hu
        · -- a call that runs for a stretch is no use of an object
          obtain ⟨n, x, hevent, -⟩ := huse
          rcases h.runs with ⟨rfl, -⟩ | ⟨r, rfl, -⟩
          · exact nomatch hevent
          · exact nomatch hevent
        · exact hu
      rw [Entry.le_lastActive]
      rcases h.reaches.pool.lent hy hs with hnow | ⟨y₀, hy₀, hs₀, hborrow, hlast⟩
      · exact .inl (hnow ▸ hclock u hu)
      · rw [hborrow, hlast, ← Entry.le_lastActive]
        refine ih (ht.before run react h.pool) ?_ hs₀ u hu huse
        rw [World.entriesOf_eq h.pool]
        exact hy₀

/-! ## What protects an object from being taken back -/

/-- What the uses of an object of the pool `i` protect it from. -/
structure KeepsUsed (es : List (Episode ρ)) (w : World ρ) (i : Nat) : Prop where
  /-- Nobody works on an object that is taken back, and if uses are tracked, each use of it is
      longer ago than the timeout. -/
  reclaimed : ∀ e f id, w.react e = some f → Episode.Reclaims i id ⟨w, e, f⟩ →
    ∃ p a, w.pools[i]? = some p ∧ p.config.abandonment = some a ∧
      (∀ n x, w.handle? n = some x → x.pool = i → x.object = id → x.guarded = false) ∧
      (a.tracksUse = true →
        ∀ u ∈ es, u.Uses i id → a.timeout.nanos < (w.now.since u.before.now).nanos)
  /-- A borrower that works on its object and marks it as used leaves no trace of that. -/
  unnoted : ∀ n x, w.handle? n = some x → x.pool = i → x.guarded = true →
    ∀ site, w.react (.markUsed n site) = some { world := w }

/-- In every run an object is taken back only if nobody works on it and it was not used for longer
    than the timeout; that a borrower marks an object on which it works does not count. -/
theorem used_objects_kept (h : Run es w) (i : Nat) : KeepsUsed es w i where
  reclaimed := fun e f id hr hreclaims => by
    obtain ⟨p, a, hp, ha, hdue⟩ := World.react_reclaims hr hreclaims
    obtain ⟨hheld, y, hy, hs, hunused⟩ := Pool.unused_of_isAbandoned hdue
    refine ⟨p, a, hp, ha, fun n x hx hxi hxid => ?_, fun ht u hu huse => ?_⟩
    · subst hxi hxid
      exact (h.sound.lent_of_handle hx hp hy hs).2.symm.trans hheld
    · have hold : (w.entriesOf i)[id]? = some y := by
        rw [World.entriesOf_eq hp]
        exact hy
      have hlast := h.used ⟨p, a, hp, ha, ht⟩ hold hs u hu huse
      exact Nat.lt_of_lt_of_le hunused (Instant.since_le hlast)
  unnoted := fun n x hx _ hg site => World.react_markUsed h.sound hx hg site

/-- A borrower works on its object at 0 and marks it at 8, while it still works on it. The object
    may go unused for 10; the pool is looked after at 12. -/
def markedAtWorkEvents : List (Event Nat) :=
  [.create { abandonment := some { onUpkeep := true, timeout := ⟨10⟩, tracksUse := true } },
    .spawn, .spawn,
    .begin 0 0 (.borrow none "first"), .step 0, .step 0, .answer 0 (.created (.ok 7)),
    .answer 0 (.activated 7 none),
    .lock 0 "work", .tick ⟨8⟩, .markUsed 0 "work", .unlock 0 fun r => r, .tick ⟨12⟩,
    .begin 1 0 .maintain, .step 1]

theorem used_objects_kept_marked :
    Run (episodes markedAtWorkEvents) (reached markedAtWorkEvents) ∧
      KeepsUsed (episodes markedAtWorkEvents) (reached markedAtWorkEvents) 0 :=
  ⟨Run.of_events rfl, used_objects_kept (Run.of_events rfl) 0⟩

/-- The object is taken back, although it was marked only 4 before and may go unused for 10. -/
theorem marked_and_taken_back :
    ∃ p a f m, Run (episodes markedAtWorkEvents) (reached markedAtWorkEvents) ∧
      (reached markedAtWorkEvents).pools[0]? = some p ∧ p.config.abandonment = some a ∧
      a.tracksUse = true ∧ a.timeout = ⟨10⟩ ∧
      (reached markedAtWorkEvents).react (.step 1) = some f ∧
      Episode.Reclaims 0 0 ⟨reached markedAtWorkEvents, .step 1, f⟩ ∧
      (reached markedAtWorkEvents).now = ⟨12⟩ ∧
      m ∈ episodes markedAtWorkEvents ∧ m.event.use? = some 0 ∧ m.before.now = ⟨8⟩ ∧
      m.before.handle? 0 = some { pool := 0, object := 0, guarded := true } :=
  ⟨_, _, _, _, Run.of_events rfl, rfl, rfl, rfl, rfl, rfl,
    ⟨by decide +kernel, by decide +kernel⟩, rfl, List.mem_of_getElem? (i := 4) rfl, rfl, rfl, rfl⟩

/-! ## From when on the timeout runs -/

/-- What is lent to a borrower was picked before it was handed out. -/
theorem Run.picked_before {l k : Episode ρ} (h : Run es w)
    (hl : es.find? (Episode.lends i id) = some l) (hk : es.find? (Episode.picks i id) = some k) :
    k.before.now.nanos ≤ l.before.now.nanos := by
  obtain ⟨hpicks, -⟩ := List.find?_eq_some_iff_append.mp hk
  obtain ⟨-, later, earlier, rfl, hnone⟩ := List.find?_eq_some_iff_append.mp hl
  have hlends : k.lends i id = true := by
    rw [Episode.lends, hpicks, Bool.true_or]
  rcases List.mem_append.mp (List.mem_of_find?_eq_some hk) with hlater | hrest
  · -- nothing happened to the loan after it was handed out
    have hnot := hnone k hlater
    rw [hlends] at hnot
    exact nomatch hnot
  · rcases List.mem_cons.mp hrest with rfl | hearlier
    · exact Nat.le_refl _
    · exact h.split.clock k hearlier

/-- An object that is picked for a borrower in a run was idle, or it is new. -/
theorem Run.free_of_picks {k : Episode ρ} (h : Run es w) (hk : k ∈ es)
    (hpicks : k.picks i id = true) :
    id ∈ k.before.idleOf i ∨ (k.before.entriesOf i).length ≤ id := by
  obtain ⟨es', run, hr⟩ := h.of_mem hk
  obtain ⟨t, a, q, s, hworks, rfl, hp⟩ := World.works_of_picks run.sound hr hpicks
  rw [World.idleOf_eq hworks.pool, World.entriesOf_eq hworks.pool]
  exact hp.free

/-- How the pool `i` times its borrowers. -/
structure TimesBorrowers (es : List (Episode ρ)) (w : World ρ) (i : Nat) : Prop where
  /-- An object that is taken back was handed out last in the episode `l`. It was picked for that
      borrow in the episode `k`, when it was idle or new, and that is longer ago than the timeout.
      So is the end of the borrow, if no time passed between the two. -/
  reclaimed : ∀ e f id, w.react e = some f → Episode.Reclaims i id ⟨w, e, f⟩ →
    ∃ p a l k, w.pools[i]? = some p ∧ p.config.abandonment = some a ∧
      es.find? (Episode.lends i id) = some l ∧ l.handsOut i id = true ∧
      es.find? (Episode.picks i id) = some k ∧
      (id ∈ k.before.idleOf i ∨ (k.before.entriesOf i).length ≤ id) ∧
      k.before.now.nanos ≤ l.before.now.nanos ∧
      a.timeout.nanos < (w.now.since k.before.now).nanos ∧
      (k.before.now = l.before.now → a.timeout.nanos < (w.now.since l.before.now).nanos)

/-- In every run the timeout of a borrower has passed when its object is taken back. It runs from
    the time at which the object was picked, and while the factory readies it. -/
theorem borrowers_timed (h : Run es w) (i : Nat) : TimesBorrowers es w i where
  reclaimed := fun e f id hr hreclaims => by
    obtain ⟨p, a, hp, ha, hdue⟩ := World.react_reclaims hr hreclaims
    obtain ⟨-, y, hy, -, hunused⟩ := Pool.unused_of_isAbandoned hdue
    -- the object is lent, and no call has it in its charge
    obtain ⟨r, hfocus⟩ := ((h.sound.pools i).sound p hp).lent_of_isAbandoned hdue
    have hactive : id ∈ w.activeOf i := by
      rw [World.activeOf_eq hp]
      exact List.count_pos_iff.mp (hfocus.active ▸ Nat.one_pos)
    have hfree : claims id ((w.points i).flatMap Point.charges) = [] :=
      congrArg Position.charges hfocus.here
    obtain ⟨l, k, hl, hout, hk, hstamp⟩ := (h.traced i id).lent hactive hfree
    obtain ⟨hpicks, -⟩ := List.find?_eq_some_iff_append.mp hk
    have hentry : (w.entriesOf i)[id]? = some y := by
      rw [World.entriesOf_eq hp]
      exact hy
    have hlast := Entry.le_lastActive.mpr (.inl (hstamp y hentry))
    have hlong := Nat.lt_of_lt_of_le hunused (Instant.since_le hlast)
    exact ⟨p, a, l, k, hp, ha, hl, hout, hk, h.free_of_picks (List.mem_of_find?_eq_some hk) hpicks,
      h.picked_before hl hk, hlong, fun hsame => hsame ▸ hlong⟩

/-- A borrower gets its object at 20, after the factory took so long to ready it. The object may go
    unused for 10; the pool is looked after at once. -/
def slowlyReadiedEvents : List (Event Nat) :=
  [.create { abandonment := some { onUpkeep := true, timeout := ⟨10⟩ } }, .spawn, .spawn,
    .begin 0 0 (.borrow none "first"), .step 0, .step 0, .answer 0 (.created (.ok 7)),
    .tick ⟨20⟩, .answer 0 (.activated 7 none),
    .begin 1 0 .maintain, .step 1]

theorem borrowers_timed_slowly :
    Run (episodes slowlyReadiedEvents) (reached slowlyReadiedEvents) ∧
      TimesBorrowers (episodes slowlyReadiedEvents) (reached slowlyReadiedEvents) 0 :=
  ⟨Run.of_events rfl, borrowers_timed (Run.of_events rfl) 0⟩

/-- The object is taken back at 20 from the borrower that has just got it. -/
theorem lent_and_taken_back :
    ∃ p a f l, Run (episodes slowlyReadiedEvents) (reached slowlyReadiedEvents) ∧
      (reached slowlyReadiedEvents).pools[0]? = some p ∧ p.config.abandonment = some a ∧
      a.timeout = ⟨10⟩ ∧ (reached slowlyReadiedEvents).react (.step 1) = some f ∧
      Episode.Reclaims 0 0 ⟨reached slowlyReadiedEvents, .step 1, f⟩ ∧
      (reached slowlyReadiedEvents).now = ⟨20⟩ ∧
      (episodes slowlyReadiedEvents).find? (Episode.lends 0 0) = some l ∧
      l.handsOut 0 0 = true ∧ l.before.now = ⟨20⟩ :=
  ⟨_, _, _, _, Run.of_events rfl, rfl, rfl, rfl, rfl, ⟨by decide +kernel, by decide +kernel⟩, rfl,
    rfl, by decide +kernel, rfl⟩

end Runs

end ObjectPool
