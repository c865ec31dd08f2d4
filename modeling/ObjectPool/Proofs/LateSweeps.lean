/-
  ObjectPool.Proofs.LateSweeps

  Rounds of upkeep that are on their way when their pool is closed, in every run. A round that
  is in its idle sweep then looks at nothing but its list: the objects that wait to be tried
  out still are, and at the end of the sweep the overdue ones of the lent objects are still
  taken away from their borrowers. No other call does either of these. Otherwise a borrower of
  a closed pool keeps its object until it comes back, and then the object is destroyed.

    * `Episode.concludes`, `Episode.begun`, `Episode.probed` — what an idle sweep does.
    * `react_sweeps`, `Run.sweeps` — the idle sweeps that are on their way, and what waits for
      them.
    * `react_concludes` — only at the end of one is an object taken away.
    * `SweepsRunOut`, `sweeps_run_out` — the main statement.
-/

import ObjectPool.Proofs.Abandonment
import ObjectPool.Proofs.Accounts
import ObjectPool.Proofs.IdleQueue
import ObjectPool.Proofs.Stretch.Rounds

namespace ObjectPool

variable {ρ : Type}

/-- The idle object about which a call asks the factory, in its trial, once a stretch is over. -/
def Next.probed : Next ρ → List Nat
  | .go (.activating id (.test _ _)) | .go (.validating id (.trial (.test _ _)))
  | .go (.passivating id (.test _ _)) => [id]
  | _ => []

theorem Next.trials_of_probed {next : Next ρ} {id : Nat} (h : id ∈ next.probed) :
    id ∈ next.trials := by
  cases next with
  | finish r => cases h
  | go pt =>
    cases pt with
    | activating x t =>
      cases t with
      | test => exact List.mem_singleton.mp h ▸ List.mem_cons_self ..
      | lend => cases h
    | validating x c =>
      cases c with
      | trial t =>
        cases t with
        | test => exact List.mem_singleton.mp h ▸ List.mem_cons_self ..
        | lend => cases h
      | stock | takeBack => cases h
    | passivating x k =>
      cases k with
      | test => exact List.mem_singleton.mp h ▸ List.mem_cons_self ..
      | stock | takeBack => cases h
    | _ => cases h

namespace Episode

/-- Whether an idle sweep of the pool `i` is over in an episode. -/
def concludes (i : Nat) (e : Episode ρ) : Bool :=
  e.call?.any fun a => decide (a.pool = i) && a.point.concludes

/-- What can be read off where an episode leaves a call on the pool `i`. -/
def shown (v : Next ρ → List Nat) (i : Nat) (e : Episode ρ) : List Nat :=
  match e.call?, e.next? with
  | some a, some next => if a.pool = i then v next else []
  | _, _ => []

/-- The idle object of the pool `i` whose trial begins in an episode. -/
def begun (i : Nat) (e : Episode ρ) : List Nat := e.shown Next.begun i

/-- The idle object of the pool `i` about which the factory is asked in an episode, to activate,
    validate or passivate it in its trial. -/
def probed (i : Nat) (e : Episode ρ) : List Nat := e.shown Next.probed i

theorem shown_elsewhere {e : Episode ρ} {i : Nat} (hno : ∀ a, e.call? = some a → a.pool ≠ i)
    (v : Next ρ → List Nat) : e.shown v i = [] := by
  unfold shown
  split
  · rename_i a next ha _
    exact if_neg (hno a ha)
  · rfl

end Episode

namespace World

variable {w w' : World ρ} {e : Event ρ} {f : Effect ρ} {t i id : Nat} {a : Activity ρ}
  {q p : Pool ρ} {s : Stretch ρ} {g : Nat → List Nat} {pts : List (Point ρ)}

/-- How many rounds of upkeep of the pool `i` are in their idle sweeps. -/
def sweepers (w : World ρ) (i : Nat) : Nat := (w.points i).countP fun pt => pt.agenda?.isSome

/-- The objects of the pool `i` that wait for a round of upkeep to try them out. -/
def awaiting (w : World ρ) (i : Nat) : List Nat := (w.points i).flatMap Point.awaiting

/-! ## Idle sweeps on a closed pool -/

theorem Calls.sweepers (h : w.Calls i pts) :
    w.sweepers i = pts.countP fun pt => pt.agenda?.isSome := by
  obtain ⟨new, hnew, hperm⟩ := h
  have hnone : new.countP (fun pt => pt.agenda?.isSome) = 0 := by
    refine List.countP_eq_zero.mpr fun pt hpt => ?_
    rw [(hnew pt hpt).agenda]
    exact Bool.false_ne_true
  rw [World.sweepers, ← hperm.countP_eq, List.countP_append, hnone, Nat.zero_add]

theorem Calls.awaiting (h : w.Calls i pts) :
    (pts.flatMap Point.awaiting).Perm (w.awaiting i) := by
  obtain ⟨new, hnew, hperm⟩ := h
  have hnone : new.flatMap Point.awaiting = [] := by
    refine List.flatMap_eq_nil_iff.mpr fun pt hpt => ?_
    rw [Point.awaiting, (hnew pt hpt).agenda]
    rfl
  have hall := hperm.flatMap_right Point.awaiting
  rwa [List.flatMap_append, hnone, List.nil_append] at hall

theorem Works.sweeps (h : w.Works e f t a q s) (hw : w.Sound g) (hc : q.closed = true) :
    s.Sweeps a.point := by
  rcases h.runs with ⟨-, hs⟩ | ⟨c, -, hs⟩
  · exact Pool.advance_sweeps (h.before hw)
      (fun x hx => List.mem_flatMap.mpr ⟨a.point, List.mem_cons_self .., hx⟩) hc hs
  · exact Pool.respond_sweeps hs

theorem Works.concludes (h : w.Works e f t a q s) :
    Episode.concludes a.pool ⟨w, e, f⟩ = a.point.concludes := by
  rw [Episode.concludes, h.call]
  exact (congrArg (· && a.point.concludes) (decide_eq_true rfl)).trans (Bool.true_and _)

/-- What can be read off where a stretch has left a call, if it is the same for a call that closes
    its pool as for one that has ended. -/
theorem Works.shown (h : w.Works e f t a q s) {v : Next ρ → List Nat}
    (hv : ∀ r, v (.go (.close (.release r))) = v (.finish r)) :
    Episode.shown v a.pool ⟨w, e, f⟩ = v s.next := by
  unfold Episode.shown
  rcases h.next?_cases with hnext | ⟨r, hr, hnext⟩
  · rw [h.call, hnext]
    exact if_pos rfl
  · rw [h.call, hnext, hr]
    exact (if_pos rfl).trans (hv r)

theorem Works.begun (h : w.Works e f t a q s) : Episode.begun a.pool ⟨w, e, f⟩ = s.next.begun :=
  h.shown fun _ => rfl

theorem Works.probed (h : w.Works e f t a q s) : Episode.probed a.pool ⟨w, e, f⟩ = s.next.probed :=
  h.shown fun _ => rfl

/-- A stretch changes nothing but its own call's part in the idle sweeps. -/
theorem Works.sweepers_moves (h : w.Works e f t a q s) :
    f.world.sweepers a.pool + a.point.agenda?.isSome.toNat =
      w.sweepers a.pool + s.next.agenda?.isSome.toNat := by
  have hbefore : w.sweepers a.pool =
      ((w.pop t).points a.pool).countP (fun pt => pt.agenda?.isSome) +
        a.point.agenda?.isSome.toNat := by
    rw [World.sweepers, h.stretches.points.countP_eq, List.countP_cons]
    cases a.point.agenda?.isSome <;> rfl
  have hafter : f.world.sweepers a.pool = s.next.agenda?.isSome.toNat +
      ((w.pop t).points a.pool).countP fun pt => pt.agenda?.isSome := by
    rw [h.lands.2.sweepers, List.countP_append]
    cases s.next with
    | finish r => rfl
    | go pt =>
      refine congrArg (· + _) ?_
      show [pt].countP (fun pt => pt.agenda?.isSome) = pt.agenda?.isSome.toNat
      rw [List.countP_singleton]
      cases pt.agenda?.isSome <;> rfl
  omega

/-- If no round of upkeep is in its idle sweep, no object is under trial. -/
theorem inCharge_of_still (h : w.sweepers i = 0) : w.inCharge i Custody.isTest = [] := by
  refine List.eq_nil_iff_forall_not_mem.mpr fun id hid => ?_
  obtain ⟨c, hmem, hk⟩ := World.mem_inCharge.mp hid
  obtain ⟨pt, hpt, hcharge⟩ := List.mem_flatMap.mp hmem
  have hagenda : pt.agenda? = none := by
    have hno := List.countP_eq_zero.mp h pt hpt
    simpa using hno
  have htrials : id ∈ pt.trials := by
    rw [← pt.trials_eq]
    exact List.mem_map.mpr ⟨(id, c), List.mem_filter.mpr ⟨hcharge, hk⟩, rfl⟩
  rw [Point.trials_of_agenda hagenda] at htrials
  cases htrials

/-- In a closed pool no idle sweep begins. One ends with each episode in which it is over, and an
    object waits until its trial begins. -/
theorem react_sweeps (hw : w.Sound g) (hr : w.react e = some f) (hp : w.pools[i]? = some p)
    (hc : p.closed = true) :
    f.world.sweepers i + (Episode.concludes i ⟨w, e, f⟩).toNat = w.sweepers i ∧
      (w.awaiting i).Perm (Episode.begun i ⟨w, e, f⟩ ++ f.world.awaiting i) := by
  rcases react_at hr i with ⟨hspares, hno⟩ | ⟨t, a, q, s, h, rfl⟩
  · have hconcludes : Episode.concludes i ⟨w, e, f⟩ = false := by
      refine Option.any_eq_false _ _ |>.mpr fun a ha => ?_
      rw [decide_eq_false (hno a ha)]
      rfl
    have hbegun : Episode.begun i ⟨w, e, f⟩ = [] := Episode.shown_elsewhere hno _
    rw [hconcludes, hbegun, List.nil_append]
    exact ⟨hspares.calls.sweepers, hspares.calls.awaiting⟩
  · obtain rfl := Option.some.inj (h.pool.symm.trans hp)
    have hs := h.sweeps hw hc
    rw [h.concludes, h.begun]
    constructor
    · have hcount := hs.count
      have hmoves := h.sweepers_moves
      omega
    · have hnext : s.next.points.flatMap Point.awaiting = s.next.awaiting := by
        cases s.next with
        | finish r => rfl
        | go pt => exact List.flatMap_singleton ..
      have hbefore := h.stretches.points.flatMap_right Point.awaiting
      rw [List.flatMap_cons, hs.awaiting, List.append_assoc] at hbefore
      have hafter := h.lands.2.awaiting
      rw [List.flatMap_append, hnext] at hafter
      exact hbefore.trans (hafter.append_left _)

/-! ## What is taken away by a closed pool -/

/-- The lent objects of a closed pool are gone through only at the end of an idle sweep. -/
theorem Works.concludes_of_pass (h : w.Works e f t a q s) (hc : q.closed = true)
    (hsweeps : a.point.sweeps = true) (hpass : s.next.isPass = true) :
    Episode.concludes a.pool ⟨w, e, f⟩ = true := by
  rw [h.concludes]
  rcases h.runs with ⟨-, hs⟩ | ⟨c, -, hs⟩
  · exact Pool.concludes_of_pass hc hs hsweeps hpass
  · exact nomatch (Pool.isRequest_of_sweeps hsweeps).symm.trans (Pool.isRequest_of_respond hs)

/-- An object of a closed pool is taken away from its borrower only at the end of an idle sweep. -/
theorem react_concludes (hw : w.Sound g) (hr : w.react e = some f) (hp : w.pools[i]? = some p)
    (hc : p.closed = true) (h : Episode.Reclaims i id ⟨w, e, f⟩) :
    Episode.concludes i ⟨w, e, f⟩ = true := by
  obtain ⟨q, c, hq, -, hdue⟩ := react_reclaims hr h
  obtain ⟨-, y, hy, hs, -⟩ := Pool.unused_of_isAbandoned hdue
  obtain ⟨y', hy', hwalk⟩ := (react_walks hw hr i).old id y (entriesOf_eq hq ▸ hy)
  have hstate : y'.state = .abandoned := by
    obtain ⟨z, hz, hs'⟩ := (stateOf_eq_iff (s := .abandoned) nofun).mp h.2
    exact Option.some.inj (hy'.symm.trans hz) ▸ hs'
  have htaken : id ∈ Episode.taken i ⟨w, e, f⟩ :=
    hwalk.away_of_abandoned (by rw [hs]; exact nofun) hstate
  rcases react_at hr i with ⟨-, hno⟩ | ⟨t, a, q, s, hworks, rfl⟩
  · unfold Episode.taken at htaken
    split at htaken
    · rename_i a next ha _
      rw [if_neg (hno a ha)] at htaken
      cases htaken
    · cases htaken
  · obtain rfl := Option.some.inj (hworks.pool.symm.trans hp)
    rw [hworks.taken] at htaken
    unfold Point.takes at htaken
    split at htaken
    · rename_i hsweeps
      exact hworks.concludes_of_pass hc hsweeps (Next.isPass_of_taken htaken)
    · cases htaken

/-- An object about which the factory is asked in its trial is under trial then. -/
theorem inCharge_of_probed (hr : w.react e = some f) (hid : id ∈ Episode.probed i ⟨w, e, f⟩) :
    id ∈ f.world.inCharge i Custody.isTest := by
  rcases react_at hr i with ⟨-, hno⟩ | ⟨t, a, q, s, h, rfl⟩
  · rw [Episode.probed, Episode.shown_elsewhere hno] at hid
    cases hid
  · rw [h.probed] at hid
    have htrials := Next.trials_of_probed hid
    obtain ⟨new, -, hperm⟩ := h.lands.2
    cases hn : s.next with
    | finish r =>
      rw [hn] at htrials
      cases htrials
    | go pt =>
      rw [hn] at htrials hperm
      refine mem_inCharge_of_trials (hperm.mem_iff.mp ?_) htrials
      exact List.mem_append_right _ (List.mem_cons_self ..)

/-- An object of a closed pool that comes back from its borrower goes to be destroyed. -/
theorem Works.retrieved (h : w.Works e f t a q s) (hw : w.Sound g) (hc : q.closed = true)
    (hs : w.stateOf { pool := a.pool, object := id } = .allocated) (hid : id ∈ a.point.returns) :
    ∃ v r, Episode.next? ⟨w, e, f⟩ = some (.go (.destroying id v .normal (.reply r))) := by
  have hsound := h.before hw
  have hloan := Ledger.loan_of_returns q ((w.pop t).points a.pool) (w.lent a.pool) (g a.pool) hid
  have hlive : (q.stateOf id).isReclaimed = false := by
    rw [← stateOf_of_pool (x := { pool := a.pool, object := id }) h.pool, hs]
    rfl
  obtain ⟨v, r, hnext⟩ : ∃ v r, s.next = .go (.destroying id v .normal (.reply r)) := by
    rcases h.looks hid with ⟨answer, -, rfl⟩ | ⟨-, rfl⟩
    · obtain ⟨v, hn⟩ := hsound.takeBack_closed hloan hc hlive w.now answer
      exact ⟨v, _, hn⟩
    · obtain ⟨v, hn⟩ := hsound.discard_closed hloan hc hlive
      exact ⟨v, _, hn⟩
  refine ⟨v, r, ?_⟩
  rcases h.next?_cases with hn | ⟨r', hr', -⟩
  · rw [hn, hnext]
  · exact nomatch hnext.symm.trans hr'

end World

/-! ## In every run -/

section Runs

variable {es later : List (Episode ρ)} {w w₀ : World ρ} {e : Episode ρ} {i id : Nat}
  {p₀ : Pool ρ}

/-- The idle sweeps that were on their way when a pool was closed are over or on their way, and the
    objects that waited for them are tried out or wait. -/
theorem Run.sweeps (h₀ : Run es w₀) (h : Run (later ++ es) w) (hp : w₀.pools[i]? = some p₀)
    (hc : p₀.closed = true) :
    w.sweepers i + later.countP (Episode.concludes i) = w₀.sweepers i ∧
      (w₀.awaiting i).Perm (later.flatMap (Episode.begun i) ++ w.awaiting i) := by
  induction later generalizing w with
  | nil =>
    obtain rfl := h.unique h₀
    exact ⟨rfl, .refl _⟩
  | cons e later ih =>
    cases h with
    | @next _ w e f run react =>
      obtain ⟨hcount, hwait⟩ := ih run
      obtain ⟨p, hp', hf⟩ := h₀.fades run hp hc
      obtain ⟨hstep, hbegun⟩ := World.react_sweeps run.sound react hp' hf.closed
      constructor
      · have hcons : (⟨w, e, f⟩ :: later).countP (Episode.concludes i) =
            later.countP (Episode.concludes i) + (Episode.concludes i ⟨w, e, f⟩).toNat := by
          rw [List.countP_cons]
          cases Episode.concludes i ⟨w, e, f⟩ <;> rfl
        show f.world.sweepers i + _ = _
        omega
      · rw [List.flatMap_cons, List.append_assoc]
        refine hwait.trans ((hbegun.append_left _).trans ?_)
        rw [← List.append_assoc, ← List.append_assoc]
        exact List.perm_append_comm.append_right _

/-- In a closed pool no object comes to be under trial. -/
theorem Run.underTrial (h₀ : Run es w₀) (h : Run (later ++ es) w) (hp : w₀.pools[i]? = some p₀)
    (hc : p₀.closed = true) (hid : id ∈ w.inCharge i Custody.isTest) :
    id ∈ w₀.inCharge i Custody.isTest := by
  induction later generalizing w with
  | nil => exact h.unique h₀ ▸ hid
  | cons e later ih =>
    cases h with
    | next run react =>
      obtain ⟨p, hp', hf⟩ := h₀.fades run hp hc
      have hidle : p.registry.idle = [] :=
        ((run.sound.pools i).sound p hp').books.shut hf.closed
      refine ih run ((World.react_trials run.sound react hid).resolve_left fun hmem => ?_)
      rw [World.idleOf_eq hp', hidle] at hmem
      exact nomatch hmem

/-- The factory is asked in a closed pool only about objects that were under trial already. -/
theorem Run.probed_of_closed (h₀ : Run es w₀) (h : Run (later ++ es) w)
    (hp : w₀.pools[i]? = some p₀) (hc : p₀.closed = true) :
    ∀ e ∈ later, ∀ id ∈ e.probed i, id ∈ w₀.inCharge i Custody.isTest := by
  intro e he id hid
  obtain ⟨newer, older, p, rfl, -, hr, -, -⟩ := h₀.midway h hp hc he
  rw [List.append_assoc, List.cons_append] at h
  have hafter : Run ((e :: older) ++ es) e.after := h.upto
  exact h₀.underTrial hafter hp hc (World.inCharge_of_probed hr hid)

/-- An object of a closed pool is taken away from its borrower only at the end of an idle sweep, in
    every run. -/
theorem Run.reclaims_of_closed (h₀ : Run es w₀) (h : Run (later ++ es) w)
    (hp : w₀.pools[i]? = some p₀) (hc : p₀.closed = true) :
    ∀ e ∈ later, ∀ id, e.Reclaims i id → e.concludes i = true := by
  intro e he id hrec
  obtain ⟨-, older, p, -, run, hr, hp', hc'⟩ := h₀.midway h hp hc he
  exact World.react_concludes run.sound hr hp' hc' hrec

/-- In a closed pool no object is picked for a borrower. -/
theorem Run.picks_of_closed (h₀ : Run es w₀) (h : Run (later ++ es) w)
    (hp : w₀.pools[i]? = some p₀) (hc : p₀.closed = true) (id : Nat) :
    ∀ e ∈ later, e.picks i id = false := by
  intro e he
  obtain ⟨-, older, p, -, run, hr, hp', hc'⟩ := h₀.midway h hp hc he
  refine Bool.not_eq_true _ |>.mp fun hpicks => ?_
  obtain ⟨hafter, hbefore⟩ := Bool.and_eq_true_iff.mp hpicks
  exact of_decide_eq_true hbefore
    (World.react_readied run.sound hr hp' hc' (of_decide_eq_true hafter))

/-- A borrower of a closed pool has its object, ready for use, as long as no call tries to take
    it. -/
theorem Run.keepsInHands (h₀ : Run es w₀) (h : Run (later ++ es) w)
    (hp : w₀.pools[i]? = some p₀) (hc : p₀.closed = true) (hid : id ∈ w₀.inHands i)
    (ht : ∀ e ∈ later, e.tries i id = false) :
    id ∈ w.inHands i ∧ ∃ p v, w.pools[i]? = some p ∧ p.slot? id = some v := by
  obtain ⟨hs, hready⟩ := h₀.sound.mem_inHands_iff.mp hid
  obtain ⟨hstill, -⟩ := h₀.circulates h hs hready (h₀.picks_of_closed h hp hc id)
  have hin := h.sound.mem_inHands_iff.mpr (hstill ht)
  obtain ⟨p, hp', -⟩ := h₀.fades h hp hc
  obtain ⟨b, v, hv⟩ := h.sound.of_inHands hp' hin
  refine ⟨hin, p, v, hp', ?_⟩
  rw [Pool.slot?_eq_shape?, show p.shape? id = _ from congrArg Position.shape hv]
  rfl

/-- The first call that tries to take an object of a closed pool from its borrower destroys it, if
    it has come back; or else a round of upkeep takes it away at the end of its idle sweep. -/
theorem Run.firstTry (h₀ : Run es w₀) {newer older : List (Episode ρ)}
    (h : Run ((newer ++ e :: older) ++ es) w) (hp : w₀.pools[i]? = some p₀)
    (hc : p₀.closed = true) (hid : id ∈ w₀.inHands i)
    (hfirst : ∀ x ∈ older, x.tries i id = false) :
    (e.retrieves i id = true →
        ∃ v r, e.next? = some (.go (.destroying id v .normal (.reply r)))) ∧
      (e.hunts i id = true → e.concludes i = true ∧ e.Reclaims i id) := by
  rw [List.append_assoc, List.cons_append] at h
  have run : Run (older ++ es) e.before := h.split
  obtain ⟨-, -, hr⟩ := h.of_mem (List.mem_append_right _ (List.mem_cons_self ..))
  obtain ⟨p, hp', hf⟩ := h₀.fades run hp hc
  obtain ⟨hs, hready⟩ := run.sound.mem_inHands_iff.mp
    (h₀.keepsInHands run hp hc hid hfirst).1
  have hworks : e.tries i id = true → ∃ t a q s, e.before.Works e.event e.effect t a q s ∧
      a.pool = i := World.works_of_tries hr
  constructor
  · intro hback
    obtain ⟨t, a, q, s, h, rfl⟩ := hworks (Bool.or_eq_true_iff.mpr (.inl hback))
    obtain rfl := Option.some.inj (h.pool.symm.trans hp')
    have hreturns := h.retrieves.symm.trans hback
    exact h.retrieved run.sound hf.closed hs (of_decide_eq_true hreturns)
  · intro hhunt
    obtain ⟨t, a, q, s, h, rfl⟩ := hworks (Bool.or_eq_true_iff.mpr (.inr hhunt))
    obtain rfl := Option.some.inj (h.pool.symm.trans hp')
    obtain ⟨hpass, -⟩ := Bool.and_eq_true_iff.mp (h.hunts.symm.trans hhunt)
    obtain ⟨hsweeps, hpass⟩ := Bool.and_eq_true_iff.mp hpass
    refine ⟨h.concludes_of_pass hf.closed hsweeps hpass, ?_, (h.hunted run.sound hs hready hhunt).1⟩
    rw [hs]
    exact nofun

/-! ## Main statement -/

/-- What the sweeps of the pool `i` come to by the world `w`, to which the episodes `later` led
    after it was closed in the world `w₀`. -/
structure SweepsRunOut (later : List (Episode ρ)) (w₀ w : World ρ) (i : Nat) : Prop where
  /-- A round of upkeep that was in its idle sweep comes to the end of it once. No other does. -/
  rounds : w.sweepers i + later.countP (Episode.concludes i) = w₀.sweepers i
  /-- The objects that waited for such a round are tried out one by one. No other is. -/
  begun : (w₀.awaiting i).Perm (later.flatMap (Episode.begun i) ++ w.awaiting i)
  /-- The factory is asked only about objects that were under trial. -/
  probed : ∀ e ∈ later, ∀ id ∈ e.probed i, id ∈ w₀.inCharge i Custody.isTest
  /-- Each of these is destroyed in the end, fit or not. -/
  destroyed : ∀ id ∈ w₀.inCharge i Custody.isTest,
    id ∈ w.inCharge i Custody.isSpare ∨ id ∈ graves later i
  /-- An object is taken away from its borrower only by a round that comes to the end of its idle
      sweep, and by no borrow. -/
  reclaimed : ∀ e ∈ later, ∀ id, e.Reclaims i id → e.concludes i = true
  /-- If no round was in its idle sweep, no object is taken away and none is tried out. -/
  still : w₀.sweepers i = 0 → ∀ e ∈ later, (∀ id, ¬e.Reclaims i id) ∧ e.probed i = []
  /-- Otherwise a borrower has its object, ready for use, until that comes back. -/
  kept : ∀ id ∈ w₀.inHands i, (∀ e ∈ later, e.tries i id = false) →
    id ∈ w.inHands i ∧ ∃ p v, w.pools[i]? = some p ∧ p.slot? id = some v
  /-- The object goes to be destroyed at once when it comes back, unless such a round was there
      first and has taken it away. -/
  first : ∀ id ∈ w₀.inHands i, ∀ newer e older, later = newer ++ e :: older →
    (∀ x ∈ older, x.tries i id = false) →
    (e.retrieves i id = true →
        ∃ v r, e.next? = some (.go (.destroying id v .normal (.reply r)))) ∧
      (e.hunts i id = true → e.concludes i = true ∧ e.Reclaims i id)

/-- In every run the rounds of upkeep that are in their idle sweeps when the pool is closed go on
    to the end, and no other call tries an object out or takes one away from its borrower. -/
theorem sweeps_run_out (h₀ : Run es w₀) (h : Run (later ++ es) w) (hp₀ : w₀.pools[i]? = some p₀)
    (hc : p₀.closed = true) : SweepsRunOut later w₀ w i := by
  obtain ⟨hrounds, hbegun⟩ := h₀.sweeps h hp₀ hc
  have hreclaimed := h₀.reclaims_of_closed h hp₀ hc
  have hprobed := h₀.probed_of_closed h hp₀ hc
  refine ⟨hrounds, hbegun, hprobed, fun id hid => ?_, hreclaimed, fun hnone e he => ⟨?_, ?_⟩,
    fun id hid ht => h₀.keepsInHands h hp₀ hc hid ht, ?_⟩
  · obtain ⟨c, hmem, hk⟩ := World.mem_inCharge.mp hid
    refine h₀.doomed h hp₀ hc (.inl (World.mem_inCharge.mpr ⟨c, hmem, ?_⟩))
    cases c with
    | lending => cases hk
    | _ => rfl
  · intro id hrec
    have hover : later.countP (Episode.concludes i) = 0 := by omega
    exact List.countP_eq_zero.mp hover e he (hreclaimed e he id hrec)
  · refine List.eq_nil_iff_forall_not_mem.mpr fun id hid => ?_
    have htrial := hprobed e he id hid
    rw [World.inCharge_of_still hnone] at htrial
    cases htrial
  · rintro id hid newer e older rfl hfirst
    exact h₀.firstTry h hp₀ hc hid hfirst

end Runs

/-- Two objects are lent, one of them for longer than it may go unused, and two are idle. While
    the factory lays the first of these to rest at the end of its trial, it closes the pool. -/
def closedInTrialEvents : List (Event Nat) :=
  [.create
      { maxTotal := 4, testWhileIdle := true,
        abandonment := some { onUpkeep := true, timeout := ⟨10⟩ } },
    .spawn,
    .begin 0 0 (.borrow none "first"), .step 0, .step 0, .answer 0 (.created (.ok 5)),
    .answer 0 (.activated 5 none), .tick ⟨15⟩,
    .begin 0 0 (.borrow none "second"), .step 0, .step 0, .answer 0 (.created (.ok 6)),
    .answer 0 (.activated 6 none),
    .begin 0 0 .add, .step 0, .answer 0 (.created (.ok 7)), .answer 0 (.passivated 7 none),
    .begin 0 0 .add, .step 0, .answer 0 (.created (.ok 8)), .answer 0 (.passivated 8 none),
    .tick ⟨20⟩,
    .begin 0 0 .maintain, .step 0, .step 0, .answer 0 (.activated 7 none),
    .answer 0 (.validated true),
    .begin 0 0 .close, .step 0]

/-- The other idle object is tried out and the overdue one is taken away, and its return refused.
    The one that was lent later comes back and is destroyed. -/
def sweptEvents : List (Event Nat) :=
  closedInTrialEvents ++
    [.step 0, .answer 0 (.passivated 7 none), .answer 0 (.destroyed none),
      .step 0, .answer 0 (.activated 8 none), .answer 0 (.validated true),
      .answer 0 (.passivated 8 none), .answer 0 (.destroyed none),
      .step 0, .step 0, .answer 0 (.destroyed none), .step 0, .step 0,
      .giveBack 0 0 0, .step 0, .letGo 0 1, .step 0, .answer 0 (.destroyed none)]

theorem sweeps_run_out_in_trial :
    ∃ p₀, Run (episodes closedInTrialEvents) (reached closedInTrialEvents) ∧
      Run ((episodes sweptEvents).take 18 ++ episodes closedInTrialEvents) (reached sweptEvents) ∧
      (reached closedInTrialEvents).pools[0]? = some p₀ ∧ p₀.closed = true ∧
      (reached closedInTrialEvents).sweepers 0 = 1 ∧
      (reached closedInTrialEvents).awaiting 0 = [3] ∧
      (reached closedInTrialEvents).inHands 0 = [0, 1] ∧
      (reached sweptEvents).sweepers 0 = 0 ∧ (reached sweptEvents).inHands 0 = [] ∧
      SweepsRunOut ((episodes sweptEvents).take 18) (reached closedInTrialEvents)
        (reached sweptEvents) 0 :=
  have h₀ : Run (episodes closedInTrialEvents) (reached closedInTrialEvents) := Run.of_events rfl
  have hall : Run (episodes sweptEvents) (reached sweptEvents) := Run.of_events rfl
  have h : Run ((episodes sweptEvents).take 18 ++ episodes closedInTrialEvents)
      (reached sweptEvents) := hall
  ⟨_, h₀, h, rfl, rfl, by decide +kernel, by decide +kernel, by decide +kernel,
    by decide +kernel, by decide +kernel, sweeps_run_out h₀ h rfl rfl⟩

/-- After the pool was closed the trial of an object begins, and another object is taken away from
    its borrower, whose return is refused then. -/
theorem taken_away_by_closed_pool :
    ∃ p₀ e e', Run (episodes closedInTrialEvents) (reached closedInTrialEvents) ∧
      Run ((episodes sweptEvents).take 18 ++ episodes closedInTrialEvents) (reached sweptEvents) ∧
      (reached closedInTrialEvents).pools[0]? = some p₀ ∧ p₀.closed = true ∧
      e ∈ (episodes sweptEvents).take 18 ∧ e.begun 0 = [3] ∧
      0 ∈ (reached closedInTrialEvents).inHands 0 ∧
      e' ∈ (episodes sweptEvents).take 18 ∧ e'.Reclaims 0 0 ∧
      answered (Event.returnsTo 0) Reply.isRefusal (episodes sweptEvents) = 1 := by
  have h₀ : Run (episodes closedInTrialEvents) (reached closedInTrialEvents) := Run.of_events rfl
  have hall : Run (episodes sweptEvents) (reached sweptEvents) := Run.of_events rfl
  exact ⟨_, (episodes sweptEvents)[14], (episodes sweptEvents)[9], h₀, hall, rfl, rfl,
    List.mem_of_getElem? (i := 14) rfl, by decide +kernel, by decide +kernel,
    List.mem_of_getElem? (i := 9) rfl, ⟨by decide +kernel, by decide +kernel⟩, by decide +kernel⟩

end ObjectPool
