/-
  ObjectPool.Proofs.Slots

  The slots of a pool's objects, in every run. A slot is empty exactly if the object was taken to
  be destroyed, and what a borrower sees of his object never contradicts itself: he is refused its
  resource exactly if it counts as taken back, and then for good. Nobody else comes upon an empty
  slot. Where a call looks into one it finds a resource, and no call says otherwise in its reply.

    * `Sound.slot_eq_none_iff` — when a slot is empty.
    * `Sound.refuses_iff` — when a borrower is refused.
    * `World.Intact`, `react_intact` — no call has a reply ready that tells of an empty slot.
    * `SlotsKept`, `slots_kept` — the main statement.
-/

import ObjectPool.Proofs.StrayReturns
import ObjectPool.Proofs.Stretch.Glances

namespace ObjectPool

variable {ρ : Type}

/-! ## Empty slots -/

section Empty

variable {v : Position ρ} {p : Pool ρ} {ℓ : Ledger ρ} {w : World ρ} {gs : List Nat} {i id : Nat}

/-- A slot is empty exactly if its resource went to the factory, or is with a call that has taken
    it from a borrower. -/
theorem Position.Legal.slot_eq_none_iff (h : v.Legal) {s : Shape ρ} (hs : v.shape = some s) :
    s.slot = none ↔ 0 < v.graves ∨ 0 < v.charges.countP Custody.isSeized := by
  cases h with
  | unborn => exact nomatch hs
  | idle | lent | dead =>
    obtain rfl := Option.some.inj hs
    simp
  | entrusted he =>
    cases he <;>
    · obtain rfl := Option.some.inj hs
      simp [Custody.isSeized]

/-- A borrower's object has its resource exactly as long as the pool has not taken it back. -/
theorem Position.Legal.slot_of_loan (h : v.Legal) {x : Loan ρ} (hx : x ∈ v.loans) :
    ∃ s, v.shape = some s ∧ (s.slot = none ↔ s.state.isReclaimed = true) := by
  cases h with
  | unborn | idle => exact nomatch hx
  | lent | dead => exact ⟨_, rfl, by simp [Lifecycle.isReclaimed]⟩
  | entrusted he =>
    cases he with
    | seized => exact ⟨_, rfl, by simp [Lifecycle.isReclaimed]⟩
    | _ => exact nomatch hx

theorem Pool.Sound.slot_eq_none_iff (h : p.Sound (.of p (w.points i) (w.lent i) gs))
    (hid : id < p.entries.length) :
    p.slot? id = none ↔ id ∈ gs ∨ id ∈ w.inCharge i Custody.isSeized := by
  obtain ⟨s, hs⟩ : ∃ s, p.shape? id = some s := by
    rw [← Option.isSome_iff_exists, Option.isSome_iff_ne_none, Ne, shape?_eq_none_iff]
    exact Nat.not_le_of_lt hid
  have hempty := (h.objects id).slot_eq_none_iff hs
  rw [slot?_eq_shape?, hs, ← List.count_pos_iff (l := gs), ← List.count_pos_iff,
    World.count_inCharge]
  exact hempty

theorem Pool.Sound.slot_of_loan (h : p.Sound ℓ) {x : Loan ρ} (hx : (id, x) ∈ ℓ.loans) :
    p.slot? id = none ↔ (p.stateOf id).isReclaimed = true := by
  obtain ⟨s, hs, hiff⟩ := (h.objects id).slot_of_loan (mem_claims.mpr hx)
  have hshape : p.shape? id = some s := hs
  rw [slot?_eq_shape?, stateOf_eq_shape?, hshape]
  exact hiff

end Empty

/-! ## What a borrower is told -/

namespace World

variable {w : World ρ} {g : Nat → List Nat} {n : Nat} {x : Handle} {site : String} {e : PoolError}

theorem access_eq_error_iff {f : ρ → ρ} :
    w.access x site f = .error e ↔ e = .reclaimed ∧ w.resource? x = none := by
  unfold access
  cases w.resource? x <;> simp [eq_comm]

theorem lock_eq_error_iff : w.lock n x site = .error e ↔ e = .reclaimed ∧ w.resource? x = none := by
  unfold lock
  cases w.resource? x <;> simp [eq_comm]

/-- A borrower finds no resource exactly if the pool counts his object as taken back. -/
theorem Sound.resource?_eq_none_iff (h : w.Sound g) (hx : w.handle? n = some x) :
    w.resource? x = none ↔ (w.stateOf x).isReclaimed = true := by
  obtain ⟨p, hp⟩ := h.pool_of_handle hx
  rw [resource?_of_pool hp, stateOf_of_pool hp]
  exact ((h.pools x.pool).sound p hp).slot_of_loan (mem_loans hx p (w.points x.pool) (g x.pool))

end World

/-! ## Replies -/

namespace World

variable {w w' : World ρ} {g : Nat → List Nat} {e : Event ρ} {f : Effect ρ} {t n : Nat}
  {x : Handle}

/-- No call on its way has a reply ready that tells of an empty slot. -/
def Intact (w : World ρ) : Prop :=
  ∀ u, ∀ a ∈ w.stackOf u, .failed .reclaimed ∉ a.point.outcomes

theorem Intact.of_stacks (h : w.Intact) (hs : ∀ u, w'.stackOf u = w.stackOf u) : w'.Intact :=
  fun u a ha => h u a (hs u ▸ ha)

theorem Intact.push (h : w.Intact) (hs : w'.threads = w.threads)
    (hth : ∃ th, w.threads[t]? = some th) {b : Activity ρ}
    (hb : .failed .reclaimed ∉ b.point.outcomes) : (w'.push t b).Intact := by
  intro u a ha
  rw [stackOf_push (hs ▸ hth) b u, stackOf_congr hs] at ha
  split at ha
  · rcases List.mem_cons.mp ha with rfl | ha
    · exact hb
    · exact h u a ha
  · exact h u a ha

/-- A thread that gives up a reference to a pool has the reply ready that it would give. -/
theorem Intact.forsake (h : w.Intact) (hth : ∃ th, w.threads[t]? = some th) {r : Reply}
    (hr : r ≠ .failed .reclaimed) (i : Nat) :
    (w.forsake t i r).world.Intact ∧ (w.forsake t i r).reply ≠ some (.failed .reclaimed) := by
  rcases forsake_cases w t i r with ⟨q, -, -, hlast⟩ | ⟨-, hmore⟩
  · rw [hlast]
    exact ⟨h.push rfl hth fun hmem => hr (List.mem_singleton.mp hmem).symm, nofun⟩
  · rw [hmore]
    exact ⟨h, fun heq => hr (Option.some.inj heq)⟩

/-- A call that begins has no such reply ready. -/
theorem Called.intact (h : w.Intact) (hc : w.Called e f) :
    f.world.Intact ∧ f.reply ≠ some (.failed .reclaimed) := by
  have hsame : ∀ {w' : World ρ}, w'.threads = w.threads → w'.Intact := fun hth =>
    h.of_stacks fun u => stackOf_congr hth u
  -- a call that takes an object back may have its reply ready from the beginning
  have hready : ∀ {r : Reply}, r ≠ .failed .reclaimed → .failed .reclaimed ∉ [r] :=
    fun hr hmem => hr (List.mem_singleton.mp hmem).symm
  cases hc with
  | spawn =>
    have hempty : ∀ th ∈ [({} : Thread ρ)], th.stack = [] := by simp
    exact ⟨h.of_stacks (stackOf_append hempty rfl), nofun⟩
  | create hw =>
    obtain ⟨keeper, ths, hths, rfl⟩ := create_cases hw
    exact ⟨h.of_stacks (stackOf_append hths rfl), nofun⟩
  | @drop t p _ _ _ ht =>
    exact Intact.forsake (w := w.onPool p fun q => { q with clones := q.clones - 1 }) (hsame rfl)
      (thread_of_isFree ht) (by nofun) p
  | @begin t p _ o _ _ ht =>
    refine ⟨h.push rfl (thread_of_isFree ht) ?_, nofun⟩
    cases o <;> exact List.not_mem_nil
  | giveBack _ _ ht _ _ =>
    unfold World.giveBack
    dsimp only
    split
    · exact ⟨h.push rfl (thread_of_isFree ht) List.not_mem_nil, nofun⟩
    · exact ⟨h.push rfl (thread_of_isFree ht) (hready nofun), nofun⟩
  | invalidate _ _ ht _ _ =>
    unfold World.invalidate
    dsimp only
    split
    · exact ⟨h.push rfl (thread_of_isFree ht) List.not_mem_nil, nofun⟩
    · exact ⟨h.push rfl (thread_of_isFree ht) (hready nofun), nofun⟩
  | letGo ht _ _ => exact ⟨h.push rfl (thread_of_isFree ht) (hready nofun), nofun⟩
  | _ => exact ⟨hsame rfl, nofun⟩

theorem Intact.keeperStep (h : w.Intact) {k : Keeper} (hth : ∃ th, w.threads[t]? = some th)
    (hk : w.keeperStep t k = some f) :
    f.world.Intact ∧ f.reply ≠ some (.failed .reclaimed) := by
  obtain ⟨hreply, hworld⟩ := keeperStep_cases hk
  obtain ⟨th, hth⟩ := hth
  have henter : ∀ phase, (w.enter t k phase).Intact := by
    refine fun phase => h.of_stacks fun u => ?_
    rw [enter, stackOf_onThread hth]
    split
    · rename_i htu
      subst htu
      exact (stackOf_eq hth).symm
    · rfl
  refine ⟨?_, hreply ▸ (Option.some_ne_none _).symm⟩
  rcases hworld with ⟨phase, hf⟩ | ⟨q, -, hf⟩
  · rw [hf]
    exact henter phase
  · rw [hf]
    exact (henter .working).push rfl ⟨_, getElem?_onThread hth _⟩ List.not_mem_nil

/-- Nor does a call that runs for a stretch come to one. -/
theorem Works.staysIntact {a : Activity ρ} {q : Pool ρ} {s : Stretch ρ}
    (hworks : w.Works e f t a q s) (hw : w.Sound g) (h : w.Intact) :
    f.world.Intact ∧ f.reply ≠ some (.failed .reclaimed) := by
  obtain ⟨rest, hstack, hthread⟩ := hworks.stackOf
  have hclear : .failed .reclaimed ∉ s.next.outcomes := fun hmem =>
    ((hworks.intact hw).outcomes _ hmem).elim (h t a (hstack ▸ .head _)) fun hne => hne rfl
  -- what has become of the call itself, if it is still there
  obtain ⟨top, hs, htop, hreply⟩ : ∃ top, f.world.stackOf t = top ++ rest ∧
      (∀ b ∈ top, .failed .reclaimed ∉ b.point.outcomes) ∧
        f.reply ≠ some (.failed .reclaimed) := by
    rcases hthread with ⟨pt, hn, hreply, hs⟩ | ⟨r, hn, ⟨hreply, hs⟩ | ⟨hreply, -, -, hs⟩⟩
    · rw [hn] at hclear
      exact ⟨[⟨a.pool, pt⟩], hs, List.forall_mem_singleton.mpr hclear,
        hreply ▸ (Option.some_ne_none _).symm⟩
    · rw [hn] at hclear
      refine ⟨[], hs, fun b hb => (nomatch hb), fun heq => hclear ?_⟩
      rw [hreply] at heq
      exact List.mem_singleton.mpr (Option.some.inj heq).symm
    · rw [hn] at hclear
      exact ⟨[⟨a.pool, .close (.release r)⟩], hs, List.forall_mem_singleton.mpr hclear,
        hreply ▸ (Option.some_ne_none _).symm⟩
  refine ⟨fun u b hb => ?_, hreply⟩
  by_cases hu : t = u
  · subst hu
    rw [hs] at hb
    rcases List.mem_append.mp hb with hb | hb
    · exact htop b hb
    · exact h t b (hstack ▸ .tail _ hb)
  · rw [hworks.stackOf_of_ne hu] at hb
    exact h u b hb

/-- In no event does a call give a reply that tells of an empty slot, or get one ready. -/
theorem react_intact (hw : w.Sound g) (h : w.Intact) (hr : w.react e = some f) :
    f.world.Intact ∧ f.reply ≠ some (.failed .reclaimed) := by
  cases react_happens hr with
  | called hc => exact hc.intact h
  | keeps _ hth _ hk => exact h.keeperStep ⟨_, hth⟩ hk
  | works hworks => exact hworks.staysIntact hw h

end World

/-! ## Every run -/

section Runs

variable {es : List (Episode ρ)} {w : World ρ}

theorem Run.intact (h : Run es w) : w.Intact := by
  induction h with
  | start => exact fun u a ha => nomatch ha
  | next run react ih => exact (World.react_intact run.sound ih react).1

/-- Where a call looks into a slot it finds the resource, with which it turns to the factory. -/
def Episode.FindsFilled (e : Episode ρ) : Prop :=
  ∀ t a q id pt, e.thread? = some t → e.before.top? t = some a →
    e.before.pools[a.pool]? = some q →
    q.Looks e.before.now a.point e.event.response? id pt → e.request? = some ⟨a.pool, pt⟩

theorem Run.findsFilled (h : Run es w) {e : Episode ρ} (he : e ∈ es) : e.FindsFilled := by
  intro t a q id pt ht ha hq hl
  obtain ⟨es', hrun, hreact⟩ := h.of_mem he
  -- the call that looks is the one that runs
  rcases World.react_works hreact with ⟨-, hnone⟩ | ⟨u, b, q', s, hworks⟩
  · have hcall : Episode.call? ⟨e.before, e.event, e.effect⟩ = some a := by
      rw [Episode.call?, show Episode.thread? ⟨e.before, e.event, e.effect⟩ = some t from ht]
      exact ha
    exact absurd (hcall.symm.trans hnone) (Option.some_ne_none a)
  · obtain rfl := Option.some.inj (hworks.thread.symm.trans ht)
    obtain rfl := Option.some.inj (hworks.top.symm.trans ha)
    obtain rfl := Option.some.inj (hworks.pool.symm.trans hq)
    exact hworks.request? (hworks.finds hrun.sound hl) hl.isRequest

/-- How the slots of objects are in a run, and who learns of an empty one. -/
structure SlotsKept (es : List (Episode ρ)) (w : World ρ) : Prop where
  /-- A slot is empty exactly if the object was taken to be destroyed: its resource went to the
      factory, or is with a call that has taken it from a borrower. -/
  emptied : ∀ (i : Nat) (p : Pool ρ), w.pools[i]? = some p → ∀ id < p.entries.length,
    (p.slot? id = none ↔ id ∈ graves es i ∨ id ∈ w.inCharge i Custody.isSeized)
  tracked : ∀ (i : Nat) (p : Pool ρ), w.pools[i]? = some p → ∀ id ∈ p.registry.tracked,
    ∃ v, p.slot? id = some v
  /-- A borrower is refused the resource exactly if his object counts as taken back. -/
  access : ∀ n x, w.handle? n = some x → ∀ site f e,
    w.access x site f = .error e ↔ e = .reclaimed ∧ (w.stateOf x).isReclaimed = true
  lock : ∀ n x, w.handle? n = some x → ∀ site e,
    w.lock n x site = .error e ↔ e = .reclaimed ∧ (w.stateOf x).isReclaimed = true
  /-- What was taken back stays taken back. -/
  forever : ∀ later older w₀, es = later ++ older → Run older w₀ → ∀ n x,
    w₀.handle? n = some x → (w₀.stateOf x).isReclaimed = true → (w.stateOf x).isReclaimed = true
  /-- No call comes upon an empty slot. -/
  filled : ∀ e ∈ es, e.FindsFilled
  replies : ∀ e ∈ es, e.effect.reply ≠ some (.failed .reclaimed)

/-- In every run the slots of a pool's objects are filled as long as somebody may look into
    them. -/
theorem slots_kept (h : Run es w) : SlotsKept es w where
  emptied := fun i p hp id hid => ((h.sound.pools i).sound p hp).slot_eq_none_iff hid
  tracked := fun i p hp id hid => ((h.sound.pools i).sound p hp).slot_of_tracked hid
  access := fun n x hx site f e => by
    rw [World.access_eq_error_iff, h.sound.resource?_eq_none_iff hx]
  lock := fun n x hx site e => by
    rw [World.lock_eq_error_iff, h.sound.resource?_eq_none_iff hx]
  forever := fun later older w₀ hes h₀ n x hx hr => h₀.isReclaimed (hes ▸ h) hx hr
  filled := fun e he => h.findsFilled he
  replies := fun e he => by
    obtain ⟨es', hrun, hreact⟩ := h.of_mem he
    exact (World.react_intact hrun.sound hrun.intact hreact).2

end Runs

/-- Of two borrowers the first does nothing for so long that a round of upkeep has just taken its
    object back, with the resource still to be destroyed. -/
def heldUpEvents : List (Event Nat) :=
  [.create { maxTotal := 2, abandonment := some { onUpkeep := true, timeout := ⟨10⟩ } },
    .spawn, .spawn, .begin 0 0 (.borrow none "first"), .step 0, .step 0,
    .answer 0 (.created (.ok 7)), .answer 0 (.activated 7 none), .tick ⟨15⟩,
    .begin 0 0 (.borrow none "second"), .step 0, .step 0, .answer 0 (.created (.ok 8)),
    .answer 0 (.activated 8 none), .tick ⟨20⟩, .begin 1 0 .maintain, .step 1, .step 1,
    .lock 0 "first"]

theorem slots_kept_when_held_up :
    ∃ p, Run (episodes heldUpEvents) (reached heldUpEvents) ∧
      (reached heldUpEvents).pools[0]? = some p ∧ p.slot? 0 = none ∧ p.slot? 1 = some 8 ∧
      graves (episodes heldUpEvents) 0 = [] ∧
      (reached heldUpEvents).inCharge 0 Custody.isSeized = [0] ∧
      SlotsKept (episodes heldUpEvents) (reached heldUpEvents) :=
  ⟨_, Run.of_events rfl, rfl, rfl, rfl, rfl, rfl, slots_kept (Run.of_events rfl)⟩

end ObjectPool
