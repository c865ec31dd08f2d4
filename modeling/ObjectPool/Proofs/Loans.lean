/-
  ObjectPool.Proofs.Loans

  How a borrower came by its object, as the episodes of a run tell it. A call of a borrower
  picks an object, which was idle or is new, and has the factory ready it; the borrow is
  stamped then, and the pool is open. Nothing else happens to the object's loan until the
  call hands it out, and after that nothing until the borrower parts with it.

    * `Episode.picks`, `Episode.handsOut` — what happens to a loan.
    * `World.Touched` — what the callers do to objects between two stretches.
    * `World.Traced`, `Run.traced` — the last thing that happened to the loan of an object.
-/

import ObjectPool.Proofs.Protocol.History
import ObjectPool.Proofs.Stretch.Reach

namespace ObjectPool

variable {ρ : Type}

/-! ## What the callers do to an object -/

/-- A use of an object is noted with the time of the event, if at all; the states it has been in
    and the stamps of its borrow and its return stay as they are. -/
structure Entry.Touched (now : Instant) (y y' : Entry ρ) : Prop where
  state : y'.state = y.state
  past : y'.past = y.past
  borrow : y'.lastBorrow = y.lastBorrow
  back : y'.lastReturn = y.lastReturn
  use : y'.lastUse = y.lastUse ∨ ∃ u, y'.lastUse = some u ∧ u.time = now

/-- Objects are used, and nothing else happens to them. -/
def Pool.Touched (now : Instant) (p p' : Pool ρ) : Prop :=
  ∀ id y', p'.object? id = some y' → ∃ y, p.object? id = some y ∧ y.Touched now y'

namespace Pool.Touched

variable {p p' : Pool ρ} {now : Instant} {id : Nat}

theorem of_eq (h : p'.entries = p.entries) : p.Touched now p' := fun id y hy =>
  ⟨y, (congrArg (·[id]?) h).symm.trans hy, rfl, rfl, rfl, rfl, .inl rfl⟩

theorem modify (h : p.Touched now p') {f : Entry ρ → Entry ρ}
    (hf : ∀ y : Entry ρ, y.Touched now (f y)) : p.Touched now (p'.modify id f) := by
  intro x y hy
  rw [object?_modify] at hy
  split at hy
  · obtain ⟨z, hz, rfl⟩ := Option.map_eq_some_iff.mp hy
    obtain ⟨y, hy, ht⟩ := h x z hz
    refine ⟨y, hy, (hf z).state.trans ht.state, (hf z).past.trans ht.past,
      (hf z).borrow.trans ht.borrow, (hf z).back.trans ht.back, ?_⟩
    rcases (hf z).use with hsame | hnow
    · rw [hsame]
      exact ht.use
    · exact .inr hnow
  · exact h x y hy

theorem trackUse (p : Pool ρ) (now : Instant) (id : Nat) (site : String) :
    p.Touched now (p.trackUse now id site) := by
  unfold Pool.trackUse
  split
  · split
    · exact (of_eq rfl).modify fun y => ⟨rfl, rfl, rfl, rfl, .inr ⟨_, rfl, rfl⟩⟩
    · exact of_eq rfl
  · exact of_eq rfl

theorem hold (h : p.Touched now p') : p.Touched now (p'.hold id) :=
  h.modify fun _ => ⟨rfl, rfl, rfl, rfl, .inl rfl⟩

theorem letGo (h : p.Touched now p') (r : ρ) : p.Touched now (p'.letGo id r) :=
  h.modify fun _ => ⟨rfl, rfl, rfl, rfl, .inl rfl⟩

end Pool.Touched

namespace World

variable {w w' : World ρ} {e : Event ρ} {f : Effect ρ} {i p : Nat}

/-- Objects of the pool `i` are used, and nothing else happens to them. -/
def Touched (w w' : World ρ) (i : Nat) : Prop :=
  ∀ (id : Nat) (y' : Entry ρ), (w'.entriesOf i)[id]? = some y' →
    ∃ y : Entry ρ, (w.entriesOf i)[id]? = some y ∧ y.Touched w.now y'

theorem Touched.of_eq (h : w'.entriesOf i = w.entriesOf i) : w.Touched w' i := fun id y hy =>
  ⟨y, (congrArg (·[id]?) h).symm.trans hy, rfl, rfl, rfl, rfl, .inl rfl⟩

theorem touched_onPool {v : Pool ρ → Pool ρ} (hv : ∀ q : Pool ρ, q.Touched w.now (v q))
    (p i : Nat) : w.Touched (w.onPool p v) i := by
  intro id y hy
  rw [entriesOf_onPool] at hy
  split at hy
  · rename_i hi
    subst hi
    cases hq : w.pools[i]? with
    | none =>
      rw [hq] at hy
      exact nomatch hy
    | some q =>
      rw [hq] at hy
      rw [entriesOf_eq hq]
      exact hv q id y hy
  · exact ⟨y, hy, rfl, rfl, rfl, rfl, .inl rfl⟩

/-- The callers use objects, and do nothing else to them. -/
theorem Called.touched (hc : w.Called e f) (i : Nat) : w.Touched f.world i := by
  cases hc with
  | tick _ | spawn | notCreated _ | begin _ _ _ | noAccess _ _ | noLock _ _ => exact .of_eq rfl
  | create hw => exact .of_eq (create_entries hw i)
  | @clone p _ _ _ =>
    exact touched_onPool (v := fun q => { q with clones := q.clones + 1 }) (fun _ => .of_eq rfl) p i
  | @drop t p _ _ _ _ =>
    have hdrop := entriesOf_onPool_of_eq (u := fun q => { q with clones := q.clones - 1 })
      (fun _ => rfl) w p i
    exact .of_eq ((entriesOf_forsake _ t p .done i).trans hdrop)
  | giveBack _ _ _ _ _ => exact .of_eq ((giveBack_parts ..).entries i)
  | invalidate _ _ _ _ _ => exact .of_eq ((invalidate_parts ..).entries i)
  | letGo _ _ _ => exact .of_eq ((letGo_parts ..).entries i)
  | @access _ x site c r _ _ _ =>
    exact touched_onPool (v := fun q => (q.trackUse w.now x.object site).letGo x.object (c r))
      (fun q => (Pool.Touched.trackUse q w.now x.object site).letGo _) x.pool i
  | @lock _ x site _ _ _ _ =>
    have huse := touched_onPool (w := w)
      (v := fun q => (q.trackUse w.now x.object site).hold x.object)
      (fun q => (Pool.Touched.trackUse q w.now x.object site).hold) x.pool i
    exact huse
  | @unlock _ x c r _ _ _ =>
    have huse := touched_onPool (w := w) (v := Pool.letGo x.object (c r))
      (fun q => Pool.Touched.letGo (.of_eq rfl) _) x.pool i
    exact huse
  | @markUsed _ x site _ =>
    refine touched_onPool (fun q => ?_) x.pool i
    split
    · exact .trackUse q w.now x.object site
    · exact .of_eq rfl

/-- Unless a call on a pool runs for a stretch, its objects are used and nothing else. -/
theorem react_touched (hr : w.react e = some f)
    (hn : ∀ a, Episode.call? ⟨w, e, f⟩ = some a → a.pool ≠ i) : w.Touched f.world i := by
  cases react_happens hr with
  | called hc => exact hc.touched i
  | keeps _ _ _ hk => exact .of_eq (keeperStep_entries hk i)
  | @works t a q s h =>
    refine .of_eq ?_
    rw [h.effect, apply_entries h.pool, if_neg (Ne.symm (hn a h.call))]

/-! ## The clock -/

theorem forsake_now (w : World ρ) (t p : Nat) (r : Reply) :
    (w.forsake t p r).world.now = w.now := by
  rcases forsake_cases w t p r with ⟨q, -, -, hlast⟩ | ⟨-, hmore⟩
  · rw [hlast]
    rfl
  · rw [hmore]

theorem apply_now (w : World ρ) (t p : Nat) (s : Stretch ρ) :
    (w.apply t p s).world.now = w.now := by
  cases hn : s.next with
  | go pt =>
    rw [apply_go hn]
    rfl
  | finish r =>
    rw [apply_finish hn]
    exact forsake_now (((w.onPool p fun _ => s.pool).pop t).handOver p r) t p r

theorem keeperStep_now {t : Nat} {k : Keeper} (hk : w.keeperStep t k = some f) :
    f.world.now = w.now := by
  rcases (keeperStep_cases hk).2 with ⟨phase, hf⟩ | ⟨q, -, hf⟩
  · rw [hf]
    rfl
  · rw [hf]
    rfl

theorem PartsWith.now {t n : Nat} {x : Handle} (h : w.PartsWith t n x w') : w'.now = w.now := by
  cases h with
  | own _ => rfl
  | foreign _ _ => rfl

/-- The clock never goes back. -/
theorem react_now (hr : w.react e = some f) : w.now.nanos ≤ f.world.now.nanos := by
  have hsame : f.world.now = w.now → w.now.nanos ≤ f.world.now.nanos :=
    fun h => Nat.le_of_eq (congrArg Instant.nanos h.symm)
  cases react_happens hr with
  | called hc =>
    cases hc with
    | tick h => exact h
    | create hw =>
      obtain ⟨keeper, ths, -, rfl⟩ := create_cases hw
      exact Nat.le_refl _
    | @drop t p _ _ _ _ =>
      exact hsame (forsake_now (w.onPool p fun q => { q with clones := q.clones - 1 }) t p .done)
    | giveBack _ _ _ _ _ => exact hsame (giveBack_parts ..).now
    | invalidate _ _ _ _ _ => exact hsame (invalidate_parts ..).now
    | letGo _ _ _ => exact hsame (letGo_parts ..).now
    | _ => exact Nat.le_refl _
  | keeps _ _ _ hk => exact hsame (keeperStep_now hk)
  | works h =>
    rw [h.effect]
    exact Nat.le_of_eq (congrArg Instant.nanos (apply_now ..).symm)

end World

/-- Nothing happened later than now. -/
theorem Run.clock {es : List (Episode ρ)} {w : World ρ} (h : Run es w) :
    ∀ u ∈ es, u.before.now.nanos ≤ w.now.nanos := by
  induction h with
  | start => exact fun u hu => nomatch hu
  | next run react ih =>
    have hnow := World.react_now react
    intro u hu
    rcases List.mem_cons.mp hu with rfl | hu
    · exact hnow
    · exact Nat.le_trans (ih u hu) hnow

/-- A run comes by the world in which each of its episodes begins. -/
theorem Run.split {later es : List (Episode ρ)} {e : Episode ρ} {w : World ρ}
    (h : Run (later ++ e :: es) w) : Run es e.before := by
  induction later generalizing w with
  | nil =>
    cases h with
    | next run react => exact run
  | cons x later ih =>
    cases h with
    | next run react => exact ih run

/-! ## Picked and handed out -/

namespace World

/-- The objects of the pool `i` that calls of borrowers have the factory ready. -/
def readied (w : World ρ) (i : Nat) : List Nat := (w.points i).flatMap Point.lending

/-- The objects that the pool `i` lists as lent. -/
def activeOf (w : World ρ) (i : Nat) : List Nat :=
  ((w.pools[i]?).map (·.registry.active)).getD []

/-- The pool `i` is there and not closed. -/
def isOpen (w : World ρ) (i : Nat) : Bool := (w.pools[i]?).any fun p => !p.closed

/-- The borrow of an object of the pool `i` bears no stamp before a point of time. -/
def StampedSince (w : World ρ) (i id : Nat) (t : Instant) : Prop :=
  ∀ y, (w.entriesOf i)[id]? = some y → t.nanos ≤ y.lastBorrow.nanos

end World

namespace Episode

/-- Whether the call of a borrower picks an object of the pool `i` in an episode: the factory is
    to ready it then. -/
def picks (i id : Nat) (e : Episode ρ) : Bool :=
  decide (id ∈ e.after.readied i) && decide (id ∉ e.before.readied i)

/-- Whether a borrow from the pool `i` ends with an object in an episode. -/
def handsOut (i id : Nat) (e : Episode ρ) : Bool :=
  decide (e.effect.reply = some (.lent id)) && e.call?.any fun a => decide (a.pool = i)

/-- Whether an object of the pool `i` is picked for a borrower or handed out in an episode. -/
def lends (i id : Nat) (e : Episode ρ) : Bool := e.picks i id || e.handsOut i id

theorem picks_eq_false {i id : Nat} {e : Episode ρ}
    (h : id ∈ e.after.readied i → id ∈ e.before.readied i) : e.picks i id = false := by
  by_cases hid : id ∈ e.before.readied i
  · exact Bool.and_eq_false_iff.mpr (.inr (decide_eq_false fun hb => hb hid))
  · exact Bool.and_eq_false_iff.mpr (.inl (decide_eq_false fun ha => hid (h ha)))

end Episode

namespace World

variable {w w' : World ρ} {e : Event ρ} {f : Effect ρ} {t i id : Nat} {a : Activity ρ} {q : Pool ρ}
  {s : Stretch ρ} {g : Nat → List Nat} {now : Instant}

theorem activeOf_eq (hq : w.pools[i]? = some q) : w.activeOf i = q.registry.active := by
  rw [activeOf, hq]
  rfl

theorem mem_readied :
    id ∈ w.readied i ↔ (id, .lending) ∈ (w.points i).flatMap Point.charges := by
  unfold readied
  rw [List.mem_flatMap, List.mem_flatMap]
  simp only [Point.mem_lending]

/-- A call that begins has nothing in its charge. -/
theorem Calls.charges {pts : List (Point ρ)} (h : w.Calls i pts) :
    (pts.flatMap Point.charges).Perm ((w.points i).flatMap Point.charges) := by
  obtain ⟨new, hnew, hperm⟩ := h
  have hnone : new.flatMap Point.charges = [] :=
    List.flatMap_eq_nil_iff.mpr fun pt hpt => (hnew pt hpt).charges
  have hall := hperm.flatMap_right Point.charges
  rwa [List.flatMap_append, hnone, List.nil_append] at hall

/-! ### A pool that is left alone -/

theorem Spares.activeOf (h : w.Spares w' i) : w'.activeOf i = w.activeOf i :=
  h.view (v := Registry.active) fun _ => rfl

theorem Spares.readied (h : w.Spares w' i) : id ∈ w'.readied i ↔ id ∈ w.readied i := by
  rw [mem_readied, mem_readied, h.calls.charges.mem_iff]

theorem Spares.claims_charges (h : w.Spares w' i) (id : Nat) :
    claims id ((w'.points i).flatMap Point.charges) = [] ↔
      claims id ((w.points i).flatMap Point.charges) = [] := by
  have hperm : (claims id _).Perm (claims id _) := claims_perm h.calls.charges
  exact ⟨fun hn => List.perm_nil.mp (hn ▸ hperm), fun hn => List.nil_perm.mp (hn ▸ hperm)⟩

/-- Nothing happens to the loans of a pool that is left alone. -/
theorem Spares.lends (h : w.Spares f.world i)
    (hn : ∀ a, Episode.call? ⟨w, e, f⟩ = some a → a.pool ≠ i) :
    Episode.picks i id ⟨w, e, f⟩ = false ∧ Episode.lends i id ⟨w, e, f⟩ = false := by
  have hpicks : Episode.picks i id ⟨w, e, f⟩ = false := Episode.picks_eq_false h.readied.mp
  refine ⟨hpicks, ?_⟩
  unfold Episode.lends Episode.handsOut
  rw [hpicks, Bool.false_or, Bool.and_eq_false_iff]
  refine .inr ?_
  cases hc : Episode.call? ⟨w, e, f⟩ with
  | none => rfl
  | some a => exact decide_eq_false (hn a hc)

/-! ### A call runs for a stretch -/

theorem Works.reaches (h : w.Works e f t a q s) : s.Reaches q w.now a.point := by
  rcases h.runs with ⟨-, hs⟩ | ⟨r, -, hs⟩
  · exact Pool.advance_reaches hs
  · exact Pool.respond_reaches hs

theorem Works.activeOf (h : w.Works e f t a q s) :
    f.world.activeOf a.pool = s.pool.registry.active := by
  obtain ⟨⟨p', hp', hbooks⟩, -⟩ := h.lands
  rw [activeOf_eq hp', hbooks.registry]

theorem Works.entriesOf (h : w.Works e f t a q s) : f.world.entriesOf a.pool = s.pool.entries := by
  rw [h.effect, apply_entries h.pool, if_pos rfl]

/-- What a call has for a borrower after a stretch it had before, or it has just picked it. -/
theorem Works.lending (h : w.Works e f t a q s) (hw : w.Sound g) (hid : id ∈ s.next.lending) :
    id ∈ a.point.lending ∨ s.Picks q w.now id := by
  rcases h.reaches.lending id hid with hold | hpromise | hpicks
  · exact .inl hold
  · -- no call has promised an object
    have hloan : Reply.isLoan (.lent id) = false :=
      (h.before hw).promises _ (List.mem_flatMap.mpr ⟨_, List.mem_cons_self .., hpromise⟩)
    exact nomatch hloan
  · exact .inr hpicks

theorem Works.readied_of_lending (h : w.Works e f t a q s) (hid : id ∈ a.point.lending) :
    id ∈ w.readied a.pool :=
  List.mem_flatMap.mpr ⟨a.point, h.call_mem, hid⟩

/-- What is readied for a borrower after a stretch was so before, or has just been picked. -/
theorem Works.readied (h : w.Works e f t a q s) (hw : w.Sound g)
    (hid : id ∈ f.world.readied a.pool) : id ∈ w.readied a.pool ∨ s.Picks q w.now id := by
  have hmem := h.lands.2.charges.mem_iff.mpr (mem_readied.mp hid)
  rw [List.flatMap_append] at hmem
  rcases List.mem_append.mp hmem with hnext | hrest
  · have hlend : id ∈ s.next.lending := by
      cases hn : s.next with
      | finish r =>
        rw [hn] at hnext
        exact nomatch hnext
      | go pt =>
        rw [hn] at hnext
        have hcharge : (id, Custody.lending) ∈ pt.charges := by
          rwa [← List.flatMap_singleton Point.charges pt]
        exact Point.mem_lending.mpr hcharge
    exact (h.lending hw hlend).imp_left h.readied_of_lending
  · -- the call that has the object is another one
    obtain ⟨pt, hpt, hcharge⟩ := List.mem_flatMap.mp hrest
    have hold : pt ∈ w.points a.pool := h.stretches.points.mem_iff.mpr (.tail _ hpt)
    exact .inl (mem_readied.mpr (List.mem_flatMap.mpr ⟨pt, hold, hcharge⟩))

/-- A borrower that has just got an object keeps the pool from going. -/
theorem Works.handsOut (h : w.Works e f t a q s) (hn : s.next = .finish (.lent id)) :
    Episode.handsOut a.pool id ⟨w, e, f⟩ = true := by
  have hreply : f.reply = some (.lent id) := by
    rw [h.effect, apply_finish hn]
    rcases forsake_cases (((w.onPool a.pool fun _ => s.pool).pop t).handOver a.pool (.lent id)) t
      a.pool (.lent id) with ⟨q, -, hrefs, -⟩ | ⟨-, hmore⟩
    · have hlent := (lent_handOver ((w.onPool a.pool fun _ => s.pool).pop t) a.pool
        (.lent id)).length_eq
      rw [references_eq, ← hlent] at hrefs
      simp [Reply.handles] at hrefs
    · rw [hmore]
  unfold Episode.handsOut
  rw [show Episode.effect ⟨w, e, f⟩ = f from rfl, hreply, h.call]
  simp

/-- A borrow that ends with an object had the factory ready it. -/
theorem Works.readied_of_finish (h : w.Works e f t a q s) (hw : w.Sound g)
    (hn : s.next = .finish (.lent id)) : id ∈ w.readied a.pool := by
  have hlend : id ∈ s.next.lending := by
    rw [hn]
    exact List.mem_singleton.mpr rfl
  rcases h.lending hw hlend with hold | hpicks
  · exact h.readied_of_lending hold
  · obtain ⟨pt, hgo⟩ := hpicks.readied
    exact nomatch hgo.symm.trans hn

/-! ### Every event -/

theorem works_of_call (hr : w.react e = some f) (hc : Episode.call? ⟨w, e, f⟩ = some a) :
    ∃ t q s, w.Works e f t a q s := by
  rcases react_works hr with ⟨-, hnone⟩ | ⟨t, b, q, s, h⟩
  · exact nomatch hc.symm.trans hnone
  · obtain rfl := Option.some.inj (hc.symm.trans h.call)
    exact ⟨t, q, s, h⟩

/-- An object that is handed out was readied for the borrower, whose call ends with it. -/
theorem works_of_handsOut (hr : w.react e = some f)
    (h : Episode.handsOut i id ⟨w, e, f⟩ = true) :
    ∃ t a q s, w.Works e f t a q s ∧ a.pool = i ∧ s.next = .finish (.lent id) := by
  obtain ⟨hreply, hcall⟩ := Bool.and_eq_true_iff.mp h
  have hreply : f.reply = some (.lent id) := of_decide_eq_true hreply
  obtain ⟨a, hc, ha⟩ := (Option.any_eq_true _ _).mp hcall
  obtain ⟨t, q, s, hworks⟩ := works_of_call hr hc
  refine ⟨t, a, q, s, hworks, of_decide_eq_true ha, ?_⟩
  rw [hworks.effect] at hreply
  cases hn : s.next with
  | go pt =>
    rw [apply_go hn] at hreply
    exact nomatch hreply
  | finish r =>
    rw [apply_finish hn] at hreply
    -- the thread gives the reply that the call ends with, if any
    rcases forsake_cases (((w.onPool a.pool fun _ => s.pool).pop t).handOver a.pool r) t a.pool r
      with ⟨q', -, -, hlast⟩ | ⟨-, hmore⟩
    · rw [hlast] at hreply
      exact nomatch hreply
    · rw [hmore] at hreply
      exact congrArg Next.finish (Option.some.inj hreply)

/-- An object that is picked was idle or is new, its pool is open, and its borrow is stamped. -/
theorem works_of_picks (hw : w.Sound g) (hr : w.react e = some f)
    (h : Episode.picks i id ⟨w, e, f⟩ = true) :
    ∃ t a q s, w.Works e f t a q s ∧ a.pool = i ∧ s.Picks q w.now id := by
  obtain ⟨hafter, hbefore⟩ := Bool.and_eq_true_iff.mp h
  have hafter : id ∈ f.world.readied i := of_decide_eq_true hafter
  have hbefore : id ∉ w.readied i := of_decide_eq_true hbefore
  rcases react_at hr i with ⟨hspares, -⟩ | ⟨t, a, q, s, hworks, rfl⟩
  · exact absurd (hspares.readied.mp hafter) hbefore
  · exact ⟨t, a, q, s, hworks, rfl, (hworks.readied hw hafter).resolve_left hbefore⟩

/-- The stamp of a borrow never goes back. -/
theorem react_stamped (hr : w.react e = some f) (h : w.StampedSince i id now)
    (hnow : now.nanos ≤ w.now.nanos) : f.world.StampedSince i id now := by
  intro y hy
  rcases react_at hr i with ⟨-, hn⟩ | ⟨t, a, q, s, hworks, rfl⟩
  · obtain ⟨y₀, hy₀, ht⟩ := react_touched hr hn id y hy
    rw [ht.borrow]
    exact h y₀ hy₀
  · rw [hworks.entriesOf] at hy
    rcases hworks.reaches.pool.stamped hy with hstamp | ⟨y₀, hy₀, hsame⟩
    · rw [hstamp]
      exact hnow
    · rw [hsame]
      refine h y₀ ?_
      rw [entriesOf_eq hworks.pool]
      exact hy₀

/-! ## The last thing that happened to a loan -/

/-- What the episodes tell of the loan of an object: while it is readied it was picked last, and
    with its borrower it was handed out last. The stamp of its borrow is no older than the time
    at which it was picked last. -/
structure Traced (es : List (Episode ρ)) (w : World ρ) (i id : Nat) : Prop where
  readied : id ∈ w.readied i → ∃ k, es.find? (Episode.lends i id) = some k ∧
    es.find? (Episode.picks i id) = some k ∧ w.StampedSince i id k.before.now
  lent : id ∈ w.activeOf i → claims id ((w.points i).flatMap Point.charges) = [] →
    ∃ l k, es.find? (Episode.lends i id) = some l ∧ l.handsOut i id = true ∧
      es.find? (Episode.picks i id) = some k ∧ w.StampedSince i id k.before.now

end World

section Runs

variable {es : List (Episode ρ)} {w : World ρ} {e : Event ρ} {f : Effect ρ} {t i id : Nat}
  {a : Activity ρ} {q : Pool ρ} {s : Stretch ρ}

/-- A stretch in a world that can be reached is a passage. -/
theorem Run.passage (run : Run es w) (h : w.Works e f t a q s) :
    ∃ st st₁, Passage q a.point ((w.pop t).points a.pool) (w.lent a.pool) (graves es a.pool) st st₁
      e.grants a.pool s := by
  obtain ⟨st, -, ho, -⟩ := run.obeys a.pool
  have hnone : ∀ pt ∈ ([] : List (Point ρ)), pt.Opens := fun _ hpt => nomatch hpt
  have hobeys := (ho.pool q h.pool).of_calls (.refl q) hnone h.stretches.points
  obtain ⟨st₁, -, hpass⟩ := h.passage run.sound hobeys
  exact ⟨st, st₁, hpass⟩

/-- What is in no charge after a stretch is neither in that of the call nor in that of another. -/
theorem World.Works.claims_charges (h : w.Works e f t a q s) (id : Nat) :
    claims id ((f.world.points a.pool).flatMap Point.charges) = [] ↔
      claims id s.next.charges = [] ∧
        claims id (((w.pop t).points a.pool).flatMap Point.charges) = [] := by
  have hperm : (claims id _).Perm (claims id _) := claims_perm h.lands.2.charges
  rw [Passage.charges_next] at hperm
  rw [← List.append_eq_nil_iff]
  exact ⟨fun hn => List.perm_nil.mp (hn ▸ hperm), fun hn => List.nil_perm.mp (hn ▸ hperm)⟩

/-- An object with which a call ends is in nobody's charge any more. -/
theorem Run.claims_of_finish (run : Run es w) (h : w.Works e f t a q s)
    (hn : s.next = .finish (.lent id)) :
    claims id ((f.world.points a.pool).flatMap Point.charges) = [] := by
  obtain ⟨st, st₁, hpass⟩ := run.passage h
  have hlend : id ∈ s.next.lending := by
    rw [hn]
    exact List.mem_singleton.mpr rfl
  refine (h.claims_charges id).mpr ⟨by rw [hn]; rfl, ?_⟩
  rcases h.lending run.sound hlend with hold | hpicks
  · exact hpass.free_of_charge (Point.mem_lending.mp hold)
  · obtain ⟨pt, hgo⟩ := hpicks.readied
    exact nomatch hgo.symm.trans hn

/-- An object that is lent and in nobody's charge after a stretch was so before, or a borrower has
    just got it. -/
theorem Run.lent_cases (run : Run es w) (h : w.Works e f t a q s)
    (hid : id ∈ s.pool.registry.active)
    (hc : claims id ((f.world.points a.pool).flatMap Point.charges) = []) :
    (id ∈ w.activeOf a.pool ∧ claims id ((w.points a.pool).flatMap Point.charges) = []) ∨
      s.next = .finish (.lent id) := by
  obtain ⟨st, st₁, hpass⟩ := run.passage h
  obtain ⟨hnext, hrest⟩ := (h.claims_charges id).mp hc
  have hold : id ∈ q.registry.active := by
    rcases h.turn.active hid with hold | ⟨c, hmem⟩
    · exact hold
    · exact absurd hmem (claims_eq_nil_iff.mp hnext c)
  by_cases hpt : claims id a.point.charges = []
  · refine .inl ⟨World.activeOf_eq h.pool ▸ hold, ?_⟩
    have hperm : (claims id _).Perm (claims id _) :=
      claims_perm (h.stretches.points.flatMap_right Point.charges)
    rw [Passage.charges_cons, hpt, hrest] at hperm
    exact List.perm_nil.mp hperm
  · -- the call had the object in its charge, and a borrower has it now that had none before
    obtain ⟨c, hcharge⟩ := List.exists_mem_of_ne_nil _ hpt
    have hbefore : (id, c) ∈ (Ledger.of q (a.point :: (w.pop t).points a.pool) (w.lent a.pool)
        (graves es a.pool)).charges := List.mem_append_left _ (mem_claims.mp hcharge)
    have hnone := hpass.before.no_loan_of_charge hbefore hold
    have hfree :
        claims id ((s.next.points ++ (w.pop t).points a.pool).flatMap Point.charges) = [] := by
      rw [Passage.charges_next, hnext, hrest]
      rfl
    obtain ⟨x, hx⟩ := (hpass.after.objects id).loan_of_active (List.count_pos_iff.mpr hid) hfree
    rcases hpass.loan_cases (mem_claims.mp hx) with ⟨y, hy⟩ | ⟨y, hy, rfl⟩
    · exact absurd hy (claims_eq_nil_iff.mp hnone y)
    · refine .inr ?_
      cases hn : s.next with
      | go pt =>
        rw [hn] at hy
        exact nomatch hy
      | finish r =>
        rw [hn] at hy
        cases r with
        | lent id =>
          rw [List.mem_singleton.mp hy]
        | done | made | failed => exact nomatch hy

/-- In every run the episodes tell of the loan of each object what the world shows. -/
theorem Run.traced (h : Run es w) (i id : Nat) : w.Traced es i id := by
  induction h with
  | start => exact ⟨(fun hid => nomatch hid), fun hid _ => nomatch hid⟩
  | @next es w e f run react ih =>
    -- the stamp of an object stays no older than an episode of the past
    have hstamp : ∀ k ∈ es, w.StampedSince i id k.before.now →
        f.world.StampedSince i id k.before.now :=
      fun k hk hs => World.react_stamped react hs (run.clock k hk)
    have hlater : ∀ {p : Episode ρ → Bool} {k : Episode ρ}, p ⟨w, e, f⟩ = false →
        es.find? p = some k → (⟨w, e, f⟩ :: es).find? p = some k := by
      intro p k hp hk
      rw [List.find?_cons_of_neg (Bool.eq_false_iff.mp hp)]
      exact hk
    rcases World.react_at react i with ⟨hspares, hn⟩ | ⟨t, a, q, s, h, rfl⟩
    · obtain ⟨hpicks, hlends⟩ :
          Episode.picks i id ⟨w, e, f⟩ = false ∧ Episode.lends i id ⟨w, e, f⟩ = false :=
        hspares.lends hn
      refine ⟨fun hid => ?_, fun hid hc => ?_⟩
      · obtain ⟨k, hk, hp, hs⟩ := ih.readied (hspares.readied.mp hid)
        exact ⟨k, hlater hlends hk, hlater hpicks hp, hstamp k (List.mem_of_find?_eq_some hp) hs⟩
      · rw [hspares.activeOf] at hid
        obtain ⟨l, k, hl, hout, hp, hs⟩ := ih.lent hid ((hspares.claims_charges id).mp hc)
        exact ⟨l, k, hlater hlends hl, hout, hlater hpicks hp,
          hstamp k (List.mem_of_find?_eq_some hp) hs⟩
    · have hlends : Episode.lends a.pool id ⟨w, e, f⟩ =
          (Episode.picks a.pool id ⟨w, e, f⟩ || Episode.handsOut a.pool id ⟨w, e, f⟩) := rfl
      have hnone : claims id ((f.world.points a.pool).flatMap Point.charges) = [] →
          id ∉ f.world.readied a.pool :=
        fun hc hid => claims_eq_nil_iff.mp hc _ (World.mem_readied.mp hid)
      refine ⟨fun hid => ?_, fun hid hc => ?_⟩
      · by_cases hold : id ∈ w.readied a.pool
        · -- the object is still readied for the borrower for whom it was picked
          have hpicks : Episode.picks a.pool id ⟨w, e, f⟩ = false :=
            Bool.and_eq_false_iff.mpr (.inr (decide_eq_false fun hb => hb hold))
          have hout : Episode.handsOut a.pool id ⟨w, e, f⟩ = false := by
            refine Bool.eq_false_iff.mpr fun ho => ?_
            obtain ⟨t', a', q', s', h', hpool, hn⟩ := World.works_of_handsOut react ho
            exact hnone (hpool ▸ run.claims_of_finish h' hn) hid
          rw [hpicks, hout] at hlends
          obtain ⟨k, hk, hp, hs⟩ := ih.readied hold
          exact ⟨k, hlater hlends hk, hlater hpicks hp, hstamp k (List.mem_of_find?_eq_some hp) hs⟩
        · have hpicks : Episode.picks a.pool id ⟨w, e, f⟩ = true :=
            Bool.and_eq_true_iff.mpr ⟨decide_eq_true hid, decide_eq_true hold⟩
          rw [hpicks, Bool.true_or] at hlends
          obtain ⟨y₀, hy₀, hnow⟩ := ((h.readied run.sound hid).resolve_left hold).stamped
          refine ⟨_, List.find?_cons_of_pos hlends, List.find?_cons_of_pos hpicks, fun y hy => ?_⟩
          rw [h.entriesOf] at hy
          obtain rfl := Option.some.inj (hy₀.symm.trans hy)
          exact Nat.le_of_eq (congrArg Instant.nanos hnow.symm)
      · have hpicks : Episode.picks a.pool id ⟨w, e, f⟩ = false :=
          Bool.and_eq_false_iff.mpr (.inl (decide_eq_false (hnone hc)))
        rw [hpicks, Bool.false_or] at hlends
        rw [h.activeOf] at hid
        rcases run.lent_cases h hid hc with ⟨hold, hfree⟩ | hn
        · obtain ⟨l, k, hl, hlout, hp, hs⟩ := ih.lent hold hfree
          have hks := hstamp k (List.mem_of_find?_eq_some hp) hs
          by_cases hout : Episode.handsOut a.pool id ⟨w, e, f⟩ = true
          · exact ⟨_, k, List.find?_cons_of_pos (hlends.trans hout), hout, hlater hpicks hp, hks⟩
          · have hout := Bool.eq_false_iff.mpr hout
            exact ⟨l, k, hlater (hlends.trans hout) hl, hlout, hlater hpicks hp, hks⟩
        · obtain ⟨k, -, hp, hs⟩ := ih.readied (h.readied_of_finish run.sound hn)
          have hout := h.handsOut hn
          exact ⟨_, k, List.find?_cons_of_pos (hlends.trans hout), hout, hlater hpicks hp,
            hstamp k (List.mem_of_find?_eq_some hp) hs⟩

end Runs

end ObjectPool
