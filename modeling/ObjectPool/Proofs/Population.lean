/-
  ObjectPool.Proofs.Population

  How many resources of a pool are alive, in every world that can be reached and so also
  while the factory runs. A resource is alive from the time the factory returns it to the
  time it is passed to the factory to be destroyed. An object gives up its place in the
  books before that: clearing, an eviction, a pass over the lent objects and closing take
  their objects out all at once and destroy them one after the other. The pool makes new
  objects for the places meanwhile, so that more resources can be alive than it has places.

  Apart from those that wait for their destruction there are never more, and the others are
  no more than were asked for since the last time at which none waited.

    * `living` — the resources that are alive.
    * `Episode.orders`, `World.orders` — objects that the factory is asked for.
    * `Run.living_le_orders` — how they bound the resources that are alive.
    * `Populated`, `population_bounded` — the bounds.
-/

import ObjectPool.Proofs.Conservation
import ObjectPool.Proofs.Frame

namespace ObjectPool

variable {ρ : Type}

/-- The resources of the pool `i` that are alive: the factory made them and did not get them to be
    destroyed. -/
def living (es : List (Episode ρ)) (i : Nat) : List Nat :=
  ((births es i).map (·.1)).filter (· ∉ graves es i)

/-- Whether the factory is making an object for a call. -/
def Point.isOrder : Point ρ → Bool
  | .creating _ => true
  | _ => false

/-- Whether the factory comes to be asked for an object for the pool `i` in an episode. -/
def Episode.orders (i : Nat) (e : Episode ρ) : Bool :=
  e.request?.any fun a => decide (a.pool = i) && a.point.isOrder

/-- How many objects the factory is making for the pool `i`. -/
def World.orders (w : World ρ) (i : Nat) : Nat := (w.points i).countP Point.isOrder

/-- The resources of the pool `i` that are alive once `es` have happened, and how many they can
    be. -/
structure World.Populated (w : World ρ) (es : List (Episode ρ)) (i : Nat) (p : Pool ρ) : Prop where
  /-- A resource that is alive is new, or tracked, or waits for its destruction. -/
  census : (living es i).Perm
    (w.inCharge i Custody.isNew ++ p.registry.tracked ++ w.inCharge i Custody.isDoomed)
  /-- Those that do not wait for their destruction have a place each. -/
  placed : ((living es i).filter (· ∉ w.inCharge i Custody.isDoomed)).length ≤ p.config.maxTotal
  /-- More than there are places for can be alive only while some wait for their destruction. -/
  within : (living es i).length ≤ p.config.maxTotal + (w.inCharge i Custody.isDoomed).length
  /-- The factory was asked for each one too many since the last time at which none waited. -/
  since : ∀ {later earlier : List (Episode ρ)} {w₀ : World ρ}, es = later ++ earlier →
    Run earlier w₀ → w₀.inCharge i Custody.isDoomed = [] →
      (living es i).length ≤ p.config.maxTotal + later.countP (Episode.orders i)

/-! ## Places of single calls -/

section Charges

variable {c : Custody ρ}

theorem countP_each_isNew (ids : List Nat) (hc : c.isNew = false) :
    (each ids c).countP (fun x => x.2.isNew) = 0 := by
  refine List.countP_eq_zero.mpr fun x hx => ?_
  obtain ⟨y, -, rfl⟩ := List.mem_map.mp hx
  simp [hc]

theorem countP_seizures_isNew (xs : List (Reclaimed ρ)) :
    (seizures xs).countP (fun x => x.2.isNew) = 0 := by
  refine List.countP_eq_zero.mpr fun x hx => ?_
  obtain ⟨y, -, rfl⟩ := List.mem_map.mp hx
  simp [Custody.isNew]

theorem countP_sweeping_isNew (out tests : List Nat) :
    (sweeping (ρ := ρ) out tests).countP (fun x => x.2.isNew) = 0 := by
  rw [sweeping, List.countP_append, countP_each_isNew out rfl, countP_each_isNew tests rfl]

/-- No object that waits for the end of another is new. -/
theorem After.countP_isNew (k : After ρ) : k.charges.countP (fun x => x.2.isNew) = 0 := by
  cases k with
  | reclaim rest n s => exact countP_seizures_isNew rest
  | evict out tests n => exact countP_sweeping_isNew out tests
  | drain rest d => exact countP_each_isNew rest rfl
  | seek | reply | notStocked => rfl

/-- No object that is tried out is new. -/
theorem Trial.countP_isNew (id : Nat) (t : Trial) :
    (t.charges (ρ := ρ) id).countP (fun x => x.2.isNew) = 0 := by
  cases t with
  | lend b fresh => rfl
  | test tests n =>
    rw [Trial.charges, List.countP_cons, countP_each_isNew tests rfl]
    rfl

/-- A call holds a place for each new object that it has or that the factory makes for it. -/
theorem Point.places_eq (pt : Point ρ) :
    pt.places = (if pt.isOrder then 1 else 0) + pt.charges.countP fun x => x.2.isNew := by
  cases pt with
  | evicting out tests n => exact (countP_sweeping_isNew out tests).symm.trans (Nat.zero_add _).symm
  | reclaiming rest n s => exact (countP_seizures_isNew rest).symm.trans (Nat.zero_add _).symm
  | reporting report x rest n s =>
    exact (countP_seizures_isNew (x :: rest)).symm.trans (Nat.zero_add _).symm
  | draining rest d => exact (countP_each_isNew rest rfl).symm.trans (Nat.zero_add _).symm
  | joining k rest c => exact (countP_each_isNew rest rfl).symm.trans (Nat.zero_add _).symm
  | destroying id r mode k => exact k.countP_isNew.symm.trans (Nat.zero_add _).symm
  | activating id t => exact (t.countP_isNew id).symm.trans (Nat.zero_add _).symm
  | validating id c =>
    cases c with
    | trial t => exact (t.countP_isNew id).symm.trans (Nat.zero_add _).symm
    | stock | takeBack => rfl
  | passivating id r =>
    cases r with
    | test tests n =>
      exact (Trial.countP_isNew id (.test tests n)).symm.trans (Nat.zero_add _).symm
    | stock | takeBack => rfl
  | borrow | seek | waiting | add | prepare | filling | upkeep | takeBack | discard | clear
  | close | creating => rfl

end Charges

/-- The places of some calls are those of the objects that the factory makes for them, and those
    of the new objects that they have. -/
theorem sum_places (pts : List (Point ρ)) : (pts.map Point.places).sum =
    pts.countP Point.isOrder + (pts.flatMap Point.charges).countP fun x => x.2.isNew := by
  induction pts with
  | nil => rfl
  | cons pt pts ih =>
    rw [List.map_cons, List.sum_cons, ih, pt.places_eq, List.flatMap_cons, List.countP_append,
      List.countP_cons]
    omega

namespace World

variable {w : World ρ} {e : Event ρ} {f : Effect ρ} {t i : Nat} {a : Activity ρ} {q p : Pool ρ}
  {s : Stretch ρ} {g : Nat → List Nat} {gs : List Nat}

theorem length_inCharge (w : World ρ) (i : Nat) (kind : Custody ρ → Bool) :
    (w.inCharge i kind).length =
      ((w.points i).flatMap Point.charges).countP fun x => kind x.2 := by
  rw [inCharge, List.length_map, List.countP_eq_length_filter]

/-- The places that are held are those of the objects that the factory makes, and those of the new
    objects. -/
theorem Agrees.creating_eq (h : w.Agrees i p) :
    p.registry.creating = w.orders i + (w.inCharge i Custody.isNew).length := by
  rw [h.creating, sum_places, length_inCharge, orders]

/-! ## One event -/

/-- A call that begins has not asked the factory for an object. -/
theorem Calls.orders {pts : List (Point ρ)} (h : w.Calls i pts) :
    w.orders i = pts.countP Point.isOrder := by
  obtain ⟨new, hnew, hperm⟩ := h
  have hnone : new.countP Point.isOrder = 0 := by
    refine List.countP_eq_zero.mpr fun pt hpt ho => ?_
    cases pt with
    | creating m => exact nomatch (hnew _ hpt).request
    | _ => exact nomatch ho
  rw [World.orders, ← hperm.countP_eq, List.countP_append, hnone, Nat.zero_add]

/-- A call that comes to wait for the factory is what the episode shows. -/
theorem Works.request? (h : w.Works e f t a q s) {pt : Point ρ} (hn : s.next = .go pt)
    (hr : pt.isRequest = true) : Episode.request? ⟨w, e, f⟩ = some ⟨a.pool, pt⟩ := by
  have htop : f.world.top? t = some ⟨a.pool, pt⟩ := by
    rw [h.effect, apply_go hn]
    exact top?_moveTo (w := w.onPool a.pool fun _ => s.pool) h.top pt
  have hreply : f.reply = none := by rw [h.effect, apply_go hn]
  unfold Episode.request?
  rw [h.thread, show (Episode.effect ⟨w, e, f⟩).reply = none from hreply, Option.bind_some,
    show (Episode.after ⟨w, e, f⟩).top? t = some _ from htop, Option.filter_some]
  simp [hr]

/-- The factory makes an object only for a call that asked for one. -/
theorem Works.length_born (h : w.Works e f t a q s) :
    (Episode.born a.pool ⟨w, e, f⟩).length ≤ if a.point.isOrder then 1 else 0 := by
  rcases h.runs with ⟨rfl, -⟩ | ⟨r, rfl, -⟩
  · exact Nat.zero_le _
  · rw [length_born_answer h.top, if_pos rfl]
    cases hpt : a.point with
    | creating m =>
      cases r with
      | created v => cases v <;> simp [Point.births, Point.isOrder]
      | _ => exact Nat.zero_le _
    | _ => exact Nat.zero_le _

/-- Where no call on the pool runs the factory makes nothing for it. -/
theorem born_eq_nil (h : ∀ a, Episode.call? ⟨w, e, f⟩ = some a → a.pool ≠ i) :
    Episode.born i ⟨w, e, f⟩ = [] := by
  unfold Episode.born
  split
  · rename_i t r he
    have he : e = .answer t (.created (.ok r)) := he
    split
    · rename_i p m htop
      have hcall : Episode.call? ⟨w, e, f⟩ = some ⟨p, .creating m⟩ := by
        subst he
        exact htop
      exact if_neg (h _ hcall)
    · rfl
  · rfl

/-- A new object, or one more that is asked for, is one that was asked for before, or the factory
    has just been asked for it. -/
theorem react_orders (hr : w.react e = some f) (i : Nat) :
    (Episode.born i ⟨w, e, f⟩).length + f.world.orders i ≤
      w.orders i + if Episode.orders i ⟨w, e, f⟩ then 1 else 0 := by
  rcases react_at hr i with ⟨hspares, hcall⟩ | ⟨t, a, q, s, h, rfl⟩
  · rw [born_eq_nil hcall, hspares.calls.orders, List.length_nil, Nat.zero_add]
    exact Nat.le_add_right _ _
  · have hbefore : w.orders a.pool = (if a.point.isOrder then 1 else 0) +
        ((w.pop t).points a.pool).countP Point.isOrder := by
      rw [orders, h.stretches.points.countP_eq, List.countP_cons, Nat.add_comm]
    have hborn := h.length_born
    rw [h.lands.2.orders, List.countP_append, hbefore]
    have hnext : s.next.points.countP Point.isOrder ≤
        if Episode.orders a.pool ⟨w, e, f⟩ then 1 else 0 := by
      cases hn : s.next with
      | finish r => exact Nat.zero_le _
      | go pt =>
        cases pt with
        | creating m =>
          rw [Episode.orders, h.request? hn rfl]
          simp [Next.points, Point.isOrder]
        | _ => exact Nat.zero_le _
    omega

end World

/-! ## Along a run -/

section Runs

variable {es later earlier : List (Episode ρ)} {w w₀ : World ρ} {i : Nat} {p : Pool ρ}

/-- No two objects have the same number. -/
theorem Run.nodup_births (h : Run es w) (i : Nat) : ((births es i).map (·.1)).Nodup :=
  h.births_eq i ▸ (List.reverse_perm _).nodup_iff.mpr List.nodup_range

/-- What was made is alive or was destroyed. -/
theorem Run.length_births (h : Run es w) (i : Nat) :
    (births es i).length = (living es i).length + (graves es i).length := by
  cases hp : w.pools[i]? with
  | none =>
    have hnone := (h.sound.pools i).housed hp
    have hborn := congrArg List.length (h.births_eq i)
    rw [World.entriesOf, hp, List.length_map] at hborn
    have hnil : births es i = [] := List.eq_nil_of_length_eq_zero hborn
    rw [living, hnil, hnone.2.2]
    rfl
  | some p =>
    -- the graves are the other part of what was made
    have hperm := h.places hp
    rw [← graves_eq] at hperm
    have hgraves : (((births es i).map (·.1)).filter (· ∈ graves es i)).Perm (graves es i) := by
      have hnodup := h.nodup_births i
      rw [List.perm_ext_iff_of_nodup (hnodup.filter _)
        (List.nodup_append.mp (hperm.nodup_iff.mp hnodup)).2.1]
      intro id
      rw [List.mem_filter, decide_eq_true_eq, and_iff_right_iff_imp]
      exact fun hid => hperm.mem_iff.mpr (List.mem_append_right _ hid)
    have hsplit := List.length_eq_length_filter_add (l := (births es i).map (·.1))
      fun id => decide (id ∈ graves es i)
    rw [List.length_map, hgraves.length_eq, Nat.add_comm] at hsplit
    rw [hsplit, living]
    congr 2
    exact List.filter_congr fun id _ => by simp

/-- The resources that are alive are new, or tracked, or wait for their destruction. -/
theorem Run.census (h : Run es w) (hp : w.pools[i]? = some p) : (living es i).Perm
    (w.inCharge i Custody.isNew ++ p.registry.tracked ++ w.inCharge i Custody.isDoomed) := by
  have hperm := h.places hp
  rw [← graves_eq] at hperm
  have hapart := (List.nodup_append.mp (hperm.nodup_iff.mp (h.nodup_births i))).2.2
  have hkept : ∀ id ∈ w.inCharge i Custody.isNew ++ p.registry.tracked ++
      w.inCharge i Custody.isDoomed, decide (id ∉ graves es i) = true :=
    fun id hid => decide_eq_true fun hg => hapart id hid id hg rfl
  have hnone : (graves es i).filter (· ∉ graves es i) = [] :=
    List.filter_eq_nil_iff.mpr fun id hid => by simpa using hid
  have hfilter := hperm.filter (· ∉ graves es i)
  rw [List.filter_append, List.filter_eq_self.mpr hkept, hnone, List.append_nil] at hfilter
  exact hfilter

/-- Those that are alive and those that the factory is making are no more than they were, and those
    that it was asked for since. -/
theorem Run.living_le_orders (h₀ : Run earlier w₀) (h : Run (later ++ earlier) w) (i : Nat) :
    (living (later ++ earlier) i).length + w.orders i ≤
      (living earlier i).length + w₀.orders i + later.countP (Episode.orders i) := by
  induction later generalizing w with
  | nil =>
    obtain rfl := h₀.unique h
    exact Nat.le_refl _
  | cons e later ih =>
    cases h with
    | @next _ v ev f run react =>
      have run : Run (later ++ earlier) v := run
      have hstep := World.react_orders react i
      have hold := ih run
      have hbefore := run.length_births i
      have hafter := (run.next react).length_births i
      -- an object that is destroyed is one less alive
      rw [births, List.flatMap_cons, List.length_append, ← births, graves, List.flatMap_cons,
        List.length_append, ← graves] at hafter
      rw [List.countP_cons, List.cons_append]
      omega

/-- With nothing that waits for its destruction there is a place for each resource that is alive
    or that the factory is making. -/
theorem Run.living_within (h : Run es w) (hp : w.pools[i]? = some p)
    (hd : w.inCharge i Custody.isDoomed = []) :
    (living es i).length + w.orders i ≤ p.config.maxTotal := by
  have hagrees := (h.sound.pools i).agrees hp
  have hplaces := hagrees.creating_eq
  have hwithin := hagrees.within
  rw [(h.census hp).length_eq, hd, List.append_nil, List.length_append]
  omega

/-- Those that do not wait for their destruction have a place each. -/
theorem Run.placed (h : Run es w) (hp : w.pools[i]? = some p) :
    ((living es i).filter (· ∉ w.inCharge i Custody.isDoomed)).length ≤ p.config.maxTotal := by
  have hagrees := (h.sound.pools i).agrees hp
  have hplaces := hagrees.creating_eq
  have hwithin := hagrees.within
  have hnone : (w.inCharge i Custody.isDoomed).filter (· ∉ w.inCharge i Custody.isDoomed) = [] :=
    List.filter_eq_nil_iff.mpr fun id hid => by simpa using hid
  have hlen := ((h.census hp).filter (· ∉ w.inCharge i Custody.isDoomed)).length_eq
  rw [List.filter_append, hnone, List.append_nil] at hlen
  have hle := List.length_filter_le (p := fun id => decide (id ∉ w.inCharge i Custody.isDoomed))
    (w.inCharge i Custody.isNew ++ p.registry.tracked)
  rw [List.length_append] at hle
  omega

end Runs

/-- In every run the resources of a pool that are alive and do not wait for their destruction are
    at most as many as it has places, and more are alive by as many as wait at most, and by as many
    as the factory was asked for since the last time at which none waited. -/
theorem population_bounded {es : List (Episode ρ)} {w : World ρ} {i : Nat} {p : Pool ρ}
    (h : Run es w) (hp : w.pools[i]? = some p) : w.Populated es i p where
  census := h.census hp
  placed := h.placed hp
  within := by
    have hwithin := ((h.sound.pools i).agrees hp).within
    have hplaces := ((h.sound.pools i).agrees hp).creating_eq
    rw [(h.census hp).length_eq, List.length_append, List.length_append]
    omega
  since := by
    rintro later earlier w₀ rfl h₀ hd
    have hgrown := h₀.living_le_orders h i
    cases hp₀ : w₀.pools[i]? with
    | none =>
      -- the pool was not there yet
      have hnone := ((h₀.sound.pools i).housed hp₀).1
      have horders : w₀.orders i = 0 := by rw [World.orders, hnone, List.countP_nil]
      have hliving : (living earlier i).length = 0 := by
        have hborn := congrArg List.length (h₀.births_eq i)
        have hsplit := h₀.length_births i
        rw [World.entriesOf, hp₀, List.length_map] at hborn
        exact Nat.eq_zero_of_add_eq_zero_right (hsplit.symm.trans hborn)
      omega
    | some p₀ =>
      obtain ⟨p', hp', hconfig⟩ := h.config_append h₀ hp₀
      obtain rfl := Option.some.inj (hp'.symm.trans hp)
      have hwithin := h₀.living_within hp₀ hd
      rw [← hconfig] at hwithin
      omega

/-- A pool with two places is cleared of its two idle objects. While the factory destroys the first
    of them another caller borrows twice. -/
def borrowsDuringClearEvents : List (Event Nat) :=
  [.create { maxTotal := 2 }, .spawn, .spawn,
    .begin 0 0 .add, .step 0, .answer 0 (.created (.ok 1)), .answer 0 (.passivated 1 none),
    .begin 0 0 .add, .step 0, .answer 0 (.created (.ok 2)), .answer 0 (.passivated 2 none),
    .begin 0 0 .clear, .step 0, .step 0,
    .begin 1 0 (.borrow none "first"), .step 1, .step 1, .answer 1 (.created (.ok 3)),
    .answer 1 (.activated 3 none),
    .begin 1 0 (.borrow none "second"), .step 1, .step 1, .answer 1 (.created (.ok 4)),
    .answer 1 (.activated 4 none)]

theorem population_bounded_during_clear :
    ∃ p, Run (episodes borrowsDuringClearEvents) (reached borrowsDuringClearEvents) ∧
      (reached borrowsDuringClearEvents).pools[0]? = some p ∧
      living (episodes borrowsDuringClearEvents) 0 = [3, 2, 0] ∧ p.registry.tracked = [2, 3] ∧
      (reached borrowsDuringClearEvents).inCharge 0 Custody.isDoomed = [0] ∧
      (reached borrowsDuringClearEvents).Populated (episodes borrowsDuringClearEvents) 0 p :=
  ⟨_, Run.of_events rfl, rfl, by decide +kernel, by decide +kernel, by decide +kernel,
    population_bounded (Run.of_events rfl) rfl⟩

/-- Three resources are alive in a pool with two places. -/
theorem three_alive_in_two_places :
    ∃ p, Run (episodes borrowsDuringClearEvents) (reached borrowsDuringClearEvents) ∧
      (reached borrowsDuringClearEvents).pools[0]? = some p ∧ p.config.validate = .ok () ∧
      p.config.maxTotal = 2 ∧ (living (episodes borrowsDuringClearEvents) 0).length = 3 :=
  ⟨_, Run.of_events rfl, rfl, rfl, by decide +kernel, by decide +kernel⟩

end ObjectPool
