/-
  ObjectPool.Proofs.Identity

  A resource stays with the object for which the factory made it. Whatever an access
  or an answer of the factory leaves as it was in a resource (its `mark`) tells, as
  long as there is the object, which resource it is: the one in the slot, the one on
  its way to be destroyed and the one destroyed have the mark of the one made.

    * `World.Keeps` — something is true of every resource in a world.
    * `react_keeps` — it stays true, whatever happens.
    * `Run.keeps` — the resources have the marks of those made.
-/

import ObjectPool.Proofs.Roster

namespace ObjectPool

variable {ρ : Type}

namespace World

variable {w : World ρ} {t p i : Nat} {a b : Activity ρ} {f : Effect ρ} {e : Event ρ}
  {s : Stretch ρ} {q : Pool ρ}

/-! ## Calls that come and go -/

theorem mem_activities : a ∈ w.activities ↔ ∃ th ∈ w.threads, a ∈ th.stack := List.mem_flatMap

theorem mem_activities_onThread {u : Thread ρ → Thread ρ} (h : a ∈ (w.onThread t u).activities) :
    a ∈ w.activities ∨ ∃ th, w.threads[t]? = some th ∧ a ∈ (u th).stack := by
  obtain ⟨th, hth, ha⟩ := mem_activities.mp h
  obtain ⟨v, hv⟩ := List.mem_iff_getElem?.mp hth
  rw [show (w.onThread t u).threads = w.threads.modify t u from rfl, List.getElem?_modify] at hv
  obtain ⟨th', hth', rfl⟩ := Option.map_eq_some_iff.mp hv
  by_cases htv : t = v
  · subst htv
    rw [if_pos rfl] at ha
    exact .inr ⟨th', hth', ha⟩
  · rw [if_neg htv] at ha
    exact .inl (mem_activities.mpr ⟨th', List.mem_of_getElem? hth', ha⟩)

theorem mem_activities_push (h : a ∈ (w.push t b).activities) : a ∈ w.activities ∨ a = b := by
  rcases mem_activities_onThread h with ha | ⟨th, hth, ha⟩
  · exact .inl ha
  · rcases List.mem_cons.mp ha with rfl | ha
    · exact .inr rfl
    · exact .inl (mem_activities.mpr ⟨th, List.mem_of_getElem? hth, ha⟩)

theorem mem_activities_pop (h : a ∈ (w.pop t).activities) : a ∈ w.activities := by
  rcases mem_activities_onThread h with ha | ⟨th, hth, ha⟩
  · exact ha
  · exact mem_activities.mpr ⟨th, List.mem_of_getElem? hth, List.mem_of_mem_tail ha⟩

theorem mem_activities_moveTo (ht : w.top? t = some b) {pt : Point ρ}
    (h : a ∈ (w.moveTo t pt).activities) : a ∈ w.activities ∨ a = { b with point := pt } := by
  obtain ⟨th, rest, hth, hs⟩ := top?_eq_some ht
  rcases mem_activities_onThread h with ha | ⟨th', hth', ha⟩
  · exact .inl ha
  · obtain rfl := Option.some.inj (hth.symm.trans hth')
    rw [hs] at ha
    rcases List.mem_cons.mp ha with rfl | ha
    · exact .inr rfl
    · refine .inl (mem_activities.mpr ⟨th, List.mem_of_getElem? hth, ?_⟩)
      rw [hs]
      exact List.mem_cons_of_mem _ ha

theorem mem_activities_forsake {r : Reply} (h : a ∈ (w.forsake t p r).world.activities) :
    a ∈ w.activities ∨ a.point.resources = [] := by
  rcases forsake_cases w t p r with ⟨q, -, -, hlast⟩ | ⟨-, hmore⟩
  · rw [hlast] at h
    rcases mem_activities_push h with ha | rfl
    · exact .inl ha
    · exact .inr rfl
  · rw [hmore] at h
    exact .inl h

theorem PartsWith.calls {n : Nat} {x : Handle} {w' : World ρ} (h : w.PartsWith t n x w')
    (ha : a ∈ w'.activities) : a ∈ w.activities ∨ a.point.resources = [] := by
  cases h with
  | own hpt =>
    rcases mem_activities_push ha with hold | rfl
    · exact .inl hold
    · exact .inr (by cases hpt <;> rfl)
  | foreign p hpt =>
    rcases mem_activities_push ha with hold | rfl
    · exact .inl hold
    · exact .inr (by cases hpt <;> rfl)

/-- A call that a caller begins has no resources. -/
theorem Called.calls (hc : w.Called e f) (ha : a ∈ f.world.activities) :
    a ∈ w.activities ∨ a.point.resources = [] := by
  cases hc with
  | tick _ | notCreated _ | clone _ _ | noAccess _ _ | noLock _ _ | access _ _ _ | lock _ _ _
  | unlock _ _ _ | markUsed _ => exact .inl ha
  | spawn =>
    rw [World.spawn, activities, activities_append (by simp)] at ha
    exact .inl ha
  | create hw =>
    obtain ⟨keeper, ths, hths, rfl⟩ := create_cases hw
    rw [activities, activities_append hths] at ha
    exact .inl ha
  | @drop t p _ _ _ _ =>
    exact mem_activities_forsake (w := w.onPool p fun q => { q with clones := q.clones - 1 }) ha
  | @begin t p q o _ _ _ =>
    rcases mem_activities_push ha with hold | rfl
    · exact .inl hold
    · exact .inr (by cases o <;> rfl)
  | giveBack _ _ _ _ _ => exact (giveBack_parts ..).calls ha
  | invalidate _ _ _ _ _ => exact (invalidate_parts ..).calls ha
  | letGo _ _ _ => exact (letGo_parts ..).calls ha

theorem keeperStep_calls {th : Thread ρ} {k : Keeper} (hth : w.threads[t]? = some th)
    (hs : th.stack = []) (hk : w.keeperStep t k = some f) (ha : a ∈ f.world.activities) :
    a ∈ w.activities ∨ a.point.resources = [] := by
  -- a change of phase leaves the calls of the thread alone
  have hmark : ∀ phase, a ∈ (w.enter t k phase).activities → a ∈ w.activities := by
    intro phase hmem
    rcases mem_activities_onThread hmem with hold | ⟨th', hth', hnew⟩
    · exact hold
    · obtain rfl := Option.some.inj (hth.symm.trans hth')
      rw [show ({ th with keeper := some { k with phase } } : Thread ρ).stack = [] from hs] at hnew
      exact nomatch hnew
  rcases (keeperStep_cases hk).2 with ⟨phase, hf⟩ | ⟨q, -, hf⟩
  · rw [hf] at ha
    exact .inl (hmark phase ha)
  · rw [hf] at ha
    rcases mem_activities_push ha with hold | rfl
    · exact .inl (hmark .working hold)
    · exact .inr rfl

/-- A stretch leaves the resources with the calls where they are, apart from those of its own
    call. -/
theorem apply_calls (ht : w.top? t = some b) (ha : a ∈ (w.apply t b.pool s).world.activities) :
    a ∈ w.activities ∨ a.point.resources = [] ∨
      (a.pool = b.pool ∧ a.point.resources = s.next.resources) := by
  cases hn : s.next with
  | go pt =>
    rw [apply_go hn] at ha
    rcases mem_activities_moveTo (w := w.onPool b.pool fun _ => s.pool) ht ha with hold | rfl
    · exact .inl hold
    · exact .inr (.inr ⟨rfl, rfl⟩)
  | finish r =>
    rw [apply_finish hn] at ha
    rcases mem_activities_forsake
      (w := ((w.onPool b.pool fun _ => s.pool).pop t).handOver b.pool r) ha with hold | hnone
    · exact .inl (mem_activities_pop (w := w.onPool b.pool fun _ => s.pool) hold)
    · exact .inr (.inl hnone)

/-! ## What is true of every resource -/

/-- Something is true of every resource in the slots of the pools and with the calls. -/
structure Keeps (ok : Nat → Nat → ρ → Prop) (w : World ρ) : Prop where
  objects : ∀ i id r, ((w.entriesOf i)[id]?).bind (·.slot) = some r → ok i id r
  calls : ∀ a ∈ w.activities, AllFit (ok a.pool) a.point.resources

/-- Something is true of what an event brings into the slots. -/
structure Brings (ok : Nat → Nat → ρ → Prop) (w : World ρ) (e : Event ρ) : Prop where
  access : ∀ n c x r, e.change? = some (n, c) → w.handle? n = some x → w.resource? x = some r →
    ok x.pool x.object (c r)
  answer : ∀ t c a q, e = .answer t c → w.top? t = some a → w.pools[a.pool]? = some q →
    q.Brings (ok a.pool) a.point c

variable {ok : Nat → Nat → ρ → Prop}

theorem Keeps.pool (h : w.Keeps ok) (hq : w.pools[i]? = some q) : q.Keeps (ok i) := by
  intro id r hr
  refine h.objects i id r ?_
  rw [entriesOf_eq hq]
  exact hr

theorem Keeps.top (h : w.Keeps ok) (ht : w.top? t = some a) :
    AllFit (ok a.pool) a.point.resources := by
  obtain ⟨th, rest, hth, hs⟩ := top?_eq_some ht
  refine h.calls a (mem_activities.mpr ⟨th, List.mem_of_getElem? hth, ?_⟩)
  rw [hs]
  exact List.mem_cons_self ..

/-- A stretch of a call. -/
theorem Keeps.apply (h : w.Keeps ok) (ht : w.top? t = some a) (hq : w.pools[a.pool]? = some q)
    (hs : s.Keeps (ok a.pool)) : (w.apply t a.pool s).world.Keeps ok := by
  refine ⟨fun i id r hr => ?_, fun b hb => ?_⟩
  · rw [apply_entries hq] at hr
    split at hr
    · rename_i hi
      subst hi
      exact hs.pool id r hr
    · exact h.objects i id r hr
  · rcases apply_calls ht hb with hold | hnone | ⟨hpool, hnext⟩
    · exact h.calls b hold
    · rw [hnone]
      exact .nil
    · rw [hpool, hnext]
      exact hs.next

/-- An event of the callers. -/
theorem Keeps.call (h : w.Keeps ok) (hb : w.Brings ok e) (hc : w.Called e f) :
    f.world.Keeps ok := by
  refine ⟨fun i id r hr => ?_, fun b hmem => ?_⟩
  · rcases hc.entries with hsame | ⟨n, x, u, hx, hu, hmod⟩
    · rw [hsame] at hr
      exact h.objects i id r hr
    · rw [hmod] at hr
      split at hr
      · rename_i hi
        subst hi
        rw [List.getElem?_modify] at hr
        obtain ⟨y, hy, hslot⟩ := Option.bind_eq_some_iff.mp hr
        obtain ⟨y, hy', rfl⟩ := Option.map_eq_some_iff.mp hy
        -- the object is the one that is used, or another one of its pool
        by_cases ho : x.object = id
        · subst ho
          rw [if_pos rfl] at hslot
          cases hu with
          | change he hres hu =>
            obtain rfl := Option.some.inj ((hu y).symm.trans hslot)
            exact hb.access _ _ x _ he hx hres
          | beside hu =>
            exact h.objects _ _ r (Option.bind_eq_some_iff.mpr ⟨y, hy', (hu y).symm.trans hslot⟩)
        · rw [if_neg ho] at hslot
          exact h.objects _ _ r (Option.bind_eq_some_iff.mpr ⟨y, hy', hslot⟩)
      · exact h.objects i id r hr
  · rcases hc.calls hmem with hold | hnone
    · exact h.calls b hold
    · rw [hnone]
      exact .nil

/-- What is true of every resource stays true, if it is true of what an event brings. -/
theorem react_keeps (h : w.Keeps ok) (hb : w.Brings ok e) (hr : w.react e = some f) :
    f.world.Keeps ok := by
  rcases react_cases hr with hc | ⟨t, rfl, hs⟩ | ⟨t, c, rfl, hs⟩
  · exact h.call hb hc
  · rcases step_runs hs with ⟨a, q, s, ha, hq, hadv, rfl⟩ | ⟨th, k, hth, hidle, hk⟩
    · have hstretch := (h.pool hq).advance (h.top ha) hadv
      exact h.apply ha hq hstretch
    · refine ⟨fun i id r hr => ?_, fun b hmem => ?_⟩
      · rw [keeperStep_entries hk] at hr
        exact h.objects i id r hr
      · rcases keeperStep_calls hth hidle hk hmem with hold | hnone
        · exact h.calls b hold
        · rw [hnone]
          exact .nil
  · obtain ⟨a, q, s, ha, hq, hrsp, rfl⟩ := answer_runs hs
    have hbrings := hb.answer t c a q rfl ha hq
    have hstretch := (h.pool hq).respond (h.top ha) hbrings hrsp
    exact h.apply ha hq hstretch

theorem Keeps.mono (h : w.Keeps ok) {ok' : Nat → Nat → ρ → Prop}
    (hok : ∀ i id r, ok i id r → ok' i id r) : w.Keeps ok' :=
  ⟨fun i id r hr => hok i id r (h.objects i id r hr),
    fun a ha x hx => hok _ _ _ (h.calls a ha x hx)⟩

end World

/-! ## The objects that the factory has in hand -/

/-- An object in the charge of a call has its resource in the slot, unless it was taken back from
    its borrower. -/
theorem Position.Legal.slot_of_charge {v : Position ρ} (h : v.Legal) {c : Custody ρ}
    (hc : c ∈ v.charges) (hs : ∀ r, c ≠ .seized r) : ∃ r, v.shape.bind (·.slot) = some r := by
  cases h with
  | unborn | idle | lent | dead => exact nomatch hc
  | @entrusted c' v he =>
    obtain rfl := List.mem_singleton.mp hc
    cases he with
    | seized r _ => exact absurd rfl (hs _)
    | _ => exact ⟨_, rfl⟩

theorem Point.charge_of_subject {pt : Point ρ} {id : Nat} (h : pt.subject? = some id) :
    ∃ c, (id, c) ∈ pt.charges ∧ ∀ r, c ≠ .seized r := by
  cases pt with
  | activating x t =>
    obtain rfl := Option.some.inj h
    cases t with
    | lend b fresh => exact ⟨.lending, List.mem_singleton.mpr rfl, fun r hr => nomatch hr⟩
    | test tests n => exact ⟨.trying, List.mem_cons_self .., fun r hr => nomatch hr⟩
  | passivating x t =>
    obtain rfl := Option.some.inj h
    cases t with
    | test tests n => exact ⟨.trying, List.mem_cons_self .., fun r hr => nomatch hr⟩
    | stock s => exact ⟨.stocking, List.mem_singleton.mpr rfl, fun r hr => nomatch hr⟩
    | takeBack answer => exact ⟨.returning, List.mem_singleton.mpr rfl, fun r hr => nomatch hr⟩
  | _ => exact nomatch h

/-- The factory works on resources that are in their slots. -/
theorem Pool.Sound.slot_of_subject {p : Pool ρ} {ℓ : Ledger ρ} (h : p.Sound ℓ) {pt : Point ρ}
    (hpt : ∀ x ∈ pt.charges, x ∈ ℓ.charges) {id : Nat} (hid : pt.subject? = some id) :
    ∃ r, p.slot? id = some r := by
  obtain ⟨c, hc, hs⟩ := Point.charge_of_subject hid
  have hclaim : c ∈ claims id ℓ.charges := mem_claims.mpr (hpt _ hc)
  rw [Pool.slot?_eq_shape?]
  exact (h.objects id).slot_of_charge hclaim hs

/-! ## Marks -/

variable {μ : Type} {mark : ρ → μ} {es : List (Episode ρ)} {w : World ρ} {i id : Nat} {r : ρ}

/-- The mark of a resource outlasts the accesses and the answers of the factory. -/
structure Episode.Preserves (mark : ρ → μ) (e : Episode ρ) : Prop where
  access : ∀ n c, e.event.change? = some (n, c) → ∀ r, mark (c r) = mark r
  answer : ∀ t c a id r, e.event = .answer t c → e.before.top? t = some a →
    a.point.subject? = some id → c.resource? = some r →
    ∀ r', e.before.resource? { pool := a.pool, object := id } = some r' → mark r = mark r'

/-- A resource has the mark of the one that the factory made for the object. -/
def Made (mark : ρ → μ) (es : List (Episode ρ)) (i id : Nat) (r : ρ) : Prop :=
  ∃ r', (id, r') ∈ births es i ∧ mark r = mark r'

theorem Made.next (h : Made mark es i id r) (e : Episode ρ) : Made mark (e :: es) i id r := by
  obtain ⟨r', hr', hmark⟩ := h
  exact ⟨r', List.mem_append_right _ hr', hmark⟩

/-- An answer of the factory that brings a new object. -/
theorem born_of_creating {t : Nat} {a : Activity ρ} {q : Pool ρ} {f : Effect ρ} {m : Maker}
    (ha : w.top? t = some a) (hpt : a.point = .creating m) (hq : w.pools[a.pool]? = some q) :
    Episode.born a.pool ⟨w, .answer t (.created (.ok r)), f⟩ = [(q.entries.length, r)] := by
  obtain ⟨p, pt⟩ := a
  obtain rfl : pt = .creating m := hpt
  unfold Episode.born
  dsimp only
  rw [ha]
  dsimp only at hq ⊢
  rw [if_pos rfl, hq]
  rfl

/-- Every resource has the mark of the one that the factory made for its object. -/
theorem Run.keeps (h : Run es w) (hm : ∀ e ∈ es, e.Preserves mark) : w.Keeps (Made mark es) := by
  induction h with
  | start => exact ⟨(fun i id r hr => nomatch hr), fun a ha => nomatch ha⟩
  | @next es w e f run react ih =>
    have hold : w.Keeps (Made mark (⟨w, e, f⟩ :: es)) :=
      (ih fun e he => hm e (List.mem_cons_of_mem _ he)).mono fun i id r hr => hr.next _
    have hmark := hm _ (List.mem_cons_self ..)
    refine World.react_keeps hold ⟨fun n c x r he hx hres => ?_, fun t c a q he ha hq => ?_⟩ react
    · -- an access leaves the mark as it was
      rw [World.resource?_eq] at hres
      obtain ⟨r', hr', heq⟩ := hold.objects _ _ r hres
      exact ⟨r', hr', (hmark.access n c he r).trans heq⟩
    · subst he
      refine ⟨fun m r hpt hc => ?_, fun id r hid hres => ?_⟩
      · subst hc
        -- a new object has the mark of the resource with which it was made
        refine ⟨r, List.mem_append_left _ ?_, rfl⟩
        rw [born_of_creating ha hpt hq]
        exact List.mem_singleton.mpr rfl
      · -- the factory gives back the resource that is in the slot
        have hcall : a.point ∈ w.points a.pool := by
          obtain ⟨th, rest, hth, hs⟩ := World.top?_eq_some ha
          refine World.mem_points.mpr ⟨th, List.mem_of_getElem? hth, ?_⟩
          rw [hs]
          exact List.mem_cons_self ..
        obtain ⟨r₁, hslot⟩ := ((run.sound.pools a.pool).sound q hq).slot_of_subject
          (fun x hx => List.mem_flatMap.mpr ⟨_, hcall, hx⟩) hid
        have hbefore : w.resource? { pool := a.pool, object := id } = some r₁ := by
          rw [World.resource?, hq]
          exact hslot
        obtain ⟨r', hr', heq⟩ := hold.pool hq id r₁ hslot
        exact ⟨r', hr', (hmark.answer t c a id r rfl ha hid hres r₁ hbefore).trans heq⟩

/-- The resource that is passed to the factory to be destroyed is with a call on its way. -/
theorem Episode.mem_burial {e : Episode ρ} (h : (id, r) ∈ e.burial i) :
    ∃ t pt, e.after.top? t = some ⟨i, pt⟩ ∧ (id, r) ∈ pt.resources := by
  unfold Episode.burial at h
  split at h
  · rename_i p x v mode k hreq
    split at h
    · rename_i hp
      subst hp
      obtain ⟨rfl, rfl⟩ := Prod.mk.inj (List.mem_singleton.mp h)
      unfold Episode.request? at hreq
      split at hreq
      · obtain ⟨htop, -⟩ := Option.filter_eq_some_iff.mp hreq
        obtain ⟨t, -, htop⟩ := Option.bind_eq_some_iff.mp htop
        exact ⟨t, _, htop, List.mem_cons_self ..⟩
      · exact nomatch hreq
    · exact nomatch h
  · exact nomatch h

/-- Each resource that was destroyed has the mark of the one that the factory made for its
    object. -/
theorem Run.burials_made (h : Run es w) (hm : ∀ e ∈ es, e.Preserves mark)
    (hr : (id, r) ∈ burials es i) : Made mark es i id r := by
  induction h with
  | start => exact nomatch hr
  | @next es w e f run react ih =>
    rcases List.mem_append.mp hr with hlast | hbefore
    · -- the call that passes the resource on has it in the world after the episode
      obtain ⟨t, pt, htop, hmem⟩ := Episode.mem_burial hlast
      exact ((run.next react).keeps hm).top htop _ hmem
    · have hmade := ih (fun e he => hm e (List.mem_cons_of_mem _ he)) hbefore
      exact hmade.next _

end ObjectPool
