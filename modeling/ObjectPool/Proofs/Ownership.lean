/-
  ObjectPool.Proofs.Ownership

  A borrower has its object for itself, in every world that can be reached. No two
  handles are of the same object, and no number is given to a second object. Until
  the pool takes the object back it is lent, out of the idle queue and with its
  resource in its slot (`World.Exclusive`), and nothing but an access through the
  handle changes the resource (`react_resource?`).
-/

import ObjectPool.Proofs.Roster

namespace ObjectPool

variable {ρ : Type}

/-! ## A loan and its object -/

namespace Position.Legal

variable {v : Position ρ} {x : Loan ρ}

/-- The object of a loan is lent as the loan says, or the pool has taken it back; nobody else has
    it. -/
theorem of_loan (h : v.Legal) (hx : x ∈ v.loans) :
    (∃ r, x.resource = some r ∧
      v = ⟨some ⟨.allocated, some r, x.guarded⟩, 1, 0, 1, 0, [x], []⟩) ∨
    (∃ s, v.shape = some s ∧ s.state.isReclaimed = true ∧ v.loans = [x]) := by
  -- of an object that was taken back there is one loan at most
  have hstale : ∀ l, Stale l → x ∈ l → l = [x] := by
    rintro l (rfl | ⟨r, rfl⟩) hl
    · exact nomatch hl
    · rw [List.mem_singleton.mp hl]
  cases h with
  | unborn | idle => exact nomatch hx
  | lent g r =>
    obtain rfl := List.mem_singleton.mp hx
    exact .inl ⟨r, rfl, rfl⟩
  | dead hs => exact .inr ⟨_, rfl, rfl, hstale _ hs hx⟩
  | entrusted he =>
    cases he with
    | seized r hs => exact .inr ⟨_, rfl, rfl, hstale _ hs hx⟩
    | _ => exact nomatch hx

/-- A lent object that no call has in its charge is in the hands of a borrower. -/
theorem loan_of_active (h : v.Legal) (ha : 0 < v.active) (hc : v.charges = []) :
    ∃ x, x ∈ v.loans := by
  cases h with
  | lent g r => exact ⟨_, List.mem_singleton.mpr rfl⟩
  | unborn | idle | dead => exact absurd ha (Nat.lt_irrefl 0)
  | entrusted he => exact nomatch hc

end Position.Legal

namespace Pool.Sound

variable {p : Pool ρ} {ℓ : Ledger ρ} {id : Nat} {x : Loan ρ}

/-- A borrower's object was made by the factory. -/
theorem object_of_loan (h : p.Sound ℓ) (hx : (id, x) ∈ ℓ.loans) : id < p.entries.length := by
  have hsome : ∃ s, p.shape? id = some s := by
    rcases (h.objects id).of_loan (mem_claims.mpr hx) with ⟨r, -, hv⟩ | ⟨s, hs, -, -⟩
    · exact ⟨_, congrArg Position.shape hv⟩
    · exact ⟨s, hs⟩
  obtain ⟨s, hs⟩ := hsome
  refine Nat.lt_of_not_le fun hle => ?_
  rw [shape?_eq_none_iff.mpr hle] at hs
  exact nomatch hs

/-- No two borrowers have the same object. -/
theorem claims_loans (h : p.Sound ℓ) (hx : (id, x) ∈ ℓ.loans) : claims id ℓ.loans = [x] := by
  rcases (h.objects id).of_loan (mem_claims.mpr hx) with ⟨r, -, hv⟩ | ⟨s, -, -, hl⟩
  · exact congrArg Position.loans hv
  · exact hl

/-- An object that the pool has not taken back from its borrower is lent as the loan says. -/
theorem lent_of_loan (h : p.Sound ℓ) (hx : (id, x) ∈ ℓ.loans)
    (hr : (p.stateOf id).isReclaimed = false) : ∃ r, x.resource = some r ∧
      p.position ℓ id = ⟨some ⟨.allocated, some r, x.guarded⟩, 1, 0, 1, 0, [x], []⟩ := by
  rcases (h.objects id).of_loan (mem_claims.mpr hx) with hlent | ⟨s, hs, hrec, -⟩
  · exact hlent
  · have hshape : p.shape? id = some s := hs
    rw [stateOf_eq_shape?, hshape] at hr
    exact nomatch hrec.symm.trans hr

/-- The resource of an object that the pool has not taken back is the borrower's. -/
theorem slot?_of_loan (h : p.Sound ℓ) (hx : (id, x) ∈ ℓ.loans)
    (hr : (p.stateOf id).isReclaimed = false) : p.slot? id = x.resource := by
  obtain ⟨r, hres, hv⟩ := h.lent_of_loan hx hr
  have hshape : p.shape? id = some ⟨.allocated, some r, x.guarded⟩ := congrArg Position.shape hv
  rw [slot?_eq_shape?, hshape, hres]
  rfl

/-- A lent object that no call has in its charge is in the hands of a borrower. -/
theorem loan_of_active (h : p.Sound ℓ) (hid : id ∈ p.registry.active) (hc : ℓ.charges = []) :
    ∃ x, (id, x) ∈ ℓ.loans := by
  have hcharges : (p.position ℓ id).charges = [] := by rw [position, hc]; rfl
  obtain ⟨x, hx⟩ := (h.objects id).loan_of_active (List.count_pos_iff.mpr hid) hcharges
  exact ⟨x, mem_claims.mp hx⟩

end Pool.Sound

/-- Whatever a stretch does, it leaves the other loans as they are. -/
theorem Stretch.Sound.loan {s : Stretch ρ} {ℓ : Ledger ρ} (h : s.Sound ℓ) {id : Nat} {x : Loan ρ}
    (hx : (id, x) ∈ ℓ.loans) : ∃ m, s.pool.Sound m ∧ (id, x) ∈ m.loans := by
  obtain ⟨pool, notices, next⟩ := s
  cases next with
  | go pt => exact ⟨_, h, List.mem_append_right _ hx⟩
  | finish r =>
    cases r with
    | lent id => exact ⟨_, h, List.mem_cons_of_mem _ hx⟩
    | done | made n | failed e => exact ⟨_, h, hx⟩

namespace World

variable {w : World ρ} {g : Nat → List Nat} {gs : List Nat} {i n m : Nat} {p : Pool ρ}
  {f : Effect ρ} {e : Event ρ} {x y : Handle}

/-! ## The handles of a pool -/

/-- The loan of a handle, as the pool has it. -/
theorem mem_loans (hx : w.handle? n = some x) (q : Pool ρ) (pts : List (Point ρ)) (gs : List Nat) :
    (x.object, ⟨x.guarded, q.slot? x.object⟩) ∈ (Ledger.of q pts (w.lent x.pool) gs).loans := by
  refine List.mem_append_right _ (List.mem_map.mpr ⟨x, ?_, rfl⟩)
  exact mem_lent.mpr ⟨⟨n, hx⟩, rfl⟩

/-- The borrowers of the pool `i`, its handles and its lent objects. -/
structure Exclusive (w : World ρ) (i : Nat) (p : Pool ρ) : Prop where
  /-- No two handles are of the same object. -/
  apart : ∀ n m x y, w.handle? n = some x → w.handle? m = some y → x.pool = i → y.pool = i →
    x.object = y.object → n = m
  /-- A borrower has its object until the pool takes it back. -/
  held : ∀ n x, w.handle? n = some x → x.pool = i → (w.stateOf x).isReclaimed = false →
    x.object ∈ p.registry.active ∧ w.stateOf x = .allocated ∧ (w.resource? x).isSome = true ∧
      x.object ∉ p.registry.idle
  /-- Between calls some borrower has each of the lent objects. -/
  lent : w.Quiet i → ∀ id ∈ p.registry.active,
    ∃ n x, w.handle? n = some x ∧ x.pool = i ∧ x.object = id ∧
      ∀ m y, w.handle? m = some y → y.pool = i → y.object = id → m = n

/-- No two handles are of the same object. -/
theorem SoundAt.apart (h : w.SoundAt i gs) (hp : w.pools[i]? = some p)
    (hx : w.handle? n = some x) (hy : w.handle? m = some y) (hxi : x.pool = i) (hyi : y.pool = i)
    (hxy : x.object = y.object) : n = m := by
  subst hxi
  have hclaims := (h.sound p hp).claims_loans (mem_loans hx p (w.points x.pool) gs)
  -- the handles of the object are among the loans of it, of which there is one
  have hcount :
      w.handles.countP (fun z => z.any fun z => z.pool = x.pool ∧ z.object = x.object) ≤ 1 := by
    have hlen := congrArg List.length hclaims
    rw [Ledger.of, claims_append, List.length_append] at hlen
    have hhandles : (claims x.object ((w.lent x.pool).map fun z =>
        (z.object, (⟨z.guarded, p.slot? z.object⟩ : Loan ρ)))).length =
        w.handles.countP (fun z => z.any fun z => z.pool = x.pool ∧ z.object = x.object) := by
      rw [claims, List.length_map, ← List.countP_eq_length_filter, List.countP_map, World.lent,
        handlesOf, List.countP_filterMap]
      refine List.countP_congr fun z _ => ?_
      cases z with
      | none => rfl
      | some z => by_cases hz : z.pool = x.pool <;> simp [Option.filter, hz]
    rw [hhandles, List.length_singleton] at hlen
    omega
  refine eq_of_countP_le_one hcount (Option.join_eq_some_iff.mp hx) (Option.join_eq_some_iff.mp hy)
    ?_ ?_
  · simp
  · simp [hyi, hxy]

theorem stateOf_of_pool (hp : w.pools[x.pool]? = some p) : w.stateOf x = p.stateOf x.object := by
  rw [stateOf, hp]
  rfl

theorem resource?_of_pool (hp : w.pools[x.pool]? = some p) : w.resource? x = p.slot? x.object := by
  rw [resource?, hp]
  rfl

/-- A borrower has its object until the pool takes it back. -/
theorem SoundAt.held (h : w.SoundAt i gs) (hp : w.pools[i]? = some p)
    (hx : w.handle? n = some x) (hxi : x.pool = i) (hr : (w.stateOf x).isReclaimed = false) :
    x.object ∈ p.registry.active ∧ w.stateOf x = .allocated ∧ (w.resource? x).isSome = true ∧
      x.object ∉ p.registry.idle := by
  subst hxi
  rw [stateOf_of_pool hp] at hr ⊢
  rw [resource?_of_pool hp]
  obtain ⟨r, hslot, hv⟩ := (h.sound p hp).lent_of_loan (mem_loans hx p (w.points x.pool) gs) hr
  have hshape : p.shape? x.object = some ⟨.allocated, some r, x.guarded⟩ :=
    congrArg Position.shape hv
  have hslot : p.slot? x.object = some r := hslot
  have hactive : p.registry.active.count x.object = 1 := congrArg Position.active hv
  have hidle : p.registry.idle.count x.object = 0 := congrArg Position.idle hv
  refine ⟨List.count_pos_iff.mp (hactive ▸ Nat.one_pos), ?_, ?_, List.count_eq_zero.mp hidle⟩
  · rw [Pool.stateOf_eq_shape?, hshape]
    rfl
  · rw [hslot]
    rfl

/-- Between calls some borrower has each of the lent objects. -/
theorem SoundAt.lent (h : w.SoundAt i gs) (hp : w.pools[i]? = some p) (hq : w.Quiet i) {id : Nat}
    (hid : id ∈ p.registry.active) :
    ∃ n x, w.handle? n = some x ∧ x.pool = i ∧ x.object = id ∧
      ∀ m y, w.handle? m = some y → y.pool = i → y.object = id → m = n := by
  have hcharges : (Ledger.of p (w.points i) (w.lent i) gs).charges = [] :=
    hq.flatMap_eq_nil fun _ _ => rfl
  obtain ⟨l, hl⟩ := (h.sound p hp).loan_of_active hid hcharges
  -- nobody is about to give an object back
  have hreturns : (w.points i).flatMap Point.returns = [] := hq.flatMap_eq_nil fun _ _ => rfl
  rw [Ledger.of, hreturns] at hl
  obtain ⟨x, hx, hxl⟩ := List.mem_map.mp hl
  obtain ⟨rfl, -⟩ := Prod.mk.inj hxl
  obtain ⟨⟨n, hn⟩, hxi⟩ := mem_lent.mp hx
  exact ⟨n, x, hn, hxi, rfl, fun m y hm hyi hyx => h.apart hp hm hn hyi hxi hyx⟩

theorem SoundAt.exclusive (h : w.SoundAt i gs) (hp : w.pools[i]? = some p) : w.Exclusive i p :=
  ⟨fun _ _ _ _ => h.apart hp, fun _ _ => h.held hp, fun hq _ => h.lent hp hq⟩

/-! ## What changes the resource of a handle -/

/-- The objects tell all there is to a handle. -/
theorem entry_of_handle {w w' : World ρ} (he : w'.entriesOf x.pool = w.entriesOf x.pool) :
    w'.resource? x = w.resource? x := by
  rw [resource?_eq, resource?_eq, he]

/-- An event of the callers that is no access through a handle leaves its resource alone. -/
theorem Called.resource? (hc : w.Called e f) (h : w.Sound g) (hx : w.handle? n = some x)
    (hn : e.changes ≠ some n) : f.world.resource? x = w.resource? x := by
  rcases hc.entries with hsame | ⟨m, z, u, hz, hu, hmod⟩
  · exact entry_of_handle (hsame x.pool)
  · by_cases hp : x.pool = z.pool
    · have hentries := hmod x.pool
      rw [if_pos hp] at hentries
      rw [resource?_eq, resource?_eq, hentries, List.getElem?_modify]
      by_cases ho : z.object = x.object
      · -- the handle that is used is this one, and the event changes no resource
        obtain ⟨q, hq⟩ := h.pool_of_handle hx
        obtain rfl := (h.pools x.pool).apart hq hz hx hp.symm rfl ho
        cases hu with
        | change he _ _ =>
          rw [Event.changes, he] at hn
          exact absurd rfl hn
        | beside hslot =>
          cases (w.entriesOf x.pool)[x.object]? with
          | none => rfl
          | some y =>
            show (if z.object = x.object then u y else y).slot = y.slot
            rw [if_pos ho, hslot]
      · cases (w.entriesOf x.pool)[x.object]? with
        | none => rfl
        | some y =>
          show (if z.object = x.object then u y else y).slot = y.slot
          rw [if_neg ho]
    · have hentries := hmod x.pool
      rw [if_neg hp] at hentries
      exact entry_of_handle hentries

/-- A stretch of a call leaves the resource of a handle alone, or takes the object back. -/
theorem Stretches.resource? {t k : Nat} {a : Activity ρ} {q : Pool ρ} {s : Stretch ρ}
    (hs : w.Stretches t a q s k) (h : w.Sound g) (hx : w.handle? n = some x)
    (hr : ((w.apply t a.pool s).world.stateOf x).isReclaimed = false) :
    (w.apply t a.pool s).world.resource? x = w.resource? x := by
  have hentries := apply_entries (t := t) (s := s) hs.pool x.pool
  by_cases hp : x.pool = a.pool
  · rw [if_pos hp] at hentries
    -- the handle is a loan of which the stretch knows nothing, and which it leaves alone
    have hmem := mem_loans hx q ((w.pop t).points a.pool) (g a.pool)
    rw [hp] at hmem
    obtain ⟨m, hm, hloan⟩ := (hs.rest h).loan hmem
    have hrec : (s.pool.stateOf x.object).isReclaimed = false := by
      rw [stateOf_eq, hentries] at hr
      unfold Pool.stateOf Pool.object?
      revert hr
      cases s.pool.entries[x.object]? <;> exact id
    have hslot := hm.slot?_of_loan hloan hrec
    rw [resource?_eq, hentries, resource?_of_pool (hp ▸ hs.pool)]
    exact hslot
  · rw [if_neg hp] at hentries
    exact entry_of_handle hentries

/-- While a borrower has a handle and the pool has not taken the object back, nothing but an
    access through the handle changes its resource. -/
theorem react_resource? (h : w.Sound g) (hr : w.react e = some f) (hx : w.handle? n = some x)
    (hy : f.world.handle? n = some y) (hl : (f.world.stateOf y).isReclaimed = false)
    (hn : e.changes ≠ some n) : f.world.resource? y = w.resource? x := by
  have halike := react_handle hr hx hy
  -- the handle is one of the same object before and after
  have hsame : f.world.resource? y = f.world.resource? x := by
    rw [resource?_eq, resource?_eq, halike.pool, halike.object]
  have hlive : (f.world.stateOf x).isReclaimed = false := by
    rw [stateOf_eq] at hl ⊢
    rwa [halike.pool, halike.object] at hl
  rw [hsame]
  rcases react_cases hr with hc | ⟨t, rfl, hs⟩ | ⟨t, r, rfl, hs⟩
  · exact hc.resource? h hx hn
  · rcases step_cases hs with ⟨a, q, s, ha, rfl⟩ | ⟨th, k, -, -, hk⟩
    · exact ha.resource? h hx hlive
    · exact entry_of_handle (keeperStep_entries hk x.pool)
  · obtain ⟨a, q, s, ha, rfl⟩ := answer_cases hs
    exact ha.resource? h hx hlive

/-- Whatever happens, a handle of the pool `i` stays one of the same object, and while the pool
    has not taken the object back nothing but an access through the handle changes the
    resource. -/
def Undisturbed (w : World ρ) (i : Nat) : Prop :=
  ∀ e f n x y, w.react e = some f → w.handle? n = some x → x.pool = i → f.world.handle? n = some y →
    x.Alike y ∧ ((f.world.stateOf y).isReclaimed = false → e.changes ≠ some n →
      f.world.resource? y = w.resource? x)

end World

/-- In every world that can be reached each borrower has its object for itself: no other
    borrower has it, no other object has its number, and nobody else changes it. -/
theorem ownership_exclusive {es : List (Episode ρ)} {w : World ρ} (h : Run es w) {i : Nat}
    {p : Pool ρ} (hp : w.pools[i]? = some p) :
    w.Exclusive i p ∧ ((births es i).map (·.1)).Nodup ∧
      (∀ n x, w.handle? n = some x → x.pool = i → x.object ∈ (births es i).map (·.1)) ∧
      w.Undisturbed i := by
  have hsound := h.sound
  have hbirths := h.births_eq i
  rw [World.entriesOf_eq hp] at hbirths
  refine ⟨(hsound.pools i).exclusive hp, ?_, fun n x hx hxi => ?_,
    fun e f n x y hr hx _ hy =>
      ⟨World.react_handle hr hx hy, World.react_resource? hsound hr hx hy⟩⟩
  · rw [hbirths]
    exact (List.reverse_perm _).nodup_iff.mpr List.nodup_range
  · subst hxi
    have hlt := ((hsound.pools x.pool).sound p hp).object_of_loan
      (World.mem_loans hx p (w.points x.pool) (graves es x.pool))
    rw [hbirths]
    exact List.mem_reverse.mpr (List.mem_range.mpr hlt)

/-- Two borrowers have got their objects, and the second has just let its one go. -/
def lettingGoEvents : List (Event Nat) :=
  [.create { maxTotal := 2 }, .spawn, .spawn,
    .begin 0 0 (.borrow none "first"), .step 0, .step 0, .answer 0 (.created (.ok 7)),
    .answer 0 (.activated 7 none),
    .begin 1 0 (.borrow none "second"), .step 1, .step 1, .answer 1 (.created (.ok 8)),
    .answer 1 (.activated 8 none), .letGo 1 1]

theorem ownership_exclusive_while_letting_go :
    ∃ p, Run (episodes lettingGoEvents) (reached lettingGoEvents) ∧
      (reached lettingGoEvents).pools[0]? = some p ∧ p.registry.active = [0, 1] ∧
      (reached lettingGoEvents).handles = [some { pool := 0, object := 0 }, none] ∧
      (reached lettingGoEvents).Exclusive 0 p ∧
      ((births (episodes lettingGoEvents) 0).map (·.1)).Nodup ∧
      (∀ n x, (reached lettingGoEvents).handle? n = some x → x.pool = 0 →
        x.object ∈ (births (episodes lettingGoEvents) 0).map (·.1)) ∧
      (reached lettingGoEvents).Undisturbed 0 :=
  ⟨_, Run.of_events rfl, rfl, rfl, rfl, ownership_exclusive (Run.of_events rfl) rfl⟩

end ObjectPool
