/-
  ObjectPool.Proofs.Chronicle

  What the episodes of a run tell of the borrows of an object, and how its dossier shows it. Each
  borrow is counted and stamped when the object is picked, and it ends with the object in the hands
  of the borrower unless the object is destroyed. The borrower then has a handle of its own, by
  which every later use is told from those of the borrowers before.

    * `World.Deals`, `react_deals` — what an event makes of the handles.
    * `lastUsage` — the last use through a handle of which its pool took note.
    * `World.Tallied`, `Run.tallied` — the borrows so far.
    * `World.Borrowed`, `Run.borrowed` — the borrow of an object that is out.
-/

import ObjectPool.Proofs.Abandonment
import ObjectPool.Proofs.Beginnings

namespace ObjectPool

variable {ρ : Type}

/-! ## Handles -/

/-- The number of the handle that a borrower gets in an episode, if it gets one. -/
def Episode.handle (e : Episode ρ) : Nat := e.before.handles.length

namespace World

variable {w : World ρ} {g : Nat → List Nat} {e : Event ρ} {f : Effect ρ} {t i id n m : Nat}
  {a : Activity ρ} {q : Pool ρ} {s : Stretch ρ} {x y : Handle}

/-- What an event makes of the handles: some may come back, or a borrower gets a new one. -/
inductive Deals (w : World ρ) (e : Event ρ) (f : Effect ρ) : Prop
  | keeps (count : f.world.handles.length = w.handles.length)
      (same : ∀ m y, f.world.handle? m = some y → ∃ x, w.handle? m = some x ∧ x.Alike y)
  | gives {i id : Nat} (out : Episode.handsOut i id ⟨w, e, f⟩ = true)
      (new : f.world.handles = w.handles ++ [some { pool := i, object := id }])

theorem Deals.of_eq (h : f.world.handles = w.handles) : w.Deals e f := by
  refine .keeps (congrArg List.length h) fun m y hy => ⟨y, ?_, rfl, rfl⟩
  rwa [handle?, h] at hy

theorem lt_of_handle (hx : w.handle? n = some x) : n < w.handles.length :=
  (List.getElem?_eq_some_iff.mp (Option.join_eq_some_iff.mp hx)).1

theorem Called.deals (hc : w.Called e f) : w.Deals e f := by
  rcases hc.handles with hsame | ⟨n, x, v, hx, hv, hset⟩
  · exact .of_eq hsame
  · refine .keeps (by rw [hset, List.length_set]) fun m y hy => ?_
    unfold handle? at hy
    rw [hset] at hy
    by_cases hm : n = m
    · subst hm
      rw [List.getElem?_set_self (lt_of_handle hx)] at hy
      exact ⟨x, hx, hv y hy⟩
    · rw [List.getElem?_set_ne hm] at hy
      exact ⟨y, hy, rfl, rfl⟩

/-- A call that ends with an object gives its borrower a handle of it. -/
theorem Works.handles_of_finish {r : Reply} (h : w.Works e f t a q s) (hn : s.next = .finish r) :
    f.world.handles = w.handles ++ (r.handles a.pool).map some := by
  rw [h.effect, apply_finish hn]
  exact forsake_handles (((w.onPool a.pool fun _ => s.pool).pop t).handOver a.pool r) t a.pool r

theorem Works.deals (h : w.Works e f t a q s) : w.Deals e f := by
  cases hn : s.next with
  | go pt =>
    refine .of_eq ?_
    rw [h.effect, apply_go hn]
    rfl
  | finish r =>
    have hnew := h.handles_of_finish hn
    cases r with
    | lent id => exact .gives (h.handsOut hn) hnew
    | done | made | failed => exact .of_eq (hnew.trans (List.append_nil _))

theorem react_deals (hr : w.react e = some f) : w.Deals e f := by
  cases react_happens hr with
  | called hc => exact hc.deals
  | keeps _ _ _ hk => exact .of_eq (keeperStep_handles hk)
  | works h => exact h.deals

theorem Deals.length_le (h : w.Deals e f) : w.handles.length ≤ f.world.handles.length := by
  cases h with
  | keeps count => exact Nat.le_of_eq count.symm
  | gives _ new =>
    rw [new, List.length_append]
    exact Nat.le_add_right ..

/-- The handle that comes after those there are. -/
theorem handle?_concat {w' : World ρ} {z : Handle} (h : w'.handles = w.handles ++ [some z])
    (m : Nat) : w'.handle? m = if m = w.handles.length then some z else w.handle? m := by
  unfold handle?
  rw [h]
  split
  · rename_i hm
    rw [hm, List.getElem?_concat_length]
    rfl
  · rename_i hm
    rw [Pool.getElem?_concat_of_ne hm]

/-- The number `n` is that of the handle of an object of the pool `i`, which is the only one there
    may be of it. -/
structure Handled (w : World ρ) (i id n : Nat) : Prop where
  given : n < w.handles.length
  sole : ∀ m y, w.handle? m = some y → (m = n ↔ y.pool = i ∧ y.object = id)

/-- It stays so until the object is handed out anew. -/
theorem Handled.deals (h : w.Handled i id n) (hd : w.Deals e f)
    (hkept : Episode.handsOut i id ⟨w, e, f⟩ = false) : f.world.Handled i id n := by
  refine ⟨Nat.lt_of_lt_of_le h.given hd.length_le, fun m y hy => ?_⟩
  cases hd with
  | keeps _ same =>
    obtain ⟨x, hx, halike⟩ := same m y hy
    rw [halike.pool, halike.object]
    exact h.sole m x hx
  | gives out new =>
    rw [handle?_concat new] at hy
    split at hy
    · -- the new handle is of another object
      rename_i hm
      obtain rfl := Option.some.inj hy
      refine iff_of_false (fun hn => absurd h.given (by omega)) ?_
      rintro ⟨rfl, rfl⟩
      exact nomatch hkept.symm.trans out
    · exact h.sole m y hy

/-- Nobody has a handle of an object that is readied for a borrower. -/
theorem Sound.unhandled_of_readied (hw : w.Sound g) (hid : id ∈ w.readied i)
    (hx : w.handle? n = some x) : ¬(x.pool = i ∧ x.object = id) := by
  rintro ⟨rfl, rfl⟩
  obtain ⟨q, hq⟩ := hw.pool_of_handle hx
  obtain ⟨v, hhas, hv⟩ := ((hw.pools x.pool).sound q hq).position_of_charge (mem_readied.mp hid)
  have hnone : claims x.object (Ledger.of q (w.points x.pool) (w.lent x.pool) (g x.pool)).loans =
      [] := by
    have hloans := congrArg Position.loans hv
    cases hhas
    exact hloans
  exact claims_eq_nil_iff.mp hnone _ (mem_loans hx q (w.points x.pool) (g x.pool))

end World

/-! ## Uses through a handle -/

/-- The use through the handle `n` of which the pool takes note in an episode, with its time. -/
def Episode.usageOf (n : Nat) (e : Episode ρ) : Option (Instant × String) :=
  (e.usage?.filter fun u => decide (u.1 = n)).map fun u => (e.before.now, u.2)

/-- The last use through the handle `n` of which the pool took note. -/
def lastUsage (n : Nat) (es : List (Episode ρ)) : Option (Instant × String) :=
  es.findSome? (Episode.usageOf n)

theorem Episode.usageOf_eq_some {e : Episode ρ} {n : Nat} {site : String}
    (h : e.usage? = some (n, site)) : e.usageOf n = some (e.before.now, site) := by
  unfold Episode.usageOf
  rw [h, Option.filter_some, if_pos (decide_eq_true rfl)]
  rfl

theorem Episode.usageOf_eq_none {e : Episode ρ} {n : Nat}
    (h : ∀ site, e.usage? ≠ some (n, site)) : e.usageOf n = none := by
  unfold Episode.usageOf
  cases hu : e.usage? with
  | none => rfl
  | some u =>
    have hne : u.1 ≠ n := fun hn => h u.2 (by rw [hu, ← hn])
    rw [Option.filter_some, if_neg (by simpa using hne)]
    rfl

theorem lastUsage_cons (n : Nat) (e : Episode ρ) (es : List (Episode ρ)) :
    lastUsage n (e :: es) = (e.usageOf n).or (lastUsage n es) := by
  rw [lastUsage, List.findSome?_cons]
  cases e.usageOf n <;> rfl

/-- What is noted of the last use is what the settings ask for. -/
theorem Config.use?_or (c : Config) (now : Instant) (site : String)
    (u : Option (Instant × String)) :
    (c.use? now site).or (u.bind fun v => c.use? v.1 v.2) = c.use? now site := by
  unfold Config.use?
  cases c.abandonment with
  | none => cases u <;> rfl
  | some a =>
    dsimp only
    cases a.tracksUse with
    | true => rfl
    | false => cases u <;> rfl

section Runs

open World

variable {es : List (Episode ρ)} {w : World ρ} {e : Event ρ} {f : Effect ρ} {i id n : Nat}
  {p : Pool ρ} {d : Dossier}

/-- A handle is not used before it is there. -/
theorem Run.unused (run : Run es w) (hn : w.handles.length ≤ n) : lastUsage n es = none := by
  induction run with
  | start => rfl
  | @next es w e f run react ih =>
    have hle : w.handles.length ≤ n := Nat.le_trans (react_deals react).length_le hn
    have hnone : Episode.usageOf n ⟨w, e, f⟩ = none := Episode.usageOf_eq_none fun site hu => by
      obtain ⟨x, hx⟩ := handle_of_usage? hu
      exact absurd (lt_of_handle hx) (Nat.not_lt_of_le hle)
    rw [lastUsage_cons, hnone, ih hle]
    rfl

/-! ## The borrows so far -/

/-- What the episodes tell of the borrows of an object of the pool `i`. -/
structure World.Tallied (es : List (Episode ρ)) (w : World ρ) (i id : Nat) : Prop where
  /-- Each borrow is counted when the object is picked. -/
  picked : es.countP (Episode.picks i id) = ((w.dossier? i id).map (·.borrowCount)).getD 0
  /-- The last one is stamped with the time at which it was. -/
  stamped : ∀ d k, w.dossier? i id = some d → es.find? (Episode.picks i id) = some k →
    d.lastBorrow = k.before.now
  /-- What is picked is handed out, unless it is destroyed before. -/
  handed : id ∉ graves es i → es.countP (Episode.picks i id) =
    es.countP (Episode.handsOut i id) + if id ∈ w.readied i then 1 else 0

/-- An event in which the object is not picked. -/
theorem World.Tallied.unpicked (h : w.Tallied es i id)
    (hp : Episode.picks i id ⟨w, e, f⟩ = false)
    (hcount : ((f.world.dossier? i id).map (·.borrowCount)).getD 0 =
      ((w.dossier? i id).map (·.borrowCount)).getD 0)
    (hstamp : ∀ d k, f.world.dossier? i id = some d → es.find? (Episode.picks i id) = some k →
      d.lastBorrow = k.before.now)
    (hready : id ∉ Episode.buried i ⟨w, e, f⟩ → (if id ∈ w.readied i then 1 else 0) =
      (if Episode.handsOut i id ⟨w, e, f⟩ then 1 else 0) +
        if id ∈ f.world.readied i then 1 else 0) :
    f.world.Tallied (⟨w, e, f⟩ :: es) i id := by
  refine ⟨?_, fun d k hd hk => ?_, fun hgrave => ?_⟩
  · rw [List.countP_cons_of_neg (Bool.eq_false_iff.mp hp), h.picked, hcount]
  · rw [List.find?_cons_of_neg (Bool.eq_false_iff.mp hp)] at hk
    exact hstamp d k hd hk
  · have hhanded := h.handed fun hb => hgrave (List.mem_append_right _ hb)
    rw [hready fun hb => hgrave (List.mem_append_left _ hb)] at hhanded
    rw [List.countP_cons_of_neg (Bool.eq_false_iff.mp hp), List.countP_cons, hhanded,
      Nat.add_assoc]

/-- An event in which it is picked, which counts and stamps the borrow. -/
theorem World.Tallied.lends (h : w.Tallied es i id)
    (hcount : ((w.dossier? i id).map (·.borrowCount)).getD 0 = d.borrowCount)
    (file : f.world.dossier? i id = some (d.lend w.now)) (apart : id ∉ w.readied i)
    (after : id ∈ f.world.readied i) (kept : Episode.handsOut i id ⟨w, e, f⟩ = false) :
    f.world.Tallied (⟨w, e, f⟩ :: es) i id := by
  have hpicks : Episode.picks i id ⟨w, e, f⟩ = true :=
    Bool.and_eq_true_iff.mpr ⟨decide_eq_true after, decide_eq_true apart⟩
  refine ⟨?_, fun d' k hd hk => ?_, fun hgrave => ?_⟩
  · rw [List.countP_cons_of_pos hpicks, h.picked, hcount, file]
    rfl
  · rw [List.find?_cons_of_pos hpicks] at hk
    obtain rfl := Option.some.inj hk
    obtain rfl := Option.some.inj (file.symm.trans hd)
    rfl
  · have hhanded := h.handed fun hb => hgrave (List.mem_append_right _ hb)
    rw [if_neg apart] at hhanded
    rw [List.countP_cons_of_pos hpicks, List.countP_cons_of_neg (Bool.eq_false_iff.mp kept),
      if_pos after, hhanded]

/-- In every run the dossier of an object counts its borrows. -/
theorem Run.tallied (run : Run es w) (i id : Nat) : w.Tallied es i id := by
  induction run with
  | start => exact ⟨rfl, (fun _ _ _ hk => nomatch hk), fun _ => rfl⟩
  | @next es w e f run react ih =>
    have hunpicked : id ∉ f.world.readied i → Episode.picks i id ⟨w, e, f⟩ = false :=
      fun hid => Episode.picks_eq_false fun hafter => absurd hafter hid
    cases run.files react i id with
    | rests same still kept =>
      refine ih.unpicked (Episode.picks_eq_false still.mp) (by rw [same]) ?_ fun _ => ?_
      · rw [same]
        exact ih.stamped
      · simp [kept, still]
    | uses _ _ _ _ _ before _ file apart still kept =>
      refine ih.unpicked (hunpicked still) (by rw [file, before]; rfl) (fun d k hd hk => ?_)
        fun _ => by simp [kept, apart, still]
      obtain rfl := Option.some.inj (file.symm.trans hd)
      have hstamped := ih.stamped _ k before hk
      exact hstamped
    | closes file lost after kept =>
      refine ih.unpicked (hunpicked after) ?_ (fun d k hd hk => ?_) fun hb => ?_
      · rw [file]
        cases w.dossier? i id <;> rfl
      · obtain ⟨d₀, hd₀, rfl⟩ := Option.map_eq_some_iff.mp (file.symm.trans hd)
        exact ih.stamped d₀ k hd₀ hk
      · have hbefore : id ∉ w.readied i := fun hid => hb (lost hid)
        simp [kept, after, hbefore]
    | enlists new file apart after kept =>
      refine ih.unpicked (hunpicked after) (by rw [file, new]; rfl) (fun d k hd hk => ?_)
        fun _ => by simp [kept, apart, after]
      -- what is new was never picked
      have hnone := ih.picked
      rw [new] at hnone
      exact absurd (List.find?_some hk)
        (List.countP_eq_zero.mp hnone k (List.mem_of_find?_eq_some hk))
    | lends _ before file apart after kept =>
      refine ih.lends ?_ file apart after kept
      rcases before with hd | ⟨hnone, rfl⟩
      · rw [hd]
        rfl
      · rw [hnone]
        rfl
    | hands works pool next _ file ready after =>
      have hout : Episode.handsOut i id ⟨w, e, f⟩ = true := pool ▸ works.handsOut next
      refine ih.unpicked (hunpicked after) ?_ (fun d k hd hk => ?_)
        fun _ => by simp [hout, ready, after]
      · rw [file]
        cases w.dossier? i id <;> rfl
      · obtain ⟨d₀, hd₀, rfl⟩ := Option.map_eq_some_iff.mp (file.symm.trans hd)
        exact ih.stamped d₀ k hd₀ hk

/-! ## The borrow of an object that is out -/

/-- What the episodes tell of the borrow of an object of the pool `i` whose dossier is `d`: the
    object was handed out last in the episode `l`. -/
structure World.Borrowed (es : List (Episode ρ)) (w : World ρ) (i id : Nat) (d : Dossier)
    (c : Config) (l : Episode ρ) : Prop where
  last : es.find? (Episode.handsOut i id) = some l
  /-- The dossier shows who borrowed the object then. -/
  signed : d.borrowedBy = l.site?.bind c.evidence?
  handle : w.Handled i id l.handle
  /-- It shows the last use through the handle that the borrower got. -/
  used : d.lastUse = (lastUsage l.handle es).bind fun u => c.use? u.1 u.2

theorem World.pool_of_dossier (hd : w.dossier? i id = some d) : ∃ q, w.pools[i]? = some q := by
  rw [dossier?_eq] at hd
  obtain ⟨y, hy, -⟩ := Option.map_eq_some_iff.mp hd
  exact pool_of_entry hy

/-- Its borrower may use the object. -/
theorem World.Borrowed.kept {d' : Dossier} {c : Config} {l : Episode ρ}
    (h : w.Borrowed es i id d c l) (hdeals : w.Deals e f)
    (hkept : Episode.handsOut i id ⟨w, e, f⟩ = false) (hsigned : d'.borrowedBy = d.borrowedBy)
    (hused : d'.lastUse =
      ((Episode.usageOf l.handle ⟨w, e, f⟩).bind fun u => c.use? u.1 u.2).or d.lastUse) :
    f.world.Borrowed (⟨w, e, f⟩ :: es) i id d' c l := by
  refine ⟨?_, hsigned.trans h.signed, h.handle.deals hdeals hkept, ?_⟩
  · rw [List.find?_cons_of_neg (Bool.eq_false_iff.mp hkept)]
    exact h.last
  · rw [hused, h.used, lastUsage_cons]
    cases Episode.usageOf l.handle ⟨w, e, f⟩ with
    | none => rfl
    | some u => exact c.use?_or u.1 u.2 (lastUsage l.handle es)

/-- What is handed out shows its borrower and no use, and nobody has used its new handle. -/
theorem Run.borrowed_of_hands {t : Nat} {a : Activity ρ} {q : Pool ρ} {s : Stretch ρ}
    {site : String} (run : Run es w) (works : w.Works e f t a q s)
    (next : s.next = .finish (.lent id)) (borrower : a.point.site? = some site)
    (hd : w.dossier? a.pool id = some d) (ready : id ∈ w.readied a.pool) :
    f.world.Borrowed (⟨w, e, f⟩ :: es) a.pool id (d.sign (q.config.evidence? site)) q.config
      ⟨w, e, f⟩ := by
  obtain ⟨hunused, hunsigned⟩ := (run.filed hd).2 ready
  have hnew := works.handles_of_finish next
  have hsite : Episode.site? ⟨w, e, f⟩ = some site := by
    rw [Episode.site?, works.call]
    exact borrower
  have hnone : Episode.usageOf w.handles.length ⟨w, e, f⟩ = none :=
    Episode.usageOf_eq_none fun site hu =>
      absurd (works.usage?.symm.trans hu) (Option.some_ne_none _).symm
  refine ⟨List.find?_cons_of_pos (works.handsOut next), ?_, ⟨?_, fun m y hy => ?_⟩, ?_⟩
  · show (q.config.evidence? site).or d.borrowedBy = _
    rw [hunsigned, hsite, Option.or_none]
    rfl
  · rw [hnew, List.length_append]
    exact Nat.lt_succ_self _
  · rw [handle?_concat hnew] at hy
    split at hy
    · rename_i hm
      obtain rfl := Option.some.inj hy
      exact iff_of_true hm ⟨rfl, rfl⟩
    · rename_i hm
      exact iff_of_false hm (run.sound.unhandled_of_readied ready hy)
  · show d.lastUse = _
    rw [show Episode.handle ⟨w, e, f⟩ = w.handles.length from rfl, lastUsage_cons, hnone,
      run.unused (Nat.le_refl _), hunused]
    rfl

/-- In every run the dossier of an object that is out shows the last borrow alone. -/
theorem Run.borrowed (run : Run es w) (hp : w.pools[i]? = some p)
    (hd : w.dossier? i id = some d) (hout : d.out = true) (hid : id ∉ w.readied i) :
    ∃ l, w.Borrowed es i id d p.config l := by
  induction run generalizing p d with
  | start => exact absurd hd (Option.some_ne_none d).symm
  | @next es w e f run react ih =>
    have hdeals := react_deals react
    -- the settings of the pool are as they were
    have hconfig : ∀ {q : Pool ρ}, w.pools[i]? = some q → q.config = p.config := by
      intro q hq
      obtain ⟨q', hq', hc⟩ := react_config run.sound react hq
      obtain rfl := Option.some.inj (hp.symm.trans hq')
      exact hc.symm
    cases run.files react i id with
    | rests same still kept unused =>
      rw [same] at hd
      obtain ⟨q, hq⟩ := pool_of_dossier hd
      obtain ⟨l, hl⟩ := ih hq hd hout fun h => hid (still.mpr h)
      have hnone : Episode.usageOf l.handle ⟨w, e, f⟩ = none := by
        refine Episode.usageOf_eq_none fun site hu => ?_
        obtain ⟨x, hx⟩ := handle_of_usage? hu
        obtain ⟨hpool, hobject⟩ := (hl.handle.sole _ x hx).mp rfl
        exact unused _ site x hu hx hpool hobject
      exact ⟨l, hconfig hq ▸ hl.kept hdeals kept rfl (by rw [hnone]; rfl)⟩
    | @uses n site x q d₀ usage handle pool object config before hout₀ file apart still kept =>
      obtain rfl := Option.some.inj (file.symm.trans hd)
      obtain ⟨l, hl⟩ := ih config before hout₀ apart
      obtain rfl : n = l.handle := (hl.handle.sole n x handle).mpr ⟨pool, object⟩
      exact ⟨l, hconfig config ▸ hl.kept hdeals kept rfl
        (by rw [Episode.usageOf_eq_some usage]; rfl)⟩
    | closes file =>
      obtain ⟨d₀, -, rfl⟩ := Option.map_eq_some_iff.mp (file.symm.trans hd)
      exact absurd hout Bool.false_ne_true
    | enlists _ file =>
      obtain rfl := Option.some.inj (file.symm.trans hd)
      exact absurd hout Bool.false_ne_true
    | lends _ _ _ _ after => exact absurd after hid
    | hands works pool next borrower file ready =>
      subst pool
      obtain ⟨d₀, hd₀, rfl⟩ := Option.map_eq_some_iff.mp (file.symm.trans hd)
      rw [← hconfig works.pool]
      exact ⟨_, run.borrowed_of_hands works next borrower hd₀ ready⟩

/-! ## The call of the borrower -/

/-- What a call readies for a borrower it picked itself, and nobody has picked it since then. -/
theorem Run.picked {t m : Nat} {a : Activity ρ} (run : Run es w) (ha : w.callAt t m = some a)
    (hid : id ∈ a.point.lending) :
    ∃ newer k older, es = newer ++ k :: older ∧ k.runs t m = true ∧ answer? t m newer = none ∧
      k.picks a.pool id = true ∧ ∀ z ∈ newer, z.picks a.pool id = false := by
  refine run.since (fun b => b.pool = a.pool ∧ id ∈ b.point.lending)
    (fun newer k _ => k.picks a.pool id = true ∧ ∀ z ∈ newer, z.picks a.pool id = false) ?charged
    ?turn ?keep ha ⟨rfl, hid⟩
  case charged =>
    rintro b ⟨-, hb⟩ hnil
    exact absurd (hnil ▸ Point.mem_lending.mp hb) List.not_mem_nil
  case turn =>
    rintro es w e f b q s pt run react hworks hn ⟨hi, hpt⟩
    have hnext : id ∈ s.next.lending := hn ▸ hpt
    refine (hworks.lending run.sound hnext).imp (fun hold => ⟨hi, hold⟩) fun hpicks => ?_
    have hafter : id ∈ f.world.readied a.pool := by
      rw [← hi, hworks.readied_after, hn]
      exact .inl (List.mem_flatMap.mpr ⟨pt, List.mem_singleton.mpr rfl, hpt⟩)
    -- what is picked was idle or is new, and so in nobody's charge
    have hbefore : id ∉ w.readied a.pool := by
      rw [← hi]
      intro hmem
      have hcharge := mem_readied.mp hmem
      have hsound := (run.sound.pools b.pool).sound q hworks.pool
      rcases hpicks.free with hidle | hnew
      · exact hsound.not_idle_of_charge hcharge hidle
      · exact claims_eq_nil_iff.mp (hsound.of_unmade hnew).1 _ hcharge
    exact ⟨Bool.and_eq_true_iff.mpr ⟨decide_eq_true hafter, decide_eq_true hbefore⟩,
      fun _ hz => absurd hz List.not_mem_nil⟩
  case keep =>
    rintro es newer w e f b b' k run react hb ⟨hi, hlending⟩ hb' - ⟨hk, hnewer⟩
    refine ⟨hk, fun z hz => ?_⟩
    rcases List.mem_cons.mp hz with rfl | hz
    · refine Episode.picks_eq_false fun _ => ?_
      rw [← hi]
      exact List.mem_flatMap.mpr ⟨_, mem_points_of_callAt hb, hlending⟩
    · exact hnewer z hz

/-- The last borrow of an object of the pool `i`, as the episodes `es` show it. The object was
    picked for it in the episode `pick` and handed out in the episode `loan`. -/
structure LastBorrow (es : List (Episode ρ)) (i id : Nat) (pick loan : Episode ρ) (site : String) :
    Prop where
  picked : es.find? (Episode.picks i id) = some pick
  lent : es.find? (Episode.handsOut i id) = some loan
  /-- Both was done by the call of a borrower who had asked for an object at `site`. The handle that
      the borrower got is new, and nobody had used it. -/
  call : ∃ t m timeout newer between older,
    es = newer ++ loan :: (between ++ pick :: older) ∧ loan.runs t m = true ∧
      pick.runs t m = true ∧ answer? t m between = none ∧
      (origins t (between ++ pick :: older)).head? = some (.begin t i (.borrow timeout site)) ∧
      lastUsage loan.handle (between ++ pick :: older) = none
  handle : loan.after.handle? loan.handle = some { pool := i, object := id }

/-- An object that was handed out, and is still there, was picked no more since then, unless it is
    readied anew. -/
theorem Run.unpicked {newer older : List (Episode ρ)} {l : Episode ρ}
    (run : Run (newer ++ l :: older) w) (hgrave : id ∉ graves (newer ++ l :: older) i)
    (hid : id ∉ w.readied i) (hready : id ∈ l.before.readied i) (hout : l.handsOut i id = true)
    (hkept : ∀ z ∈ newer, z.handsOut i id = false) : ∀ z ∈ newer ++ [l], z.picks i id = false := by
  -- each pick before has come to a borrow, and so has the one for this borrow
  have hall := (run.tallied i id).handed hgrave
  have hold : id ∉ graves older i := fun hmem => hgrave (by
    rw [graves_append]
    exact List.mem_append_right _ (List.mem_append_right _ hmem))
  have hbefore := (run.split.tallied i id).handed hold
  have hnone : newer.countP (Episode.handsOut i id) = 0 :=
    List.countP_eq_zero.mpr fun z hz => Bool.eq_false_iff.mp (hkept z hz)
  rw [if_pos hready] at hbefore
  rw [if_neg hid, List.countP_append, List.countP_append, List.countP_cons_of_pos hout, hnone,
    List.countP_cons] at hall
  have hzero : (newer ++ [l]).countP (Episode.picks i id) = 0 := by
    rw [List.countP_append, List.countP_singleton]
    omega
  exact fun z hz => Bool.eq_false_iff.mpr (List.countP_eq_zero.mp hzero z hz)

/-- In every run an object that was handed out, and was not destroyed nor readied anew since then,
    was picked and handed out by one call. -/
theorem Run.lastBorrow {l : Episode ρ} (run : Run es w) (hgrave : id ∉ graves es i)
    (hid : id ∉ w.readied i) (hl : es.find? (Episode.handsOut i id) = some l) :
    ∃ pick site, l.site? = some site ∧ LastBorrow es i id pick l site := by
  obtain ⟨hout, newer, older, rfl, hnewer⟩ := List.find?_eq_some_iff_append.mp hl
  have hrun := run.split
  obtain ⟨-, -, react⟩ := run.of_mem (List.mem_append_right newer (List.mem_cons_self ..))
  obtain ⟨t, a, q, s, hworks, rfl, hn⟩ := works_of_handsOut react hout
  obtain ⟨m, hat, hturn⟩ := hworks.isTurn hrun.sound react
  obtain ⟨t', timeout, site, hthread, horigin, hsite⟩ := hrun.borrower react hout
  obtain rfl : t' = t := Option.some.inj (hthread.symm.trans hworks.thread)
  -- what a call ends with it has readied
  have hlending : id ∈ a.point.lending := by
    have hnext : id ∈ s.next.lending := by
      rw [hn]
      exact List.mem_singleton.mpr rfl
    rcases hworks.lending hrun.sound hnext with hold | hpicks
    · exact hold
    · obtain ⟨pt, hgo⟩ := hpicks.readied
      exact nomatch hn.symm.trans hgo
  obtain ⟨between, pick, first, rfl, hruns, hanswer, hpick, hnone⟩ := hrun.picked hat hlending
  have hlater := run.unpicked hgrave hid (hworks.readied_of_lending hlending) hout fun z hz =>
    (Bool.not_eq_true' _).mp (hnewer z hz)
  refine ⟨pick, site, hsite, ?_, hl, ⟨t', m, timeout, newer, between, first, rfl, hturn.runs, hruns,
    hanswer, horigin, hrun.unused (Nat.le_refl _)⟩, ?_⟩
  · refine List.find?_eq_some_iff_append.mpr
      ⟨hpick, (newer ++ [l]) ++ between, first, by simp, fun z hz => (Bool.not_eq_true' _).mpr ?_⟩
    rcases List.mem_append.mp hz with hz | hz
    · exact hlater z hz
    · exact hnone z hz
  · rw [Episode.after, handle?_concat (hworks.handles_of_finish hn)]
    exact if_pos rfl

end Runs

end ObjectPool
