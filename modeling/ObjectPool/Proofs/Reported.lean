/-
  ObjectPool.Proofs.Reported

  Reports of objects that were taken from their borrowers, in every run. A report is made by the
  call whose pass over the lent objects took the object. All that it says is of the borrow from
  which the object was taken: who the borrower was, when it last used the object through its own
  handle, and for how long it had not. What earlier borrowers did never shows.

    * `Stretch.MakesReport`, `Episode.MakesReport` — a report goes to the journal or to the caller's
      sink.
    * `Works.report_eq` — which call makes it, and of what.
    * `Faithful`, `reports_faithful` — the main statement.
-/

import ObjectPool.Proofs.Captives

namespace ObjectPool

variable {ρ : Type}

/-! ## Who makes a report -/

/-- A report is written into the journal in a stretch, or goes to the caller's sink after it. -/
def Stretch.MakesReport (r : Report) (s : Stretch ρ) : Prop :=
  .abandoned r ∈ s.notices ∨ ∃ x rest n k, s.next = .go (.reporting r x rest n k)

/-- A report of the pool `i` is written into the journal in an episode, or passed to the caller's
    sink. -/
def Episode.MakesReport (i : Nat) (r : Report) (e : Episode ρ) : Prop :=
  (i, .abandoned r) ∈ e.effect.notices ∨
    ∃ x rest n k, e.request? = some ⟨i, .reporting r x rest n k⟩

theorem Episode.MakesReport.mem_reports {i : Nat} {r : Report} {e : Episode ρ}
    (h : e.MakesReport i r) : r.object ∈ e.reports i := by
  rcases h with hnotice | ⟨x, rest, n, k, hreq⟩
  · exact List.mem_append_left _ (List.mem_filterMap.mpr ⟨_, hnotice, if_pos rfl⟩)
  · refine List.mem_append_right _ ?_
    rw [hreq]
    show r.object ∈ if i = i then _ else _
    rw [if_pos rfl]
    exact List.mem_singleton.mpr rfl

namespace Pool

variable {p : Pool ρ} {x : Reclaimed ρ} {v : ρ} {r : Report} {rest : List (Reclaimed ρ)} {n : Nat}
  {k : Sweeper}

theorem disposeReclaimed_silent (hv : x.resource = some v) :
    ¬ (p.disposeReclaimed x rest n k).MakesReport r := by
  rintro (hnotice | ⟨y, rest', m, k', hgo⟩)
  · unfold disposeReclaimed dispose at hnotice
    rw [hv] at hnotice
    exact nomatch hnotice
  · rw [(disposeReclaimed_shows hv p rest n k).1.next] at hgo
    exact nomatch hgo

/-- Of an object that is next to be disposed of a report is made if reports are wanted. -/
theorem report_of_reclaimNext (hv : x.resource = some v)
    (h : (p.reclaimNext x rest n k).MakesReport r) :
    ∃ c, p.config.abandonment = some c ∧ c.reported = true ∧ r = p.report x := by
  have hsilent : ¬ (p.disposeReclaimed x rest n k).MakesReport r := disposeReclaimed_silent hv
  unfold reclaimNext at h
  split at h
  · rename_i c hset
    split at h
    · rename_i hreported
      refine ⟨c, hset, hreported, ?_⟩
      split at h
      · rcases h with hnotice | hgo
        · rcases List.mem_cons.mp hnotice with he | hnotice
          · exact Notice.abandoned.inj he
          · exact absurd (.inl hnotice) hsilent
        · exact absurd (.inr hgo) hsilent
      · rcases h with hnotice | ⟨y, rest', m, k', hgo⟩
        · exact nomatch hnotice
        · exact (Point.reporting.inj (Next.go.inj hgo)).1.symm
    · exact absurd h hsilent
  · exact absurd h hsilent

/-- A report says what the dossier of the object shows. -/
theorem report_eq {d : Dossier} (hd : p.dossiers[x.object]? = some d) :
    p.report x =
      { object := x.object
        borrowCount := d.borrowCount
        unused := x.unused
        borrowedBy := d.borrowedBy
        lastUsedBy := d.lastUse.bind (·.site) } := by
  rw [getElem?_dossiers] at hd
  obtain ⟨y, hy, rfl⟩ := Option.map_eq_some_iff.mp hd
  unfold report
  rw [hy]
  rfl

end Pool

namespace World

variable {w : World ρ} {g : Nat → List Nat} {e : Event ρ} {f : Effect ρ} {t i : Nat}
  {a : Activity ρ} {q : Pool ρ} {s : Stretch ρ} {r : Report}

theorem Works.makesReport (h : w.Works e f t a q s) (hw : w.Sound g)
    (hr : Episode.MakesReport i r ⟨w, e, f⟩) : a.pool = i ∧ s.MakesReport r := by
  rcases hr with hnotice | ⟨x, rest, n, k, hreq⟩
  · have hmem : (i, Notice.abandoned r) ∈ s.notices.map fun n => (a.pool, n) :=
      h.notices_eq ▸ hnotice
    obtain ⟨m, hm, he⟩ := List.mem_map.mp hmem
    obtain ⟨rfl, rfl⟩ := Prod.mk.inj he
    exact ⟨rfl, .inl hm⟩
  · rw [h.requested hw] at hreq
    cases hn : s.next with
    | finish reply =>
      rw [hn] at hreq
      exact nomatch hreq
    | go pt =>
      rw [hn] at hreq
      dsimp only at hreq
      split at hreq
      · obtain ⟨rfl, rfl⟩ := Activity.mk.inj (Option.some.inj hreq)
        exact ⟨rfl, .inr ⟨x, rest, n, k, hn⟩⟩
      · exact nomatch hreq

/-- A report is made by a call that has the object before it next. -/
theorem Works.report_eq (h : w.Works e f t a q s) (hw : w.Sound g) (hs : s.MakesReport r) :
    ∃ x rest n k c, a.point = .reclaiming (x :: rest) n k ∧ q.config.abandonment = some c ∧
      c.reported = true ∧ r = q.report x := by
  rcases h.disposes hw with hplain | ⟨x, v, rest, n, k, -, hv, ⟨hpt, rfl⟩ | ⟨r', -, rfl⟩⟩
  · rcases hs with hnotice | ⟨x, rest, n, k, hgo⟩
    · exact absurd hnotice (hplain.written r)
    · exact nomatch hplain.goes _ hgo
  · obtain ⟨c, hset, hreported, hr⟩ := Pool.report_of_reclaimNext hv hs
    exact ⟨x, rest, n, k, c, hpt, hset, hreported, hr⟩
  · exact absurd hs (Pool.disposeReclaimed_silent hv)

end World

/-! ## Uses on record -/

/-- The last use through the handle `n` that is on record, if uses are tracked. -/
def Abandonment.lastUsage? (c : Abandonment) (n : Nat) (es : List (Episode ρ)) :
    Option (Instant × String) := if c.tracksUse then lastUsage n es else none

/-- What the pool keeps of a use, if reports are wanted. -/
theorem Config.lastUse_eq {s : Config} {c : Abandonment} (hset : s.abandonment = some c)
    (hreported : c.reported = true) (n : Nat) (es : List (Episode ρ)) :
    ((lastUsage n es).bind fun u => s.use? u.1 u.2) =
      (c.lastUsage? n es).map fun u => ⟨u.1, some (Evidence.of c.fullStack u.2)⟩ := by
  unfold Abandonment.lastUsage? Config.use? Config.evidence?
  rw [hset]
  dsimp only
  rw [hreported]
  cases c.tracksUse with
  | true => cases lastUsage n es <;> rfl
  | false => cases lastUsage n es <;> rfl

/-- The last sign of life of a borrower is the stamp of the borrow or a later use. -/
theorem Dossier.lastActive_eq {d : Dossier} {c : Abandonment} {u : Option (Instant × String)}
    (hu : d.lastUse = u.map fun u => ⟨u.1, some (Evidence.of c.fullStack u.2)⟩) :
    d.lastActive = u.elim d.lastBorrow fun u => u.1.later d.lastBorrow := by
  unfold Dossier.lastActive
  rw [hu]
  cases u <;> rfl

/-! ## Main statement -/

/-- What the report `r` of the pool `i` says, which is made in the episode `e` after the episodes
    `es`. The object was taken in the episode `sweep`; its borrower had asked for it at `site`, and
    got it in the episode `loan`, after it was picked in the episode `pick`. -/
structure Faithful (es : List (Episode ρ)) (e : Episode ρ) (i : Nat) (c : Abandonment) (r : Report)
    (sweep pick loan : Episode ρ) (site : String) : Prop where
  wanted : c.reported = true
  /-- It is of an object that the same call has just taken. -/
  taken : sweep.Reclaims i r.object
  swept : ∃ t d newer older, es = newer ++ sweep :: older ∧ sweep.runs t d = true ∧
    e.runs t d = true ∧ answer? t d newer = none ∧
    older.find? (Episode.handsOut i r.object) = some loan
  borrow : LastBorrow es i r.object pick loan site
  borrowCount : r.borrowCount = es.countP (Episode.handsOut i r.object)
  borrowedBy : r.borrowedBy = some (Evidence.of c.fullStack site)
  lastUsedBy : r.lastUsedBy =
    (c.lastUsage? loan.handle es).map fun u => Evidence.of c.fullStack u.2
  /-- The time runs from the stamp of the borrow or from the last use on record. -/
  unused : r.unused = sweep.before.now.since
    ((c.lastUsage? loan.handle es).elim pick.before.now fun u => u.1.later pick.before.now)
  overdue : c.timeout.nanos < r.unused.nanos

section Runs

open World

variable {es : List (Episode ρ)} {w : World ρ} {e : Event ρ} {f : Effect ρ} {i : Nat} {r : Report}

/-- In every run a report of an object that was taken from its borrower describes the borrow from
    which it was taken, and no earlier one. -/
theorem reports_faithful (run : Run es w) (react : w.react e = some f)
    (hr : Episode.MakesReport i r ⟨w, e, f⟩) :
    ∃ p c sweep pick loan site, w.pools[i]? = some p ∧ p.config.abandonment = some c ∧
      Faithful es ⟨w, e, f⟩ i c r sweep pick loan site := by
  rcases react_shows react with hnone | ⟨t, a, q, s, h⟩
  · have hmem := hr.mem_reports
    rw [(hnone i).1] at hmem
    exact absurd hmem List.not_mem_nil
  obtain ⟨rfl, hs⟩ := h.makesReport run.sound hr
  obtain ⟨x, rest, n, k, c, hpt, hset, hreported, hr⟩ := h.report_eq run.sound hs
  obtain ⟨m, hat, hturn⟩ := h.isTurn run.sound react
  have hx : x ∈ a.point.reclaimed := by
    rw [hpt]
    exact List.mem_cons_self ..
  -- where the object is, and what its dossier shows
  obtain ⟨newer, sweep, older, hsplit, hruns, hanswer, hcaptive⟩ := run.captive hat hx
  obtain ⟨⟨d, hd, hout⟩, hgrave, hready, -⟩ := run.sound.seized hat rfl hx
  obtain ⟨p, c', d', hp, hset', hd', hsince, hlate⟩ := hcaptive.overdue
  obtain rfl := Option.some.inj (h.pool.symm.trans hp)
  obtain rfl := Option.some.inj (hset.symm.trans hset')
  obtain rfl := Option.some.inj (hd.symm.trans hd')
  obtain ⟨l, hl⟩ := run.borrowed h.pool hd hout hready
  obtain ⟨pick, site, hsite, hlast⟩ := run.lastBorrow hgrave hready hl.last
  have htally := run.tallied a.pool x.object
  have hcount := htally.handed hgrave
  rw [htally.picked, hd, if_neg hready] at hcount
  have huse := hl.used.trans (Config.lastUse_eq hset hreported l.handle es)
  have hactive := Dossier.lastActive_eq huse
  rw [htally.stamped d pick hd hlast.picked] at hactive
  rw [Pool.report_eq (h.dossier?_before ▸ hd)] at hr
  subst hr
  refine ⟨q, c, sweep, pick, l, site, h.pool, hset, hreported, hcaptive.taken,
    ⟨t, m, newer, older, hsplit, hruns, hturn.runs, hanswer, ?_⟩, hlast, hcount, ?_, ?_,
    hsince.trans (congrArg _ hactive), hlate⟩
  · -- nobody has got the object since it was taken
    have hnone : (newer ++ [sweep]).find? (Episode.handsOut a.pool x.object) = none :=
      List.find?_eq_none.mpr fun z hz => Bool.eq_false_iff.mp (hcaptive.kept z hz)
    have hlent := hl.last
    rwa [hsplit, List.append_cons, List.find?_append, hnone, Option.none_or] at hlent
  · show d.borrowedBy = _
    rw [hl.signed, hsite, Option.bind_some, Config.evidence?, hset]
    exact if_pos hreported
  · show d.lastUse.bind _ = _
    rw [huse]
    cases c.lastUsage? l.handle es <;> rfl

end Runs

/-- A borrower uses an object, gives it back at 5, gets it again at once and uses it at 8. Then it
    is not used, although it may go unused for 10 only, and the pool is looked after at 20. -/
def secondBorrowEvents : List (Event Nat) :=
  [.create {
      abandonment := some {
        onUpkeep := true, timeout := ⟨10⟩, reported := true, fullStack := false,
        tracksUse := true } },
    .spawn, .spawn,
    .begin 0 0 (.borrow none "first"), .step 0, .step 0, .answer 0 (.created (.ok 7)),
    .answer 0 (.activated 7 none), .access 0 "early" fun r => r,
    .tick ⟨5⟩, .giveBack 0 0 0, .step 0, .answer 0 (.passivated 7 none),
    .begin 0 0 (.borrow none "second"), .step 0, .step 0, .answer 0 (.activated 7 none),
    .tick ⟨8⟩, .access 1 "late" fun r => r,
    .tick ⟨20⟩, .begin 1 0 .maintain, .step 1, .step 1]

/-- What is reported of the object. -/
def secondBorrowReport : Report :=
  { object := 0
    borrowCount := 2
    unused := ⟨12⟩
    borrowedBy := some (.line "second")
    lastUsedBy := some (.line "late") }

theorem reports_faithful_second :
    ∃ f, Run (episodes secondBorrowEvents) (reached secondBorrowEvents) ∧
      (reached secondBorrowEvents).react (.step 1) = some f ∧
      Episode.MakesReport 0 secondBorrowReport ⟨reached secondBorrowEvents, .step 1, f⟩ ∧
      ∃ p c sweep pick loan site, (reached secondBorrowEvents).pools[0]? = some p ∧
        p.config.abandonment = some c ∧
        Faithful (episodes secondBorrowEvents) ⟨reached secondBorrowEvents, .step 1, f⟩ 0 c
          secondBorrowReport sweep pick loan site :=
  ⟨_, Run.of_events rfl, rfl, .inl (List.mem_of_getElem? (i := 0) rfl),
    reports_faithful (Run.of_events rfl) rfl (.inl (List.mem_of_getElem? (i := 0) rfl))⟩

end ObjectPool
