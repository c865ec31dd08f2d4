/-
  ObjectPool.Proofs.Precedence

  In which order the borrowers of a pool stand in line, in every world that can be
  reached. A borrower that begins to wait goes to the end, and the first is woken. One
  that was woken and finds nothing goes back to the front, and so before everyone else:
  those who went back stand before the others, the one that did so last first, and only
  the others stand in the order in which they began to wait.

    * `begun`, `wentBack` — who began to wait, and who went back, in a run.
    * `Precedes` — who stands before whom.
    * `WaitLine.Moves`, `react_line` — what an event does to the line.
    * `KeepsTurns`, `turns_kept` — what follows for the line of a pool.
-/

import ObjectPool.Proofs.Frame

namespace ObjectPool

variable {ρ : Type}

/-! ## Who began to wait and who went back -/

/-- The tickets that were woken in a line and are in line in another. -/
def WaitLine.back (l l' : WaitLine) : List Nat :=
  l.woken.filter fun t => decide (t ∈ l'.queue)

namespace Episode

/-- The tickets of the borrowers that wait for the pool `i` after an episode and did not before. -/
def began (i : Nat) (e : Episode ρ) : List Nat :=
  ((e.after.points i).flatMap Point.tickets).filter
    fun t => decide (t ∉ (e.before.points i).flatMap Point.tickets)

/-- The tickets that were woken before an episode and are in line after it. -/
def wentBack (i : Nat) (e : Episode ρ) : List Nat :=
  (e.before.lineOf i).back (e.after.lineOf i)

end Episode

/-- The tickets of the borrowers that began to wait for the pool `i`, the latest first. -/
def begun (es : List (Episode ρ)) (i : Nat) : List Nat := es.flatMap (Episode.began i)

/-- The tickets that went back into the line of the pool `i`, the latest first. -/
def wentBack (es : List (Episode ρ)) (i : Nat) : List Nat := es.flatMap (Episode.wentBack i)

/-- Who stands before whom: those in `back` stand before the others, in the order of that list,
    and the others by their tickets. -/
def Precedes (back : List Nat) (t u : Nat) : Prop :=
  back.idxOf t < back.idxOf u ∨ (back.idxOf t = back.idxOf u ∧ t < u)

section Precedes

variable {back : List Nat} {t u v : Nat}

/-- Whoever went back last stands before everyone else. -/
theorem precedes_cons_self (h : u ≠ t) : Precedes (t :: back) t u := by
  refine .inl ?_
  rw [List.idxOf_cons_self, List.idxOf_cons_ne _ h.symm]
  exact Nat.succ_pos _

/-- One that goes back changes nothing among the others. -/
theorem Precedes.cons (h : Precedes back u v) (hu : u ≠ t) (hv : v ≠ t) :
    Precedes (t :: back) u v := by
  unfold Precedes at h ⊢
  rw [List.idxOf_cons_ne _ hu.symm, List.idxOf_cons_ne _ hv.symm]
  omega

/-- A borrower that has just begun to wait stands behind everyone else. -/
theorem precedes_of_new (hu : u ∉ back) (h : t < u) : Precedes back t u := by
  unfold Precedes
  rw [List.idxOf_eq_length hu]
  have hle := List.idxOf_le_length (a := t) (l := back)
  omega

end Precedes

/-! ## What can happen to a line -/

namespace WaitLine

/-- What an event does to a line, with those who begin to wait and those who go back: it only
    takes from the line, or a borrower goes to the end or back to the front. -/
inductive Moves (l : WaitLine) : WaitLine → List Nat → List Nat → Prop
  | thin {l' : WaitLine} (h : l.Thins l') : Moves l l' [] []
  | enter : Moves l l.enter [l.issued] []
  | goBack {t : Nat} (ht : t ∈ l.woken) : Moves l (l.reenter t) [] [t]

variable {l l' : WaitLine} {began back bs ts : List Nat} {t u : Nat}

theorem Thins.issued (h : l.Thins l') : l'.issued = l.issued := by
  induction h with
  | refl => rfl
  | wakeNext _ ih => rw [wakeNext_issued, ih]
  | wakeAll _ ih | leave _ _ ih => exact ih

theorem Thins.queue (h : l.Thins l') : l'.queue.Sublist l.queue := by
  induction h with
  | refl => exact .refl _
  | wakeNext _ ih =>
    rw [wakeNext_queue]
    exact (List.tail_sublist _).trans ih
  | wakeAll _ ih => exact List.nil_sublist _
  | leave _ _ ih => exact List.filter_sublist.trans ih

/-- Whoever is woken stood before all that stay in line. -/
theorem Thins.first {R : Nat → Nat → Prop} (h : l.Thins l') (hR : l.queue.Pairwise R)
    (ht : t ∈ l'.woken) (hu : u ∈ l'.queue) : t ∈ l.woken ∨ R t u := by
  induction h with
  | refl => exact .inl ht
  | @wakeNext m h ih =>
    rw [wakeNext_woken] at ht
    rw [wakeNext_queue] at hu
    rcases List.mem_append.mp ht with hhead | hold
    · -- the one that is woken now is the first in line
      have hm := hR.sublist h.queue
      cases hq : m.queue with
      | nil =>
        rw [hq] at hhead
        exact nomatch hhead
      | cons v rest =>
        rw [hq] at hhead hu hm
        obtain rfl : t = v := by simpa using hhead
        exact .inr ((List.pairwise_cons.mp hm).1 u hu)
    · exact ih hold (List.mem_of_mem_tail hu)
  | wakeAll h ih => exact nomatch hu
  | leave x h ih => exact ih (mem_leave_woken.mp ht).1 (mem_leave_queue.mp hu).1

/-- The borrowers stand in line as `Precedes` says. -/
structure InOrder (l : WaitLine) (back : List Nat) : Prop where
  order : l.queue.Pairwise (Precedes back)
  issued : ∀ t ∈ back, t < l.issued

theorem Moves.issued (h : l.Moves l' began back) :
    (List.range l'.issued).reverse = began ++ (List.range l.issued).reverse := by
  cases h with
  | thin h => rw [h.issued, List.nil_append]
  | enter =>
    show (List.range (l.issued + 1)).reverse = _
    rw [List.range_succ, List.reverse_append]
    rfl
  | goBack => rfl

/-- One that goes back was woken, and so is not in line. -/
theorem Holds.ne_of_woken (h : l.Holds ts) (ht : t ∈ l.woken) (hu : u ∈ l.queue) : u ≠ t := by
  rintro rfl
  exact h.not_mem_both hu ht

/-- Whatever happens, the borrowers stand in order. -/
theorem Moves.inOrder (h : l.Moves l' began back) (hl : l.Holds ts) (ho : l.InOrder bs) :
    l'.InOrder (back ++ bs) := by
  cases h with
  | thin h =>
    refine ⟨ho.order.sublist h.queue, fun t ht => ?_⟩
    rw [h.issued]
    exact ho.issued t ht
  | enter =>
    refine ⟨?_, fun t ht => Nat.lt_succ_of_lt (ho.issued t ht)⟩
    rw [enter_queue]
    refine List.pairwise_append.mpr ⟨ho.order, List.pairwise_singleton .., fun t ht u hu => ?_⟩
    obtain rfl := List.mem_singleton.mp hu
    refine precedes_of_new (fun hb => Nat.lt_irrefl _ (ho.issued _ hb)) ?_
    exact hl.issued t (hl.mem_iff.mpr (.inl ht))
  | @goBack t ht =>
    -- it stands before all others now, whose order among each other is as it was
    refine ⟨?_, fun u hu => ?_⟩
    · refine List.pairwise_cons.mpr ⟨fun u hu => precedes_cons_self (hl.ne_of_woken ht hu), ?_⟩
      refine ho.order.imp_of_mem fun hu hv hr => ?_
      exact hr.cons (hl.ne_of_woken ht hu) (hl.ne_of_woken ht hv)
    · rcases List.mem_cons.mp hu with rfl | hu
      · exact hl.issued u (hl.mem_iff.mpr (.inr ht))
      · exact ho.issued u hu

/-- Whoever is woken stood before all that are in line then. -/
theorem Moves.first (h : l.Moves l' began back) (hl : l.Holds ts) {R : Nat → Nat → Prop}
    (hR : l.queue.Pairwise R) (ht : t ∈ l.queue) (hw : t ∈ l'.woken) (hu : u ∈ l'.queue) :
    R t u := by
  have hnot : t ∉ l.woken := hl.not_mem_both ht
  cases h with
  | thin h => exact (h.first hR hw hu).resolve_left hnot
  | enter => exact absurd hw hnot
  | goBack _ => exact absurd (List.mem_filter.mp hw).1 hnot

/-- The borrowers stand by their tickets as long as nobody goes back before an older one. -/
theorem Moves.sorted (h : l.Moves l' began back) (hl : l.Holds ts) (ho : l.queue.Pairwise (· < ·))
    (hb : ∀ t ∈ back, ∀ u ∈ l.queue, t < u) : l'.queue.Pairwise (· < ·) := by
  cases h with
  | thin h => exact ho.sublist h.queue
  | enter =>
    rw [enter_queue]
    refine List.pairwise_append.mpr ⟨ho, List.pairwise_singleton .., fun t ht u hu => ?_⟩
    obtain rfl := List.mem_singleton.mp hu
    exact hl.issued t (hl.mem_iff.mpr (.inl ht))
  | @goBack t ht => exact List.pairwise_cons.mpr ⟨hb t (List.mem_singleton.mpr rfl), ho⟩

/-- Whoever was woken began to wait before all that are in line, as long as the woken ones that
    find nothing go back the youngest first. -/
theorem Moves.ahead (h : l.Moves l' began back) (hl : l.Holds ts) (ho : l.queue.Pairwise (· < ·))
    (ha : ∀ t ∈ l.woken, ∀ u ∈ l.queue, t < u) (hb : ∀ t ∈ back, ∀ u ∈ l.woken, u ≤ t) :
    ∀ t ∈ l'.woken, ∀ u ∈ l'.queue, t < u := by
  intro t ht u hu
  cases h with
  | thin h =>
    rcases h.first ho ht hu with hold | hlt
    · exact ha t hold u (h.queue.mem hu)
    · exact hlt
  | enter =>
    rcases List.mem_append.mp hu with hu | hu
    · exact ha t ht u hu
    · obtain rfl := List.mem_singleton.mp hu
      exact hl.issued t (hl.mem_iff.mpr (.inr ht))
  | @goBack v hv =>
    obtain ⟨hold, hne⟩ := List.mem_filter.mp ht
    rcases List.mem_cons.mp hu with rfl | hu
    · have hle := hb u (List.mem_singleton.mpr rfl) t hold
      exact Nat.lt_of_le_of_ne hle (of_decide_eq_true hne)
    · exact ha t hold u hu

end WaitLine

/-! ## What an event does to the line of a pool -/

section Lines

variable {l l' : WaitLine} {ts : List Nat} {t : Nat}

/-- Nobody goes back into a line that is only taken from. -/
theorem WaitLine.Thins.back (h : l.Thins l') (hl : l.Holds ts) : l.back l' = [] := by
  refine List.filter_eq_nil_iff.mpr fun t ht hq => ?_
  exact hl.not_mem_both (h.queue.mem (of_decide_eq_true hq)) ht

/-- The one that goes back was woken once. -/
theorem WaitLine.back_reenter (hl : l.Holds ts) (ht : t ∈ l.woken) :
    l.back (l.reenter t) = [t] := by
  have hsame : l.back (l.reenter t) = l.woken.filter (· == t) := by
    refine List.filter_congr fun u hu => ?_
    have hq : u ∉ l.queue := fun hq => hl.not_mem_both hq hu
    show decide (u ∈ t :: l.queue) = (u == t)
    by_cases hut : u = t <;> simp [hut, hq]
  have hnodup := (List.nodup_append.mp hl.nodup_append).2.1
  rw [hsame, List.filter_beq, hnodup.count, if_pos ht]
  rfl

/-- Nobody goes back when a borrower begins to wait. -/
theorem WaitLine.back_enter (hl : l.Holds ts) : l.back l.enter = [] := by
  refine List.filter_eq_nil_iff.mpr fun t ht hq => ?_
  rcases List.mem_append.mp (of_decide_eq_true hq) with hq | hq
  · exact hl.not_mem_both hq ht
  · obtain rfl := List.mem_singleton.mp hq
    exact Nat.lt_irrefl _ (hl.issued _ (hl.mem_iff.mpr (.inr ht)))

end Lines

namespace World

variable {w : World ρ} {e : Event ρ} {f : Effect ρ} {t i : Nat} {a : Activity ρ} {q : Pool ρ}
  {s : Stretch ρ} {g : Nat → List Nat}

/-- The line of a pool holds the tickets of the borrowers that wait for it. -/
theorem SoundAt.line {gs : List Nat} (h : w.SoundAt i gs) :
    (w.lineOf i).Holds ((w.points i).flatMap Point.tickets) := by
  cases hq : w.pools[i]? with
  | some q =>
    rw [lineOf_eq hq]
    exact (h.sound q hq).books.line
  | none =>
    rw [lineOf, hq, (h.housed hq).1]
    exact ⟨.refl _, .nil, List.forall_mem_nil _⟩

/-- Nobody begins to wait for a pool that is left alone. -/
theorem Spares.began (h : w.Spares f.world i) : Episode.began i ⟨w, e, f⟩ = [] := by
  obtain ⟨new, hnew, hperm⟩ := h.calls
  refine List.filter_eq_nil_iff.mpr fun t ht hb => of_decide_eq_true hb ?_
  obtain ⟨pt, hpt, hmem⟩ := List.mem_flatMap.mp ht
  rcases List.mem_append.mp (hperm.mem_iff.mpr hpt) with hpt | hpt
  · rw [(hnew pt hpt).tickets] at hmem
    exact nomatch hmem
  · exact List.mem_flatMap.mpr ⟨pt, hpt, hmem⟩

/-- The borrower that begins to wait in a stretch, if any, is the one of its call. -/
theorem Works.began (h : w.Works e f t a q s) : (Episode.began a.pool ⟨w, e, f⟩).Perm
    (s.next.tickets.filter fun t => decide (t ∉ (w.points a.pool).flatMap Point.tickets)) := by
  obtain ⟨-, new, hnew, hperm⟩ := h.lands
  have hnone : new.flatMap Point.tickets = [] :=
    List.flatMap_eq_nil_iff.mpr fun pt hpt => (hnew pt hpt).tickets
  have hnext : s.next.points.flatMap Point.tickets = s.next.tickets := by
    cases s.next with
    | go pt => exact List.flatMap_singleton ..
    | finish r => rfl
  have htickets := (hperm.flatMap_right Point.tickets).symm
  rw [List.flatMap_append, List.flatMap_append, hnone, hnext, List.nil_append] at htickets
  -- the other calls had their tickets before
  have hold : (((w.pop t).points a.pool).flatMap Point.tickets).filter
      (fun t => decide (t ∉ (w.points a.pool).flatMap Point.tickets)) = [] := by
    refine List.filter_eq_nil_iff.mpr fun u hu hb => of_decide_eq_true hb ?_
    obtain ⟨pt, hpt, hmem⟩ := List.mem_flatMap.mp hu
    exact List.mem_flatMap.mpr
      ⟨pt, h.stretches.points.mem_iff.mpr (List.mem_cons_of_mem _ hpt), hmem⟩
  have hfilter := htickets.filter fun t => decide (t ∉ (w.points a.pool).flatMap Point.tickets)
  rwa [List.filter_append, hold, List.append_nil] at hfilter

/-- A stretch after which the call does not wait and that only takes from the line. -/
theorem Works.line_thins (h : w.Works e f t a q s) (hw : w.Sound g) (htickets : s.next.tickets = [])
    (hline : q.registry.line.Thins s.pool.registry.line) :
    q.registry.line.Moves s.pool.registry.line (Episode.began a.pool ⟨w, e, f⟩)
      (q.registry.line.back s.pool.registry.line) := by
  have hl := (hw.pools a.pool).line
  have hbegan := h.began
  rw [lineOf_eq h.pool] at hl
  rw [htickets] at hbegan
  rw [List.perm_nil.mp hbegan, hline.back hl]
  exact .thin hline

/-- A borrower that waits already does not begin to. -/
theorem Works.began_of_waiting (h : w.Works e f t a q s) {b : Borrowing} {u : Nat}
    (hpt : a.point.tickets = [u]) (hn : s.next = .go (.waiting b u)) :
    Episode.began a.pool ⟨w, e, f⟩ = [] := by
  have hbegan := h.began
  have hold : u ∈ (w.points a.pool).flatMap Point.tickets := by
    refine List.mem_flatMap.mpr ⟨a.point, h.call_mem, ?_⟩
    rw [hpt]
    exact List.mem_singleton.mpr rfl
  rw [hn, show (Next.go (.waiting b u)).tickets = [u] from rfl,
    List.filter_cons_of_neg (by simpa using hold)] at hbegan
  exact List.perm_nil.mp hbegan

/-- What a stretch does to the line of its pool. -/
theorem Works.line (h : w.Works e f t a q s) (hw : w.Sound g) :
    (w.lineOf a.pool).Moves (f.world.lineOf a.pool) (Episode.began a.pool ⟨w, e, f⟩)
      (Episode.wentBack a.pool ⟨w, e, f⟩) := by
  have hl := (hw.pools a.pool).line
  show (w.lineOf a.pool).Moves (f.world.lineOf a.pool) _
    ((w.lineOf a.pool).back (f.world.lineOf a.pool))
  rw [h.lineOf]
  rw [lineOf_eq h.pool] at hl ⊢
  cases h.turn with
  | thin hs => exact h.line_thins hw hs.tickets hs.line
  | join _ _ _ _ hr _ hs ht =>
    refine h.line_thins hw ht ?_
    rw [hs]
    exact hr.line.wakeNext
  | restore _ _ hs hn =>
    refine h.line_thins hw (by rw [hn]; rfl) ?_
    rw [hs]
    exact .wakeNext .refl
  | @enter b hs hpt hn hline =>
    have hbegan := h.began
    have hissued : q.registry.line.issued ∉ (w.points a.pool).flatMap Point.tickets :=
      fun hmem => Nat.lt_irrefl _ (hl.issued _ hmem)
    rw [hn, show (Next.go (.waiting b q.registry.line.issued)).tickets =
      [q.registry.line.issued] from rfl, List.filter_cons_of_pos (by simpa using hissued)] at hbegan
    rw [hline, List.perm_singleton.mp hbegan, WaitLine.back_enter hl]
    exact .enter
  | @wait b u hs hpt hn hline =>
    rw [h.began_of_waiting hpt hn]
    rcases hline with hline | ⟨hu, hline⟩
    · rw [hline, WaitLine.Thins.refl.back hl]
      exact .thin .refl
    · rw [hline, WaitLine.back_reenter hl hu]
      exact .goBack hu

/-- What an event does to the line of a pool. -/
theorem react_line (hw : w.Sound g) (hr : w.react e = some f) (i : Nat) :
    (w.lineOf i).Moves (f.world.lineOf i) (Episode.began i ⟨w, e, f⟩)
      (Episode.wentBack i ⟨w, e, f⟩) := by
  rcases react_at hr i with ⟨hspares, -⟩ | ⟨t, a, q, s, h, rfl⟩
  · show (w.lineOf i).Moves (f.world.lineOf i) _ ((w.lineOf i).back (f.world.lineOf i))
    rw [hspares.began, hspares.lineOf, WaitLine.Thins.refl.back (hw.pools i).line]
    exact .thin .refl
  · exact h.line hw

end World

/-! ## In every run -/

variable {es : List (Episode ρ)} {w : World ρ} {i : Nat}

/-- Tickets are numbered in the order in which the borrowers began to wait, and the borrowers stand
    as `Precedes` says. -/
theorem Run.line (h : Run es w) (i : Nat) :
    begun es i = (List.range (w.lineOf i).issued).reverse ∧
      (w.lineOf i).InOrder (wentBack es i) := by
  -- both together, since a new ticket is behind those in line only if it is the highest
  induction h with
  | start => exact ⟨rfl, .nil, fun t ht => nomatch ht⟩
  | @next es w e f run react ih =>
    have hmoves := World.react_line run.sound react i
    refine ⟨?_, hmoves.inOrder (run.sound.pools i).line ih.2⟩
    rw [hmoves.issued, ← ih.1]
    rfl

/-- The borrowers stand by their tickets if whoever goes back finds nobody in line that began to
    wait before it. -/
theorem Run.sorted (h : Run es w)
    (hb : ∀ e ∈ es, ∀ t ∈ e.wentBack i, ∀ u ∈ (e.before.lineOf i).queue, t < u) :
    (w.lineOf i).queue.Pairwise (· < ·) := by
  induction h with
  | start => exact .nil
  | @next es w e f run react ih =>
    refine (World.react_line run.sound react i).sorted (run.sound.pools i).line
      (ih fun x hx => hb x (List.mem_cons_of_mem _ hx)) ?_
    exact hb _ (List.mem_cons_self ..)

/-- What goes back stands at the front. -/
theorem WaitLine.Moves.front {l l' : WaitLine} {began back : List Nat} {t : Nat}
    (h : l.Moves l' began back) (ht : t ∈ back) : l'.queue = t :: l.queue := by
  cases h with
  | thin | enter => exact nomatch ht
  | goBack => rw [List.mem_singleton.mp ht]; rfl

/-- The borrowers stood by their tickets all the time exactly if nobody went back before one that
    began to wait before it. -/
theorem Run.sorted_iff (h : Run es w) : (∀ e ∈ es, (e.after.lineOf i).queue.Pairwise (· < ·)) ↔
    ∀ e ∈ es, ∀ t ∈ e.wentBack i, ∀ u ∈ (e.before.lineOf i).queue, t < u := by
  constructor
  · intro hsorted
    induction h with
    | start => exact fun e he => nomatch he
    | @next es w e f run react ih =>
      intro x hx
      rcases List.mem_cons.mp hx with rfl | hx
      · intro t ht u hu
        have hfront := (World.react_line run.sound react i).front ht
        have hafter := hsorted _ (List.mem_cons_self ..)
        rw [show (Episode.after ⟨w, e, f⟩).lineOf i = f.world.lineOf i from rfl, hfront] at hafter
        exact (List.pairwise_cons.mp hafter).1 u hu
      · exact ih (fun y hy => hsorted y (List.mem_cons_of_mem _ hy)) x hx
  · intro hb
    induction h with
    | start => exact fun e he => nomatch he
    | @next es w e f run react ih =>
      intro x hx
      rcases List.mem_cons.mp hx with rfl | hx
      · exact (run.next react).sorted hb
      · exact ih (fun y hy => hb y (List.mem_cons_of_mem _ hy)) x hx

/-- The borrowers stand by their tickets if of those that were woken the youngest goes back
    first. -/
theorem Run.sorted_of_youngest (h : Run es w)
    (hb : ∀ e ∈ es, ∀ t ∈ e.wentBack i, ∀ u ∈ (e.before.lineOf i).woken, u ≤ t) :
    (w.lineOf i).queue.Pairwise (· < ·) ∧
      ∀ t ∈ (w.lineOf i).woken, ∀ u ∈ (w.lineOf i).queue, t < u := by
  -- the order in line needs that whoever was woken began to wait before all that are in line
  induction h with
  | start => exact ⟨.nil, fun t ht => nomatch ht⟩
  | @next es w e f run react ih =>
    obtain ⟨ho, ha⟩ := ih fun x hx => hb x (List.mem_cons_of_mem _ hx)
    have hmoves := World.react_line run.sound react i
    have hl := (run.sound.pools i).line
    refine ⟨hmoves.sorted hl ho fun t ht u hu => ?_, hmoves.ahead hl ho ha ?_⟩
    · -- whoever goes back was woken
      exact ha t (List.mem_filter.mp ht).1 u hu
    · exact hb _ (List.mem_cons_self ..)

/-- How the borrowers of the pool `i` stand in line. -/
structure KeepsTurns (es : List (Episode ρ)) (w : World ρ) (i : Nat) : Prop where
  /-- Tickets are numbered in the order in which the borrowers began to wait. -/
  begun : begun es i = (List.range (w.lineOf i).issued).reverse
  /-- Those who went back stand first, the one that did so last before the others; then come the
      others by their tickets. -/
  order : (w.lineOf i).queue.Pairwise (Precedes (wentBack es i))
  /-- Whoever is woken in what happens next stood before all that stay in line. -/
  wakes : ∀ e f, w.react e = some f → ∀ t ∈ (w.lineOf i).queue, t ∈ (f.world.lineOf i).woken →
    ∀ u ∈ (f.world.lineOf i).queue, Precedes (wentBack es i) t u
  /-- The borrowers stood by their tickets all the time exactly if nobody went back before one
      that began to wait before it. -/
  by_ticket_iff : (∀ e ∈ es, (e.after.lineOf i).queue.Pairwise (· < ·)) ↔
    ∀ e ∈ es, ∀ t ∈ e.wentBack i, ∀ u ∈ (e.before.lineOf i).queue, t < u
  /-- So they do if of those that were woken the youngest always goes back first. -/
  by_ticket : (∀ e ∈ es, ∀ t ∈ e.wentBack i, ∀ u ∈ (e.before.lineOf i).woken, u ≤ t) →
    (w.lineOf i).queue.Pairwise (· < ·)

/-- In every run the borrowers stand in line behind those that went back. -/
theorem turns_kept (h : Run es w) (i : Nat) : KeepsTurns es w i where
  begun := (h.line i).1
  order := (h.line i).2.order
  wakes := fun _ _ hr _ ht hw _ hu =>
    (World.react_line h.sound hr i).first (h.sound.pools i).line (h.line i).2.order ht hw hu
  by_ticket_iff := h.sorted_iff
  by_ticket := fun hb => (h.sorted_of_youngest hb).1

/-- Two borrowers wait for the two objects of a pool. Both objects are given up and both borrowers
    are woken, but two others come first and begin to make objects. The borrowers go back, the
    older one first. -/
def overtakenEvents : List (Event Nat) :=
  [.create { maxTotal := 2 }, .spawn, .spawn, .spawn, .spawn, .spawn, .spawn,
    .begin 0 0 (.borrow none "first"), .step 0, .step 0, .answer 0 (.created (.ok 7)),
    .answer 0 (.activated 7 none),
    .begin 1 0 (.borrow none "second"), .step 1, .step 1, .answer 1 (.created (.ok 8)),
    .answer 1 (.activated 8 none),
    .begin 2 0 (.borrow none "older"), .step 2, .step 2,
    .begin 3 0 (.borrow none "younger"), .step 3, .step 3,
    .invalidate 0 0 0, .step 0, .invalidate 1 0 1, .step 1,
    .begin 4 0 (.borrow none "third"), .step 4, .step 4,
    .begin 5 0 (.borrow none "fourth"), .step 5, .step 5,
    .step 2, .step 3]

theorem turns_kept_overtaken :
    Run (episodes overtakenEvents) (reached overtakenEvents) ∧
      KeepsTurns (episodes overtakenEvents) (reached overtakenEvents) 0 :=
  ⟨Run.of_events rfl, turns_kept (Run.of_events rfl) 0⟩

/-- The younger of the two borrowers stands before the older one, and is woken first. -/
theorem younger_before_older :
    Run (episodes overtakenEvents) (reached overtakenEvents) ∧
      begun (episodes overtakenEvents) 0 = [1, 0] ∧
      wentBack (episodes overtakenEvents) 0 = [1, 0] ∧
      ((reached overtakenEvents).lineOf 0).queue = [1, 0] ∧
      ∃ f, (reached overtakenEvents).react (.answer 4 (.created (.error "full"))) = some f ∧
        (f.world.lineOf 0).woken = [1] ∧ (f.world.lineOf 0).queue = [0] :=
  ⟨Run.of_events rfl, by decide +kernel, by decide +kernel, by decide +kernel, _, rfl,
    by decide +kernel, by decide +kernel⟩

end ObjectPool
