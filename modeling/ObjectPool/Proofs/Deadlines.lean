/-
  ObjectPool.Proofs.Deadlines

  How long a borrower waits that has set itself a limit. The limit counts from the moment at which
  it begins to look, when it has done with what it may take from others, and it is the same however
  often the borrower is woken, goes back to its place or is sent round again by an unfit object. It
  gives up at the deadline at the earliest and does not wait any longer then, and what it could have
  had goes to the next in line.

    * `Borrowing.Until` — a borrower that waits until a deadline.
    * `Sound.seek_of_vain` — what one look comes to that finds nothing.
    * `Point.LeadsIn`, `Point.Hunts` — a borrow before it begins to look, and after.
    * `Episode.BeginsToLook` — a borrow begins to look.
    * `TimedTurn`, `timed_waits` — the main statement.
-/

import ObjectPool.Proofs.Borrowing
import ObjectPool.Proofs.Leftovers
import ObjectPool.Proofs.Seizures

namespace ObjectPool

variable {ρ : Type}

/-! ## One look -/

/-- A borrower that is willing to wait for as long as `limit`, which is until `u`. -/
structure Borrowing.Until (limit : Duration) (u : Instant) (b : Borrowing) : Prop where
  timeout : b.timeout = some limit
  positive : 0 < limit.nanos
  deadline : b.deadline = some u

namespace Pool

variable {p : Pool ρ} {ℓ : Ledger ρ} {now u : Instant} {limit x : Duration} {b b' : Borrowing}
  {ticket : Option Nat} {y : Nat}

/-- A borrower that finds nothing, or whose turn it is not, gives up or stands in line. -/
theorem Sound.seek_of_vain (h : p.Sound ℓ) (hopen : p.closed = false)
    (hvain : p.mayTake ticket = true → p.registry.idle = [] ∧ p.registry.hasRoom = false) :
    p.seek now b ticket =
      if p.givesUp now b then p.exhaust b ticket else p.standInLine b ticket := by
  unfold Pool.seek
  rw [if_neg (by simp [hopen])]
  by_cases hmay : p.mayTake ticket = true
  · obtain ⟨hidle, hroom⟩ := hvain hmay
    rw [if_pos hmay, h.acquire_eq now, hidle, hroom]
    rfl
  · rw [if_neg hmay]

theorem standInLine_next (p : Pool ρ) (b : Borrowing) (ticket : Option Nat) :
    ∃ y, (p.standInLine b ticket).next = .go (.waiting b y) := by
  cases ticket <;> exact ⟨_, rfl⟩

/-- On a pool whose borrowers wait it gives up exactly if its deadline is reached. -/
theorem givesUp_eq (hblocks : p.config.blocks = true) (hb : b.Until limit u) :
    p.givesUp now b = decide (u.nanos ≤ now.nanos) := by
  have hlimit : limit.nanos ≠ 0 := Nat.ne_of_gt hb.positive
  simp [givesUp, hblocks, hb.timeout, hb.deadline, Instant.reached, hlimit]

theorem Sound.seek_exhausted (h : p.Sound ℓ) (hblocks : p.config.blocks = true)
    (hb : b.Until limit u)
    (hn : (p.seek now b ticket).next = .finish (.failed (.exhausted x))) :
    x = limit ∧ u.nanos ≤ now.nanos := by
  cases h.seeks now b ticket with
  | shut _ next => exact nomatch next.symm.trans hn
  | takes _ _ _ next | reserves _ _ _ _ next | waits _ _ next => exact nomatch next.symm.trans hn
  | givesUp isOpen inVain next =>
    refine ⟨?_, Nat.le_of_not_lt fun hlt => ?_⟩
    · have heq := next.symm.trans hn
      rw [hb.timeout] at heq
      injection heq with heq
      injection heq with heq
      exact (PoolError.exhausted.inj heq).symm
    · -- before the deadline it would stand in line
      rw [h.seek_of_vain isOpen inVain, givesUp_eq hblocks hb,
        if_neg (by simpa using hlt)] at hn
      obtain ⟨y, hwaits⟩ := p.standInLine_next b ticket
      exact nomatch hwaits.symm.trans hn

theorem Sound.seek_waiting (h : p.Sound ℓ) (hblocks : p.config.blocks = true)
    (hb : b.Until limit u) (hn : (p.seek now b ticket).next = .go (.waiting b' y)) :
    now.nanos < u.nanos := by
  cases h.seeks now b ticket with
  | shut _ next | takes _ _ _ next | reserves _ _ _ _ next | givesUp _ _ next =>
    exact nomatch next.symm.trans hn
  | waits isOpen inVain next =>
    refine Nat.lt_of_not_le fun hle => ?_
    rw [h.seek_of_vain isOpen inVain, givesUp_eq hblocks hb, if_pos (by simpa using hle)] at hn
    exact nomatch hn

/-- What a borrower takes whose turn it is while there is something to be had. -/
theorem Sound.seek_available (h : p.Sound ℓ) (now : Instant) (b : Borrowing)
    (hmay : p.mayTake ticket = true) (hav : p.registry.available = true) :
    (∃ id rest, p.registry.idle = id :: rest ∧
      (p.seek now b ticket).next = .go (.activating id (.lend b false))) ∨
    (p.registry.idle = [] ∧ (p.seek now b ticket).next = .go (.creating (.lend b))) := by
  have hthere : p.registry.idle = [] → p.registry.hasRoom = true := by
    intro hidle
    rwa [Registry.available, hidle] at hav
  cases h.seeks now b ticket with
  | shut closed =>
    -- a closed pool has neither idle objects nor room
    have hroom := hthere (h.books.shut closed)
    rw [Registry.hasRoom, show p.registry.closed = true from closed] at hroom
    exact absurd hroom Bool.false_ne_true
  | takes _ _ idle next => exact .inl ⟨_, _, idle, next⟩
  | reserves _ _ idle _ next => exact .inr ⟨idle, next⟩
  | givesUp _ inVain | waits _ inVain =>
    obtain ⟨hidle, hroom⟩ := inVain hmay
    exact absurd (hroom.symm.trans (hthere hidle)) Bool.false_ne_true

/-- A borrower that gives up once it was woken has the next in line woken in its place, if there is
    something to be had. -/
theorem Sound.seek_passesOn (h : p.Sound ℓ) {first : Nat} {rest : List Nat}
    (hout : p.outOfLine ticket = true) (hav : p.registry.available = true)
    (hqueue : p.registry.line.queue = first :: rest)
    (hn : (p.seek now b ticket).next = .finish (.failed (.exhausted x))) :
    (p.seek now b ticket).pool.registry.line.queue = rest ∧
      first ∈ (p.seek now b ticket).pool.registry.line.woken := by
  cases ticket with
  | none => exact absurd hout Bool.false_ne_true
  | some y =>
    have hline : (p.exhaust b (some y)).pool.registry.line =
        (p.registry.line.leave y).wakeNext := by
      unfold Pool.exhaust
      dsimp only
      rw [if_pos hout]
      have hav' : (Registry.available { p.registry with line := p.registry.line.leave y }) = true :=
        hav
      show (if Registry.available { p.registry with line := p.registry.line.leave y } then
        Registry.wakeNext { p.registry with line := p.registry.line.leave y }
        else { p.registry with line := p.registry.line.leave y }).line = _
      rw [if_pos hav']
      rfl
    -- it left the line when it was woken
    have hleft : (p.registry.line.leave y).queue = first :: rest := by
      have hnot : y ∉ p.registry.line.queue := by simpa [outOfLine, WaitLine.isQueued] using hout
      rw [← hqueue]
      refine List.filter_eq_self.mpr fun z hz => ?_
      have hne : z ≠ y := fun heq => hnot (heq ▸ hz)
      simpa using hne
    cases h.seeks now b (some y) with
    | shut _ next | takes _ _ _ next | reserves _ _ _ _ next | waits _ _ next =>
      cases next.symm.trans hn
    | givesUp isOpen inVain next =>
      rw [h.seek_of_vain isOpen inVain] at hn ⊢
      split at hn
      · rename_i hgives
        rw [if_pos hgives, hline, WaitLine.wakeNext_queue, WaitLine.wakeNext_woken, hleft]
        exact ⟨rfl, .head _⟩
      · obtain ⟨z, hwaits⟩ := p.standInLine_next b (some y)
        cases hwaits.symm.trans hn

end Pool

/-! ## Where a borrow stands -/

/-- A borrow that has not begun to look. -/
inductive Point.LeadsIn (b : Borrowing) : Point ρ → Prop
  | begins : LeadsIn b (.borrow b)
  | sweeps {pt : Point ρ} (h : pt.Sweeping (.borrow b)) : LeadsIn b pt

/-- A borrower that is about to look, with the ticket that it has if it has been in line. -/
inductive Point.SeeksWith (b : Borrowing) : Option Nat → Point ρ → Prop
  | seek : SeeksWith b none (.seek b)
  | waiting (y : Nat) : SeeksWith b (some y) (.waiting b y)

/-- A borrow that has begun to look. -/
inductive Point.Hunts (b : Borrowing) : Point ρ → Prop
  | seeks {ticket : Option Nat} {pt : Point ρ} (h : pt.SeeksWith b ticket) : Hunts b pt
  | tries (id : Nat) (fresh : Bool) : Hunts b (.activating id (.lend b fresh))
  | checks (id : Nat) (fresh : Bool) : Hunts b (.validating id (.trial (.lend b fresh)))
  | drops (id : Nat) (v : ρ) : Hunts b (.destroying id v .normal (.seek b))
  | makes : Hunts b (.creating (.lend b))
  | fails (id : Nat) (v : ρ) {e : PoolError} (he : ∀ x, e ≠ .exhausted x) :
      Hunts b (.destroying id v .normal (.reply (.failed e)))

namespace Point

variable {b b' : Borrowing} {pt : Point ρ}

theorem LeadsIn.quests (h : pt.LeadsIn b) : pt.Quests := by
  cases h with
  | begins => exact .begins b
  | sweeps h => exact .sweeps b h

theorem Hunts.quests (h : pt.Hunts b) : pt.Quests := by
  cases h with
  | seeks h =>
    cases h with
    | seek => exact .seeks b
    | waiting y => exact .waits b y
  | tries id fresh => exact .tries id b fresh
  | checks id fresh => exact .checks id b fresh
  | drops id v => exact .drops id v b
  | makes => exact .makes b
  | fails id v => exact .fails id v _

/-- A borrow that has begun to look does not begin again. -/
theorem Hunts.not_leadsIn (h : pt.Hunts b) : ¬ pt.LeadsIn b' := by
  rintro (_ | hsweep)
  · cases h with
    | seeks h => exact nomatch h
  · cases hsweep with
    | next | tells =>
      cases h with
      | seeks h => exact nomatch h
    | given => cases h with
      | seeks h => exact nomatch h

theorem LeadsIn.unique (h : pt.LeadsIn b) (h' : pt.LeadsIn b') : b = b' := by
  cases h with
  | begins =>
    cases h' with
    | begins => rfl
    | sweeps h' => exact nomatch h'
  | sweeps h =>
    cases h with
    | next | tells | given =>
      cases h' with
      | sweeps h' =>
        cases h'
        rfl

end Point

namespace Pool.Quests

variable {p : Pool ρ} {now : Instant} {pt : Point ρ} {deed : Option Deed} {s : Stretch ρ}
  {b : Borrowing}

/-- What a borrow comes to that has not begun to look. -/
theorem leadsIn (h : p.Quests now pt deed s) (hpt : pt.LeadsIn b) :
    (∃ pt', s.next = .go pt' ∧ pt'.LeadsIn b) ∨ s.next = .go (.seek (b.start now)) := by
  cases h with
  | sweeps _ _ next =>
    obtain rfl := hpt.unique .begins
    exact .inl ⟨_, next, .sweeps (.next _ _)⟩
  | begins _ _ next =>
    obtain rfl := hpt.unique .begins
    exact .inr next
  | clears stood stands next =>
    obtain rfl := hpt.unique (.sweeps stood)
    exact .inl ⟨_, next, .sweeps stands⟩
  | swept _ next =>
    obtain rfl := hpt.unique (.sweeps (.next [] _))
    exact .inr next
  | _ =>
    rcases hpt with _ | hsweep
    exact nomatch hsweep

/-- A borrow that has begun to look, after a stretch from a point: it goes on with the same
    deadline, or ends. If it waits then, or gives up, the stretch was a look. -/
inductive Goes (b : Borrowing) (pt : Point ρ) : Next ρ → Prop
  | on {pt' : Point ρ} (hunts : pt'.Hunts b)
      (waits : ∀ b' y, pt' = .waiting b' y → ∃ ticket, pt.SeeksWith b ticket) :
      Goes b pt (.go pt')
  | ends {r : Reply}
      (exhausted : ∀ x, r = .failed (.exhausted x) → ∃ ticket, pt.SeeksWith b ticket) :
      Goes b pt (.finish r)

theorem hunts (h : p.Quests now pt deed s) (hpt : pt.Hunts b) : Goes b pt s.next := by
  -- a look leads to an object, to a place, to the line, or to the end
  have hlook : ∀ {ticket : Option Nat}, pt.SeeksWith b ticket → p.Seeks b ticket s →
      Goes b pt s.next := by
    intro ticket hpt hs
    cases hs with
    | shut _ next | givesUp _ _ next => exact next ▸ .ends fun _ _ => ⟨_, hpt⟩
    | takes _ _ _ next => exact next ▸ .on (.tries _ false) fun _ _ _ => ⟨_, hpt⟩
    | reserves _ _ _ _ next => exact next ▸ .on .makes fun _ _ _ => ⟨_, hpt⟩
    | waits _ _ next => exact next ▸ .on (.seeks (.waiting _)) fun _ _ _ => ⟨_, hpt⟩
  -- an unfit object is destroyed, and the borrower looks again or fails
  have hunfit : ∀ {id : Nat} {fresh : Bool} {e : PoolError},
      s.Discards p id (b.afterwards fresh e) → (∀ x, e ≠ .exhausted x) → Goes b pt s.next := by
    intro id fresh e hs he
    obtain ⟨v, hnext⟩ := hs.next
    cases fresh with
    | true => exact hnext ▸ .on (.fails id v he) nofun
    | false => exact hnext ▸ .on (.drops id v) nofun
  cases h with
  | sweeps | begins => exact absurd .begins hpt.not_leadsIn
  | clears stood => exact absurd (.sweeps stood) hpt.not_leadsIn
  | swept => exact absurd (.sweeps (.next [] _)) hpt.not_leadsIn
  | seeks looks =>
    cases hpt with
    | seeks hseek =>
      cases hseek
      exact hlook .seek looks
  | returns looks =>
    cases hpt with
    | seeks hseek =>
      cases hseek
      exact hlook (.waiting _) looks
  | stiff reason gives =>
    cases hpt with
    | seeks hseek => exact nomatch hseek
    | tries => exact hunfit gives fun _ => nofun
  | ready _ next =>
    cases hpt with
    | seeks hseek => exact nomatch hseek
    | tries => exact next ▸ .on (.checks _ _) nofun
  | hands _ next | fit next => exact next ▸ .ends fun _ => nofun
  | unfit gives =>
    cases hpt with
    | seeks hseek => exact nomatch hseek
    | checks => exact hunfit gives fun _ => nofun
  | dropped next =>
    cases hpt with
    | seeks hseek => exact nomatch hseek
    | drops => exact next ▸ .on (.seeks .seek) nofun
  | unmade reason next => exact next ▸ .ends fun _ => nofun
  | made _ next =>
    cases hpt with
    | seeks hseek => exact nomatch hseek
    | makes => exact next ▸ .on (.tries _ true) nofun
  | late v _ next => exact next ▸ .on (.fails _ v fun _ => nofun) nofun
  | failed next =>
    cases hpt with
    | seeks hseek => exact nomatch hseek
    | fails id v he => exact next ▸ .ends fun x hx => absurd (Reply.failed.inj hx) (he x)

end Pool.Quests

/-! ## The course of a borrow -/

/-- The call on the thread `t` with `d` calls below it has not come to its end in any of some
    episodes. -/
def Unfinished (t d i : Nat) (es : List (Episode ρ)) : Prop :=
  ∀ e ∈ es, ∀ r, ¬ e.Finishes t d i r

/-- In an episode a borrow has done with what it may take from others, and begins to look. -/
structure Episode.BeginsToLook (t d i : Nat) (e : Episode ρ) : Prop where
  before : ∃ b pt, e.before.callAt t d = some ⟨i, pt⟩ ∧ pt.LeadsIn b
  after : ∃ b, e.after.callAt t d = some ⟨i, .seek b⟩

section Course

variable {later older ts : List (Episode ρ)} {w w₀ : World ρ} {g : Nat → List Nat} {t d i : Nat}
  {a : Activity ρ} {q : Pool ρ} {s : Stretch ρ} {e : Episode ρ} {b : Borrowing} {pt pt' : Point ρ}
  {limit : Duration} {u : Instant} {r : Reply}

/-- A borrow that has not come to its end is where each of its turns leads to. -/
theorem World.Leads.borrowing (h : w₀.Leads later w) (hw : w₀.Sound g)
    (ha : w₀.callAt t d = some ⟨i, pt⟩) (hun : Unfinished t d i later) (way : Point ρ → Prop)
    (start : way pt) (quests : ∀ pt, way pt → pt.Quests)
    (turn : ∀ {q : Pool ρ} {now : Instant} {pt pt' : Point ρ} {deed : Option Deed}
      {s : Stretch ρ}, q.Quests now pt deed s → way pt → s.next = .go pt' → way pt') :
    ∃ ts pt', w₀.Course t d later ts w ⟨i, pt'⟩ ∧ way pt' := by
  have hcases := h.follow (fun _ _ _ a => a.pool = i ∧ way a.point)
    (fun _ _ e _ => ∃ r, e.Finishes t d i r) hw ha ⟨rfl, start⟩ (fun _ _ _ _ hway => hway)
    fun {older ts e a q s} hcourse _ hturn ⟨hi, hway⟩ => by
      have hs := hturn.quests (hcourse.sound hw) (quests _ hway)
      cases hn : s.next with
      | go pt' => exact .inl ⟨pt', rfl, hi, turn hs hway hn⟩
      | finish r => exact .inr ⟨r, hi ▸ hturn.finishes hn⟩
  rcases hcases with ⟨ts, ⟨j, pt'⟩, hcourse, hi, hway⟩ |
    ⟨newer, e, older, ts, a, rfl, -, r, hends⟩
  · obtain rfl : j = i := hi
    exact ⟨ts, pt', hcourse, hway⟩
  · exact absurd hends (hun e (List.mem_append_right _ (.head _)) r)

/-- In its last turn a borrow comes to its end. -/
theorem Episode.IsTurn.next_of_finishes (h : e.IsTurn t d ⟨i, pt⟩ q s) (hw : e.before.Sound g)
    (hpt : pt.Hunts b) (hf : e.Finishes t d i r) : s.next = .finish r := by
  have hturned := h.turned
  have hgoes := (h.quests hw hpt.quests).hunts hpt
  cases hn : s.next with
  | go pt' =>
    -- a borrow that goes on does not close its pool
    obtain ⟨hreply, hstands⟩ := h.goesOn hn
    rcases hf.2 with hreply' | ⟨-, hcloses⟩
    · exact nomatch hreply.symm.trans hreply'
    · obtain rfl := (Activity.mk.inj (Option.some.inj (hstands.symm.trans hcloses))).2
      rw [hn] at hgoes
      cases hgoes with
      | on hunts =>
        cases hunts with
        | seeks hseek => exact nomatch hseek
  | finish r' =>
    rw [hn] at hturned
    cases hturned with
    | answers hreply =>
      rcases hf.2 with hreply' | ⟨hreply', -⟩
      · rw [Option.some.inj (hreply.symm.trans hreply')]
      · exact nomatch hreply.symm.trans hreply'
    | closes hreply hcloses =>
      rcases hf.2 with hreply' | ⟨-, hcloses'⟩
      · exact nomatch hreply.symm.trans hreply'
      · injection hcloses.symm.trans hcloses' with heq
        injection heq with _ heq
        injection heq with heq
        injection heq with heq
        rw [heq]

/-- If a borrower waits after a turn, that is what its stretch has led to. -/
theorem Episode.IsTurn.next_of_waits (h : e.IsTurn t d ⟨i, pt⟩ q s) {y : Nat}
    (hc : e.Comes t d i (.go (.waiting b y))) : s.next = .go (.waiting b y) := by
  obtain ⟨-, hreply, hstands⟩ := hc
  have hturned := h.turned
  cases hn : s.next with
  | go pt' =>
    have heq := Option.some.inj ((h.goesOn hn).2.symm.trans hstands)
    rw [(Activity.mk.inj heq).2]
  | finish r =>
    rw [hn] at hturned
    cases hturned with
    | answers hreply' => exact nomatch hreply.symm.trans hreply'
    | closes _ hcloses => exact nomatch hcloses.symm.trans hstands

/-- A borrower that has a turn at a point where it looks. -/
theorem Episode.IsTurn.seeks (h : e.IsTurn t d ⟨i, pt⟩ q s) {ticket : Option Nat}
    (hpt : pt.SeeksWith b ticket) : s = q.seek e.before.now b ticket := by
  rcases h.cases with ⟨-, hs⟩ | ⟨r, -, -, hs⟩
  · cases hpt with
    | seek =>
      cases hs
      rfl
    | waiting y =>
      cases hs
      rfl
  · cases hpt with
    | seek | waiting => exact nomatch hs

/-- A turn `e` of a borrower that has begun to look and waits as long as `limit`, which is until
    `u`; its turns before are among `older`. -/
structure TimedTurn (t d i : Nat) (limit : Duration) (u : Instant) (older : List (Episode ρ))
    (e : Episode ρ) : Prop where
  /-- It gives up at the deadline at the earliest. -/
  exhausted : ∀ x, e.Finishes t d i (.failed (.exhausted x)) →
    x = limit ∧ u.nanos ≤ e.before.now.nanos
  /-- At the deadline it does not wait any longer. -/
  waits : ∀ b y, e.Comes t d i (.go (.waiting b y)) → e.before.now.nanos < u.nanos
  /-- If it is its turn it takes what is to be had, be it late or not. -/
  takes : ∀ b ticket pt q, e.before.callAt t d = some ⟨i, pt⟩ → pt.SeeksWith b ticket →
    e.before.pools[i]? = some q → q.mayTake ticket = true → q.registry.available = true →
    (∃ id rest, q.registry.idle = id :: rest ∧
      e.Comes t d i (.go (.activating id (.lend b false)))) ∨
    (q.registry.idle = [] ∧ e.Comes t d i (.go (.creating (.lend b))))
  /-- If it gives up once it was woken, the next in line is woken in its place. -/
  passesOn : ∀ b y q x first rest, e.before.callAt t d = some ⟨i, .waiting b y⟩ →
    e.before.pools[i]? = some q → y ∉ q.registry.line.queue → q.registry.available = true →
    e.Finishes t d i (.failed (.exhausted x)) → q.registry.line.queue = first :: rest →
    (e.after.lineOf i).queue = rest ∧ first ∈ (e.after.lineOf i).woken
  /-- Once it has ended none of the tickets that it has held is in line. -/
  leaves : ∀ r, e.Finishes t d i r → ∀ x ∈ older, x.runs t d = true →
    ∀ y ∈ x.tickets t d, (e.after.lineOf i).Rid y

theorem World.Course.timedTurn (h : w₀.Course t d older ts e.before ⟨i, pt⟩) (hw : w₀.Sound g)
    (hturn : e.IsTurn t d ⟨i, pt⟩ q s) (hpt : pt.Hunts b) (hb : b.Until limit u)
    (hblocks : q.config.blocks = true) : TimedTurn t d i limit u older e := by
  have hbefore := h.sound hw
  have hsound := (hbefore.pools i).sound q hturn.works.pool
  have hstands : e.before.callAt t d = some ⟨i, pt⟩ := h.callAt hw
  have hline : e.after.lineOf i = s.pool.registry.line := hturn.works.lineOf
  have hgoes := (hturn.quests hbefore hpt.quests).hunts hpt
  refine ⟨fun x hf => ?_, fun b' y hc => ?_, fun b' ticket pt' q' ha hseek hq hmay hav => ?_,
    fun b' y q' x first rest ha hq hout hav hf hqueue => ?_, fun r hf x hx hruns y hy => ?_⟩
  · have hn := hturn.next_of_finishes hbefore hpt hf
    rw [hn] at hgoes
    cases hgoes with
    | ends exhausted =>
      obtain ⟨ticket, hseek⟩ := exhausted x rfl
      rw [hturn.seeks hseek] at hn
      exact hsound.seek_exhausted hblocks hb hn
  · have hn := hturn.next_of_waits hc
    rw [hn] at hgoes
    cases hgoes with
    | on hunts waits =>
      obtain ⟨ticket, hseek⟩ := waits b' y rfl
      rw [hturn.seeks hseek] at hn
      exact hsound.seek_waiting hblocks hb hn
  · obtain rfl := (Activity.mk.inj (Option.some.inj (hstands.symm.trans ha))).2
    obtain rfl := Option.some.inj (hturn.works.pool.symm.trans hq)
    have hcomes := hturn.comes
    rw [hturn.seeks hseek] at hcomes
    rcases hsound.seek_available e.before.now b' hmay hav with
      ⟨id, rest, hidle, hn⟩ | ⟨hidle, hn⟩
    · exact .inl ⟨id, rest, hidle, hn ▸ hcomes⟩
    · exact .inr ⟨hidle, hn ▸ hcomes⟩
  · obtain rfl := (Activity.mk.inj (Option.some.inj (hstands.symm.trans ha))).2
    obtain rfl := Option.some.inj (hturn.works.pool.symm.trans hq)
    have hn := hturn.next_of_finishes hbefore hpt hf
    rw [hturn.seeks (.waiting y)] at hn hline
    rw [hline]
    have hwoken : q.outOfLine (some y) = true := by
      simpa [Pool.outOfLine, WaitLine.isQueued] using hout
    exact hsound.seek_passesOn hwoken hav hqueue hn
  · exact h.ends_line hw hturn (hturn.next_of_finishes hbefore hpt hf) x (h.turn_mem hx hruns) y hy

/-- A borrow that begins to look has its deadline from then on. -/
theorem World.Leads.begins (h : w₀.Leads older e.before) (hw : w₀.Sound g)
    (hr : e.before.react e.event = some e.effect) (ha : w₀.callAt t d = some ⟨i, .borrow b⟩)
    (hun : Unfinished t d i older) (hstart : e.BeginsToLook t d i) :
    e.after.callAt t d = some ⟨i, .seek (b.start e.before.now)⟩ := by
  obtain ⟨b₁, pt, hbefore, hlead⟩ := hstart.before
  obtain ⟨b₂, hafter⟩ := hstart.after
  -- it does nothing before but take what it may from others
  obtain ⟨ts, pt', hcourse, hway⟩ := h.borrowing hw ha hun
    (fun pt => pt.LeadsIn b ∨ ∃ b', pt.Hunts b') (.inl .begins)
    (fun pt hpt => hpt.elim Point.LeadsIn.quests fun ⟨_, hpt⟩ => hpt.quests)
    (fun hs hway hn => by
      rcases hway with hpt | ⟨b', hpt⟩
      · rcases hs.leadsIn hpt with ⟨pt', hn', hpt'⟩ | hn'
        · exact .inl (Next.go.inj (hn'.symm.trans hn) ▸ hpt')
        · obtain rfl := Next.go.inj (hn'.symm.trans hn)
          exact .inr ⟨_, .seeks .seek⟩
      · have hgoes := hs.hunts hpt
        rw [hn] at hgoes
        cases hgoes with
        | on hunts => exact .inr ⟨b', hunts⟩)
  obtain rfl := (Activity.mk.inj (Option.some.inj (hbefore.symm.trans (hcourse.callAt hw)))).2
  have hlead : pt.LeadsIn b := by
    rcases hway with hpt | ⟨b', hpt⟩
    · exact hpt
    · exact absurd hlead hpt.not_leadsIn
  have hnot : ¬ (Point.seek (ρ := ρ) b₂).LeadsIn b := (Point.Hunts.seeks .seek).not_leadsIn
  rcases hcourse.next hw hr with still | ⟨q, s, hturn⟩
  · have hsame := (World.Course.rests hcourse hr still).callAt hw
    obtain rfl := (Activity.mk.inj (Option.some.inj (hsame.symm.trans hafter))).2
    exact absurd hlead hnot
  · rcases (hturn.quests (hcourse.sound hw) hlead.quests).leadsIn hlead with ⟨pt', hn, hpt'⟩ | hn
    · obtain rfl := (Activity.mk.inj (Option.some.inj ((hturn.goesOn hn).2.symm.trans hafter))).2
      exact absurd hpt' hnot
    · exact (hturn.goesOn hn).2

/-- A borrow that has begun to look keeps its deadline. -/
theorem World.Leads.hunting (h : w₀.Leads later w) (hw : w₀.Sound g)
    (ha : w₀.callAt t d = some ⟨i, .seek b⟩) (hun : Unfinished t d i later) :
    ∃ ts pt, w₀.Course t d later ts w ⟨i, pt⟩ ∧ pt.Hunts b :=
  h.borrowing hw ha hun (·.Hunts b) (.seeks .seek) (fun _ hpt => hpt.quests) fun hs hpt hn => by
    have hgoes := hs.hunts hpt
    rw [hn] at hgoes
    cases hgoes with
    | on hunts => exact hunts

/-- At its deadline a borrower in line can go on. -/
theorem World.Sound.resumes (hw : w.Sound g) {y : Nat}
    (ha : w.callAt t d = some ⟨i, .waiting b y⟩) (hb : b.Until limit u)
    (hlate : u.nanos ≤ w.now.nanos) : (w.step t).isSome = true := by
  refine hw.step_isSome ha rfl fun p _ => ?_
  have hreached : w.now.reached b.deadline = true := by
    simpa [Instant.reached, hb.deadline] using hlate
  rw [Pool.advance, hreached, Bool.or_true, if_pos rfl]
  rfl

end Course

/-! ## Main statement -/

/-- In every run a borrower that has set itself a limit waits for as long as that, counted from when
    it begins to look, if it finds nothing before, and no longer. -/
theorem timed_waits {es older newer : List (Episode ρ)} {w₀ w : World ρ} {t d i : Nat}
    {p : Pool ρ} {limit : Duration} {site : String} {start : Episode ρ} (h₀ : Run es w₀)
    (hp : w₀.pools[i]? = some p) (hblocks : p.config.blocks = true)
    (ha : w₀.callAt t d = some ⟨i, .borrow { timeout := some limit, site }⟩)
    (hpos : 0 < limit.nanos) (h : Run (newer ++ start :: (older ++ es)) w)
    (hun : Unfinished t d i older) (hstart : start.BeginsToLook t d i)
    (hclock : start.before.now.nanos + limit.nanos < Instant.horizon) :
    (∀ n e o, newer = n ++ e :: o → Unfinished t d i o → e.runs t d = true →
        TimedTurn t d i limit (start.before.now.after limit) o e) ∧
      (Unfinished t d i newer → ∀ b y, w.callAt t d = some ⟨i, .waiting b y⟩ →
        (start.before.now.after limit).nanos ≤ w.now.nanos → (w.step t).isSome = true) := by
  -- the borrower begins to look with its deadline
  have hall : w₀.Leads (newer ++ start :: older) w :=
    h₀.leads (by rwa [List.append_assoc, List.cons_append])
  obtain ⟨hbefore, hreact, hafter⟩ := hall.split
  have hseek := hbefore.begins h₀.sound hreact ha hun hstart
  generalize hb₁ : Borrowing.start { timeout := some limit, site } start.before.now = b at hseek
  have hb : b.Until limit (start.before.now.after limit) := by
    subst hb₁
    exact ⟨rfl, hpos, Instant.after?_eq_some_iff.mpr ⟨hclock, rfl⟩⟩
  have hw : start.after.Sound _ := ((hbefore.run h₀).next hreact).sound
  refine ⟨fun n e o hsplit hun' hruns => ?_, fun hun' b' y hwaits hlate => ?_⟩
  · rw [hsplit] at hafter
    obtain ⟨hto, hreact', -⟩ := hafter.split
    obtain ⟨ts, pt, hcourse, hpt⟩ := hto.hunting hw hseek hun'
    rcases hcourse.next hw hreact' with still | ⟨q, s, hturn⟩
    · exact absurd (still.symm.trans hruns) Bool.false_ne_true
    · -- the pool has the settings that it had
      obtain ⟨q', hq', hconfig⟩ := ((hbefore.next hreact).trans hto).config h₀.sound hp
      obtain rfl := Option.some.inj (hq'.symm.trans hturn.works.pool)
      exact hcourse.timedTurn hw hturn hpt hb (hconfig ▸ hblocks)
  · obtain ⟨ts, pt, hcourse, hpt⟩ := hafter.hunting hw hseek hun'
    obtain rfl := (Activity.mk.inj (Option.some.inj ((hcourse.callAt hw).symm.trans hwaits))).2
    cases hpt with
    | seeks hseek =>
      cases hseek
      exact (hcourse.sound hw).resumes hwaits hb hlate

/-- The only object of a pool is lent when somebody wants to borrow it who waits for ten at most. -/
def lateComerEvents : List (Event Nat) :=
  [.create { maxTotal := 1 }, .spawn, .spawn, .begin 0 0 (.borrow none "first"), .step 0, .step 0,
    .answer 0 (.created (.ok 7)), .answer 0 (.activated 7 none), .tick ⟨5⟩,
    .begin 1 0 (.borrow (some ⟨10⟩) "second")]

/-- The object comes back and he is woken, but the first borrower is quicker. -/
def outrunEvents : List (Event Nat) :=
  lateComerEvents ++ [.step 1, .step 1, .giveBack 0 0 0, .step 0, .answer 0 (.passivated 7 none),
    .begin 0 0 (.borrow none "first"), .step 0, .step 0, .step 1, .tick ⟨15⟩, .step 1]

theorem timed_waits_when_outrun :
    ∃ p start, Run (episodes lateComerEvents) (reached lateComerEvents) ∧
      Run ((episodes outrunEvents).take 10 ++ start :: ([] ++ episodes lateComerEvents))
        (reached outrunEvents) ∧
      (reached lateComerEvents).pools[0]? = some p ∧ start.before.now = ⟨5⟩ ∧
      start.BeginsToLook 1 0 0 ∧
      answer? 1 0 ((episodes outrunEvents).take 10) = some (.failed (.exhausted ⟨10⟩)) ∧
      answer? 1 0 ((episodes outrunEvents).drop 1) = none ∧ (reached outrunEvents).now = ⟨15⟩ ∧
      (∀ n e o, (episodes outrunEvents).take 10 = n ++ e :: o → Unfinished 1 0 0 o →
        e.runs 1 0 = true → TimedTurn 1 0 0 ⟨10⟩ (start.before.now.after ⟨10⟩) o e) :=
  have h₀ : Run (episodes lateComerEvents) (reached lateComerEvents) := Run.of_events rfl
  have hall : Run (episodes outrunEvents) (reached outrunEvents) := Run.of_events rfl
  have h : Run ((episodes outrunEvents).take 10 ++
      (episodes outrunEvents)[10] :: ([] ++ episodes lateComerEvents)) (reached outrunEvents) :=
    hall
  have hstart : ((episodes outrunEvents)[10]).BeginsToLook 1 0 0 :=
    ⟨⟨_, _, rfl, .begins⟩, ⟨_, rfl⟩⟩
  ⟨_, _, h₀, h, rfl, rfl, hstart, by decide +kernel, by decide +kernel, rfl,
    (timed_waits h₀ rfl rfl rfl (by decide) h (fun _ => nofun) hstart (by decide)).1⟩

end ObjectPool
