/-
  ObjectPool.Proofs.Stretch.Dismissal

  What a closed pool does with its calls. A call that has not begun, and a borrower that
  waits, is dismissed: its end is settled, and until then it does nothing. An object that
  comes back from its borrower, or from the factory that has just made it for one, is
  destroyed at once.

    * `Point.verdict` — the reply with which a call will be dismissed.
    * `Stretch.Dismisses` — a stretch brings a call nearer to that, and changes nothing.
    * `Sound.takeBack_closed`, `Sound.discard_closed`, `createdForLoan_closed` — an object
      is destroyed at once.
-/

import ObjectPool.Proofs.Agreement
import ObjectPool.Proofs.Ownership

namespace ObjectPool

variable {ρ : Type}

namespace Point

/-- The reply that is left to a call on a closed pool: the call has not begun, waits for an
    object, or has destroyed an object and is done. -/
def verdict : Point ρ → Option Reply
  | .borrow _ | .seek _ | .waiting _ _ | .add | .prepare => some (.failed .closed)
  | .upkeep => some .done
  | .close c => some c.reply
  | .destroying _ _ _ (.reply r) => some r
  | _ => none

/-- How many stretches a call on a closed pool still has to its end, at most. -/
def hops : Point ρ → Nat
  | .borrow _ => 2
  | _ => 1

theorem hops_pos (pt : Point ρ) : 0 < pt.hops := by
  unfold hops
  split <;> decide

end Point

/-- Nothing has happened to a pool but to its line, and perhaps its last reference is gone. -/
def Pool.Rests (p p' : Pool ρ) : Prop :=
  p' = { p with registry := { p.registry with line := p'.registry.line }, gone := p'.gone }

/-- A stretch of a call at the point `pt` of a closed pool leaves the pool alone, and the call
    ends with `r` or comes nearer to that. -/
structure Stretch.Dismisses (p : Pool ρ) (pt : Point ρ) (r : Reply) (s : Stretch ρ) : Prop where
  pool : p.Rests s.pool
  next : s.next = .finish r ∨ ∃ pt', s.next = .go pt' ∧ pt'.verdict = some r ∧
    pt'.isRequest = false ∧ pt'.hops < pt.hops

namespace Pool

variable {p : Pool ρ} {ℓ : Ledger ρ} {pt : Point ρ} {s : Stretch ρ} {r : Reply} {now : Instant}
  {self id : Nat} {ended : Nat → Bool} {answer : Option Reply}

/-! ## Dismissed -/

theorem seek_dismisses (hc : p.closed = true) (now : Instant) (b : Borrowing)
    (ticket : Option Nat) :
    (p.seek now b ticket).Dismisses p pt (.failed .closed) ∧
      (p.seek now b ticket).notices = [] := by
  rw [Pool.seek, if_pos hc]
  cases ticket <;> exact ⟨⟨rfl, .inl rfl⟩, rfl⟩

/-- A borrow does not look for abandoned objects in a closed pool. -/
theorem borrow_dismisses (hc : p.closed = true) (now : Instant) (b : Borrowing) :
    (p.borrow now b).Dismisses p (.borrow b) (.failed .closed) ∧ (p.borrow now b).notices = [] := by
  have hbegin : (p.beginSeek now b).Dismisses p (.borrow b) (.failed .closed) :=
    ⟨rfl, .inr ⟨_, rfl, rfl, rfl, Nat.lt_succ_self 1⟩⟩
  unfold Pool.borrow
  split
  · rw [hc, Bool.not_true, Bool.and_false, Bool.false_and]
    exact ⟨hbegin, rfl⟩
  · exact ⟨hbegin, rfl⟩

/-- A call that goes on by itself is dismissed without a word. -/
theorem advance_dismisses (hc : p.closed = true) (hv : pt.verdict = some r)
    (hs : p.advance now self ended pt = some s) : s.Dismisses p pt r ∧ s.notices = [] := by
  cases goesOn_of_advance hs with
  | borrow b =>
    obtain rfl := Option.some.inj hv
    exact borrow_dismisses hc now b
  | seek b =>
    obtain rfl := Option.some.inj hv
    exact seek_dismisses hc now b none
  | waiting b t _ =>
    obtain rfl := Option.some.inj hv
    exact seek_dismisses hc now b (some t)
  | add =>
    obtain rfl := Option.some.inj hv
    rw [Pool.add, if_pos hc]
    exact ⟨⟨rfl, .inl rfl⟩, rfl⟩
  | prepare =>
    obtain rfl := Option.some.inj hv
    rw [Pool.prepare, if_pos hc]
    exact ⟨⟨rfl, .inl rfl⟩, rfl⟩
  | upkeep =>
    obtain rfl := Option.some.inj hv
    rw [Pool.upkeep, if_pos hc]
    exact ⟨⟨rfl, .inl rfl⟩, rfl⟩
  | close c =>
    obtain rfl := Option.some.inj hv
    rw [Pool.close, if_pos hc]
    exact ⟨⟨rfl, .inl rfl⟩, rfl⟩
  | _ => exact nomatch hv

/-- A call that has destroyed an object is dismissed when the factory has answered. -/
theorem respond_dismisses {c : Response ρ} (hv : pt.verdict = some r)
    (hs : p.respond now pt c = some s) : s.Dismisses p pt r := by
  cases answered_of_respond hs with
  | destroyed id v mode k refusal =>
    cases k with
    | reply r' =>
      obtain rfl := Option.some.inj hv
      cases refusal <;> exact ⟨rfl, .inl rfl⟩
    | _ => exact nomatch hv
  | _ => exact nomatch hv

/-- Only a call that has asked for something gets an answer. -/
theorem isRequest_of_respond {c : Response ρ} (hs : p.respond now pt c = some s) :
    pt.isRequest = true := by
  cases answered_of_respond hs <;> rfl

/-- A call on a closed pool that asks for nothing can go on, unless it waits for the end of the
    background upkeep. -/
theorem advance_isSome (hl : pt.tickets ⊆ p.registry.line.woken) (hr : pt.isRequest = false)
    (hj : ∀ k drained c, pt ≠ .joining k drained c) :
    (p.advance now self ended pt).isSome = true := by
  cases pt with
  | waiting b t =>
    have hwoken : p.registry.line.isWoken t = true :=
      decide_eq_true (hl (List.mem_singleton.mpr rfl))
    rw [Pool.advance, hwoken, Bool.true_or]
    rfl
  | reclaiming rest n s => cases rest <;> rfl
  | joining k drained c => exact absurd rfl (hj k drained c)
  | creating | activating | validating | passivating | destroying | reporting => exact nomatch hr
  | _ => rfl

/-! ## Destroyed at once -/

/-- An object with a resource goes to the factory to be destroyed. -/
theorem destroy_next {v : ρ} (hslot : p.slot? id = some v) (k : After ρ) :
    (p.destroy id k).next = .go (.destroying id v .normal k) := by
  have hdetached : (p.detach id).slot? id = some v := hslot
  rw [Pool.destroy, Pool.finishDestroy, hdetached]
  rfl

theorem slot?_modify_of_eq {f : Entry ρ → Entry ρ} (hf : ∀ e, (f e).slot = e.slot) (id x : Nat)
    (p : Pool ρ) : (p.modify id f).slot? x = p.slot? x := by
  unfold slot?
  rw [object?_modify]
  split
  · cases p.object? x with
    | none => rfl
    | some e => exact hf e
  · rfl

/-- An object that a borrower gives back is lent, unless the pool has taken it back before. -/
theorem Sound.lent_of_live {l : Loan ρ} (h : p.Sound ℓ) (hl : (id, l) ∈ ℓ.loans)
    (hlive : (p.stateOf id).isReclaimed = false) :
    id ∈ p.registry.active ∧ p.isIn id .allocated = true ∧ ∃ v, p.slot? id = some v := by
  obtain ⟨v, -, hv⟩ := h.lent_of_loan hl hlive
  have hshape : p.shape? id = some ⟨.allocated, some v, l.guarded⟩ := congrArg Position.shape hv
  have hcount : p.registry.active.count id = 1 := congrArg Position.active hv
  rw [isIn_eq_shape?, slot?_eq_shape?, hshape]
  exact ⟨List.count_pos_iff.mp (hcount ▸ Nat.one_pos), rfl, v, rfl⟩

theorem Sound.not_active_of_reclaimed (h : p.Sound ℓ)
    (hrec : (p.stateOf id).isReclaimed = true) : id ∉ p.registry.active := by
  intro ha
  obtain ⟨x, hx, hstate⟩ := (h.objects id).shape_of_active (List.count_pos_iff.mpr ha)
  have hshape : p.shape? id = some x := hx
  rw [stateOf_eq_shape?, hshape, Option.map_some, Option.getD_some] at hrec
  rcases hstate with hs | hs <;> exact nomatch hs ▸ hrec

/-- An object that comes back to a closed pool is destroyed at once. -/
theorem Sound.takeBack_closed {l : Loan ρ} (h : p.Sound ℓ) (hl : (id, l) ∈ ℓ.loans)
    (hc : p.closed = true) (hlive : (p.stateOf id).isReclaimed = false) (now : Instant)
    (answer : Option Reply) : ∃ v, (p.takeBack now id answer).next =
      .go (.destroying id v .normal (.reply (answer.getD (.failed .closed)))) := by
  obtain ⟨hactive, hin, v, hslot⟩ := h.lent_of_live hl hlive
  have hmark : (p.markReturned now id).slot? id = some v :=
    (slot?_modify_of_eq (f := fun e => { e.become .returning with
      lastReturn := now, lastUse := none }) (Entry.become_slot .returning) id id p).trans hslot
  refine ⟨v, ?_⟩
  unfold Pool.takeBack
  rw [if_neg (not_not_intro hactive), if_neg (by simp [hin])]
  exact (congrArg Stretch.next (if_pos hc)).trans (destroy_next hmark _)

/-- So is one that comes back to be destroyed. -/
theorem Sound.discard_closed {l : Loan ρ} (h : p.Sound ℓ) (hl : (id, l) ∈ ℓ.loans)
    (hc : p.closed = true) (hlive : (p.stateOf id).isReclaimed = false) :
    ∃ v, (p.discard id).next = .go (.destroying id v .normal (.reply (.failed .closed))) := by
  obtain ⟨hactive, hin, v, hslot⟩ := h.lent_of_live hl hlive
  have hmark : (p.setState id .invalid).slot? id = some v :=
    (slot?_modify_of_eq (Entry.become_slot .invalid) id id p).trans hslot
  refine ⟨v, ?_⟩
  unfold Pool.discard
  rw [if_neg (not_not_intro hactive), if_pos (by rw [hin, Bool.true_or]), if_pos hc]
  exact destroy_next hmark _

/-- An object that the factory has made for a borrower of a closed pool is destroyed at once. -/
theorem createdForLoan_closed (hc : p.closed = true) (now : Instant) (b : Borrowing) (v : ρ) :
    (p.createdForLoan now b v).next =
      .go (.destroying p.entries.length v .normal (.reply (.failed .closed))) := by
  have hslot : (p.enlist now v .allocated).slot? p.entries.length = some v := by
    rw [slot?_eq_shape?, shape?_enlist, if_pos rfl]
    rfl
  unfold Pool.createdForLoan
  dsimp only
  rw [if_pos (show ((p.count _).enlist now v .allocated).closed = true from hc)]
  unfold Pool.finishDestroy
  have hbooked : ∀ f, (((p.count f).enlist now v .allocated).book
      Registry.cancelReservation).slot? p.entries.length = some v := fun _ => hslot
  rw [hbooked]
  rfl

end Pool

end ObjectPool
