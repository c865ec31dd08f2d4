/-
  ObjectPool.Proofs.LockStep

  Two worlds in lock step. They differ in two things at most: in the one, a pool has refused one
  more return than in the other, and a call that brings an object back has another answer. Whatever
  happens in one of them can happen in the other, the factory does the same in both, and the worlds
  stay in lock step; the call gives its answer in both at the same time.

    * `InStep` — two worlds in lock step.
    * `Parallel` — the same thing happens in both.
    * `InStep.react`, `InStep.replay` — one event, and any number of them.
-/

import ObjectPool.Proofs.Onward
import ObjectPool.Proofs.Retelling

namespace ObjectPool

variable {ρ : Type}

/-- In the second world the pool `p` has refused one more return than in the first, and the call on
    the thread `t` with `d` calls below it, if it is still on its way, has the answer `r` instead of
    `r₀`. -/
inductive InStep (p t d : Nat) (r r₀ : Reply) : World ρ → World ρ → Prop
  | underway {w : World ρ} {a : Activity ρ} (stands : w.callAt t d = some a)
      (answer : a.point.errand = .settled r₀) :
      InStep p t d r r₀ w ((w.retell t d r).countStray p)
  | ended {w : World ρ} : InStep p t d r r₀ w (w.countStray p)

/-- The same happens in two worlds, and the factory does the same; the call with the other answer
    may give it. -/
structure Parallel (p t d : Nat) (r r₀ : Reply) (e e' : Episode ρ) : Prop where
  event : e'.event = e.event
  before : InStep p t d r r₀ e.before e'.before
  after : InStep p t d r r₀ e.after e'.after
  deed : e'.deed? = e.deed?
  notices : e'.effect.notices = e.effect.notices
  reply : e'.effect.reply = e.effect.reply ∨
    e.runs t d = true ∧ e.effect.reply = some r₀ ∧ e'.effect.reply = some r

theorem Deed.of?_retell {r : Reply} (c : Response ρ) (pt : Point ρ) :
    Deed.of? (pt.retell r) c = Deed.of? pt c := by
  cases pt with
  | validating id k => cases k <;> cases c <;> rfl
  | passivating id k => cases k <;> cases c <;> rfl
  | destroying id v mode k => cases c <;> rfl
  | _ => rfl

namespace InStep

variable {w w' : World ρ} {p t d : Nat} {r r₀ : Reply} {g : Nat → List Nat} {q : Pool ρ}

/-- The pools are the same but for the one return. -/
theorem pools (h : InStep p t d r r₀ w w') : w'.pools = w.pools.modify p Pool.countStray := by
  cases h with
  | underway | ended => rfl

/-- So is everything in the hands of borrowers. -/
theorem handles (h : InStep p t d r r₀ w w') : w'.handles = w.handles := by
  cases h with
  | underway | ended => rfl

/-- What one sees of the calls on top of the threads, unless one looks at their answers. -/
theorem top {α : Type} {v : Point ρ → Option α} (hv : ∀ pt, v (pt.retell r) = v pt)
    (h : InStep p t d r r₀ w w') (u : Nat) :
    (w'.top? u).bind (fun a => v a.point) = (w.top? u).bind fun a => v a.point := by
  cases h with
  | ended => rfl
  | underway stands answer =>
    show ((w.retell t d r).top? u).bind _ = _
    simp only [World.top?, World.getElem?_retell]
    cases w.threads[u]? with
    | none => rfl
    | some th =>
      obtain ⟨stack, keeper⟩ := th
      by_cases hu : t = u
      · cases stack with
        | nil => simp [hu, retellAt]
        | cons a rest => by_cases hd : rest.length = d <;> simp [hu, retellAt, hd, hv]
      · simp [hu]

/-- The factory does the same for the calls in both. -/
theorem deed (h : InStep p t d r r₀ w w') (e : Event ρ) (f f' : Effect ρ) :
    Episode.deed? ⟨w', e, f'⟩ = Episode.deed? ⟨w, e, f⟩ := by
  cases e with
  | answer u c => exact h.top (v := fun pt => Deed.of? pt c) (Deed.of?_retell c) u
  | _ => rfl

/-- What an event leaves behind if the call rests. -/
theorem react_rests {f : Effect ρ} {e : Event ρ} {a : Activity ρ} (hw : w.Sound g)
    (hreact : w.react e = some f) (stands : w.callAt t d = some a)
    (answer : a.point.errand = .settled r₀) (still : Episode.runs t d ⟨w, e, f⟩ = false) :
    InStep p t d r r₀ f.world ((f.retell t d r).countStray p).world := by
  rcases World.react_callAt hw hreact stands with ⟨-, hstays⟩ | ⟨runs, -⟩
  · exact .underway hstays answer
  · exact absurd (still.symm.trans runs) Bool.false_ne_true

/-- What a turn of the call leaves behind. -/
theorem react_runs {f : Effect ρ} {e : Event ρ} {a : Activity ρ} (hw : w.Sound g)
    (hreact : w.react e = some f) (stands : w.callAt t d = some a)
    (answer : a.point.errand = .settled r₀) (runs : Episode.runs t d ⟨w, e, f⟩ = true) :
    InStep p t d r r₀ f.world ((f.answering t d r).countStray p).world ∧
      ((f.reply = none ∧ (f.answering t d r).reply = none) ∨
        (f.reply = some r₀ ∧ (f.answering t d r).reply = some r)) := by
  rcases World.react_callAt hw hreact stands with ⟨still, -⟩ | ⟨-, q, s, works, turned⟩
  · exact absurd (still.symm.trans runs) Bool.false_ne_true
  · have hkeeps := World.settled_of_counts works.counts answer
    unfold Effect.answering
    -- it goes on, gives its answer, or closes its pool first
    generalize s.next = next at turned hkeeps
    cases turned with
    | goesOn hnone hstands =>
      rw [hnone]
      exact ⟨.underway hstands hkeeps, .inl ⟨rfl, hnone⟩⟩
    | answers hreply =>
      obtain rfl := Errand.settled.inj hkeeps
      rw [hreply]
      exact ⟨.ended, .inr ⟨rfl, rfl⟩⟩
    | closes hnone hstands _ _ =>
      rw [hnone]
      exact ⟨.underway hstands hkeeps, .inl ⟨rfl, hnone⟩⟩

/-- Whatever happens in one of the worlds happens in the other as well. -/
theorem react (h : InStep p t d r r₀ w w') (hw : w.Sound g) (hq : w.pools[p]? = some q)
    (hr : r.isLoan = false) (hr₀ : r₀.isLoan = false) (e : Event ρ) :
    Option.Rel (fun f f' => Parallel p t d r r₀ ⟨w, e, f⟩ ⟨w', e, f'⟩) (w.react e)
      (w'.react e) := by
  have hlt : p < w.pools.length := (List.getElem?_eq_some_iff.mp hq).1
  have hdeed := h.deed e
  have hbefore := h
  cases h with
  | ended =>
    rw [World.react_countStray hlt]
    cases hreact : w.react e with
    | none => exact .none
    | some f => exact .some ⟨rfl, hbefore, .ended, hdeed _ _, rfl, .inl rfl⟩
  | underway stands answer =>
    rw [World.react_countStray (w := w.retell t d r) hlt,
      World.react_retell stands answer hr hr₀]
    cases hreact : w.react e with
    | none => exact .none
    | some f =>
      simp only [Option.map_some]
      cases hruns : Episode.runs t d ⟨w, e, f⟩ with
      | false =>
        rw [if_neg Bool.false_ne_true]
        exact .some ⟨rfl, hbefore, react_rests hw hreact stands answer hruns, hdeed _ _, rfl,
          .inl rfl⟩
      | true =>
        rw [if_pos rfl]
        obtain ⟨hafter, hreply⟩ := react_runs (p := p) (r := r) hw hreact stands answer hruns
        refine .some ⟨rfl, hbefore, hafter, hdeed _ _, f.notices_answering t d r, ?_⟩
        rcases hreply with ⟨hnone, hnone'⟩ | ⟨hsome, hsome'⟩
        · exact .inl (hnone'.trans hnone.symm)
        · exact .inr ⟨hruns, hsome, hsome'⟩

/-- Whatever happens in a row. -/
theorem replay (h : InStep p t d r r₀ w w') (hw : w.Sound g) (hq : w.pools[p]? = some q)
    (hr : r.isLoan = false) (hr₀ : r₀.isLoan = false) {es es' : List (Episode ρ)}
    (hes : List.Forall₂ (Parallel p t d r r₀) es es') (events : List (Event ρ)) :
    Option.Rel (fun run run' => List.Forall₂ (Parallel p t d r r₀) run.1 run'.1 ∧
      InStep p t d r r₀ run.2 run'.2) (w.replay es events) (w'.replay es' events) := by
  induction events generalizing w w' es es' g q with
  | nil => exact .some ⟨hes, h⟩
  | cons e rest ih =>
    have hnext := h.react hw hq hr hr₀ e
    rw [World.replay, World.replay]
    generalize hreact : w.react e = o at hnext
    generalize w'.react e = o' at hnext
    cases hnext with
    | none => exact .none
    | some hsame =>
      obtain ⟨q', hq', -⟩ := World.react_config hw hreact hq
      exact ih hsame.after (World.react_sound hw hreact) hq' (.cons hsame hes)

end InStep

end ObjectPool
