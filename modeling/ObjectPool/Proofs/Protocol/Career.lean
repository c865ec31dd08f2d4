/-
  ObjectPool.Proofs.Protocol.Career

  The career of a resource at the factory, as an automaton. A resource is fresh, then
  activated for a borrower and laid to rest again, and may be checked when it is fresh
  or active. Once the factory refuses a callback, or the pool has taken the resource
  back from a borrower, nothing but its destruction follows, and after that nothing.

    * `Condition.after` — which callback may be made on a resource, and what it does.
    * `Career.read`, `Career.follow` — one signal, and a word of them.
    * `Advances` — what a list of signals, each about one object, does to all careers.
-/

import Mathlib.Data.List.Induction
import Mathlib.Logic.Function.Basic
import ObjectPool.Proofs.Ledger

namespace ObjectPool

/-! ## The automaton -/

/-- What the factory is asked to do with a resource that it has made. -/
inductive Callback where
  | activate
  | validate
  | passivate
  deriving DecidableEq

/-- How a resource is while the factory does not work on it. -/
inductive Condition where
  /-- As the factory made it. -/
  | fresh
  /-- As the factory made it, and found fit. -/
  | checked
  /-- Ready for a borrower. -/
  | active
  /-- Laid to rest. -/
  | passive
  deriving DecidableEq

/-- What a callback makes of a resource if the factory does not refuse; nothing if the
    callback is not made on such a resource. A fresh one is checked once at most. -/
def Condition.after : Condition → Callback → Option Condition
  | .fresh, .activate | .checked, .activate | .passive, .activate => some .active
  | .fresh, .validate => some .checked
  | .active, .validate => some .active
  | .fresh, .passivate | .checked, .passivate | .active, .passivate => some .passive
  | .passive, .validate | .passive, .passivate | .checked, .validate | .active, .activate => none

/-- How far a resource has come. -/
inductive Career where
  /-- The factory has not made it yet. -/
  | unmade
  | rest (s : Condition)
  /-- The factory works on it, which was in the condition `s`. -/
  | busy (s : Condition) (c : Callback)
  /-- The factory has refused a callback. -/
  | refused
  /-- The pool has taken it back from its borrower. -/
  | seized
  | dead
  deriving DecidableEq

/-- What can happen to a resource. -/
inductive Signal where
  | made
  | asked (c : Callback)
  | answered (c : Callback) (ok : Bool)
  /-- A borrower gets it. -/
  | lent
  /-- The pool takes it back from a borrower that has given it up. -/
  | seized
  | destroyed (mode : DestroyMode)
  deriving DecidableEq

namespace Career

/-- What becomes of a resource that a callback was made on. -/
def verdict (s : Condition) (ok : Bool) : Career := if ok then .rest s else .refused

/-- One thing happens to a resource, if it can. -/
def read : Career → Signal → Option Career
  | .unmade, .made => some (.rest .fresh)
  | .rest s, .asked c => if (s.after c).isSome then some (.busy s c) else none
  | .busy s c, .answered d ok => if d = c then (s.after c).map fun n => verdict n ok else none
  | .rest .active, .lent => some (.rest .active)
  | .rest .active, .seized => some .seized
  | .rest _, .destroyed .normal | .refused, .destroyed .normal => some .dead
  | .seized, .destroyed .abandoned => some .dead
  | _, _ => none

/-- Several things happen to a resource, the first of the list first. -/
def follow (c : Career) (l : List Signal) : Option Career := l.foldlM read c

@[simp] theorem follow_singleton (c : Career) (s : Signal) : c.follow [s] = c.read s := by
  simp [follow]

theorem follow_append {c d : Career} {l m : List Signal} (h : c.follow l = some d) :
    c.follow (l ++ m) = d.follow m := by
  rw [follow, List.foldlM_append]
  rw [follow] at h
  rw [h]
  rfl

/-- A resource that nobody works on can be destroyed, and so can one that was refused. -/
theorem read_destroyed_verdict (s : Condition) (ok : Bool) :
    (verdict s ok).read (.destroyed .normal) = some .dead := by
  cases ok <;> rfl

theorem follow_concat (c : Career) (l : List Signal) (s : Signal) :
    c.follow (l ++ [s]) = (c.follow l).bind fun d => d.read s := by
  rw [follow, List.foldlM_append]
  refine congrArg (Option.bind (c.follow l)) (funext fun d => ?_)
  exact follow_singleton d s

/-- What happened to a resource, part by part. -/
theorem follow_eq_some_append {c d : Career} {l m : List Signal} (h : c.follow (l ++ m) = some d) :
    ∃ x, c.follow l = some x ∧ x.follow m = some d := by
  rw [follow, List.foldlM_append] at h
  exact Option.bind_eq_some_iff.mp h

theorem follow_eq_some_cons {c d : Career} {s : Signal} {l : List Signal}
    (h : c.follow (s :: l) = some d) : ∃ x, c.read s = some x ∧ x.follow l = some d :=
  Option.bind_eq_some_iff.mp h

/-- The automaton, arrow by arrow. -/
inductive Leads : Career → Signal → Career → Prop
  | made : Leads .unmade .made (.rest .fresh)
  | asked {s : Condition} {c : Callback} : Leads (.rest s) (.asked c) (.busy s c)
  | granted {s n : Condition} {c : Callback} (h : s.after c = some n) :
      Leads (.busy s c) (.answered c true) (.rest n)
  | denied {s : Condition} {c : Callback} : Leads (.busy s c) (.answered c false) .refused
  | lent : Leads (.rest .active) .lent (.rest .active)
  | seized : Leads (.rest .active) .seized .seized
  | spent {s : Condition} : Leads (.rest s) (.destroyed .normal) .dead
  | cleared : Leads .refused (.destroyed .normal) .dead
  | abandoned : Leads .seized (.destroyed .abandoned) .dead

theorem leads_of_read {c d : Career} {s : Signal} (h : c.read s = some d) : c.Leads s d := by
  unfold read at h
  split at h
  · obtain rfl := Option.some.inj h
    exact .made
  · split at h
    · obtain rfl := Option.some.inj h
      exact .asked
    · exact nomatch h
  · rename_i ok
    split at h
    · rename_i hd
      subst hd
      obtain ⟨n, hn, rfl⟩ := Option.map_eq_some_iff.mp h
      cases ok with
      | true => exact .granted hn
      | false => exact .denied
    · exact nomatch h
  all_goals try obtain rfl := Option.some.inj h
  · exact .lent
  · exact .seized
  · exact .spent
  · exact .cleared
  · exact .abandoned
  · exact nomatch h

/-! ## The last things that happen to a resource -/

/-- Nothing happens to a destroyed resource any more. -/
theorem follow_dead {l : List Signal} {d : Career} (h : Career.dead.follow l = some d) :
    l = [] ∧ d = .dead := by
  cases l with
  | nil => exact ⟨rfl, (Option.some.inj h).symm⟩
  | cons s l =>
    obtain ⟨x, hx, -⟩ := follow_eq_some_cons h
    exact nomatch leads_of_read hx

/-- After a refusal the one thing that can happen to a resource is that it is destroyed. -/
theorem read_refused {s : Signal} {c : Career} (h : Career.refused.read s = some c) :
    s = .destroyed .normal ∧ c = .dead := by
  cases leads_of_read h with
  | cleared => exact ⟨rfl, rfl⟩

/-- What happens to a resource after a refusal. -/
theorem follow_refused {l : List Signal} {d : Career} (h : Career.refused.follow l = some d)
    (hd : d ≠ .refused) : l = [.destroyed .normal] := by
  cases l with
  | nil => exact absurd (Option.some.inj h).symm hd
  | cons s l =>
    obtain ⟨x, hx, hl⟩ := follow_eq_some_cons h
    obtain ⟨rfl, rfl⟩ := read_refused hx
    rw [(follow_dead hl).1]

/-- A resource is refused only if the factory has just refused. -/
theorem read_eq_refused {c : Career} {s : Signal} (h : c.read s = some .refused) :
    ∃ d, s = .answered d false := by
  cases leads_of_read h with
  | denied => exact ⟨_, rfl⟩

/-- A refusal leaves a resource refused. -/
theorem read_refusal {c d : Career} {x : Callback} (h : c.read (.answered x false) = some d) :
    d = .refused := by
  cases leads_of_read h with
  | denied => rfl

/-- A resource is destroyed as abandoned exactly if it waits for its end as one taken back. -/
theorem read_destroyed {c d : Career} {mode : DestroyMode}
    (h : c.read (.destroyed mode) = some d) : d = .dead ∧ (mode = .abandoned ↔ c = .seized) := by
  cases leads_of_read h with
  | spent | cleared | abandoned => exact ⟨rfl, by simp⟩

/-- A resource that was destroyed stays so. -/
theorem follow_destroyed {l : List Signal} {c d : Career} {mode : DestroyMode}
    (h : c.follow l = some d) (hl : .destroyed mode ∈ l) : d = .dead := by
  obtain ⟨l, m, rfl⟩ := List.append_of_mem hl
  obtain ⟨x, -, hx⟩ := follow_eq_some_append h
  obtain ⟨y, hy, hm⟩ := follow_eq_some_cons hx
  obtain ⟨rfl, -⟩ := read_destroyed hy
  exact (follow_dead hm).2

/-- The end of a resource is the last of a word. -/
theorem last_of_follow {l m : List Signal} {c d : Career} {mode : DestroyMode}
    (h : c.follow (l ++ .destroyed mode :: m) = some d) : m = [] := by
  obtain ⟨x, -, hx⟩ := follow_eq_some_append h
  obtain ⟨y, hy, hm⟩ := follow_eq_some_cons hx
  obtain ⟨rfl, -⟩ := read_destroyed hy
  exact (follow_dead hm).1

/-- After a refusal a word goes on with the end of the resource, unless it stops there. -/
theorem end_of_refusal {l m : List Signal} {c d : Career} {x : Callback}
    (h : c.follow (l ++ .answered x false :: m) = some d) (hd : d ≠ .refused) :
    m = [.destroyed .normal] := by
  obtain ⟨y, -, hy⟩ := follow_eq_some_append h
  obtain ⟨z, hz, hm⟩ := follow_eq_some_cons hy
  obtain rfl := read_refusal hz
  exact follow_refused hm hd

/-- A resource that is refused after all that happened was refused by the factory. -/
theorem follow_eq_refused {l : List Signal} {c : Career} (h : c.follow l = some .refused) :
    c = .refused ∨ ∃ d, .answered d false ∈ l := by
  rcases List.eq_nil_or_concat l with rfl | ⟨l, s, rfl⟩
  · exact .inl (Option.some.inj h)
  · rw [List.concat_eq_append, follow_concat] at h
    obtain ⟨x, -, hs⟩ := Option.bind_eq_some_iff.mp h
    obtain ⟨d, rfl⟩ := read_eq_refused hs
    exact .inr ⟨d, by simp⟩

/-- As long as it is not destroyed, a resource was taken back from its borrower exactly if it
    still waits for its end. -/
theorem mem_seized {l : List Signal} {c : Career} (h : Career.unmade.follow l = some c)
    (hc : c ≠ .dead) : .seized ∈ l ↔ c = .seized := by
  induction l using List.reverseRecOn generalizing c with
  | nil =>
    obtain rfl := Option.some.inj h
    exact ⟨fun hl => (nomatch hl), fun hs => (nomatch hs)⟩
  | append_singleton l s ih =>
    rw [follow_concat] at h
    obtain ⟨x, hx, hs⟩ := Option.bind_eq_some_iff.mp h
    cases leads_of_read hs with
    | spent | cleared | abandoned => exact absurd rfl hc
    | made | asked | granted | denied | lent | seized =>
      have hmem := ih hx fun hd => nomatch hd
      simp [hmem]

/-- A resource is destroyed as abandoned exactly if it was taken back from its borrower. -/
theorem abandoned_iff_seized {l : List Signal} {c : Career} {mode : DestroyMode}
    (h : Career.unmade.follow l = some c) (hl : .destroyed mode ∈ l) :
    mode = .abandoned ↔ .seized ∈ l := by
  obtain ⟨l, m, rfl⟩ := List.append_of_mem hl
  obtain ⟨x, hx, hrest⟩ := follow_eq_some_append h
  obtain ⟨y, hy, hm⟩ := follow_eq_some_cons hrest
  obtain ⟨rfl, hmode⟩ := read_destroyed hy
  obtain ⟨rfl, -⟩ := follow_dead hm
  -- up to its end the resource waits for it exactly if it was taken back
  have halive : x ≠ .dead := by
    rintro rfl
    cases (follow_dead hrest).1
  rw [hmode, ← mem_seized hx halive]
  simp

end Career

/-! ## All careers at once -/

/-- The signals `l`, each about one object, take every object from its career in `st` to that
    in `st'`. -/
def Advances (l : List (Nat × Signal)) (st st' : Nat → Career) : Prop :=
  ∀ id, (st id).follow (claims id l) = some (st' id)

/-- The careers once some objects were taken back from their borrowers. -/
def seize (ids : List Nat) (st : Nat → Career) (id : Nat) : Career :=
  if id ∈ ids then .seized else st id

@[simp] theorem seize_nil (st : Nat → Career) : seize [] st = st := rfl

namespace Advances

variable {l m : List (Nat × Signal)} {st st' st'' : Nat → Career} {id : Nat}

theorem nil (st : Nat → Career) : Advances [] st st := fun _ => rfl

theorem append (h : Advances l st st') (h' : Advances m st' st'') : Advances (l ++ m) st st'' := by
  intro id
  rw [claims_append, Career.follow_append (h id)]
  exact h' id

/-- What the one signal about an object makes of it. -/
theorem eq_of_single {s : Signal} {c : Career} (h : Advances [(id, s)] st st')
    (hr : (st id).read s = some c) : st' id = c := by
  have hadv := h id
  rw [claims_cons_self, claims_nil, Career.follow_singleton, hr] at hadv
  exact (Option.some.inj hadv).symm

/-- One thing happens to one object. -/
theorem single {s : Signal} {c : Career} (h : (st id).read s = some c) :
    Advances [(id, s)] st (Function.update st id c) := by
  intro x
  by_cases hx : x = id
  · subst hx
    rw [claims_cons_self, claims_nil, Career.follow_singleton, h, Function.update_self]
  · rw [claims_cons_of_ne _ _ (Ne.symm hx), claims_nil, Function.update_of_ne hx]
    rfl

/-- Something happens that leaves the object as it is. -/
theorem stay {s : Signal} (h : (st id).read s = some (st id)) : Advances [(id, s)] st st := by
  have hs := single h
  rwa [Function.update_eq_self] at hs

/-- Some objects are taken back from their borrowers. -/
theorem seize {ids : List Nat} (hn : ids.Nodup) (h : ∀ id ∈ ids, st id = .rest .active) :
    Advances (each ids .seized) st (seize ids st) := by
  intro id
  rw [claims_each, hn.count, ObjectPool.seize]
  split
  · rename_i hid
    rw [h id hid]
    rfl
  · rfl

end Advances

end ObjectPool
