/-
  ObjectPool.Proofs.Run

  Runs of a world. An event is one thing that can happen next: a caller makes a
  pool, begins a call on it, gives an object back or uses it, a thread goes on for
  a stretch, or the factory answers. Nothing is said about which event comes next,
  so that a statement about every run is one about every order of events, every
  answer of the factory and everything that it does before it answers.

    * `World.react` — what an event leaves behind, if it can happen at all.
    * `World.react_cases` — the same, event by event.
    * `Run` — the worlds that can be reached, with the episodes that led there.
    * `Episode.request?` — what a call asked the factory for in an episode.
-/

import ObjectPool.World

namespace ObjectPool

variable {ρ : Type}

/-- How a caller begins a call on a pool. -/
inductive Opening where
  | borrow (timeout : Option Duration) (site : String)
  | add
  | prepare
  | maintain
  | clear
  | close

/-- Where the call begins. -/
def Opening.point : Opening → Point ρ
  | .borrow timeout site => .borrow { timeout, site }
  | .add => .add
  | .prepare => .prepare
  | .maintain => .upkeep
  | .clear => .clear
  | .close => .close .call

/-- What can happen next. -/
inductive Event (ρ : Type) where
  /-- Time passes. -/
  | tick (now : Instant)
  | spawn
  | create (c : Config)
  /-- A caller takes one more reference to a pool. -/
  | clone (p : Nat)
  /-- A caller gives up a reference to a pool. -/
  | drop (t p : Nat)
  /-- A caller begins a call, on a thread that is free or on which the factory runs. -/
  | begin (t p : Nat) (o : Opening)
  | giveBack (t p h : Nat)
  | invalidate (t p h : Nat)
  /-- A handle goes out of its borrower's hands without a word. -/
  | letGo (t h : Nat)
  | access (h : Nat) (site : String) (f : ρ → ρ)
  | lock (h : Nat) (site : String)
  | unlock (h : Nat) (f : ρ → ρ)
  | markUsed (h : Nat) (site : String)
  /-- A thread goes on for a stretch. -/
  | step (t : Nat)
  /-- The factory or the sink of reports answers. -/
  | answer (t : Nat) (r : Response ρ)

namespace World

/-- Whether a caller has a reference to a pool. -/
def owned (w : World ρ) (p : Nat) : Bool := (w.pools[p]?).any fun q => decide (0 < q.clones)

/-- Whether a thread can begin a call: it has nothing to do, or it runs the factory. -/
def isFree (w : World ρ) (t : Nat) : Bool :=
  (w.threads[t]?).any fun th =>
    match th.stack with
    | a :: _ => a.point.isRequest
    | [] => th.keeper.isNone

/-- A handle on whose resource its borrower does not work. -/
def loose? (w : World ρ) (h : Nat) : Option Handle := (w.handle? h).filter fun x => !x.guarded

/-- What an event leaves behind. Callers need a reference to a pool to call it, and
    a handle that they do not work with to part with it. -/
def react (w : World ρ) : Event ρ → Option (Effect ρ)
  | .tick now => if w.now.nanos ≤ now.nanos then some { world := { w with now } } else none
  | .spawn => some { world := w.spawn }
  | .create c =>
    match w.create c with
    | .ok (w, notices) => some { world := w, notices }
    | .error _ => some { world := w }
  | .clone p =>
    if w.owned p then some { world := w.onPool p fun q => { q with clones := q.clones + 1 } }
    else none
  | .drop t p => if w.owned p ∧ w.isFree t then some (w.drop t p) else none
  | .begin t p o =>
    if w.owned p ∧ w.isFree t then some { world := w.push t ⟨p, o.point⟩ } else none
  | .giveBack t p h =>
    if w.owned p ∧ w.isFree t then (w.loose? h).map (w.giveBack t p h) else none
  | .invalidate t p h =>
    if w.owned p ∧ w.isFree t then (w.loose? h).map (w.invalidate t p h) else none
  | .letGo t h => if w.isFree t then (w.loose? h).map (w.letGo t h) else none
  | .access h site f =>
    (w.loose? h).map fun x =>
      match w.access x site f with
      | .ok (_, w) => { world := w }
      | .error _ => { world := w }
  | .lock h site =>
    (w.loose? h).map fun x =>
      match w.lock h x site with
      | .ok (_, w) => { world := w }
      | .error _ => { world := w }
  | .unlock h f =>
    ((w.handle? h).filter (·.guarded)).bind fun x =>
      (w.unlock h x f).map fun u => { world := u.2 }
  | .markUsed h site => (w.handle? h).map fun x => { world := w.markUsed x site }
  | .step t => w.step t
  | .answer t r => w.answer t r

/-- What an event of the callers leaves behind, with all that is known of the world before
    it. Threads that go on are no such event. -/
inductive Called (w : World ρ) : Event ρ → Effect ρ → Prop where
  | tick {now : Instant} (h : w.now.nanos ≤ now.nanos) :
      Called w (.tick now) { world := { w with now } }
  | spawn : Called w .spawn { world := w.spawn }
  | create {c : Config} {w' : World ρ} {notices : List (Nat × Notice)}
      (h : w.create c = .ok (w', notices)) : Called w (.create c) { world := w', notices }
  | notCreated {c : Config} {e : PoolError} (h : w.create c = .error e) :
      Called w (.create c) { world := w }
  | clone {p : Nat} {q : Pool ρ} (hq : w.pools[p]? = some q) (hc : 0 < q.clones) :
      Called w (.clone p) { world := w.onPool p fun q => { q with clones := q.clones + 1 } }
  | drop {t p : Nat} {q : Pool ρ} (hq : w.pools[p]? = some q) (hc : 0 < q.clones)
      (ht : w.isFree t = true) : Called w (.drop t p) (w.drop t p)
  | begin {t p : Nat} {q : Pool ρ} {o : Opening} (hq : w.pools[p]? = some q) (hc : 0 < q.clones)
      (ht : w.isFree t = true) : Called w (.begin t p o) { world := w.push t ⟨p, o.point⟩ }
  | giveBack {t p n : Nat} {q : Pool ρ} {x : Handle} (hq : w.pools[p]? = some q)
      (hc : 0 < q.clones) (ht : w.isFree t = true) (hx : w.handle? n = some x)
      (hg : x.guarded = false) : Called w (.giveBack t p n) (w.giveBack t p n x)
  | invalidate {t p n : Nat} {q : Pool ρ} {x : Handle} (hq : w.pools[p]? = some q)
      (hc : 0 < q.clones) (ht : w.isFree t = true) (hx : w.handle? n = some x)
      (hg : x.guarded = false) : Called w (.invalidate t p n) (w.invalidate t p n x)
  | letGo {t n : Nat} {x : Handle} (ht : w.isFree t = true) (hx : w.handle? n = some x)
      (hg : x.guarded = false) : Called w (.letGo t n) (w.letGo t n x)
  | access {n : Nat} {x : Handle} {site : String} {f : ρ → ρ} {r : ρ} (hx : w.handle? n = some x)
      (hg : x.guarded = false) (hr : w.resource? x = some r) :
      Called w (.access n site f) { world := w.onPool x.pool fun q =>
        (q.trackUse w.now x.object site).letGo x.object (f r) }
  | noAccess {n : Nat} {x : Handle} {site : String} {f : ρ → ρ} (hx : w.handle? n = some x)
      (hr : w.resource? x = none) : Called w (.access n site f) { world := w }
  | lock {n : Nat} {x : Handle} {site : String} {r : ρ} (hx : w.handle? n = some x)
      (hg : x.guarded = false) (hr : w.resource? x = some r) :
      Called w (.lock n site) { world :=
        { w.onPool x.pool (fun q => (q.trackUse w.now x.object site).hold x.object) with
          handles := w.handles.set n (some { x with guarded := true }) } }
  | noLock {n : Nat} {x : Handle} {site : String} (hx : w.handle? n = some x)
      (hr : w.resource? x = none) : Called w (.lock n site) { world := w }
  | unlock {n : Nat} {x : Handle} {f : ρ → ρ} {r : ρ} (hx : w.handle? n = some x)
      (hg : x.guarded = true) (hr : w.resource? x = some r) :
      Called w (.unlock n f) { world :=
        { w.onPool x.pool (Pool.letGo x.object (f r)) with
          handles := w.handles.set n (some { x with guarded := false }) } }
  | markUsed {n : Nat} {x : Handle} {site : String} (hx : w.handle? n = some x) :
      Called w (.markUsed n site) { world := w.markUsed x site }

variable {w : World ρ}

theorem pool_of_owned {p : Nat} (h : w.owned p = true) :
    ∃ q, w.pools[p]? = some q ∧ 0 < q.clones := by
  obtain ⟨q, hq, hc⟩ := (Option.any_eq_true _ _).mp h
  exact ⟨q, hq, of_decide_eq_true hc⟩

theorem handle?_of_loose? {n : Nat} {x : Handle} (h : w.loose? n = some x) :
    w.handle? n = some x ∧ x.guarded = false := by
  obtain ⟨hx, hg⟩ := Option.filter_eq_some_iff.mp h
  exact ⟨hx, by simpa using hg⟩

/-- Every event is one of the callers, or a thread goes on or gets an answer. -/
theorem react_cases {e : Event ρ} {f : Effect ρ} (hr : w.react e = some f) :
    w.Called e f ∨ (∃ t, e = .step t ∧ w.step t = some f) ∨
      ∃ t r, e = .answer t r ∧ w.answer t r = some f := by
  cases e with
  | tick now =>
    rw [react] at hr
    split at hr
    · rename_i h
      obtain rfl := Option.some.inj hr
      exact .inl (.tick h)
    · exact nomatch hr
  | spawn =>
    obtain rfl := Option.some.inj hr
    exact .inl .spawn
  | create c =>
    rw [react] at hr
    split at hr
    · rename_i h
      obtain rfl := Option.some.inj hr
      exact .inl (.create h)
    · rename_i h
      obtain rfl := Option.some.inj hr
      exact .inl (.notCreated h)
  | clone p =>
    rw [react] at hr
    split at hr
    · rename_i ho
      obtain ⟨q, hq, hc⟩ := pool_of_owned ho
      obtain rfl := Option.some.inj hr
      exact .inl (.clone hq hc)
    · exact nomatch hr
  | drop t p =>
    rw [react] at hr
    split at hr
    · rename_i ho
      obtain ⟨q, hq, hc⟩ := pool_of_owned ho.1
      obtain rfl := Option.some.inj hr
      exact .inl (.drop hq hc ho.2)
    · exact nomatch hr
  | begin t p o =>
    rw [react] at hr
    split at hr
    · rename_i ho
      obtain ⟨q, hq, hc⟩ := pool_of_owned ho.1
      obtain rfl := Option.some.inj hr
      exact .inl (.begin hq hc ho.2)
    · exact nomatch hr
  | giveBack t p n =>
    rw [react] at hr
    split at hr
    · rename_i ho
      obtain ⟨q, hq, hc⟩ := pool_of_owned ho.1
      obtain ⟨x, hx, rfl⟩ := Option.map_eq_some_iff.mp hr
      obtain ⟨hx, hg⟩ := handle?_of_loose? hx
      exact .inl (.giveBack hq hc ho.2 hx hg)
    · exact nomatch hr
  | invalidate t p n =>
    rw [react] at hr
    split at hr
    · rename_i ho
      obtain ⟨q, hq, hc⟩ := pool_of_owned ho.1
      obtain ⟨x, hx, rfl⟩ := Option.map_eq_some_iff.mp hr
      obtain ⟨hx, hg⟩ := handle?_of_loose? hx
      exact .inl (.invalidate hq hc ho.2 hx hg)
    · exact nomatch hr
  | letGo t n =>
    rw [react] at hr
    split at hr
    · rename_i ht
      obtain ⟨x, hx, rfl⟩ := Option.map_eq_some_iff.mp hr
      obtain ⟨hx, hg⟩ := handle?_of_loose? hx
      exact .inl (.letGo ht hx hg)
    · exact nomatch hr
  | access n site u =>
    obtain ⟨x, hx, rfl⟩ := Option.map_eq_some_iff.mp hr
    obtain ⟨hx, hg⟩ := handle?_of_loose? hx
    unfold World.access
    cases hres : w.resource? x with
    | none => exact .inl (.noAccess hx hres)
    | some r => exact .inl (.access hx hg hres)
  | lock n site =>
    obtain ⟨x, hx, rfl⟩ := Option.map_eq_some_iff.mp hr
    obtain ⟨hx, hg⟩ := handle?_of_loose? hx
    unfold World.lock
    cases hres : w.resource? x with
    | none => exact .inl (.noLock hx hres)
    | some r => exact .inl (.lock hx hg hres)
  | unlock n u =>
    obtain ⟨x, hx, hr⟩ := Option.bind_eq_some_iff.mp hr
    obtain ⟨hx, hg⟩ := Option.filter_eq_some_iff.mp hx
    unfold World.unlock at hr
    cases hres : w.resource? x with
    | none =>
      rw [hres] at hr
      exact nomatch hr
    | some r =>
      rw [hres] at hr
      obtain rfl := Option.some.inj hr
      exact .inl (.unlock hx hg hres)
  | markUsed n site =>
    obtain ⟨x, hx, rfl⟩ := Option.map_eq_some_iff.mp hr
    exact .inl (.markUsed hx)
  | step t => exact .inr (.inl ⟨t, rfl, hr⟩)
  | answer t r => exact .inr (.inr ⟨t, r, rfl, hr⟩)

end World

/-- One thing that happened. -/
structure Episode (ρ : Type) where
  before : World ρ
  event : Event ρ
  effect : Effect ρ

namespace Episode

/-- The world after an episode. -/
def after (e : Episode ρ) : World ρ := e.effect.world

/-- The thread that went on in an episode. -/
def thread? (e : Episode ρ) : Option Nat :=
  match e.event with
  | .step t | .answer t _ => some t
  | _ => none

/-- The call that came to wait for the factory or the sink in an episode. -/
def request? (e : Episode ρ) : Option (Activity ρ) :=
  if e.effect.reply.isNone then
    (e.thread?.bind e.after.top?).filter fun a => a.point.isRequest
  else none

/-- The object of the pool `i` whose resource was passed to the factory to be
    destroyed in an episode, with the resource. -/
def burial (i : Nat) (e : Episode ρ) : List (Nat × ρ) :=
  match e.request? with
  | some ⟨p, .destroying id r _ _⟩ => if p = i then [(id, r)] else []
  | _ => []

/-- The object alone. -/
def buried (i : Nat) (e : Episode ρ) : List Nat := (e.burial i).map (·.1)

/-- The object of the pool `i` that the factory made in an episode, with its resource. -/
def born (i : Nat) (e : Episode ρ) : List (Nat × ρ) :=
  match e.event with
  | .answer t (.created (.ok r)) =>
    match e.before.top? t with
    | some ⟨p, .creating _⟩ =>
      if p = i then [(((e.before.pools[p]?).map (·.entries.length)).getD 0, r)] else []
    | _ => []
  | _ => []

end Episode

/-- The worlds that can be reached from an empty one; the episodes that led there
    stand the latest first. -/
inductive Run : List (Episode ρ) → World ρ → Prop where
  | start : Run [] {}
  | next {es : List (Episode ρ)} {w : World ρ} {e : Event ρ} {f : Effect ρ}
      (run : Run es w) (react : w.react e = some f) : Run (⟨w, e, f⟩ :: es) f.world

/-- The episodes determine the world. -/
theorem Run.unique {es : List (Episode ρ)} {w w' : World ρ} (h : Run es w) (h' : Run es w') :
    w = w' := by
  cases h with
  | start => cases h'; rfl
  | next run react =>
    cases h' with
    | next => rfl

/-- Each episode of a run begins where a run has led. -/
theorem Run.of_mem {es : List (Episode ρ)} {w : World ρ} (h : Run es w) {e : Episode ρ}
    (he : e ∈ es) : ∃ es', Run es' e.before ∧ e.before.react e.event = some e.effect := by
  induction h with
  | start => exact nomatch he
  | next run react ih =>
    rcases List.mem_cons.mp he with rfl | he
    · exact ⟨_, run, react⟩
    · exact ih he

/-- The objects of the pool `i` whose resources were passed to the factory to be
    destroyed, with the resources, the latest first. -/
def burials (es : List (Episode ρ)) (i : Nat) : List (Nat × ρ) := es.flatMap (Episode.burial i)

/-- The objects alone. -/
def graves (es : List (Episode ρ)) (i : Nat) : List Nat := es.flatMap (Episode.buried i)

theorem graves_eq (es : List (Episode ρ)) (i : Nat) : graves es i = (burials es i).map (·.1) :=
  List.map_flatMap.symm

/-- The objects of the pool `i` that the factory made, the latest first. -/
def births (es : List (Episode ρ)) (i : Nat) : List (Nat × ρ) := es.flatMap (Episode.born i)

/-! ## Runs that are carried out -/

/-- The episodes and the world that some events lead to from a world, if each can happen. -/
def World.replay (w : World ρ) (es : List (Episode ρ)) :
    List (Event ρ) → Option (List (Episode ρ) × World ρ)
  | [] => some (es, w)
  | e :: rest =>
    match w.react e with
    | some f => f.world.replay (⟨w, e, f⟩ :: es) rest
    | none => none

theorem Run.replay {es es' : List (Episode ρ)} {w w' : World ρ} {events : List (Event ρ)}
    (h : Run es w) (hr : w.replay es events = some (es', w')) : Run es' w' := by
  induction events generalizing es w with
  | nil =>
    obtain ⟨rfl, rfl⟩ := Prod.mk.inj (Option.some.inj hr)
    exact h
  | cons e rest ih =>
    rw [World.replay] at hr
    split at hr
    · rename_i f hf
      exact ih (h.next hf) hr
    · exact nomatch hr

/-- What some events lead to from an empty world. -/
def replayed (events : List (Event ρ)) : Option (List (Episode ρ) × World ρ) :=
  World.replay {} [] events

/-- The episodes of some events, if each can happen. -/
def episodes (events : List (Event ρ)) : List (Episode ρ) :=
  ((replayed events).map (·.1)).getD []

/-- The world that some events lead to, if each can happen. -/
def reached (events : List (Event ρ)) : World ρ := ((replayed events).map (·.2)).getD {}

theorem Run.of_events {events : List (Event ρ)} (h : (replayed events).isSome = true) :
    Run (episodes events) (reached events) := by
  obtain ⟨⟨es, w⟩, hr⟩ := Option.isSome_iff_exists.mp h
  rw [episodes, reached, hr]
  exact Run.start.replay hr

end ObjectPool
