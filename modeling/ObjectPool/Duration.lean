/-
  ObjectPool.Duration

  Lengths and points of time on a monotonic clock, both in whole nanoseconds,
  and the text of a length of time: the largest unit of `s`, `ms`, `µs`, `ns`
  that is not above it, with the digits behind the point that are needed and no
  more.

    * `Duration.ofParts` — a length of time from seconds and nanoseconds.
    * `Instant.after?` — the point a given time from now, if the clock reaches it.
    * `Duration.text` — the text.
-/

namespace ObjectPool

/-- A length of time. -/
structure Duration where
  nanos : Nat
  deriving DecidableEq

/-- A point of the monotonic clock, counted from the clock's start. -/
structure Instant where
  nanos : Nat
  deriving DecidableEq

namespace Duration

/-- No time at all. -/
def zero : Duration := ⟨0⟩

/-- Nanoseconds in a second. -/
def perSecond : Nat := 1000000000

/-- A length of time given as seconds and nanoseconds. -/
def ofParts (seconds rest : Nat) : Duration := ⟨seconds * perSecond + rest⟩

/-- A whole number of seconds. -/
def ofSeconds (n : Nat) : Duration := ofParts n 0

/-- The whole seconds of a length of time. -/
def seconds (d : Duration) : Nat := d.nanos / perSecond

/-- The nanoseconds beyond the whole seconds. -/
def beyond (d : Duration) : Nat := d.nanos % perSecond

@[simp] theorem ofParts_seconds_beyond (d : Duration) :
    ofParts d.seconds d.beyond = d := by
  cases d
  simp only [ofParts, seconds, beyond, perSecond, mk.injEq]
  omega

/-! ## Text -/

/-- The digits of a fraction `part / 10 ^ width`, without zeros at the end. -/
def fractionDigits : Nat → Nat → List Char
  | 0, _ => []
  | _ + 1, 0 => []
  | width + 1, part =>
    Nat.digitChar (part / 10 ^ width) :: fractionDigits width (part % 10 ^ width)

/-- The digits of a fraction behind a point, or nothing for no fraction. -/
def fraction (width part : Nat) : String :=
  if part = 0 then "" else "." ++ String.ofList (fractionDigits width part)

/-- A length of time in the largest unit that is not above it. -/
def text (d : Duration) : String :=
  let n := d.nanos
  if perSecond ≤ n then toString (n / perSecond) ++ fraction 9 (n % perSecond) ++ "s"
  else if 1000000 ≤ n then toString (n / 1000000) ++ fraction 6 (n % 1000000) ++ "ms"
  else if 1000 ≤ n then toString (n / 1000) ++ fraction 3 (n % 1000) ++ "µs"
  else toString n ++ "ns"

end Duration

namespace Instant

/-- The clock's end: its seconds fill 63 bits. -/
def horizon : Nat := Nat.pow 2 63 * Duration.perSecond

/-- The point `d` after `now`. -/
def after (now : Instant) (d : Duration) : Instant := ⟨now.nanos + d.nanos⟩

/-- The point `d` after `now`, or `none` if the clock has no such point. -/
def after? (now : Instant) (d : Duration) : Option Instant :=
  if now.nanos + d.nanos < horizon then some (now.after d) else none

theorem after?_eq_some_iff {now t : Instant} {d : Duration} :
    now.after? d = some t ↔ now.nanos + d.nanos < horizon ∧ t = now.after d := by
  unfold after?
  by_cases h : now.nanos + d.nanos < horizon <;> simp [h, eq_comm]

/-- Time passed from `earlier` to `now`, none if `earlier` is later. -/
def since (now earlier : Instant) : Duration := ⟨now.nanos - earlier.nanos⟩

/-- The later of two points. -/
def later (a b : Instant) : Instant := ⟨max a.nanos b.nanos⟩

/-- Whether a deadline has been reached. -/
def reached (now : Instant) (deadline : Option Instant) : Bool :=
  deadline.any fun t => decide (t.nanos ≤ now.nanos)

end Instant

end ObjectPool
