/-
  ObjectPool.Decimal.Nearest

  Whole numbers as the nearest number of 53 significant binary digits, and the
  shortest decimal text of such a number: as few significant digits as tell it
  from its neighbours, then zeros up to the point.

    * `nearest` — the nearest number, a half going to the even neighbour.
    * `shortest` — the decimal number that is written.
    * `shortest_of_le` — up to `2 ^ 53` that is the number itself.
-/

namespace ObjectPool

namespace Decimal

/-- How many digits a number has in base ten, nought having one. -/
def width (n : Nat) : Nat := (Nat.toDigits 10 n).length

/-- The exponent of the last of 53 binary digits of a number. -/
def scale (n : Nat) : Nat := n.log2 - 52

/-- The nearest number of 53 binary digits, a half going to the even neighbour. -/
def nearest (n : Nat) : Nat :=
  let unit := Nat.pow 2 (scale n)
  let down := n / unit
  let rest := n % unit
  let up := if unit < 2 * rest ∨ (unit = 2 * rest ∧ down % 2 = 1) then down + 1 else down
  up * unit

/-- Whether the decimal number `c` is read as `v`, a number of 53 binary digits:
    it lies no further from `v` than halfway to a neighbour, and halfway itself
    counts if the last digit of `v` is even. -/
def readsBack (v c : Nat) : Bool :=
  let unit := Nat.pow 2 (scale v)
  let even := v / unit % 2 = 0
  let below := if v = Nat.pow 2 v.log2 ∧ scale v ≠ 0 then unit / 2 else unit
  if c ≤ v then decide (2 * (v - c) < below) || (decide (2 * (v - c) = below) && even)
  else decide (2 * (c - v) < unit) || (decide (2 * (c - v) = unit) && even)

/-- The closest multiple of `grid` to `v` that is read as `v`, the larger of two
    equally close. -/
def onGrid (v grid : Nat) : Option Nat :=
  let low := v / grid * grid
  let high := low + grid
  match readsBack v low, readsBack v high with
  | true, true => some (if v - low < high - v then low else high)
  | true, false => some low
  | false, true => some high
  | false, false => none

/-- The first hit on the grids `10 ^ k`, …, `10`, the widest first, or `v` itself. -/
def search (v : Nat) : Nat → Nat
  | 0 => v
  | k + 1 => (onGrid v (Nat.pow 10 (k + 1))).getD (search v k)

/-- The decimal number with the fewest significant digits that is read as the
    nearest number of 53 binary digits to `n`. -/
def shortest (n : Nat) : Nat :=
  let v := nearest n
  search v (width v)

theorem scale_eq_zero {n : Nat} (h : n < Nat.pow 2 53) : scale n = 0 := by
  unfold scale
  by_cases hn : n = 0
  · subst hn; simp
  · have := (Nat.log2_lt hn).2 h
    omega

/-- A number of at most 53 binary digits is its own nearest. -/
theorem nearest_of_lt {n : Nat} (h : n < Nat.pow 2 53) : nearest n = n := by
  simp [nearest, scale_eq_zero h, Nat.mod_one]

/-- Below `2 ^ 53` only a number itself is read as that number. -/
theorem readsBack_iff_of_lt {v c : Nat} (h : v < Nat.pow 2 53) : readsBack v c ↔ c = v := by
  have hunit : Nat.pow 2 0 = 1 := rfl
  simp only [readsBack, scale_eq_zero h, hunit, ne_eq, not_true_eq_false, and_false, if_false]
  split <;> simp only [Bool.or_eq_true, Bool.and_eq_true, decide_eq_true_eq] <;> omega

theorem onGrid_of_lt {v grid w : Nat} (h : v < Nat.pow 2 53) (hw : onGrid v grid = some w) :
    w = v := by
  simp only [onGrid] at hw
  split at hw
  · next hlow hhigh =>
    have hl := (readsBack_iff_of_lt h).1 hlow
    have hu := (readsBack_iff_of_lt h).1 hhigh
    split at hw <;> simp only [Option.some.injEq] at hw <;> omega
  · next hlow _ => exact (Option.some.inj hw).symm.trans ((readsBack_iff_of_lt h).1 hlow)
  · next hhigh => exact (Option.some.inj hw).symm.trans ((readsBack_iff_of_lt h).1 hhigh)
  · simp at hw

theorem search_of_lt {v : Nat} (h : v < Nat.pow 2 53) (k : Nat) : search v k = v := by
  induction k with
  | zero => rfl
  | succ k ih =>
    unfold search
    cases hg : onGrid v (Nat.pow 10 (k + 1)) with
    | none => simpa using ih
    | some w => simpa using onGrid_of_lt h hg

/-- A whole number up to `2 ^ 53` is written as it is. -/
theorem shortest_of_le {n : Nat} (h : n ≤ Nat.pow 2 53) : shortest n = n := by
  obtain hlt | rfl := Nat.lt_or_eq_of_le h
  · simp [shortest, nearest_of_lt hlt, search_of_lt hlt]
  · decide +kernel

end Decimal

end ObjectPool
