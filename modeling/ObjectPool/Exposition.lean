/-
  ObjectPool.Exposition

  The metrics of a pool as text for a collector: for each metric a line of help,
  a line with its kind and one sample,

      # HELP resourcepool_objects_idle Current idle objects
      # TYPE resourcepool_objects_idle gauge
      resourcepool_objects_idle{pool="buffers"} 3

  Metrics are registered one by one, each under a name of its own. They come
  in the order of their names and the labels of a sample in the order of their
  texts. In a label's value, backslash, quote and line end are escaped. A
  value is written as the shortest decimal number that reads back as the
  nearest number of 53 binary digits.
-/

import ObjectPool.Census
import ObjectPool.Decimal.Nearest

namespace ObjectPool

namespace Exposition

/-- Whether a metric only grows or also falls. -/
inductive Kind where
  | counter
  | gauge
  deriving DecidableEq

namespace Kind

/-- The kind's name. -/
def label : Kind → String
  | counter => "counter"
  | gauge => "gauge"

end Kind

/-- One metric with its value. -/
structure Family where
  name : String
  help : String
  kind : Kind
  value : Nat

/-- What every metric's name starts with. -/
def nameSpace : String := "resourcepool_"

/-- A value that also falls is held with a sign, in 64 bits. -/
def largestGauge : Nat := Nat.pow 2 63 - 1

/-- A metric that only grows. -/
def counting (name help : String) (value : Nat) : Family := ⟨name, help, .counter, value⟩

/-- A metric that also falls. -/
def gauging (name help : String) (value : Nat) : Family :=
  ⟨name, help, .gauge, min value largestGauge⟩

/-- The metrics of a pool, in the order of their names. -/
def families (m : Metrics) : List Family :=
  [ counting "abandoned_total" "Abandoned objects reclaimed" m.counters.abandoned,
    counting "evictions_total" "Idle objects evicted" m.counters.evicted,
    counting "exhausted_total" "Borrows failed on an exhausted pool" m.counters.exhausted,
    counting "invalid_returns_total" "Rejected returns" m.counters.invalidReturns,
    gauging "max_total" "Maximum objects alive at once" m.status.maxTotal,
    gauging "objects_active" "Current borrowed objects" m.status.active,
    counting "objects_borrowed_total" "Successful borrows" m.counters.borrowed,
    counting "objects_created_total" "Objects created" m.counters.created,
    counting "objects_destroyed_total" "Objects destroyed" m.counters.destroyed,
    gauging "objects_idle" "Current idle objects" m.status.idle,
    counting "objects_returned_total" "Objects returned" m.counters.returned,
    counting "validation_failures_total" "Validation failures" m.counters.validationFailures,
    gauging "waiters" "Borrowers blocked on the pool" m.status.waiters ]

/-! ## Registration -/

/-- The characters of a label's name. -/
def inLabelName (c : Char) : Bool := c.isAlphanum || c == '_'

/-- The characters of a metric's name. -/
def inMetricName (c : Char) : Bool := inLabelName c || c == ':'

/-- Whether a text is a name made of such characters: one at least, the first of
    them no digit. -/
def isName (letter : Char → Bool) : List Char → Bool
  | [] => false
  | c :: cs => !c.isDigit && letter c && cs.all letter

/-- A metric joins those registered before it, if it is well named, has some help
    and bears none of their names. -/
def register (fs : List Family) (f : Family) : Option (List Family) :=
  if isName inMetricName f.name.toList ∧ f.help ≠ "" ∧ ∀ g ∈ fs, g.name ≠ f.name then
    some (fs ++ [f])
  else none

/-- The metrics of a pool as they are registered, none if one of them is refused. -/
def registered? (m : Metrics) : Option (List Family) := (families m).foldlM register []

/-! ## Labels -/

/-- A label's name and value. -/
abbrev Label := String × String

/-- A character of a label's value. -/
def escapeChar (c : Char) : List Char :=
  if c = '\x5c' then ['\x5c', '\x5c']
  else if c = '\x22' then ['\x5c', '\x22']
  else if c = '\n' then ['\x5c', 'n']
  else [c]

/-- A label as it is written. -/
def labelText (l : Label) : List Char :=
  l.1.toList ++ '=' :: '\x22' :: (l.2.toList.flatMap escapeChar ++ ['\x22'])

/-- The labels of a pool's metrics: its name, which a tag called `pool` replaces,
    and the tags. -/
def labels (pool : String) (tags : List Label) : List Label :=
  if tags.any fun t => t.1 = "pool" then tags else ("pool", pool) :: tags

/-- Whether one text comes before another, by the numbers of their characters. -/
def precedes : List Char → List Char → Bool
  | [], _ => true
  | _ :: _, [] => false
  | c :: cs, d :: ds => decide (c < d) || (c == d && precedes cs ds)

/-- The texts of the labels in order. -/
def labelTexts (ls : List Label) : List (List Char) :=
  (ls.map labelText).mergeSort precedes

/-! ## Lines -/

/-- The digits of a whole number. -/
def digits (n : Nat) : List Char := Nat.toDigits 10 n

/-- A metric's name with the name space before it. -/
def Family.fullName (f : Family) : List Char := nameSpace.toList ++ f.name.toList

/-- The line of help. -/
def helpLine (f : Family) : List Char :=
  "# HELP ".toList ++ f.fullName ++ ' ' :: f.help.toList

/-- The line with the metric's kind. -/
def kindLine (f : Family) : List Char :=
  "# TYPE ".toList ++ f.fullName ++ ' ' :: f.kind.label.toList

/-- The line with the sample. -/
def sampleLine (ls : List (List Char)) (f : Family) : List Char :=
  f.fullName ++
    '\x7b' :: (List.intercalate [','] ls ++ '\x7d' :: ' ' :: digits (Decimal.shortest f.value))

/-- The three lines of a metric. -/
def familyLines (ls : List (List Char)) (f : Family) : List (List Char) :=
  [helpLine f, kindLine f, sampleLine ls f]

/-- The text of metrics, all with the labels of the given texts: every line ends
    with a line end. -/
def text (fs : List Family) (ls : List (List Char)) : List Char :=
  (fs.flatMap (familyLines ls)).flatMap fun l => l ++ ['\n']

/-- The text of all metrics of a pool. -/
def export? (m : Metrics) (pool : String) (tags : List Label) : Option (List Char) :=
  (registered? m).map fun fs => text fs (labelTexts (labels pool tags))

end Exposition

end ObjectPool
