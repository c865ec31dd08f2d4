/-
  ObjectPool.Lifecycle

  The states an object passes through while a pool has it. Each has a name of its
  own and a label under which it is shown to people.
-/

namespace ObjectPool

/-- Where an object stands in its life with the pool. -/
inductive Lifecycle where
  /-- In the idle queue, free to be lent. -/
  | idle
  /-- Lent to a borrower. -/
  | allocated
  /-- Looked at by the idle sweep. -/
  | evictionTest
  /-- Tried out by the idle sweep. -/
  | validation
  /-- Given up by its borrower and being taken back. -/
  | abandoned
  /-- On its way back from a borrower. -/
  | returning
  /-- Out of circulation for good. -/
  | invalid
  deriving DecidableEq

namespace Lifecycle

/-- Every state, in the order of the declaration. -/
def all : List Lifecycle :=
  [idle, allocated, evictionTest, validation, abandoned, returning, invalid]

/-- The state as it is shown to people. -/
def label : Lifecycle → String
  | idle => "IDLE"
  | allocated => "ALLOCATED"
  | evictionTest => "EVICTION_TEST"
  | validation => "VALIDATION"
  | abandoned => "ABANDONED"
  | returning => "RETURNING"
  | invalid => "INVALID"

/-- The state's own name. -/
def name : Lifecycle → String
  | idle => "Idle"
  | allocated => "Allocated"
  | evictionTest => "EvictionTest"
  | validation => "Validation"
  | abandoned => "Abandoned"
  | returning => "Returning"
  | invalid => "Invalid"

/-- The state of a given name. -/
def ofName? (s : String) : Option Lifecycle := all.find? (·.name == s)

/-- Whether the pool has taken the object away from its borrower. -/
def isReclaimed : Lifecycle → Bool
  | abandoned | invalid => true
  | _ => false

end Lifecycle

end ObjectPool
