/-
  ObjectPool.Scenario.Sighting

  What there is to be seen while a scenario runs, in order. Objects that are
  taken back from their borrowers at one time have no order among them, so in
  each unbroken run of sightings about such objects those are put in the order of
  pool and number; a record of a refused destruction stays behind the destruction.
-/

import ObjectPool.Journal

namespace ObjectPool.Scenario

/-- Where a sighting belongs among its neighbours. -/
inductive Standing where
  /-- It stays where it is. -/
  | fixed
  /-- It is about the object of this number of the named pool, which was taken back. -/
  | sorted (pool : String) (number : Nat)
  /-- It goes where the sighting before it goes, if that is about an object taken back. -/
  | follows

/-- Something to be seen. -/
structure Sighting where
  text : String
  standing : Standing := .fixed

namespace Sighting

/-- A sighting about an object taken back, with those that follow it. -/
structure Cluster where
  pool : String
  number : Nat
  texts : List String

/-- Whether a cluster may stand before another. -/
def Cluster.notAfter (a b : Cluster) : Bool :=
  decide (a.pool < b.pool) || (decide (a.pool = b.pool) && decide (a.number ≤ b.number))

/-- The texts of a run of clusters, each cluster put in its place. -/
def settle (run : List Cluster) : List String :=
  (run.mergeSort Cluster.notAfter).flatMap (·.texts)

/-- The texts of sightings in order, behind the run `run` of clusters in reverse. -/
def arrangeFrom : List Cluster → List Sighting → List String
  | run, [] => settle run.reverse
  | run, s :: rest =>
    match s.standing, run with
    | .sorted pool number, run => arrangeFrom (⟨pool, number, [s.text]⟩ :: run) rest
    | .follows, c :: run => arrangeFrom ({ c with texts := c.texts ++ [s.text] } :: run) rest
    | _, run => settle run.reverse ++ s.text :: arrangeFrom [] rest

/-- The texts of sightings in order. -/
def arrange (ss : List Sighting) : List String := arrangeFrom [] ss

end Sighting

end ObjectPool.Scenario
