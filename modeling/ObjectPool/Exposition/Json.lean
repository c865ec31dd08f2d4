/-
  ObjectPool.Exposition.Json

  The exposition of a pool's metrics as a JSON document, line by line, and the
  tags for it read from one.
-/

import ObjectPool.Exposition
import ObjectPool.Json.Reader

namespace ObjectPool.Exposition

/-- Tags: the members of an object, each with a text as its value. -/
def tags? (j : Json) : Option (List Label) := do
  let members ← j.obj?
  members.mapM fun m => m.2.str?.map fun s => (m.1, s)

/-- The text of all metrics, cut at the line ends. -/
def json (m : Metrics) (pool : String) (tags : List Label) : Json :=
  match export? m pool tags with
  | some s => .arr (((String.ofList s).splitOn "\n").map .str)
  | none => .null

end ObjectPool.Exposition
