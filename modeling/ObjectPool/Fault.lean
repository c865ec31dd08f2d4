/-
  ObjectPool.Fault

  What can go wrong in a call on a pool, each cause with its text. A factory's
  own failure travels inside the pool's.
-/

import ObjectPool.Duration

namespace ObjectPool

/-- The service of the factory that failed. -/
inductive Service where
  | create
  | activate
  | passivate
  | destroy
  deriving DecidableEq

namespace Service

/-- Every service that can fail. -/
def all : List Service := [create, activate, passivate, destroy]

/-- The service as it is named in texts. -/
def label : Service → String
  | create => "create"
  | activate => "activate"
  | passivate => "passivate"
  | destroy => "destroy"

/-- The service of a given label. -/
def ofLabel? (s : String) : Option Service := all.find? (·.label == s)

end Service

/-- Why a call on a pool failed. -/
inductive PoolError where
  /-- Nothing could be had within the time the caller was willing to wait. -/
  | exhausted (waited : Duration)
  /-- The object given back is not one that the pool has lent. -/
  | invalidReturn
  /-- The factory refused a service, for the reason it gives. -/
  | factory (service : Service) (reason : String)
  /-- The object was found unfit. -/
  | validationFailed
  /-- The pool is closed. -/
  | closed
  /-- The pool took the object back from a borrower that had given it up. -/
  | reclaimed
  /-- The configuration contradicts itself. -/
  | invalidConfiguration (reason : String)
  /-- The call was called off. -/
  | cancelled
  /-- The background upkeep could not be started. -/
  | maintenanceStart (reason : String)
  deriving DecidableEq

namespace PoolError

/-- The name of the cause, without what it carries. -/
def kind : PoolError → String
  | exhausted _ => "PoolExhausted"
  | invalidReturn => "InvalidReturn"
  | factory _ _ => "Factory"
  | validationFailed => "ValidationFailed"
  | closed => "Closed"
  | reclaimed => "Reclaimed"
  | invalidConfiguration _ => "InvalidConfiguration"
  | cancelled => "Cancelled"
  | maintenanceStart _ => "MaintenanceStart"

/-- The text shown to people. -/
def message : PoolError → String
  | exhausted waited =>
    "Pool exhausted - no object available after waiting " ++ waited.text
  | invalidReturn => "Returned object does not belong to the active set of this pool"
  | factory service reason => "Factory " ++ service.label ++ " failed: " ++ reason
  | validationFailed => "Object validation failed"
  | closed => "Pool is closed"
  | reclaimed => "Object was reclaimed by the pool as abandoned"
  | invalidConfiguration reason => "Invalid pool configuration: " ++ reason
  | cancelled => "Operation was cancelled"
  | maintenanceStart reason => "Failed to start maintenance task: " ++ reason

/-- The failure inside this one, if it wraps a failure of the factory. -/
def source : PoolError → Option String
  | factory _ reason => some reason
  | _ => none

end PoolError

end ObjectPool
