/-!
# Call.Operation — the functions of an administration endpoint

Every function has a name, which is also the last segment of its path.
-/

namespace ProfileAdmin.Call

/-- The functions of ES2+ that a profile's order goes through. -/
inductive Operation where
  | getProfileStatus
  | recoverProfile
  | cancelOrder
  | downloadOrder
  | confirmOrder
  deriving DecidableEq, Repr

/-- The functions in the order of their listing. -/
def Operation.all : List Operation :=
  [.getProfileStatus, .recoverProfile, .cancelOrder, .downloadOrder, .confirmOrder]

/-- The name of a function. -/
def Operation.name : Operation → String
  | .getProfileStatus => "getProfileStatus"
  | .recoverProfile => "recoverProfile"
  | .cancelOrder => "cancelOrder"
  | .downloadOrder => "downloadOrder"
  | .confirmOrder => "confirmOrder"

/-- The path under which an endpoint offers its functions. -/
def basePath : String := "/gsma/rsp2/es2plus"

/-- The path of a function. -/
def Operation.path (op : Operation) : String :=
  s!"{basePath}/{op.name}"

end ProfileAdmin.Call
