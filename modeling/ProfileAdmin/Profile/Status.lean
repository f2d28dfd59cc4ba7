import ProfileAdmin.Profile.Lifecycle
import ProfileAdmin.Schema.Record

/-!
# Profile.Status — what an endpoint reports about a profile
-/

namespace ProfileAdmin.Profile

open Schema

/-- One entry of a status report. -/
structure Status where
  iccid : String
  eid : String
  /-- The state in the endpoint's words, which need not be one of `State`. -/
  state : String
  /-- The activation code token, empty until the profile is released. -/
  token : String
  locked : Bool
  updatedAt : String
  deriving DecidableEq, Repr

/-- A profile is activated once it carries a token. -/
def Status.isActivated (s : Status) : Bool :=
  !s.token.isEmpty

/-- The reported state, if a transition or the end of the lifecycle is known for it. -/
def Status.lifecycle? (s : Status) : Option State :=
  State.ofName? s.state

/-- The document form of an entry. -/
def Status.shape : Shape Status :=
  (record "struct ProfileStatus" <|
    .cons (required "iccid" text) <|
    .cons (defaulted "eid" text "") <|
    .cons (required "state" text) <|
    .cons (defaulted "acToken" text "") <|
    .cons (defaulted "lockFlag" flag false) <|
    .cons (defaulted "status_last_update_timestamp" text "") .nil).map
  (fun (iccid, eid, state, token, locked, updatedAt, ()) =>
    ⟨iccid, eid, state, token, locked, updatedAt⟩)
  (fun s => (s.iccid, s.eid, s.state, s.token, s.locked, s.updatedAt, ()))

end ProfileAdmin.Profile
