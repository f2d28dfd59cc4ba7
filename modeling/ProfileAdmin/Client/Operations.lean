import ProfileAdmin.Call.Response
import ProfileAdmin.Host.Program

/-!
# Client.Operations — calling the functions of an endpoint

1. **Calls**: a request goes out once, and what comes back is decoded.
2. **Operations**: one for each function, with its rule for success.
-/

namespace ProfileAdmin

open Call
open Config (Debugging)
open Host (Program)
open Profile (Status)

/-- A client of one endpoint. It has no state of its own. -/
structure Client where
  requester : String
  debugging : Debugging
  deriving DecidableEq, Repr

namespace Client

/-- A program that may fail. -/
abbrev Attempt (α : Type) := ExceptT Error Program α

/-- An effect that does not fail. -/
def plain {α : Type} (p : Program α) : Attempt α :=
  ExceptT.lift p

/-! ## Calls -/

/-- A header with an identifier that no other header has. -/
def newHeader (c : Client) : Attempt RequestHeader := do
  match ← plain Program.draw with
  | .ok d => return ⟨c.requester, d.identifier⟩
  | .error reason => throw (.protocol (.callIdentifier reason))

/-- Sends a request and decodes the answer. -/
def invoke (c : Client) (op : Operation) (r : op.Request) : Attempt op.Response := do
  if c.debugging.payloads then plain (Program.note (.requestBody op (op.payload r)))
  match ← plain (Program.exchange op r) with
  | .error reason => throw (.transport op reason)
  | .ok body =>
    -- A body is shown before it is known whether it can be read.
    if c.debugging.payloads then plain (Program.note (.responseBody op body))
    match op.responseShape.decode body with
    | .error f => throw (.protocol (.undecodable op f))
    | .ok response =>
      plain (Program.note (.callCompleted op (op.execution response).status))
      return response

/-- Lets only a declared success pass. -/
def requireSuccess (op : Operation) (r : op.Response) : Attempt op.Response :=
  let e := op.execution r
  if e.isSuccess then return r else throw (.declined op e.status e.data)

/-! ## Operations -/

/-- The status of a profile, if the endpoint reports one. More than one entry, or an
entry for another profile, is refused. The declared outcome is not looked at. -/
def status? (c : Client) (iccid : String) : Attempt (Option Status) := do
  let header ← c.newHeader
  let response ← c.invoke .getProfileStatus (StatusRequest.mk header [iccid])
  match StatusResponse.profiles response with
  | [] =>
    plain (Program.note (.noStatus iccid))
    return none
  | [status] =>
    if status.iccid = iccid then return some status
    else throw (.otherProfile iccid status.iccid)
  | statuses => throw (.ambiguous iccid statuses.length)

/-- Moves a profile back to a state. Neither the state nor the declared outcome is
checked. -/
def recover (c : Client) (iccid target : String) : Attempt RecoverResponse := do
  let header ← c.newHeader
  c.invoke .recoverProfile (RecoverRequest.mk header iccid target)

/-- Cancels an order and leaves the profile in a state. Neither the state nor the declared
outcome is checked. -/
def cancel (c : Client) (iccid target : String) : Attempt CancelResponse := do
  let header ← c.newHeader
  c.invoke .cancelOrder (CancelRequest.mk header iccid target)

/-- Reserves a profile. -/
def download (c : Client) (iccid : String) : Attempt DownloadResponse := do
  let header ← c.newHeader
  let response ← c.invoke .downloadOrder { header, iccid : DownloadRequest }
  requireSuccess .downloadOrder response

/-- Confirms the order of a profile and releases the profile. -/
def confirm (c : Client) (iccid : String) : Attempt ConfirmResponse := do
  let header ← c.newHeader
  let response ← c.invoke .confirmOrder { header, iccid : ConfirmRequest }
  requireSuccess .confirmOrder response

end Client

end ProfileAdmin
