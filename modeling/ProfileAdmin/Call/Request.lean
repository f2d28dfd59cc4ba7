import ProfileAdmin.Call.Header
import ProfileAdmin.Call.Operation
import ProfileAdmin.Schema.Codec

/-!
# Call.Request — what is sent

One type of request for each operation, its document form, and its payload.
-/

namespace ProfileAdmin.Call

open Schema

/-- Asks for the status of profiles. -/
structure StatusRequest where
  header : RequestHeader
  iccids : List String
  deriving DecidableEq, Repr

/-- Asks to move a profile back to a state. -/
structure RecoverRequest where
  header : RequestHeader
  iccid : String
  target : String
  deriving DecidableEq, Repr

/-- Asks to cancel an order and leave the profile in a state. -/
structure CancelRequest where
  header : RequestHeader
  iccid : String
  target : String
  deriving DecidableEq, Repr

/-- Asks to reserve a profile. -/
structure DownloadRequest where
  header : RequestHeader
  iccid : String
  eid : Option String := none
  profileType : Option String := none
  deriving DecidableEq, Repr

/-- Asks to confirm an order, and to release the profile. -/
structure ConfirmRequest where
  header : RequestHeader
  iccid : String
  eid : Option String := none
  matchingId : Option String := none
  confirmationCode : Option String := none
  smdpAddress : Option String := none
  release : Bool := true
  deriving DecidableEq, Repr

/-- The request of an operation. -/
def Operation.Request : Operation → Type
  | .getProfileStatus => StatusRequest
  | .recoverProfile => RecoverRequest
  | .cancelOrder => CancelRequest
  | .downloadOrder => DownloadRequest
  | .confirmOrder => ConfirmRequest

/-- The document form of an entry that names a profile. -/
def iccidEntry : Shape String :=
  (record "struct IccidEntry" <| .cons (required "iccid" text) .nil).map
  (fun (iccid, ()) => iccid)
  (fun iccid => (iccid, ()))

/-- The document form of a status request. -/
def StatusRequest.shape : Shape StatusRequest :=
  (record "struct GetProfileStatusRequest" <|
    .cons (required "header" RequestHeader.shape) <|
    .cons (required "iccidList" (list iccidEntry)) .nil).map
  (fun (header, iccids, ()) => ⟨header, iccids⟩)
  (fun r => (r.header, r.iccids, ()))

/-- The document form of a recovery. -/
def RecoverRequest.shape : Shape RecoverRequest :=
  (record "struct RecoverProfileRequest" <|
    .cons (required "header" RequestHeader.shape) <|
    .cons (required "iccid" text) <|
    .cons (required "profileStatus" text) .nil).map
  (fun (header, iccid, target, ()) => ⟨header, iccid, target⟩)
  (fun r => (r.header, r.iccid, r.target, ()))

/-- The document form of a cancellation. -/
def CancelRequest.shape : Shape CancelRequest :=
  (record "struct CancelOrderRequest" <|
    .cons (required "header" RequestHeader.shape) <|
    .cons (required "iccid" text) <|
    .cons (required "finalProfileStatusIndicator" text) .nil).map
  (fun (header, iccid, target, ()) => ⟨header, iccid, target⟩)
  (fun r => (r.header, r.iccid, r.target, ()))

/-- The document form of a download order. -/
def DownloadRequest.shape : Shape DownloadRequest :=
  (record "struct DownloadOrderRequest" <|
    .cons (required "header" RequestHeader.shape) <|
    .cons (required "iccid" text) <|
    .cons (possible "eid" text) <|
    .cons (possible "profileType" text) .nil).map
  (fun (header, iccid, eid, profileType, ()) => ⟨header, iccid, eid, profileType⟩)
  (fun r => (r.header, r.iccid, r.eid, r.profileType, ()))

/-- The document form of a confirmation. -/
def ConfirmRequest.shape : Shape ConfirmRequest :=
  (record "struct ConfirmOrderRequest" <|
    .cons (required "header" RequestHeader.shape) <|
    .cons (required "iccid" text) <|
    .cons (possible "eid" text) <|
    .cons (possible "matchingId" text) <|
    .cons (possible "confirmationCode" text) <|
    .cons (possible "smdpAddress" text) <|
    .cons (required "releaseFlag" flag) .nil).map
  (fun (header, iccid, eid, matchingId, confirmationCode, smdpAddress, release, ()) =>
    ⟨header, iccid, eid, matchingId, confirmationCode, smdpAddress, release⟩)
  (fun r =>
    (r.header, r.iccid, r.eid, r.matchingId, r.confirmationCode, r.smdpAddress, r.release, ()))

/-- The document form of the request of an operation. -/
def Operation.requestShape : (op : Operation) → Shape op.Request
  | .getProfileStatus => StatusRequest.shape
  | .recoverProfile => RecoverRequest.shape
  | .cancelOrder => CancelRequest.shape
  | .downloadOrder => DownloadRequest.shape
  | .confirmOrder => ConfirmRequest.shape

/-- The bytes that carry a request. -/
def Operation.payload (op : Operation) (r : op.Request) : List UInt8 :=
  op.requestShape.encode r

end ProfileAdmin.Call
