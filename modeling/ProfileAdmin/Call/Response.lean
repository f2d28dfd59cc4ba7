import ProfileAdmin.Call.Header
import ProfileAdmin.Profile.Status

/-!
# Call.Response — what comes back

One type of response for each operation, its document form, and the header that
each of them carries.
-/

namespace ProfileAdmin.Call

open Schema

/-- Reports the status of profiles. -/
structure StatusResponse where
  header : ResponseHeader
  profiles : List Profile.Status
  completedAt : String
  deriving DecidableEq, Repr

/-- Answers a recovery. -/
structure RecoverResponse where
  header : ResponseHeader
  deriving DecidableEq, Repr

/-- Answers a cancellation. -/
structure CancelResponse where
  header : ResponseHeader
  deriving DecidableEq, Repr

/-- Answers a download order. -/
structure DownloadResponse where
  header : ResponseHeader
  iccid : String
  deriving DecidableEq, Repr

/-- Answers a confirmation. -/
structure ConfirmResponse where
  header : ResponseHeader
  iccid : String
  eid : String
  matchingId : String
  smdpAddress : String
  deriving DecidableEq, Repr

/-- The response of an operation. -/
def Operation.Response : Operation → Type
  | .getProfileStatus => StatusResponse
  | .recoverProfile => RecoverResponse
  | .cancelOrder => CancelResponse
  | .downloadOrder => DownloadResponse
  | .confirmOrder => ConfirmResponse

/-- The document form of a status report. -/
def StatusResponse.shape : Shape StatusResponse :=
  (record "struct GetProfileStatusResponse" <|
    .cons (required "header" ResponseHeader.shape) <|
    .cons (defaulted "profileStatusList" (list Profile.Status.shape) []) <|
    .cons (defaulted "completionTimestamp" text "") .nil).map
  (fun (header, profiles, completedAt, ()) => ⟨header, profiles, completedAt⟩)
  (fun r => (r.header, r.profiles, r.completedAt, ()))

/-- The document form of the answer to a recovery. -/
def RecoverResponse.shape : Shape RecoverResponse :=
  (record "struct RecoverProfileResponse" <|
    .cons (required "header" ResponseHeader.shape) .nil).map
  (fun (header, ()) => ⟨header⟩)
  (fun r => (r.header, ()))

/-- The document form of the answer to a cancellation. -/
def CancelResponse.shape : Shape CancelResponse :=
  (record "struct CancelOrderResponse" <|
    .cons (required "header" ResponseHeader.shape) .nil).map
  (fun (header, ()) => ⟨header⟩)
  (fun r => (r.header, ()))

/-- The document form of the answer to a download order. -/
def DownloadResponse.shape : Shape DownloadResponse :=
  (record "struct DownloadOrderResponse" <|
    .cons (required "header" ResponseHeader.shape) <|
    .cons (defaulted "iccid" text "") .nil).map
  (fun (header, iccid, ()) => ⟨header, iccid⟩)
  (fun r => (r.header, r.iccid, ()))

/-- The document form of the answer to a confirmation. -/
def ConfirmResponse.shape : Shape ConfirmResponse :=
  (record "struct ConfirmOrderResponse" <|
    .cons (required "header" ResponseHeader.shape) <|
    .cons (defaulted "iccid" text "") <|
    .cons (nonEmptyText "eid") <|
    .cons (nonEmptyText "matchingId") <|
    .cons (nonEmptyText "smdpAddress") .nil).map
  (fun (header, iccid, eid, matchingId, smdpAddress, ()) =>
    ⟨header, iccid, eid, matchingId, smdpAddress⟩)
  (fun r => (r.header, r.iccid, r.eid, r.matchingId, r.smdpAddress, ()))

/-- The document form of the response of an operation. -/
def Operation.responseShape : (op : Operation) → Shape op.Response
  | .getProfileStatus => StatusResponse.shape
  | .recoverProfile => RecoverResponse.shape
  | .cancelOrder => CancelResponse.shape
  | .downloadOrder => DownloadResponse.shape
  | .confirmOrder => ConfirmResponse.shape

/-- The header of a response. -/
def Operation.header : (op : Operation) → op.Response → ResponseHeader
  | .getProfileStatus, r => StatusResponse.header r
  | .recoverProfile, r => RecoverResponse.header r
  | .cancelOrder, r => CancelResponse.header r
  | .downloadOrder, r => DownloadResponse.header r
  | .confirmOrder, r => ConfirmResponse.header r

/-- The outcome that a response declares. -/
def Operation.execution (op : Operation) (r : op.Response) : ExecutionStatus :=
  (op.header r).execution

end ProfileAdmin.Call
