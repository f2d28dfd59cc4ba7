import ProfileAdmin.Schema.Record

/-!
# Call.Header — what every request and every response begins with

A request says who asks and names the call. A response declares how the call went,
in words of the endpoint; one of them means success.
-/

namespace ProfileAdmin.Call

open Schema

/-- The header of a request. -/
structure RequestHeader where
  requester : String
  callId : String
  deriving DecidableEq, Repr

/-- The document form of a request header. -/
def RequestHeader.shape : Shape RequestHeader :=
  (record "struct RequestHeader" <|
    .cons (required "functionRequesterIdentifier" text) <|
    .cons (required "functionCallIdentifier" text) .nil).map
  (fun (requester, callId, ()) => ⟨requester, callId⟩)
  (fun h => (h.requester, h.callId, ()))

/-- Why a call went as it did. -/
structure StatusCodeData where
  subjectCode : String
  reasonCode : String
  subjectIdentifier : String
  message : String
  deriving DecidableEq, Repr

/-- The document form of status code data. -/
def StatusCodeData.shape : Shape StatusCodeData :=
  (record "struct StatusCodeData" <|
    .cons (defaulted "subjectCode" text "") <|
    .cons (defaulted "reasonCode" text "") <|
    .cons (defaulted "subjectIdentifier" text "") <|
    .cons (defaulted "message" text "") .nil).map
  (fun (subjectCode, reasonCode, subjectIdentifier, message, ()) =>
    ⟨subjectCode, reasonCode, subjectIdentifier, message⟩)
  (fun d => (d.subjectCode, d.reasonCode, d.subjectIdentifier, d.message, ()))

/-- Status code data on one line. -/
def StatusCodeData.line (d : StatusCodeData) : String :=
  s!"subject={d.subjectCode} reason={d.reasonCode} subjectIdentifier={d.subjectIdentifier} message={d.message}"

/-- The outcome that an endpoint declares. -/
structure ExecutionStatus where
  status : String
  data : Option StatusCodeData
  deriving DecidableEq, Repr

namespace ExecutionStatus

/-- The declared success. -/
def success : String := "Executed-Success"

/-- All statuses that the protocol knows. -/
def literals : List String :=
  [success, "Executed-WithWarning", "Failed", "Expired"]

/-- Whether success is declared. -/
def isSuccess (e : ExecutionStatus) : Bool :=
  e.status == success

/-- The document form of a declared outcome. -/
def shape : Shape ExecutionStatus :=
  (record "struct FunctionExecutionStatus" <|
    .cons (required "status" text) <|
    .cons (possible "statusCodeData" StatusCodeData.shape) .nil).map
  (fun (status, data, ()) => ⟨status, data⟩)
  (fun e => (e.status, e.data, ()))

end ExecutionStatus

/-- The header of a response. -/
structure ResponseHeader where
  execution : ExecutionStatus
  deriving DecidableEq, Repr

/-- A header that declares a status and gives no reasons. -/
def ResponseHeader.declaring (status : String) : ResponseHeader :=
  ⟨⟨status, none⟩⟩

/-- A header that declares success. -/
def ResponseHeader.success : ResponseHeader :=
  declaring ExecutionStatus.success

/-- The document form of a response header. -/
def ResponseHeader.shape : Shape ResponseHeader :=
  (record "struct ResponseHeader" <|
    .cons (required "functionExecutionStatus" ExecutionStatus.shape) .nil).map
  (fun (execution, ()) => ⟨execution⟩)
  (fun h => (h.execution, ()))

end ProfileAdmin.Call
