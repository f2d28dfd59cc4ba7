import ProfileAdmin.Call.Request
import ProfileAdmin.Call.Response
import ProfileAdmin.Proofs.Schema.Record

/-!
# Proofs.Call.Meaning — what messages stand for

1. **Headers**, and the entries of a status report.
2. **Requests.**
3. **Responses.**
-/

namespace ProfileAdmin

open Schema (Meaning Meanings)

/-! ## Headers -/

/-- An entry of a status report. -/
def Profile.Status.meaning : Meaning Profile.Status.shape :=
  .map (.record _ <| .required .text <| .defaulted .text <| .required .text <| .defaulted .text <|
    .defaulted .flag <| .defaulted .text .nil) _ _ fun _ => rfl

namespace Call

/-- The header of a request. -/
def RequestHeader.meaning : Meaning RequestHeader.shape :=
  .map (.record _ <| .required .text <| .required .text .nil) _ _ fun _ => rfl

/-- Why a call went as it did. -/
def StatusCodeData.meaning : Meaning StatusCodeData.shape :=
  .map (.record _ <| .defaulted .text <| .defaulted .text <| .defaulted .text <|
    .defaulted .text .nil) _ _ fun _ => rfl

/-- The outcome that an endpoint declares. -/
def ExecutionStatus.meaning : Meaning ExecutionStatus.shape :=
  .map (.record _ <| .required .text <| .possible StatusCodeData.meaning .nil) _ _ fun _ => rfl

/-- The header of a response. -/
def ResponseHeader.meaning : Meaning ResponseHeader.shape :=
  .map (.record _ <| .required ExecutionStatus.meaning .nil) _ _ fun _ => rfl

/-! ## Requests -/

/-- An entry that names a profile. -/
def iccidEntryMeaning : Meaning iccidEntry :=
  .map (.record _ <| .required .text .nil) _ _ fun _ => rfl

/-- The request of an operation. -/
def Operation.requestMeaning : (op : Operation) → Meaning op.requestShape
  | .getProfileStatus =>
    .map (.record _ <| .required RequestHeader.meaning <| .required iccidEntryMeaning.list .nil)
      _ _ fun _ => rfl
  | .recoverProfile =>
    .map (.record _ <| .required RequestHeader.meaning <| .required .text <| .required .text .nil)
      _ _ fun _ => rfl
  | .cancelOrder =>
    .map (.record _ <| .required RequestHeader.meaning <| .required .text <| .required .text .nil)
      _ _ fun _ => rfl
  | .downloadOrder =>
    .map (.record _ <| .required RequestHeader.meaning <| .required .text <| .possible .text <|
      .possible .text .nil) _ _ fun _ => rfl
  | .confirmOrder =>
    .map (.record _ <| .required RequestHeader.meaning <| .required .text <| .possible .text <|
      .possible .text <| .possible .text <| .possible .text <| .required .flag .nil)
      _ _ fun _ => rfl

/-! ## Responses -/

/-- The response of an operation. -/
def Operation.responseMeaning : (op : Operation) → Meaning op.responseShape
  | .getProfileStatus =>
    .map (.record _ <| .required ResponseHeader.meaning <|
      .defaulted Profile.Status.meaning.list <| .defaulted .text .nil) _ _ fun _ => rfl
  | .recoverProfile => .map (.record _ <| .required ResponseHeader.meaning .nil) _ _ fun _ => rfl
  | .cancelOrder => .map (.record _ <| .required ResponseHeader.meaning .nil) _ _ fun _ => rfl
  | .downloadOrder =>
    .map (.record _ <| .required ResponseHeader.meaning <| .defaulted .text .nil)
      _ _ fun _ => rfl
  | .confirmOrder =>
    .map (.record _ <| .required ResponseHeader.meaning <| .defaulted .text <|
      .nonEmptyText <| .nonEmptyText <| .nonEmptyText .nil) _ _ fun _ => rfl

/-- No message nests its brackets too deep to be read. -/
theorem Operation.height_requestMeaning (op : Operation) :
    op.requestMeaning.height ≤ Schema.deepest := by
  cases op <;> decide

theorem Operation.height_responseMeaning (op : Operation) :
    op.responseMeaning.height ≤ Schema.deepest := by
  cases op <;> decide

end Call

end ProfileAdmin
