import Mathlib.Logic.Function.Basic
import ProfileAdmin.Proofs.Client.Exchange

/-!
# Proofs.Client.Endpoint — surroundings with an endpoint in them

1. **Keys**: the ICCID whose state answers a request, and what of the request counts.
2. **Endpoints**: one state for each ICCID, or the state of one ICCID alone. All that is
   not said to the endpoint is answered from a second state, which everyone shares.
3. **Scripts**: an endpoint that gives prepared replies.
-/

namespace ProfileAdmin

open Call
open Host (Effect)

/-! ## Keys -/

namespace Call

/-- The ICCID whose state answers a request. -/
def Operation.key (op : Operation) (r : op.Request) : String :=
  (op.iccids r).headD ""

/-- A request without the identifier of its call. -/
def Operation.anonymous : (op : Operation) → op.Request → op.Request
  | .getProfileStatus, r => { (r : StatusRequest) with header := ⟨r.header.requester, ""⟩ }
  | .recoverProfile, r => { (r : RecoverRequest) with header := ⟨r.header.requester, ""⟩ }
  | .cancelOrder, r => { (r : CancelRequest) with header := ⟨r.header.requester, ""⟩ }
  | .downloadOrder, r => { (r : DownloadRequest) with header := ⟨r.header.requester, ""⟩ }
  | .confirmOrder, r => { (r : ConfirmRequest) with header := ⟨r.header.requester, ""⟩ }

end Call

namespace Client

/-- An exchange without the identifier of its call. -/
def Exchange.anonymous (x : Exchange) : Exchange :=
  ⟨x.op, x.op.anonymous x.request, x.reply⟩

/-! ## Endpoints -/

variable {τ ρ : Type}

/-- How requests are answered from a state. -/
abbrev Service (τ : Type) :=
  (op : Operation) → op.Request → τ → Except String (List UInt8) × τ

/-- An endpoint that answers each request from the state of its key. Identifiers of calls
make no difference to it. -/
def served (serve : Service τ) (ambient : (e : Effect) → ρ → e.Answer × ρ) :
    (e : Effect) → (String → τ) × ρ → e.Answer × ((String → τ) × ρ)
  | .exchange op r, (states, a) =>
    let (reply, t) := serve op (op.anonymous r) (states (op.key r))
    (reply, Function.update states (op.key r) t, a)
  | e, (states, a) =>
    let (answer, a) := ambient e a
    (answer, states, a)

/-- An endpoint with one state, whatever a request names. -/
def alone (serve : Service τ) (ambient : (e : Effect) → ρ → e.Answer × ρ) :
    (e : Effect) → τ × ρ → e.Answer × (τ × ρ)
  | .exchange op r, (t, a) =>
    let (reply, t) := serve op (op.anonymous r) t
    (reply, t, a)
  | e, (t, a) =>
    let (answer, a) := ambient e a
    (answer, t, a)

/-! ## Scripts -/

/-- Gives the next of some replies, and then none. -/
def script : Service (List (Except String (List UInt8)))
  | _, _, [] => (.error "no reply left", [])
  | _, _, reply :: replies => (reply, replies)

/-- Nothing happens around the endpoint: all drawn bytes are zero, there are no files, and
the time stands still. -/
def still : (e : Effect) → Unit → e.Answer × Unit
  | .draw, _ => (.ok 0, ())
  | .exchange _ _, _ => (.error "", ())
  | .note _, _ => ((), ())
  | .print _, _ => (.ok (), ())
  | .fileBytes _, _ => (.error .absent, ())
  | .clock, _ => ((0 : Int), ())

/-- A report of one status, as it is sent. -/
def reporting (s : Profile.Status) : Except String (List UInt8) :=
  .ok (StatusResponse.shape.encode ⟨.success, [s], ""⟩)

/-- The answer to an order, as it is sent, declaring success. -/
def succeeding : Except String (List UInt8) :=
  .ok (DownloadResponse.shape.encode ⟨.success, ""⟩)

end Client

end ProfileAdmin
