import ProfileAdmin.Proofs.Client.Attempt

/-!
# Proofs.Client.Errand — the operations of a client, seen alike

1. **Errands**: an operation together with what it is called for.
2. **Conclusions**: what an errand makes of a response.
3. **Going**: an errand draws an identifier and sends one request under it. Without an identifier
   it sends nothing, and whatever the reply is, it sends nothing more.
-/

namespace ProfileAdmin.Client

open Call
open Host (Deed Program)
open Host.Program
open Profile (Status)

variable {β : Type} {c : Client} {h : List Deed}

/-! ## Errands -/

/-- The operations of a client, with what they are called for. -/
inductive Errand where
  | query (iccid : String)
  | recover (iccid target : String)
  | cancel (iccid target : String)
  | download (iccid : String)
  | confirm (iccid : String)
  deriving DecidableEq

namespace Errand

/-- The function of the endpoint that is called. -/
def op : Errand → Operation
  | .query _ => .getProfileStatus
  | .recover _ _ => .recoverProfile
  | .cancel _ _ => .cancelOrder
  | .download _ => .downloadOrder
  | .confirm _ => .confirmOrder

/-- The profile that an errand is about. -/
def iccid : Errand → String
  | .query iccid | .recover iccid _ | .cancel iccid _ | .download iccid | .confirm iccid => iccid

/-- The request that is sent under a header. -/
def request (header : RequestHeader) : (e : Errand) → e.op.Request
  | .query iccid => StatusRequest.mk header [iccid]
  | .recover iccid target => RecoverRequest.mk header iccid target
  | .cancel iccid target => CancelRequest.mk header iccid target
  | .download iccid => DownloadRequest.mk header iccid none none
  | .confirm iccid => ConfirmRequest.mk header iccid none none none none true

/-- What an errand gives. -/
abbrev Result : Errand → Type
  | .query _ => Option Status
  | .recover _ _ => RecoverResponse
  | .cancel _ _ => CancelResponse
  | .download _ => DownloadResponse
  | .confirm _ => ConfirmResponse

/-- Calls the operation. -/
def attempt (c : Client) : (e : Errand) → Attempt e.Result
  | .query iccid => c.status? iccid
  | .recover iccid target => c.recover iccid target
  | .cancel iccid target => c.cancel iccid target
  | .download iccid => c.download iccid
  | .confirm iccid => c.confirm iccid

end Errand

/-! ## Conclusions -/

/-- The entry for a profile, among the entries of a report. -/
def entryFor (iccid : String) : List Status → Except Error (Option Status)
  | [] => .ok none
  | [s] => if s.iccid = iccid then .ok (some s) else .error (.otherProfile iccid s.iccid)
  | statuses => .error (.ambiguous iccid statuses.length)

/-- A response, if it declares success. -/
def declared (op : Operation) (response : op.Response) : Except Error op.Response :=
  if (op.execution response).isSuccess then .ok response
  else .error (.declined op (op.execution response).status (op.execution response).data)

/-- What an errand makes of a response. -/
def Errand.conclude : (e : Errand) → e.op.Response → Except Error e.Result
  | .query iccid, response => entryFor iccid (StatusResponse.profiles response)
  | .recover _ _, response => .ok response
  | .cancel _ _, response => .ok response
  | .download _, response => declared .downloadOrder response
  | .confirm _, response => declared .confirmOrder response

/-- Only a declared success passes. -/
theorem requireSuccess_returns {op : Operation} {response : op.Response}
    {r : Except Error op.Response}
    (hr : Program.Returns (requireSuccess op response).run h r) :
    Silent h ∧ r = declared op response := by
  unfold requireSuccess at hr
  dsimp only at hr
  unfold declared
  split at hr
  · rename_i hsuccess
    obtain ⟨rfl, rfl⟩ := returns_pure_iff.mp hr
    exact ⟨silent_nil, by rw [if_pos hsuccess]⟩
  · rename_i hsuccess
    obtain ⟨rfl, rfl⟩ := returns_throw_iff.mp hr
    exact ⟨silent_nil, by rw [if_neg hsuccess]⟩

/-! ## Going -/

/-- How an errand can go. -/
inductive Errand.Goes (c : Client) (e : Errand) : List Deed → Except Error e.Result → Prop where
  /-- There is no identifier for the call. -/
  | unsent (reason : String) :
      Goes c e [drawing (.error reason)] (.error (.protocol (.callIdentifier reason)))
  /-- One request goes out under the identifier, and its reply decides. -/
  | sent {d : Draw} {h : List Deed} {reply : Except String (List UInt8)} (undrawn : draws h = [])
      (said : exchanges h = [⟨e.op, e.request ⟨c.requester, d.identifier⟩, reply⟩]) :
      Goes c e (drawing (.ok d) :: h) ((reading e.op reply).bind e.conclude)

/-- An attempt that calls an operation under a header of its own, and says no more, goes like an
errand. -/
theorem Errand.goes_of_returns (e : Errand) {x : RequestHeader → Attempt e.Result}
    (hx : ∀ header h r, Program.Returns (x header).run h r → draws h = [] ∧
      ∃ reply, exchanges h = [⟨e.op, e.request header, reply⟩] ∧
        r = (reading e.op reply).bind e.conclude)
    {r : Except Error e.Result} (hr : Program.Returns (c.newHeader >>= x).run h r) :
    e.Goes c h r := by
  rcases returns_seq_iff.mp hr with ⟨error, rfl, hn⟩ | ⟨h₁, h₂, header, rfl, hn, hrest⟩
  -- A draw that fails ends the errand before anything is sent.
  · obtain ⟨drawn, rfl, heq⟩ := newHeader_returns hn
    cases drawn with
    | error reason =>
        cases heq
        exact Goes.unsent reason
    | ok d => cases heq
  · obtain ⟨drawn, rfl, heq⟩ := newHeader_returns hn
    cases drawn with
    | error reason => cases heq
    | ok d =>
        cases heq
        obtain ⟨hdraws, reply, hsaid, rfl⟩ := hx _ h₂ r hrest
        exact Goes.sent hdraws hsaid

/-- A call whose response is dealt with in silence. -/
theorem invoke_seq_returns {op : Operation} {request : op.Request} {f : op.Response → Attempt β}
    {g : op.Response → Except Error β}
    (hf : ∀ response h r, Program.Returns (f response).run h r → Silent h ∧ r = g response)
    {r : Except Error β} (hr : Program.Returns (c.invoke op request >>= f).run h r) :
    draws h = [] ∧ ∃ reply, exchanges h = [⟨op, request, reply⟩] ∧
      r = (reading op reply).bind g := by
  rcases returns_seq_iff.mp hr with ⟨e, rfl, hi⟩ | ⟨h₁, h₂, response, rfl, hi, hrest⟩
  · obtain ⟨hdraws, reply, hsaid, hread⟩ := invoke_returns hi
    refine ⟨hdraws, reply, hsaid, ?_⟩
    rw [← hread]
    rfl
  · obtain ⟨hdraws, reply, hsaid, hread⟩ := invoke_returns hi
    obtain ⟨hsilent, rfl⟩ := hf response h₂ r hrest
    -- The exchange of the call is all that is said, and what comes behind it is silent.
    refine ⟨?_, reply, ?_, ?_⟩
    · rw [draws_append, hdraws, hsilent.draws_eq]
      rfl
    · rw [exchanges_append, hsaid, hsilent.exchanges_eq]
      rfl
    · rw [← hread]
      rfl

/-- A query logs at most that there is no entry. -/
theorem Errand.query_returns {iccid : String} {r : Except Error (Option Status)}
    (hr : Program.Returns (c.status? iccid).run h r) : (Errand.query iccid).Goes c h r := by
  refine goes_of_returns (.query iccid) (fun header h r hr => ?_) hr
  refine invoke_seq_returns (fun response h r hlast => ?_) hr
  change Silent h ∧ r = entryFor iccid (StatusResponse.profiles response)
  -- No entry, one entry, several entries.
  split at hlast
  case h_1 hnone =>
    obtain ⟨h₁, h₂, u, rfl, hn, hdone⟩ := returns_plain_seq_iff.mp hlast
    obtain ⟨rfl, rfl⟩ := returns_pure_iff.mp hdone
    exact ⟨(silent_note hn).append silent_nil, by rw [hnone, entryFor]⟩
  case h_2 status hone =>
    rw [hone, entryFor]
    split at hlast
    · obtain ⟨rfl, rfl⟩ := returns_pure_iff.mp hlast
      exact ⟨silent_nil, by simp [*]⟩
    · obtain ⟨rfl, rfl⟩ := returns_throw_iff.mp hlast
      exact ⟨silent_nil, by simp [*]⟩
  case h_3 hnone hone =>
    obtain ⟨rfl, rfl⟩ := returns_throw_iff.mp hlast
    refine ⟨silent_nil, ?_⟩
    unfold entryFor
    split
    · exact absurd ‹_› hnone
    · exact absurd ‹_› (hone _)
    · rfl

/-- Whatever a client does is done so. -/
theorem Errand.returns {e : Errand} {r : Except Error e.Result}
    (hr : Program.Returns (e.attempt c).run h r) : e.Goes c h r := by
  -- Without anything to conclude, the response is what the reply reads as.
  have hbare : ∀ {op : Operation} {request : op.Request} {h r},
      Program.Returns (c.invoke op request).run h r → draws h = [] ∧
        ∃ reply, exchanges h = [⟨op, request, reply⟩] ∧ r = (reading op reply).bind .ok := by
    intro op request h r hr
    obtain ⟨hdraws, reply, hsaid, hread⟩ := invoke_returns hr
    refine ⟨hdraws, reply, hsaid, hread.trans ?_⟩
    cases reading op reply <;> rfl
  cases e with
  | query iccid => exact query_returns hr
  | recover iccid target => exact goes_of_returns _ (fun header h r hr => hbare hr) hr
  | cancel iccid target => exact goes_of_returns _ (fun header h r hr => hbare hr) hr
  | download iccid =>
      refine goes_of_returns _ (fun header h r hr => ?_) hr
      exact invoke_seq_returns (fun response h r hlast => requireSuccess_returns hlast) hr
  | confirm iccid =>
      refine goes_of_returns _ (fun header h r hr => ?_) hr
      exact invoke_seq_returns (fun response h r hlast => requireSuccess_returns hlast) hr

end ProfileAdmin.Client
