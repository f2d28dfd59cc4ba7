import ProfileAdmin.Client.Activate
import ProfileAdmin.Proofs.Host.History

/-!
# Proofs.Client.Exchange — requests and what came back

1. **Requests**: the header of a request, the ICCIDs that it names, and which operations leave
   a profile as it is.
2. **Exchanges**: a request with its reply, and what a client reads in the reply.
3. **Conversations**: the exchanges of a history, in order, and its draws.
4. **Laws of conversations**: what holds of every exchange, given those before it.
-/

namespace ProfileAdmin

open Call
open Host (Deed Effect Program)
open Profile (Status Step)

/-! ## Requests -/

namespace Call

/-- The header of a request. -/
def Operation.requestHeader : (op : Operation) → op.Request → RequestHeader
  | .getProfileStatus, r => StatusRequest.header r
  | .recoverProfile, r => RecoverRequest.header r
  | .cancelOrder, r => CancelRequest.header r
  | .downloadOrder, r => DownloadRequest.header r
  | .confirmOrder, r => ConfirmRequest.header r

/-- The ICCIDs that a request names. -/
def Operation.iccids : (op : Operation) → op.Request → List String
  | .getProfileStatus, r => StatusRequest.iccids r
  | .recoverProfile, r => [RecoverRequest.iccid r]
  | .cancelOrder, r => [CancelRequest.iccid r]
  | .downloadOrder, r => [DownloadRequest.iccid r]
  | .confirmOrder, r => [ConfirmRequest.iccid r]

/-- Whether an operation is there to change something. -/
def Operation.isMutating : Operation → Bool
  | .getProfileStatus => false
  | _ => true

end Call

namespace Client

/-! ## Exchanges -/

/-- A request and what came back. -/
structure Exchange where
  op : Operation
  request : op.Request
  reply : Except String (List UInt8)

/-- What a client makes of a reply. -/
def reading (op : Operation) : Except String (List UInt8) → Except Error op.Response
  | .error reason => .error (.transport op reason)
  | .ok body =>
    match op.responseShape.decode body with
    | .error f => .error (.protocol (.undecodable op f))
    | .ok r => .ok r

namespace Exchange

/-- The header of the request. -/
def header (x : Exchange) : RequestHeader :=
  x.op.requestHeader x.request

/-- The ICCIDs that the request names. -/
def iccids (x : Exchange) : List String :=
  x.op.iccids x.request

/-- The outcome that the reply declares, if it can be read. -/
def execution? (x : Exchange) : Option ExecutionStatus :=
  (reading x.op x.reply).toOption.map x.op.execution

/-- The reply can be read and declares a status. -/
def Declares (x : Exchange) (status : String) : Prop :=
  x.execution?.map ExecutionStatus.status = some status

/-- The entries of a status report. -/
def report? : Exchange → Option (List Status)
  | ⟨.getProfileStatus, _, reply⟩ =>
    (reading .getProfileStatus reply).toOption.map StatusResponse.profiles
  | _ => none

/-- A status query brings a report exactly if its reply can be read, and then the entries that
are read. -/
theorem report?_eq_some_iff {r : Operation.getProfileStatus.Request}
    {reply : Except String (List UInt8)} {entries : List Status} :
    (Exchange.mk .getProfileStatus r reply).report? = some entries ↔
      ∃ response, reading .getProfileStatus reply = .ok response ∧
        StatusResponse.profiles response = entries := by
  change (reading .getProfileStatus reply).toOption.map StatusResponse.profiles = some entries ↔ _
  cases reading .getProfileStatus reply with
  | error e =>
      constructor
      · intro heq
        cases heq
      · rintro ⟨response, heq, -⟩
        cases heq
  | ok response =>
      constructor
      · intro heq
        exact ⟨response, rfl, Option.some.inj heq⟩
      · rintro ⟨other, heq, hentries⟩
        cases heq
        exact congrArg some hentries

/-- The entry of a status report that has no other. -/
def status? (x : Exchange) : Option Status :=
  match x.report? with
  | some [s] => some s
  | _ => none

/-- A status is taken from a report with this one entry. -/
theorem status?_eq_some_iff {x : Exchange} {s : Status} :
    x.status? = some s ↔ x.report? = some [s] := by
  unfold status?
  split
  · rename_i t heq
    simp [heq]
  · rename_i hne
    constructor
    · intro h
      cases h
    · intro h
      exact absurd h (hne s)

/-- A reply brings a status exactly if it can be read and this is its only entry. -/
theorem status?_eq_some_reading {r : Operation.getProfileStatus.Request}
    {reply : Except String (List UInt8)} {found : Status} :
    (Exchange.mk .getProfileStatus r reply).status? = some found ↔
      ∃ response, reading .getProfileStatus reply = .ok response ∧
        StatusResponse.profiles response = [found] :=
  status?_eq_some_iff.trans report?_eq_some_iff

/-- Only a status query brings a report. -/
theorem op_of_status? {x : Exchange} {s : Status} (h : x.status? = some s) :
    x.op = .getProfileStatus := by
  rw [status?_eq_some_iff] at h
  obtain ⟨op, request, reply⟩ := x
  cases op with
  | getProfileStatus => rfl
  | recoverProfile | cancelOrder | downloadOrder | confirmOrder => cases h

end Exchange

/-! ## Conversations -/

/-- The exchange that a deed is, if it is one. -/
def exchange? : Deed → Option Exchange
  | ⟨.exchange op r, reply⟩ => some ⟨op, r, reply⟩
  | _ => none

/-- The exchanges of a history. -/
def exchanges (h : List Deed) : List Exchange :=
  h.filterMap exchange?

@[simp] theorem exchanges_nil : exchanges [] = [] := rfl

@[simp] theorem exchanges_append (h₁ h₂ : List Deed) :
    exchanges (h₁ ++ h₂) = exchanges h₁ ++ exchanges h₂ :=
  List.filterMap_append

@[simp] theorem exchanges_draw (drawn : Effect.draw.Answer) (h : List Deed) :
    exchanges (⟨.draw, drawn⟩ :: h) = exchanges h := rfl

@[simp] theorem exchanges_note (e : Host.Event) (u : (Effect.note e).Answer) (h : List Deed) :
    exchanges (⟨.note e, u⟩ :: h) = exchanges h := rfl

/-- The draw that a deed is, if it is one. -/
def draw? : Deed → Option (Except String Draw)
  | ⟨.draw, drawn⟩ => some drawn
  | _ => none

/-- The draws of a history. -/
def draws (h : List Deed) : List (Except String Draw) :=
  h.filterMap draw?

@[simp] theorem draws_nil : draws [] = [] := rfl

@[simp] theorem draws_append (h₁ h₂ : List Deed) : draws (h₁ ++ h₂) = draws h₁ ++ draws h₂ :=
  List.filterMap_append

/-- The deed of drawing. -/
def drawing (drawn : Except String Draw) : Deed :=
  ⟨.draw, drawn⟩

@[simp] theorem draws_drawing (drawn : Except String Draw) (h : List Deed) :
    draws (drawing drawn :: h) = drawn :: draws h := rfl

@[simp] theorem exchanges_drawing (drawn : Except String Draw) (h : List Deed) :
    exchanges (drawing drawn :: h) = exchanges h := rfl

/-- What an attempt says to its endpoint and hears from it, in surroundings that are in
a state. -/
def conversation {α σ : Type} (answer : (e : Effect) → σ → e.Answer × σ) (a : Attempt α)
    (s : σ) : List Exchange :=
  exchanges (Program.history answer a.run s)

/-! ## Laws of conversations -/

/-- Every exchange stands in a relation to the exchanges before it. -/
def Throughout (P : List Exchange → Exchange → Prop) (xs : List Exchange) : Prop :=
  ∀ i (h : i < xs.length), P (xs.take i) xs[i]

instance {P : List Exchange → Exchange → Prop} [∀ before x, Decidable (P before x)]
    {xs : List Exchange} : Decidable (Throughout P xs) :=
  Nat.decidableBallLT xs.length fun i h => P (xs.take i) xs[i]

@[simp] theorem throughout_nil {P : List Exchange → Exchange → Prop} : Throughout P [] :=
  fun _ h => absurd h (Nat.not_lt_zero _)

/-- What holds throughout holds first with nothing before it, and then with the first exchange
before. -/
theorem throughout_cons {P : List Exchange → Exchange → Prop} {x : Exchange}
    {xs : List Exchange} :
    Throughout P (x :: xs) ↔ P [] x ∧ Throughout (fun before y => P (x :: before) y) xs := by
  constructor
  · intro h
    exact ⟨h 0 (Nat.succ_pos _), fun i hi => h (i + 1) (Nat.succ_lt_succ hi)⟩
  · rintro ⟨hx, hxs⟩ i hi
    cases i with
    | zero => exact hx
    | succ i => exact hxs i (Nat.lt_of_succ_lt_succ hi)

@[simp] theorem throughout_singleton {P : List Exchange → Exchange → Prop} {x : Exchange} :
    Throughout P [x] ↔ P [] x := by
  simp [throughout_cons]

/-- What follows some exchanges is judged with these before it. -/
theorem throughout_append {P : List Exchange → Exchange → Prop} {xs ys : List Exchange} :
    Throughout P (xs ++ ys) ↔
      Throughout P xs ∧ Throughout (fun before y => P (xs ++ before) y) ys := by
  induction xs generalizing P with
  | nil => simp
  | cons x xs ih => simp only [List.cons_append, throughout_cons, ih, and_assoc]

/-- The status that the last exchange reports, if it does. -/
def reported? (before : List Exchange) : Option Status :=
  before.getLast?.bind Exchange.status?

@[simp] theorem reported?_concat (before : List Exchange) (x : Exchange) :
    reported? (before ++ [x]) = x.status? := by
  simp [reported?]

end Client

end ProfileAdmin
