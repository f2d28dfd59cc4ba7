import ProfileAdmin.Proofs.Client.Errand

/-!
# Proofs.Client.Operations — what becomes of queries and orders

1. **Queries**: `Query` lists how reading the status of a profile can go.
2. **Orders**: `Order` lists how a step can go.
-/

namespace ProfileAdmin.Client

open Call
open Host (Deed Program)
open Host.Program
open Profile (Status Step)

variable {c : Client} {iccid : String} {h : List Deed}

/-! ## Queries -/

/-- A status query about one profile, with its reply. -/
def queryOf (c : Client) (iccid callId : String) (reply : Except String (List UInt8)) : Exchange :=
  ⟨.getProfileStatus, StatusRequest.mk ⟨c.requester, callId⟩ [iccid], reply⟩

/-- A query gives the entry for its profile in the report that it brings. -/
theorem status?_returns {r : Except Error (Option Status)}
    (hr : Program.Returns (c.status? iccid).run h r) :
    (exchanges h = [] ∧ ∃ reason, r = .error (.protocol (.callIdentifier reason))) ∨
      ∃ callId reply, exchanges h = [c.queryOf iccid callId reply] ∧
        r = (reading .getProfileStatus reply).bind fun response =>
          entryFor iccid (StatusResponse.profiles response) := by
  have hgoes : (Errand.query iccid).Goes c h r := Errand.query_returns hr
  rcases hgoes with reason | ⟨undrawn, said⟩
  · exact Or.inl ⟨rfl, reason, rfl⟩
  · exact Or.inr ⟨_, _, said, rfl⟩

/-- How reading the status of a profile that has to exist can go. -/
inductive Query (c : Client) (iccid : String) : List Exchange → Except Error Status → Prop where
  /-- There was no identifier for the call. -/
  | unsent (reason : String) : Query c iccid [] (.error (.protocol (.callIdentifier reason)))
  /-- The reply has no entry for the profile, or others beside it. The profile is unknown if the
  reply has no entries. -/
  | missed {callId : String} {reply : Except String (List UInt8)} {e : Error}
      (other : ∀ s, (c.queryOf iccid callId reply).status? = some s → s.iccid ≠ iccid)
      (unlisted : (c.queryOf iccid callId reply).report? = some [] → e = .unknownProfile iccid) :
      Query c iccid [c.queryOf iccid callId reply] (.error e)
  /-- The only entry of the reply is for the profile. -/
  | found {callId : String} {reply : Except String (List UInt8)} {s : Status}
      (entry : (c.queryOf iccid callId reply).status? = some s) (same : s.iccid = iccid) :
      Query c iccid [c.queryOf iccid callId reply] (.ok s)

/-- An entry is taken if it is the only one and names the profile. -/
theorem entryFor_eq_some_iff {statuses : List Status} {s : Status} :
    entryFor iccid statuses = .ok (some s) ↔ statuses = [s] ∧ s.iccid = iccid := by
  match statuses with
  | [] => simp [entryFor]
  | [t] =>
      by_cases ht : t.iccid = iccid
      · constructor
        · intro heq
          simp only [entryFor, if_pos ht] at heq
          cases heq
          exact ⟨rfl, ht⟩
        · rintro ⟨heq, -⟩
          cases heq
          simp [entryFor, ht]
      · constructor
        · intro heq
          simp only [entryFor, if_neg ht] at heq
          cases heq
        · rintro ⟨heq, hsame⟩
          cases heq
          exact absurd hsame ht
  | t :: u :: others => simp [entryFor]

/-- A query gives an entry exactly if it is the only one of the reply, and for the profile. -/
theorem query_eq_some_iff {callId : String} {reply : Except String (List UInt8)} {s : Status} :
    ((reading .getProfileStatus reply).bind fun response =>
        entryFor iccid (StatusResponse.profiles response)) = .ok (some s) ↔
      (c.queryOf iccid callId reply).status? = some s ∧ s.iccid = iccid := by
  constructor
  · intro hentry
    cases hread : reading .getProfileStatus reply with
    | error e =>
        rw [hread] at hentry
        cases hentry
    | ok response =>
        rw [hread] at hentry
        obtain ⟨hentries, hsame⟩ := entryFor_eq_some_iff.mp hentry
        exact ⟨Exchange.status?_eq_some_reading.mpr ⟨response, hread, hentries⟩, hsame⟩
  · rintro ⟨hstatus, hsame⟩
    obtain ⟨response, hread, hentries⟩ := Exchange.status?_eq_some_reading.mp hstatus
    rw [hread]
    exact entryFor_eq_some_iff.mpr ⟨hentries, hsame⟩

/-- A report without entries has none for the profile, whatever the reply declares. -/
theorem query_eq_none_of_unlisted {callId : String} {reply : Except String (List UInt8)}
    (hreport : (c.queryOf iccid callId reply).report? = some []) :
    ((reading .getProfileStatus reply).bind fun response =>
      entryFor iccid (StatusResponse.profiles response)) = .ok none := by
  obtain ⟨response, hread, hnone⟩ := Exchange.report?_eq_some_iff.mp hreport
  rw [hread]
  change entryFor iccid (StatusResponse.profiles response) = .ok none
  rw [hnone, entryFor]

/-- Reading the status of a profile goes in one of the listed ways. -/
theorem status_returns {r : Except Error Status}
    (hr : Program.Returns (c.status iccid).run h r) : Query c iccid (exchanges h) r := by
  -- Unless the query gave an entry, none of its entries is the only one for the profile.
  have hmissed : ∀ {callId reply} {q : Except Error (Option Status)} {e : Error},
      (q = (reading .getProfileStatus reply).bind fun response =>
        entryFor iccid (StatusResponse.profiles response)) → (∀ s, q ≠ .ok (some s)) →
      (q = .ok none → e = .unknownProfile iccid) →
      Query c iccid [c.queryOf iccid callId reply] (.error e) := by
    intro callId reply q e hq hne hnone
    refine Query.missed (fun s hs hsame => ?_) fun hreport => ?_
    · exact hne s (hq.trans (query_eq_some_iff.mpr ⟨hs, hsame⟩))
    · exact hnone (hq.trans (query_eq_none_of_unlisted hreport))
  rcases returns_seq_iff.mp hr with ⟨e, rfl, hq⟩ | ⟨h₁, h₂, q, rfl, hq, hrest⟩
  · rcases status?_returns hq with ⟨hx, reason, he⟩ | ⟨callId, reply, hx, he⟩
    · cases he
      rw [hx]
      exact Query.unsent reason
    · rw [hx]
      exact hmissed he (fun s => nofun) nofun
  · rcases status?_returns hq with ⟨hx, reason, he⟩ | ⟨callId, reply, hx, he⟩
    · cases he
    -- Without an entry the profile is unknown, and this is said without another request.
    rcases q with _ | s
    · obtain ⟨rfl, rfl⟩ := returns_throw_iff.mp hrest
      rw [exchanges_append, hx]
      exact hmissed he (fun s => nofun) fun _ => rfl
    · obtain ⟨rfl, rfl⟩ := returns_pure_iff.mp hrest
      obtain ⟨hs, hsame⟩ := query_eq_some_iff.mp he.symm
      rw [exchanges_append, hx]
      exact Query.found hs hsame

/-- A query sends one request at most, and it names the profile. -/
theorem Query.eq_nil_or_singleton {xs : List Exchange} {r : Except Error Status}
    (h : Query c iccid xs r) :
    xs = [] ∨ ∃ q, xs = [q] ∧ q.op = .getProfileStatus ∧ q.iccids = [iccid] := by
  cases h with
  | unsent reason => exact Or.inl rfl
  | missed other unlisted => exact Or.inr ⟨_, rfl, rfl, rfl⟩
  | found entry same => exact Or.inr ⟨_, rfl, rfl, rfl⟩

/-- What a query gives is the only entry of the reply. -/
theorem Query.eq_singleton_of_ok {xs : List Exchange} {s : Status}
    (h : Query c iccid xs (.ok s)) :
    ∃ q, xs = [q] ∧ q.op = .getProfileStatus ∧ q.iccids = [iccid] ∧ q.status? = some s ∧
      s.iccid = iccid := by
  cases h with
  | found entry same => exact ⟨_, rfl, rfl, rfl, entry, same⟩

/-! ## Orders -/

/-- The request that takes a step. -/
def orderRequest (iccid : String) (header : RequestHeader) : (step : Step) → step.operation.Request
  | .download => DownloadRequest.mk header iccid none none
  | .confirm => ConfirmRequest.mk header iccid none none none none true

/-- A request that takes a step, with its reply. -/
def orderOf (c : Client) (iccid callId : String) (reply : Except String (List UInt8))
    (step : Step) : Exchange :=
  ⟨step.operation, orderRequest iccid ⟨c.requester, callId⟩ step, reply⟩

/-- An order names its profile and no other. -/
theorem orderOf_iccids (callId : String) (reply : Except String (List UInt8)) (step : Step) :
    (c.orderOf iccid callId reply step).iccids = [iccid] := by
  cases step with
  | download => rfl
  | confirm => rfl

/-- How taking a step can go. -/
inductive Order (c : Client) (iccid : String) (step : Step) :
    List Exchange → Except Error Unit → Prop where
  /-- There was no identifier for the call. -/
  | unsent (reason : String) : Order c iccid step [] (.error (.protocol (.callIdentifier reason)))
  /-- The reply does not declare success. -/
  | refused {callId : String} {reply : Except String (List UInt8)} {e : Error}
      (declined : ¬ (c.orderOf iccid callId reply step).Declares ExecutionStatus.success) :
      Order c iccid step [c.orderOf iccid callId reply step] (.error e)
  /-- The reply declares success. -/
  | accepted {callId : String} {reply : Except String (List UInt8)}
      (declared : (c.orderOf iccid callId reply step).Declares ExecutionStatus.success) :
      Order c iccid step [c.orderOf iccid callId reply step] (.ok ())

/-- A step sends one request at most, and it names the profile. -/
theorem Order.eq_nil_or_singleton {step : Step} {xs : List Exchange} {r : Except Error Unit}
    (h : Order c iccid step xs r) :
    xs = [] ∨ ∃ x, xs = [x] ∧ x.op = step.operation ∧ x.iccids = [iccid] := by
  cases h with
  | unsent reason => exact Or.inl rfl
  | refused declined => exact Or.inr ⟨_, rfl, rfl, orderOf_iccids _ _ _⟩
  | accepted declared => exact Or.inr ⟨_, rfl, rfl, orderOf_iccids _ _ _⟩

/-- A step that is taken was answered with success. -/
theorem Order.eq_singleton_of_ok {step : Step} {xs : List Exchange}
    (h : Order c iccid step xs (.ok ())) :
    ∃ x, xs = [x] ∧ x.op = step.operation ∧ x.iccids = [iccid] ∧
      x.Declares ExecutionStatus.success := by
  cases h with
  | accepted declared => exact ⟨_, rfl, rfl, orderOf_iccids _ _ _, declared⟩

/-- Both steps are taken alike: a request goes out, and its reply has to declare success. -/
theorem take_eq (c : Client) (iccid : String) (step : Step) :
    c.take iccid step = ((c.newHeader >>= fun header =>
      c.invoke step.operation (orderRequest iccid header step) >>=
        requireSuccess step.operation) >>= fun _ => pure ()) := by
  cases step <;> rfl

theorem declares_iff {op : Operation} {request : op.Request} {reply : Except String (List UInt8)}
    {status : String} :
    Exchange.Declares ⟨op, request, reply⟩ status ↔
      ∃ response, reading op reply = .ok response ∧ (op.execution response).status = status := by
  unfold Exchange.Declares Exchange.execution?
  cases hread : reading op reply with
  | error e => simp [Except.toOption]
  | ok response => simp [Except.toOption]

/-- A response is accepted exactly if the reply declares success. -/
theorem bind_declared (op : Operation) (request : op.Request)
    (reply : Except String (List UInt8)) :
    (Exchange.Declares ⟨op, request, reply⟩ ExecutionStatus.success ∧
        ∃ response, (reading op reply).bind (declared op) = .ok response) ∨
      (¬ Exchange.Declares ⟨op, request, reply⟩ ExecutionStatus.success ∧
        ∃ e, (reading op reply).bind (declared op) = .error e) := by
  rw [declares_iff]
  cases hread : reading op reply with
  | error e => exact Or.inr ⟨by simp, e, rfl⟩
  | ok response =>
      -- The declared status decides, and no other part of the response.
      by_cases hsuccess : (op.execution response).status = ExecutionStatus.success
      · refine Or.inl ⟨⟨response, rfl, hsuccess⟩, response, ?_⟩
        exact if_pos (beq_iff_eq.mpr hsuccess)
      · refine Or.inr ⟨?_, _, if_neg fun h => hsuccess (beq_iff_eq.mp h)⟩
        rintro ⟨other, hok, hsame⟩
        cases hok
        exact hsuccess hsame

/-- The reply decides: one that cannot be read and an undeclared success refuse the step. -/
theorem order_of_reply (callId : String) (reply : Except String (List UInt8)) (step : Step) :
    Order c iccid step [c.orderOf iccid callId reply step]
      (((reading step.operation reply).bind (declared step.operation)).map fun _ => ()) := by
  rcases bind_declared step.operation (orderRequest iccid ⟨c.requester, callId⟩ step) reply with
    ⟨hsuccess, response, hbind⟩ | ⟨hrefused, e, hbind⟩
  · rw [hbind]
    exact Order.accepted hsuccess
  · rw [hbind]
    exact Order.refused hrefused

/-- Taking a step goes in one of the listed ways. -/
theorem take_returns {step : Step} {r : Except Error Unit}
    (hr : Program.Returns (c.take iccid step).run h r) : Order c iccid step (exchanges h) r := by
  -- What the errand gives is dropped.
  have hdrop : ∀ {α : Type} {x : Attempt α} {h : List Deed} {r : Except Error Unit},
      Program.Returns (x >>= fun _ => pure ()).run h r →
        ∃ r', Program.Returns x.run h r' ∧ r = r'.map fun _ => () := by
    intro α x h r hr
    rcases returns_seq_iff.mp hr with ⟨e, rfl, hx⟩ | ⟨h₁, h₂, a, rfl, hx, hrest⟩
    · exact ⟨.error e, hx, rfl⟩
    · obtain ⟨rfl, rfl⟩ := returns_pure_iff.mp hrest
      exact ⟨.ok a, by rwa [List.append_nil], rfl⟩
  cases step with
  | download =>
      obtain ⟨r', hx, rfl⟩ := hdrop hr
      have hgoes : (Errand.download iccid).Goes c h r' := Errand.returns hx
      rcases hgoes with reason | ⟨undrawn, said⟩
      · exact Order.unsent reason
      · rw [exchanges_drawing, said]
        exact order_of_reply _ _ .download
  | confirm =>
      obtain ⟨r', hx, rfl⟩ := hdrop hr
      have hgoes : (Errand.confirm iccid).Goes c h r' := Errand.returns hx
      rcases hgoes with reason | ⟨undrawn, said⟩
      · exact Order.unsent reason
      · rw [exchanges_drawing, said]
        exact order_of_reply _ _ .confirm

end ProfileAdmin.Client
