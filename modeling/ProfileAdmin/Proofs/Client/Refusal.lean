import ProfileAdmin.Proofs.Client.Course
import ProfileAdmin.Proofs.Client.Decision
import ProfileAdmin.Proofs.Client.Endpoint

/-!
# Proofs.Client.Refusal — what becomes of a declared failure

1. **Refusals**: replies that declare something else than success and report on no profile.
2. **Disclosure**: results in which the declared status can be read.
3. **Errands**: orders fail with the status, recoveries and cancellations hand it on with the
   response. A refused query is taken for one that found nothing.
4. **Activations**: a refused query ends them, and makes the profile an unknown one.
5. **Exception**: refused queries are the only refusals that get lost, and all of them do.
-/

namespace ProfileAdmin.Client

open Call
open Host (Deed Effect Program)
open Profile

variable {c : Client} {iccid : String} {taken : List Step} {status : Status}
  {xs : List Exchange} {x : Exchange}

/-! ## Refusals -/

/-- The reply declares a status that is not success, and carries no entries of a status report. -/
def Exchange.Refuses (x : Exchange) (status : String) : Prop :=
  x.Declares status ∧ status ≠ "Executed-Success" ∧
    ∀ entry others, x.report? ≠ some (entry :: others)

/-- A status query among the exchanges is refused. -/
def QueryRefused (xs : List Exchange) : Prop :=
  ∃ x ∈ xs, x.op = .getProfileStatus ∧ ∃ status, x.Refuses status

/-- A query that is refused brings a report without entries. -/
theorem Exchange.Refuses.report?_eq {literal : String} (h : x.Refuses literal)
    (hop : x.op = .getProfileStatus) : x.report? = some [] := by
  obtain ⟨op, request, reply⟩ := x
  obtain rfl : op = .getProfileStatus := hop
  obtain ⟨hdeclares, -, hunlisted⟩ := h
  obtain ⟨response, hread, -⟩ := declares_iff.mp hdeclares
  have hreport : Exchange.report? ⟨.getProfileStatus, request, reply⟩ =
      some (StatusResponse.profiles response) :=
    Exchange.report?_eq_some_iff.mpr ⟨response, hread, rfl⟩
  rw [hreport] at hunlisted ⊢
  -- An entry would be a profile that is reported on.
  cases hentries : StatusResponse.profiles response with
  | nil => rfl
  | cons entry others => exact absurd (congrArg some hentries) (hunlisted entry others)

/-- Only queries bring reports. -/
theorem report?_eq_none (hop : x.op ≠ .getProfileStatus) : x.report? = none := by
  obtain ⟨op, request, reply⟩ := x
  cases op with
  | getProfileStatus => exact absurd rfl hop
  | recoverProfile | cancelOrder | downloadOrder | confirmOrder => rfl

/-! ## Disclosure -/

/-- A status can be read in what an errand gives: in its failure, or in the response that it hands
on. -/
inductive Errand.Discloses (status : String) : (e : Errand) → Except Error e.Result → Prop where
  | declined {e : Errand} (data : Option StatusCodeData) :
      Discloses status e (.error (.declined e.op status data))
  | recovered {iccid target : String} {response : RecoverResponse}
      (same : response.header.execution.status = status) :
      Discloses status (.recover iccid target) (.ok response)
  | cancelled {iccid target : String} {response : CancelResponse}
      (same : response.header.execution.status = status) :
      Discloses status (.cancel iccid target) (.ok response)
  | downloaded {iccid : String} {response : DownloadResponse}
      (same : response.header.execution.status = status) :
      Discloses status (.download iccid) (.ok response)
  | confirmed {iccid : String} {response : ConfirmResponse}
      (same : response.header.execution.status = status) :
      Discloses status (.confirm iccid) (.ok response)

/-- Every refusal that is heard on an errand can be read in what it gives. -/
def Errand.Heeds (e : Errand) (xs : List Exchange) (r : Except Error e.Result) : Prop :=
  ∀ x ∈ xs, ∀ status, x.Refuses status → e.Discloses status r

/-! ## Errands -/

/-- Apart from queries, an errand hands the response on or fails with the status. -/
theorem Errand.discloses_conclude {e : Errand} (hop : e.op ≠ .getProfileStatus)
    {response : e.op.Response} (hother : (e.op.execution response).status ≠ "Executed-Success") :
    e.Discloses (e.op.execution response).status (e.conclude response) := by
  cases e with
  | query iccid => exact absurd rfl hop
  | recover iccid target => exact Discloses.recovered rfl
  | cancel iccid target => exact Discloses.cancelled rfl
  | download iccid =>
      have hdeclined : (Errand.download iccid).conclude response = _ := declared_of_other hother
      rw [hdeclined]
      exact Discloses.declined (e := .download iccid) _
  | confirm iccid =>
      have hdeclined : (Errand.confirm iccid).conclude response = _ := declared_of_other hother
      rw [hdeclined]
      exact Discloses.declined (e := .confirm iccid) _

/-- The refusal that the reply to an order declares can be read in the verdict on it. -/
theorem Errand.discloses_verdict {e : Errand} (hop : e.op ≠ .getProfileStatus)
    {request : e.op.Request} {reply : Except String (List UInt8)} {literal : String}
    (h : Exchange.Refuses ⟨e.op, request, reply⟩ literal) :
    e.Discloses literal (e.verdict reply) := by
  obtain ⟨hdeclares, hother, -⟩ := h
  obtain ⟨response, hread, rfl⟩ := declares_iff.mp hdeclares
  have hverdict : e.verdict reply = e.conclude response := by
    rw [Errand.verdict, hread]
    rfl
  rw [hverdict]
  exact discloses_conclude hop hother

/-- What is heard on an errand is the reply to its request, which decides what it gives. -/
theorem Errand.heard {e : Errand} {h : List Deed} {r : Except Error e.Result}
    (hr : Program.Returns (e.attempt c).run h r) (hx : x ∈ exchanges h) :
    ∃ callId reply, x = ⟨e.op, e.request ⟨c.requester, callId⟩, reply⟩ ∧ r = e.verdict reply := by
  rcases Errand.returns hr with reason | ⟨-, said⟩
  · cases hx
  · rw [exchanges_drawing, said] at hx
    exact ⟨_, _, List.mem_singleton.mp hx, rfl⟩

/-- A refused query is taken for one that found nothing. -/
theorem status?_of_refused {h : List Deed} {r : Except Error (Option Status)}
    (hr : Program.Returns (c.status? iccid).run h r) (hrefused : QueryRefused (exchanges h)) :
    r = .ok none := by
  obtain ⟨x, hx, hop, literal, hrefuses⟩ := hrefused
  obtain ⟨callId, reply, rfl, rfl⟩ := Errand.heard (e := .query iccid) hr hx
  exact query_eq_none_of_unlisted (hrefuses.report?_eq hop)

/-- An errand makes its refusals readable exactly if it is not a query that is refused. -/
theorem Errand.heeds_iff {e : Errand} {h : List Deed} {r : Except Error e.Result}
    (hr : Program.Returns (e.attempt c).run h r) :
    e.Heeds (exchanges h) r ↔ ¬ QueryRefused (exchanges h) := by
  constructor
  -- A refused query gives no entry, and this says nothing of the status.
  · rintro hheeds ⟨x, hx, hop, literal, hrefuses⟩
    have hdiscloses := hheeds x hx literal hrefuses
    cases e with
    | query iccid =>
        obtain rfl := status?_of_refused hr ⟨x, hx, hop, literal, hrefuses⟩
        cases hdiscloses
    | recover | cancel | download | confirm =>
        -- The exchange is one of another operation.
        obtain ⟨callId, reply, rfl, -⟩ := heard hr hx
        cases hop
  · intro hnone x hx literal hrefuses
    have hop : x.op ≠ .getProfileStatus := fun hop => hnone ⟨x, hx, hop, literal, hrefuses⟩
    obtain ⟨callId, reply, rfl, rfl⟩ := heard hr hx
    exact discloses_verdict hop hrefuses

/-! ## Activations -/

/-- A report without entries ends the query, and makes the profile an unknown one. -/
theorem Query.unknown {r : Except Error Status} (h : Query c iccid xs r) (hx : x ∈ xs)
    (hreport : x.report? = some []) : r = .error (.unknownProfile iccid) := by
  cases h with
  | unsent reason => cases hx
  | missed other unlisted =>
      obtain rfl := List.mem_singleton.mp hx
      rw [unlisted hreport]
  | found entry same =>
      obtain rfl := List.mem_singleton.mp hx
      cases (Exchange.status?_eq_some_iff.mp entry).symm.trans hreport

/-- The reply to an order reports on nothing. -/
theorem Order.report?_eq_none {step : Step} {r : Except Error Unit} (h : Order c iccid step xs r)
    (hx : x ∈ xs) : x.report? = none := by
  rcases h.eq_nil_or_singleton with rfl | ⟨y, rfl, hop, -⟩
  · cases hx
  · obtain rfl := List.mem_singleton.mp hx
    refine Client.report?_eq_none ?_
    rw [hop]
    cases step <;> decide

/-- A query that brings no entry ends the course. -/
theorem Course.unknown {r : Except Error (Disposition × List Step)}
    (h : Course c iccid taken status xs r) (hx : x ∈ xs) (hreport : x.report? = some []) :
    r = .error (.unknownProfile iccid) := by
  -- The exchange is none of an order.
  have hquery : ∀ {step : Step} {ys : List Exchange} {o : Except Error Unit},
      Order c iccid step ys o → x ∉ ys := by
    intro step ys o order hmem
    cases (order.report?_eq_none hmem).symm.trans hreport
  -- A query is the last exchange of its turn, and the turns behind it are the induction.
  induction h with
  | unrecognized | arrived | stalled => cases hx
  | failed known reported fresh order => exact absurd hx (hquery order)
  | finished known reported fresh order last => exact absurd hx (hquery order)
  | lost known reported fresh order onward query =>
      rcases List.mem_append.mp hx with hmem | hmem
      · exact absurd hmem (hquery order)
      · cases query.unknown hmem hreport
        rfl
  | turn known reported fresh order onward query rest ih =>
      rcases List.mem_append.mp hx with hmem | hmem
      · rcases List.mem_append.mp hmem with hmem | hmem
        · exact absurd hmem (hquery order)
        · cases query.unknown hmem hreport
      · exact ih hmem

/-- A profile that is left alone is not asked about. -/
theorem Driven.unknown {first : Status} {r : Except Error (Disposition × List Step)}
    (h : Driven c iccid first xs r) (hx : x ∈ xs) (hreport : x.report? = some []) :
    r = .error (.unknownProfile iccid) := by
  cases h with
  | spared token => cases hx
  | driven bare course => exact course.unknown hx hreport

/-- A query that succeeds brings an entry, so the one without entries is the last exchange. -/
theorem Run.unknown {r : Except Error Activation} (h : Run c iccid xs r) (hx : x ∈ xs)
    (hreport : x.report? = some []) : r = .error (.unknownProfile iccid) := by
  -- Wherever the exchange stands, the queries before it have brought an entry.
  cases h with
  | unread query =>
      cases query.unknown hx hreport
      rfl
  | broken query between =>
      rcases List.mem_append.mp hx with hmem | hmem
      · cases query.unknown hmem hreport
      · cases between.unknown hmem hreport
        rfl
  | unseen query between reread =>
      rcases List.mem_append.mp hx with hmem | hmem
      · rcases List.mem_append.mp hmem with hmem | hmem
        · cases query.unknown hmem hreport
        · cases between.unknown hmem hreport
      · cases reread.unknown hmem hreport
        rfl
  | ended query between reread =>
      rcases List.mem_append.mp hx with hmem | hmem
      · rcases List.mem_append.mp hmem with hmem | hmem
        · cases query.unknown hmem hreport
        · cases between.unknown hmem hreport
      · cases reread.unknown hmem hreport

/-! ## Exception -/

/-- A refusal can be read in what an errand gives, unless it refuses a query. A refused query says
that there is no entry, and an activation with a refused query that the profile is unknown. -/
theorem refusals_heeded_iff {σ : Type} (c : Client) (answer : (x : Effect) → σ → x.Answer × σ)
    (s : σ) :
    (∀ e : Errand,
      e.Heeds (conversation answer (e.attempt c) s) ((e.attempt c).run.run answer s).1 ↔
        ¬ QueryRefused (conversation answer (e.attempt c) s)) ∧
    (∀ iccid, QueryRefused (conversation answer (c.status? iccid) s) →
      ((c.status? iccid).run.run answer s).1 = .ok none) ∧
    ∀ iccid, QueryRefused (conversation answer (c.activate iccid) s) →
      ((c.activate iccid).run.run answer s).1 = .error (.unknownProfile iccid) := by
  refine ⟨fun e => ?_, fun iccid hrefused => ?_, fun iccid hrefused => ?_⟩
  · exact Errand.heeds_iff (Program.returns_history answer _ s)
  · exact status?_of_refused (Program.returns_history answer _ s) hrefused
  · obtain ⟨x, hx, hop, literal, hrefuses⟩ := hrefused
    exact (conversation_run answer s).unknown hx (hrefuses.report?_eq hop)

/-- A status report that lists nothing and declares a failure, as it is sent. -/
def refusing : Except String (List UInt8) :=
  .ok (StatusResponse.shape.encode ⟨.declaring "Failed", [], ""⟩)

/-- An endpoint that declares a failure for a query, and one that does for the first query of an
activation. -/
theorem refusal_unheeded :
    ¬ (Errand.query "8965030119040000067").Heeds
      (conversation (alone script still) (Errand.attempt ⟨"ACME", ⟨false, false⟩⟩
        (.query "8965030119040000067")) ([refusing], ()))
      ((Errand.attempt ⟨"ACME", ⟨false, false⟩⟩ (.query "8965030119040000067")).run.run
        (alone script still) ([refusing], ())).1 ∧
    ((Client.activate ⟨"ACME", ⟨false, false⟩⟩ "8965030119040000067").run.run
      (alone script still) ([refusing], ())).1 =
        .error (.unknownProfile "8965030119040000067") := by
  -- What is heard in the two conversations is settled by running them.
  have hheard : ∀ {α : Type} {a : Attempt α}, (∃ x ∈ conversation (alone script still) a
      ([refusing], ()), x.op = .getProfileStatus ∧
        x.execution?.map ExecutionStatus.status = some "Failed" ∧ x.report? = some []) →
      QueryRefused (conversation (alone script still) a ([refusing], ())) := by
    rintro α a ⟨x, hx, hop, hdeclares, hreport⟩
    refine ⟨x, hx, hop, "Failed", hdeclares, by decide, fun entry others hentries => ?_⟩
    cases hreport.symm.trans hentries
  constructor
  · intro hheeds
    have hnone := (Errand.heeds_iff (e := .query "8965030119040000067")
      (Program.returns_history _ _ _)).mp hheeds
    exact hnone (hheard (by decide +kernel))
  · obtain ⟨x, hx, hop, literal, hrefuses⟩ :=
      hheard (a := Client.activate ⟨"ACME", ⟨false, false⟩⟩ "8965030119040000067")
        (by decide +kernel)
    exact (conversation_run _ _).unknown hx (hrefuses.report?_eq hop)

end ProfileAdmin.Client
