import ProfileAdmin.Proofs.Client.Errand

/-!
# Proofs.Client.Decision — the reply decides

1. **Verdicts**: what an errand makes of a reply depends on nothing else, neither on who asks nor
   under which identifier.
2. **Yields**: `Brings` lists the replies that there are, and what each of them brings.
3. **Decisions**: an errand that has an identifier gives what the reply to its one request brings.
-/

namespace ProfileAdmin.Client

open Call
open Host (Effect Program)
open Profile (Status)

namespace Errand

/-! ## Verdicts -/

/-- What an errand makes of a reply. -/
def verdict (e : Errand) (reply : Except String (List UInt8)) : Except Error e.Result :=
  (reading e.op reply).bind e.conclude

/-- The verdict on each kind of reply: none came, it cannot be read, it is read. -/
theorem verdict_failed (e : Errand) (reason : String) :
    e.verdict (.error reason) = .error (.transport e.op reason) := rfl

theorem verdict_undecoded {e : Errand} {body : List UInt8} {f : Json.Fault}
    (undecoded : e.op.responseShape.decode body = .error f) :
    e.verdict (.ok body) = .error (.protocol (.undecodable e.op f)) := by
  have hread : reading e.op (.ok body) = .error (.protocol (.undecodable e.op f)) := by
    simp only [reading, undecoded]
  rw [verdict, hread]
  rfl

theorem verdict_decoded {e : Errand} {body : List UInt8} {response : e.op.Response}
    (decoded : e.op.responseShape.decode body = .ok response) :
    e.verdict (.ok body) = e.conclude response := by
  have hread : reading e.op (.ok body) = .ok response := by
    simp only [reading, decoded]
  rw [verdict, hread]
  rfl

/-! ## Yields -/

/-- What the reply to a request can be, and what it brings. Left out are replies to a query that
list no profile and declare something else than success. -/
inductive Brings : (e : Errand) → Except String (List UInt8) → Except Error e.Result →
    Prop where
  /-- The transport fails. -/
  | failed {e : Errand} (reason : String) :
      Brings e (.error reason) (.error (.transport e.op reason))
  /-- The body is no response of the operation. -/
  | undecoded {e : Errand} {body : List UInt8} {f : Json.Fault}
      (fault : e.op.responseShape.decode body = .error f) :
      Brings e (.ok body) (.error (.protocol (.undecodable e.op f)))
  | recovered {iccid target : String} {body : List UInt8} {response : RecoverResponse}
      (decoded : RecoverResponse.shape.decode body = .ok response) :
      Brings (.recover iccid target) (.ok body) (.ok response)
  | cancelled {iccid target : String} {body : List UInt8} {response : CancelResponse}
      (decoded : CancelResponse.shape.decode body = .ok response) :
      Brings (.cancel iccid target) (.ok body) (.ok response)
  | downloaded {iccid : String} {body : List UInt8} {response : DownloadResponse}
      (decoded : DownloadResponse.shape.decode body = .ok response)
      (success : response.header.execution.status = "Executed-Success") :
      Brings (.download iccid) (.ok body) (.ok response)
  | undelivered {iccid : String} {body : List UInt8} {response : DownloadResponse}
      (decoded : DownloadResponse.shape.decode body = .ok response)
      (other : response.header.execution.status ≠ "Executed-Success") :
      Brings (.download iccid) (.ok body) (.error (.declined .downloadOrder
        response.header.execution.status response.header.execution.data))
  | confirmed {iccid : String} {body : List UInt8} {response : ConfirmResponse}
      (decoded : ConfirmResponse.shape.decode body = .ok response)
      (success : response.header.execution.status = "Executed-Success") :
      Brings (.confirm iccid) (.ok body) (.ok response)
  | unconfirmed {iccid : String} {body : List UInt8} {response : ConfirmResponse}
      (decoded : ConfirmResponse.shape.decode body = .ok response)
      (other : response.header.execution.status ≠ "Executed-Success") :
      Brings (.confirm iccid) (.ok body) (.error (.declined .confirmOrder
        response.header.execution.status response.header.execution.data))
  | unlisted {iccid : String} {body : List UInt8} {response : StatusResponse}
      (decoded : StatusResponse.shape.decode body = .ok response)
      (success : response.header.execution.status = "Executed-Success")
      (none : response.profiles = []) :
      Brings (.query iccid) (.ok body) (.ok Option.none)
  | found {iccid : String} {body : List UInt8} {response : StatusResponse} {status : Status}
      (decoded : StatusResponse.shape.decode body = .ok response)
      (one : response.profiles = [status]) (same : status.iccid = iccid) :
      Brings (.query iccid) (.ok body) (.ok (some status))
  | mismatched {iccid : String} {body : List UInt8} {response : StatusResponse} {status : Status}
      (decoded : StatusResponse.shape.decode body = .ok response)
      (one : response.profiles = [status]) (other : status.iccid ≠ iccid) :
      Brings (.query iccid) (.ok body) (.error (.otherProfile iccid status.iccid))
  | ambiguous {iccid : String} {body : List UInt8} {response : StatusResponse}
      (decoded : StatusResponse.shape.decode body = .ok response)
      (several : 2 ≤ response.profiles.length) :
      Brings (.query iccid) (.ok body) (.error (.ambiguous iccid response.profiles.length))

/-- The replies that `Brings` leaves out. -/
def LeftOut : Errand → Except String (List UInt8) → Prop
  | .query _, .ok body => ∃ response, StatusResponse.shape.decode body = .ok response ∧
      response.profiles = [] ∧ response.header.execution.status ≠ "Executed-Success"
  | _, _ => False

variable {e : Errand} {reply : Except String (List UInt8)} {r : Except Error e.Result}

/-- A response that has to declare success, and does or does not. -/
theorem declared_of_success {op : Operation} {response : op.Response}
    (success : (op.execution response).status = "Executed-Success") :
    declared op response = .ok response :=
  if_pos (beq_iff_eq.mpr success)

theorem declared_of_other {op : Operation} {response : op.Response}
    (other : (op.execution response).status ≠ "Executed-Success") :
    declared op response =
      .error (.declined op (op.execution response).status (op.execution response).data) :=
  if_neg fun h => other (beq_iff_eq.mp h)

theorem entryFor_of_several {iccid : String} {statuses : List Status}
    (several : 2 ≤ statuses.length) :
    entryFor iccid statuses = .error (.ambiguous iccid statuses.length) := by
  match statuses with
  | [] | [_] => simp at several
  | _ :: _ :: _ => rfl

/-- What a reply brings is the verdict on it. -/
theorem Brings.verdict_eq (h : e.Brings reply r) : e.verdict reply = r := by
  cases h with
  | failed reason => exact e.verdict_failed reason
  | undecoded fault => exact verdict_undecoded fault
  | recovered decoded => exact verdict_decoded (e := .recover _ _) decoded
  | cancelled decoded => exact verdict_decoded (e := .cancel _ _) decoded
  | downloaded decoded success =>
      exact (verdict_decoded (e := .download _) decoded).trans (declared_of_success success)
  | undelivered decoded other =>
      exact (verdict_decoded (e := .download _) decoded).trans (declared_of_other other)
  | confirmed decoded success =>
      exact (verdict_decoded (e := .confirm _) decoded).trans (declared_of_success success)
  | unconfirmed decoded other =>
      exact (verdict_decoded (e := .confirm _) decoded).trans (declared_of_other other)
  | unlisted decoded success none =>
      rw [verdict_decoded (e := .query _) decoded]
      -- A query looks at the entries, whatever status is declared.
      change entryFor _ _ = _
      rw [none, entryFor]
  | found decoded one same =>
      rw [verdict_decoded (e := .query _) decoded]
      change entryFor _ _ = _
      rw [one, entryFor, if_pos same]
  | mismatched decoded one other =>
      rw [verdict_decoded (e := .query _) decoded]
      change entryFor _ _ = _
      rw [one, entryFor, if_neg other]
  | ambiguous decoded several =>
      rw [verdict_decoded (e := .query _) decoded]
      exact entryFor_of_several several

/-- What is left out brings nothing that is listed. -/
theorem Brings.not_leftOut (h : e.Brings reply r) : ¬ e.LeftOut reply := by
  -- A response that is left out is the one that is decoded.
  have hsame : ∀ {body : List UInt8} {response other : StatusResponse},
      StatusResponse.shape.decode body = .ok response →
      StatusResponse.shape.decode body = .ok other → other = response := by
    intro body response other hresponse hother
    exact Except.ok.inj (hother.symm.trans hresponse)
  -- Only queries leave replies out, and of these only those without an entry.
  cases h with
  | recovered | cancelled | downloaded | undelivered | confirmed | unconfirmed => exact id
  | failed reason => cases e <;> exact id
  | undecoded fault =>
      cases e with
      | recover | cancel | download | confirm => exact id
      | query iccid =>
          rintro ⟨response, hdecode, -⟩
          cases hdecode.symm.trans fault
  | unlisted decoded success none =>
      rintro ⟨response, hdecode, -, hother⟩
      obtain rfl := hsame decoded hdecode
      exact hother success
  | found decoded one same | mismatched decoded one other =>
      rintro ⟨response, hdecode, hnone, -⟩
      obtain rfl := hsame decoded hdecode
      cases hnone.symm.trans one
  | ambiguous decoded several =>
      rintro ⟨response, hdecode, hnone, -⟩
      obtain rfl := hsame decoded hdecode
      rw [hnone] at several
      cases several

/-- There is nothing else that a reply can be. -/
theorem brings_verdict (h : ¬ e.LeftOut reply) : e.Brings reply (e.verdict reply) := by
  rcases reply with reason | body
  · exact Brings.failed reason
  cases hdecode : e.op.responseShape.decode body with
  | error f =>
      rw [verdict_undecoded hdecode]
      exact Brings.undecoded hdecode
  | ok response =>
      rw [verdict_decoded hdecode]
      cases e with
      | recover iccid target => exact Brings.recovered hdecode
      | cancel iccid target => exact Brings.cancelled hdecode
      | download iccid =>
          change Brings (.download iccid) (.ok body) (declared .downloadOrder response)
          -- Orders ask for the declared status before anything else.
          by_cases hsuccess :
            (Operation.execution .downloadOrder response).status = "Executed-Success"
          · rw [declared_of_success hsuccess]
            exact Brings.downloaded hdecode hsuccess
          · rw [declared_of_other hsuccess]
            exact Brings.undelivered hdecode hsuccess
      | confirm iccid =>
          change Brings (.confirm iccid) (.ok body) (declared .confirmOrder response)
          by_cases hsuccess :
            (Operation.execution .confirmOrder response).status = "Executed-Success"
          · rw [declared_of_success hsuccess]
            exact Brings.confirmed hdecode hsuccess
          · rw [declared_of_other hsuccess]
            exact Brings.unconfirmed hdecode hsuccess
      | query iccid =>
          change Brings (.query iccid) (.ok body) (entryFor iccid response.profiles)
          -- The number of entries decides which case it is.
          match hlist : StatusResponse.profiles response with
          | [] =>
              refine Brings.unlisted hdecode (Decidable.byContradiction fun hother => ?_) hlist
              exact h ⟨response, hdecode, hlist, hother⟩
          | [status] =>
              rw [entryFor]
              split
              case isTrue hsame => exact Brings.found hdecode hlist hsame
              case isFalse hother => exact Brings.mismatched hdecode hlist hother
          | status :: status' :: others =>
              have hseveral : 2 ≤ (StatusResponse.profiles response).length := by
                rw [hlist]
                simp
              rw [← hlist, entryFor_of_several hseveral]
              exact Brings.ambiguous hdecode hseveral

/-- So what a reply brings is the verdict on it, unless it is left out. -/
theorem brings_iff : e.Brings reply r ↔ e.verdict reply = r ∧ ¬ e.LeftOut reply := by
  constructor
  · intro h
    exact ⟨h.verdict_eq, h.not_leftOut⟩
  · rintro ⟨rfl, h⟩
    exact brings_verdict h

end Errand

/-! ## Decisions -/

/-- Without an identifier an errand sends nothing, and fails. Otherwise it sends one request, and
the reply alone decides what it gives: exactly what the reply brings. -/
theorem errand_decided {σ : Type} (c : Client) (e : Errand)
    (answer : (x : Effect) → σ → x.Answer × σ) (s : σ) :
    (∃ reason, Program.history answer (e.attempt c).run s = [drawing (.error reason)] ∧
        ((e.attempt c).run.run answer s).1 = .error (.protocol (.callIdentifier reason))) ∨
      ∃ callId reply,
        conversation answer (e.attempt c) s =
          [⟨e.op, e.request ⟨c.requester, callId⟩, reply⟩] ∧
        ((e.attempt c).run.run answer s).1 = e.verdict reply ∧
        ∀ r, e.Brings reply r ↔
          ((e.attempt c).run.run answer s).1 = r ∧ ¬ e.LeftOut reply := by
  have hgoes : e.Goes c (Program.history answer (e.attempt c).run s)
      ((e.attempt c).run.run answer s).1 :=
    Errand.returns (Program.returns_history answer _ s)
  generalize hh : Program.history answer (e.attempt c).run s = h at hgoes
  generalize ((e.attempt c).run.run answer s).1 = r at hgoes
  unfold conversation
  rw [hh]
  -- With a draw there is one request, and the reply to it settles the rest.
  rcases hgoes with reason | ⟨undrawn, said⟩
  · exact Or.inl ⟨reason, rfl, rfl⟩
  · exact Or.inr ⟨_, _, said, rfl, fun r => Errand.brings_iff⟩

end ProfileAdmin.Client
