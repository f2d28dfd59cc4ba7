import ProfileAdmin.Proofs.Call.Identifier
import ProfileAdmin.Proofs.Client.Made

/-!
# Proofs.Client.Session — every header has an identifier of its own

1. **Draws**: which headers a history makes of its draws, and where a failed draw leaves it.
2. **Uses** of a client, one after the other, and what is done for each of them.
3. **Sessions**: each header is built from a draw of its own, in order.
-/

namespace ProfileAdmin.Client

open Call
open Host (Deed Effect Program)
open Host.Program
open Profile (Activation)

variable {α σ : Type} {c : Client} {h : List Deed}

/-! ## Draws -/

/-- The header that is built from a draw. -/
def headerOf (c : Client) (d : Draw) : RequestHeader :=
  ⟨c.requester, d.identifier⟩

/-- The headers of the requests that are sent. -/
def sentHeaders (h : List Deed) : List RequestHeader :=
  (exchanges h).map Exchange.header

/-- The draws that did not fail. -/
def successes (h : List Deed) : List Draw :=
  (draws h).filterMap Except.toOption

/-- A failed draw is the last thing that is done, and what comes of it is its failure. -/
def EndsAtFailure (h : List Deed) (r : Except Error α) : Prop :=
  ∀ before reason after, h = before ++ drawing (.error reason) :: after →
    after = [] ∧ r = .error (.protocol (.callIdentifier reason))

/-- Every draw makes the header of one request, and a failed draw ends it. -/
structure Headed (c : Client) (h : List Deed) (r : Except Error α) : Prop where
  sent_eq : sentHeaders h = (successes h).map c.headerOf
  ends : EndsAtFailure h r

/-- Without a failed draw there is nothing to end at. -/
theorem endsAtFailure_of_undrawn {r : Except Error α} (hnone : ∀ reason, .error reason ∉ draws h) :
    EndsAtFailure h r := by
  rintro before reason after rfl
  exact absurd (by simp) (hnone reason)

/-- What draws nothing and sends nothing needs no header. -/
theorem Silent.headed {r : Except Error α} (hsilent : Silent h) : Headed c h r := by
  constructor
  · rw [sentHeaders, successes, hsilent.exchanges_eq, hsilent.draws_eq]
    rfl
  · refine endsAtFailure_of_undrawn fun reason => ?_
    rw [hsilent.draws_eq]
    exact List.not_mem_nil

theorem drawing_injective : Function.Injective drawing :=
  fun _ _ h => Option.some.inj (congrArg draw? h)

/-- A failed draw, and nothing else, ends with its failure. -/
theorem endsAtFailure_drawing (reason : String) :
    EndsAtFailure [drawing (.error reason)]
      (.error (.protocol (.callIdentifier reason)) : Except Error α) := by
  intro before reason' after heq
  cases before with
  | nil =>
      obtain ⟨hdraw, rfl⟩ := List.cons.inj heq
      cases drawing_injective hdraw
      exact ⟨rfl, rfl⟩
  | cons d before =>
      -- The draw is the only deed.
      have hlength := congrArg List.length heq
      simp at hlength

theorem header_request (header : RequestHeader) (e : Errand) (reply : Except String (List UInt8)) :
    Exchange.header ⟨e.op, e.request header, reply⟩ = header := by
  cases e <;> rfl

/-- An errand makes its one draw the header of its one request. -/
theorem Errand.Goes.headed {e : Errand} {r : Except Error e.Result} (hgoes : e.Goes c h r) :
    Headed c h r := by
  rcases hgoes with reason | ⟨undrawn, said⟩
  · exact ⟨rfl, endsAtFailure_drawing reason⟩
  · constructor
    · rw [sentHeaders, successes, exchanges_drawing, said, draws_drawing, undrawn]
      exact congrArg (fun header => [header]) (header_request _ e _)
    · refine endsAtFailure_of_undrawn fun reason => ?_
      rw [draws_drawing, undrawn]
      simp

/-- A draw in the first part would have ended all of it. -/
theorem Headed.append {β : Type} {h₁ h₂ : List Deed} {a : α} {r : Except Error β}
    (first : Headed c h₁ (.ok a)) (second : Headed c h₂ r) : Headed c (h₁ ++ h₂) r := by
  constructor
  · have hsent : sentHeaders (h₁ ++ h₂) = sentHeaders h₁ ++ sentHeaders h₂ := by
      simp [sentHeaders]
    have hdrawn : successes (h₁ ++ h₂) = successes h₁ ++ successes h₂ := by
      simp [successes]
    rw [hsent, hdrawn, List.map_append, first.sent_eq, second.sent_eq]
  · intro before reason after heq
    -- The failed draw stands in the second part, or in the first, which gave a value.
    rcases List.append_eq_append_iff.mp heq with ⟨mid, rfl, hrest⟩ | ⟨mid, rfl, hrest⟩
    · exact second.ends mid reason after hrest
    · cases mid with
      | nil => exact second.ends [] reason after hrest.symm
      | cons d mid =>
          obtain ⟨rfl, rfl⟩ := List.cons.inj hrest
          obtain ⟨-, hfail⟩ := first.ends before reason mid rfl
          cases hfail

/-- Whatever is made of errands, every draw makes the header of one request. -/
theorem Made.headed {allowed : Errand → Prop} {x : Attempt α} (hmade : Made c allowed x)
    {r : Except Error α} (hr : Program.Returns x.run h r) : Headed c h r := by
  induction hmade generalizing h with
  | pure a =>
      obtain ⟨rfl, -⟩ := returns_pure_iff.mp hr
      exact silent_nil.headed
  | throw e =>
      obtain ⟨rfl, -⟩ := returns_throw_iff.mp hr
      exact silent_nil.headed
  | note e =>
      obtain ⟨u, -, hn⟩ := returns_lift_iff.mp hr
      exact (silent_note hn).headed
  | errand e hallowed => exact (Errand.returns hr).headed
  | seq first others ihfirst ihothers =>
      -- A failure of the first part is the failure of all of it.
      rcases returns_seq_iff.mp hr with ⟨e, rfl, hx⟩ | ⟨h₁, h₂, a, rfl, hx, hf⟩
      · exact ⟨(ihfirst hx).sent_eq, fun before reason after heq => by
          obtain ⟨hafter, hfail⟩ := (ihfirst hx).ends before reason after heq
          cases hfail
          exact ⟨hafter, rfl⟩⟩
      · exact (ihfirst hx).append (ihothers a hf)

/-! ## Uses -/

/-- What a client is used for. -/
inductive Use where
  /-- A header is handed out. -/
  | header
  | errand (e : Errand)
  | activation (iccid : String)

/-- What a use gives. -/
abbrev Use.Result : Use → Type
  | .header => RequestHeader
  | .errand e => e.Result
  | .activation _ => Activation

/-- Uses a client. -/
def Use.attempt (c : Client) : (u : Use) → Attempt u.Result
  | .header => c.newHeader
  | .errand e => e.attempt c
  | .activation iccid => c.activate iccid

/-- A use, what was done for it, and what came of it. -/
structure Episode where
  use : Use
  deeds : List Deed
  result : Except Error use.Result

/-- The headers that were built: the one that is handed out, or those of the requests. -/
def Episode.headers : Episode → List RequestHeader
  | ⟨.header, _, result⟩ => result.toOption.toList
  | ⟨.errand _, h, _⟩ => sentHeaders h
  | ⟨.activation _, h, _⟩ => sentHeaders h

/-- Every draw of an episode makes one of its headers, and a failed draw ends it. -/
structure Episode.Fresh (c : Client) (x : Episode) : Prop where
  headers_eq : x.headers = (successes x.deeds).map c.headerOf
  sent_sublist : (sentHeaders x.deeds).Sublist x.headers
  ends : EndsAtFailure x.deeds x.result

/-- Every use of a client builds each of its headers from a draw of its own. -/
theorem Use.fresh {u : Use} {r : Except Error u.Result}
    (hr : Program.Returns (u.attempt c).run h r) : Episode.Fresh c ⟨u, h, r⟩ := by
  cases u with
  | header =>
      obtain ⟨drawn, rfl, rfl⟩ := newHeader_returns hr
      cases drawn with
      | error reason => exact ⟨rfl, List.Sublist.refl _, endsAtFailure_drawing reason⟩
      | ok d =>
          have hnone : ∀ reason, .error reason ∉ draws [drawing (.ok d)] := by simp
          exact ⟨rfl, List.nil_sublist _, endsAtFailure_of_undrawn hnone⟩
  | errand e =>
      have hheaded : Headed c h r := (Errand.returns hr).headed
      exact ⟨hheaded.sent_eq, List.Sublist.refl _, hheaded.ends⟩
  | activation iccid =>
      have hheaded : Headed c h r := (activate_made c iccid).headed hr
      exact ⟨hheaded.sent_eq, List.Sublist.refl _, hheaded.ends⟩

/-! ## Sessions -/

/-- Uses a client again and again. -/
def session (answer : (e : Effect) → σ → e.Answer × σ) (c : Client) : List Use → σ → List Episode
  | [], _ => []
  | u :: uses, s =>
    ⟨u, history answer (u.attempt c).run s, (run answer (u.attempt c).run s).1⟩ ::
      session answer c uses (run answer (u.attempt c).run s).2

/-- Each use of a session goes by itself. -/
theorem session_episodes (answer : (e : Effect) → σ → e.Answer × σ) (c : Client)
    (uses : List Use) (s : σ) : ∀ x ∈ session answer c uses s, x.Fresh c := by
  induction uses generalizing s with
  | nil => exact fun x hx => absurd hx List.not_mem_nil
  | cons u uses ih =>
      exact List.forall_mem_cons.mpr ⟨Use.fresh (returns_history answer _ s), ih _⟩

/-- Everything that is done in some episodes. -/
def deedsOf (record : List Episode) : List Deed :=
  record.flatMap Episode.deeds

/-- The headers of a session are those of the draws that did not fail, in the order of the draws. -/
theorem headers_eq {record : List Episode} (h : ∀ x ∈ record, x.Fresh c) :
    record.flatMap Episode.headers = (successes (deedsOf record)).map c.headerOf := by
  induction record with
  | nil => rfl
  | cons x record ih =>
      obtain ⟨hx, hrecord⟩ := List.forall_mem_cons.mp h
      have hdrawn : successes (deedsOf (x :: record)) =
          successes x.deeds ++ successes (deedsOf record) := by
        simp [deedsOf, successes]
      rw [List.flatMap_cons, hdrawn, List.map_append, hx.headers_eq, ih hrecord]

/-- What was sent are headers that were built, in this order. -/
theorem sent_sublist {record : List Episode} (h : ∀ x ∈ record, x.Fresh c) :
    (sentHeaders (deedsOf record)).Sublist (record.flatMap Episode.headers) := by
  induction record with
  | nil => exact List.Sublist.refl _
  | cons x record ih =>
      obtain ⟨hx, hrecord⟩ := List.forall_mem_cons.mp h
      have hsent : sentHeaders (deedsOf (x :: record)) =
          sentHeaders x.deeds ++ sentHeaders (deedsOf record) := by
        simp [deedsOf, sentHeaders]
      rw [List.flatMap_cons, hsent]
      exact hx.sent_sublist.append (ih hrecord)

/-- However a client is used and whatever is drawn, each header is built from a draw of its own,
in the order of the draws, and the requests go out under some of these headers. A failed draw is
the last thing done for its use. Identifiers have the form of random UUIDs, and two of them are
the same exactly if their draws agree on all 122 bits that are kept. -/
theorem session_fresh (c : Client) (uses : List Use) (answer : (e : Effect) → σ → e.Answer × σ)
    (s : σ) :
    (session answer c uses s).flatMap Episode.headers =
        (successes (deedsOf (session answer c uses s))).map c.headerOf ∧
      (sentHeaders (deedsOf (session answer c uses s))).Sublist
        ((session answer c uses s).flatMap Episode.headers) ∧
      (∀ x ∈ session answer c uses s, EndsAtFailure x.deeds x.result) ∧
      (∀ d : Draw, ∃ uuid, d.identifier = "urn:uuid:" ++ uuid ∧ IsVersion4 uuid) ∧
      keptBits.length = 122 ∧
      ∀ d d' : Draw, d.identifier = d'.identifier ↔
        ∀ b ∈ keptBits, d.getLsbD b = d'.getLsbD b := by
  have hepisodes := session_episodes answer c uses s
  refine ⟨headers_eq hepisodes, sent_sublist hepisodes, fun x hx => (hepisodes x hx).ends,
    fun d => ⟨d.uuid, d.identifier_eq, d.isVersion4_uuid⟩, length_keptBits, fun d d' => ?_⟩
  exact identifier_eq_iff

end ProfileAdmin.Client
