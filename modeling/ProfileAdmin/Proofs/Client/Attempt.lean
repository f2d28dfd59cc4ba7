import ProfileAdmin.Proofs.Client.Exchange

/-!
# Proofs.Client.Attempt — what attempts do, step by step

1. **Attempts**: the histories of a sequence of programs that may fail.
2. **Headers**: a header is one draw.
3. **Calls**: a call is one exchange, which decides what it gives.
-/

namespace ProfileAdmin.Client

open Call
open Host (Deed Event Program)
open Host.Program

variable {ε α β : Type} {c : Client} {h : List Deed}

/-! ## Attempts -/

theorem returns_pure_iff {a : α} {r : Except ε α} :
    Program.Returns (pure a : ExceptT ε Program α).run h r ↔ h = [] ∧ r = .ok a :=
  returns_done_iff

theorem returns_throw_iff {e : ε} {r : Except ε α} :
    Program.Returns (throw e : ExceptT ε Program α).run h r ↔ h = [] ∧ r = .error e :=
  returns_done_iff

/-- A sequence of two attempts fails with the first, or goes on with what the first gave. -/
theorem returns_seq_iff {x : ExceptT ε Program α} {f : α → ExceptT ε Program β}
    {r : Except ε β} :
    Program.Returns (x >>= f).run h r ↔
      (∃ e, r = .error e ∧ Program.Returns x.run h (.error e)) ∨
        ∃ h₁ h₂ a, h = h₁ ++ h₂ ∧ Program.Returns x.run h₁ (.ok a) ∧
          Program.Returns (f a).run h₂ r := by
  rw [ExceptT.run_bind, returns_bind_iff]
  constructor
  -- A failure is handed on without any further deed.
  · rintro ⟨h₁, h₂, e | a, rfl, hx, hf⟩
    · obtain ⟨rfl, rfl⟩ := returns_done_iff.mp hf
      exact Or.inl ⟨e, rfl, by simpa using hx⟩
    · exact Or.inr ⟨h₁, h₂, a, rfl, hx, hf⟩
  · rintro (⟨e, rfl, hx⟩ | ⟨h₁, h₂, a, rfl, hx, hf⟩)
    · exact ⟨h, [], .error e, by simp, hx, Returns.done _⟩
    · exact ⟨h₁, h₂, .ok a, rfl, hx, hf⟩

/-- A program without failures always gives something. -/
theorem returns_lift_iff {p : Program α} {r : Except ε α} :
    Program.Returns (ExceptT.lift p : ExceptT ε Program α).run h r ↔
      ∃ a, r = .ok a ∧ p.Returns h a := by
  have hrun : (ExceptT.lift p : ExceptT ε Program α).run =
      p >>= fun a => Program.done (.ok a) := rfl
  rw [hrun, returns_bind_iff]
  constructor
  · rintro ⟨h₁, h₂, a, rfl, hp, hd⟩
    obtain ⟨rfl, rfl⟩ := returns_done_iff.mp hd
    exact ⟨a, rfl, by simpa using hp⟩
  · rintro ⟨a, rfl, hp⟩
    exact ⟨h, [], a, by simp, hp, Returns.done _⟩

/-- An effect that cannot fail is always followed by the rest. -/
theorem returns_lift_seq_iff {p : Program α} {f : α → ExceptT ε Program β} {r : Except ε β} :
    Program.Returns ((ExceptT.lift p : ExceptT ε Program α) >>= f).run h r ↔
      ∃ h₁ h₂ a, h = h₁ ++ h₂ ∧ p.Returns h₁ a ∧ Program.Returns (f a).run h₂ r := by
  rw [returns_seq_iff]
  constructor
  · rintro (⟨e, rfl, hx⟩ | ⟨h₁, h₂, a, rfl, hx, hf⟩)
    · obtain ⟨a, ha, -⟩ := returns_lift_iff.mp hx
      cases ha
    · obtain ⟨b, hb, hp⟩ := returns_lift_iff.mp hx
      cases hb
      exact ⟨h₁, h₂, a, rfl, hp, hf⟩
  · rintro ⟨h₁, h₂, a, rfl, hp, hf⟩
    exact Or.inr ⟨h₁, h₂, a, rfl, returns_lift_iff.mpr ⟨a, rfl, hp⟩, hf⟩

theorem returns_plain_seq_iff {p : Program α} {f : α → Attempt β} {r : Except Error β} :
    Program.Returns (plain p >>= f).run h r ↔
      ∃ h₁ h₂ a, h = h₁ ++ h₂ ∧ p.Returns h₁ a ∧ Program.Returns (f a).run h₂ r :=
  returns_lift_seq_iff

/-- Nothing is drawn, and nothing is said to the endpoint. -/
structure Silent (h : List Deed) : Prop where
  draws_eq : draws h = []
  exchanges_eq : exchanges h = []

theorem silent_nil : Silent [] :=
  ⟨rfl, rfl⟩

theorem silent_note {e : Event} {u : Unit} (hr : (note e).Returns h u) : Silent h := by
  obtain rfl := returns_ask_iff.mp hr
  exact ⟨rfl, rfl⟩

/-- To be silent twice is to be silent. -/
theorem Silent.append {h₁ h₂ : List Deed} (h : Silent h₁) (h' : Silent h₂) : Silent (h₁ ++ h₂) := by
  constructor
  · rw [draws_append, h.draws_eq, h'.draws_eq, List.append_nil]
  · rw [exchanges_append, h.exchanges_eq, h'.exchanges_eq, List.append_nil]

/-- Logging says nothing to the endpoint. -/
theorem returns_note_seq {e : Event} {f : Unit → Attempt β} {r : Except Error β}
    (hr : Program.Returns (plain (note e) >>= f).run h r) :
    ∃ h', exchanges h = exchanges h' ∧ Program.Returns (f ()).run h' r := by
  obtain ⟨h₁, h₂, u, rfl, hn, hf⟩ := returns_plain_seq_iff.mp hr
  refine ⟨h₂, ?_, hf⟩
  rw [exchanges_append, (silent_note hn).exchanges_eq, List.nil_append]

/-! ## Headers -/

/-- The header that a draw makes, or the failure that no draw makes. -/
def headerFrom (c : Client) : Except String Draw → Except Error RequestHeader
  | .error reason => .error (.protocol (.callIdentifier reason))
  | .ok d => .ok ⟨c.requester, d.identifier⟩

/-- A header takes one draw, which also decides whether there is a header. -/
theorem newHeader_returns {r : Except Error RequestHeader}
    (hr : Program.Returns c.newHeader.run h r) :
    ∃ drawn, h = [drawing drawn] ∧ r = c.headerFrom drawn := by
  unfold newHeader at hr
  obtain ⟨h₁, h₂, drawn, rfl, hd, hrest⟩ := returns_plain_seq_iff.mp hr
  obtain rfl := returns_ask_iff.mp hd
  refine ⟨drawn, ?_⟩
  rcases drawn with reason | d
  · obtain ⟨rfl, rfl⟩ := returns_throw_iff.mp hrest
    exact ⟨rfl, rfl⟩
  · obtain ⟨rfl, rfl⟩ := returns_pure_iff.mp hrest
    exact ⟨rfl, rfl⟩

/-! ## Calls -/

/-- Logs an event that shows a payload, if payloads are to be shown. -/
def showing (c : Client) (e : Event) : Program Unit :=
  if c.debugging.payloads then note e else pure ()

/-- What is done with a reply: its body is shown and read, and the call is logged. -/
def digest (c : Client) (op : Operation) : Except String (List UInt8) → Attempt op.Response
  | .error reason => throw (.transport op reason)
  | .ok body => do
    plain (c.showing (.responseBody op body))
    match op.responseShape.decode body with
    | .error f => throw (.protocol (.undecodable op f))
    | .ok response =>
      plain (note (.callCompleted op (op.execution response).status))
      return response

/-- A call shows its payload, exchanges it for a reply, and digests the reply. -/
theorem invoke_eq (c : Client) (op : Operation) (r : op.Request) :
    c.invoke op r = (do
      plain (c.showing (.requestBody op (op.payload r)))
      let reply ← plain (exchange op r)
      c.digest op reply) := by
  unfold invoke digest showing
  cases hp : c.debugging.payloads <;> rfl

/-- Whether a payload is shown or not, the endpoint is not spoken to. -/
theorem showing_returns {e : Event} {u : Unit} (hr : (c.showing e).Returns h u) : Silent h := by
  unfold showing at hr
  split at hr
  · exact silent_note hr
  · obtain ⟨rfl, -⟩ := returns_done_iff.mp hr
    exact silent_nil

/-- What a reply is worth is settled without speaking to the endpoint again. -/
theorem digest_returns {op : Operation} {reply : Except String (List UInt8)}
    {r : Except Error op.Response} (hr : Program.Returns (c.digest op reply).run h r) :
    Silent h ∧ r = reading op reply := by
  rcases reply with reason | body
  · obtain ⟨rfl, rfl⟩ := returns_throw_iff.mp hr
    exact ⟨silent_nil, rfl⟩
  · obtain ⟨h₁, h₂, u, rfl, hs, hrest⟩ := returns_plain_seq_iff.mp hr
    have hshown := showing_returns hs
    -- Only a reply that can be read is logged as an answer.
    cases hd : op.responseShape.decode body with
    | error f =>
        rw [hd] at hrest
        obtain ⟨rfl, rfl⟩ := returns_throw_iff.mp hrest
        exact ⟨hshown.append silent_nil, by simp [reading, hd]⟩
    | ok response =>
        rw [hd] at hrest
        obtain ⟨h₃, h₄, u, rfl, hn, hp⟩ := returns_plain_seq_iff.mp hrest
        obtain ⟨rfl, rfl⟩ := returns_pure_iff.mp hp
        exact ⟨hshown.append ((silent_note hn).append silent_nil), by simp [reading, hd]⟩

/-- A call draws nothing. It is one exchange, and gives what the reply reads as. -/
theorem invoke_returns {op : Operation} {request : op.Request} {r : Except Error op.Response}
    (hr : Program.Returns (c.invoke op request).run h r) :
    draws h = [] ∧ ∃ reply, exchanges h = [⟨op, request, reply⟩] ∧ r = reading op reply := by
  rw [invoke_eq] at hr
  obtain ⟨h₁, h₂, u, rfl, hs, hrest⟩ := returns_plain_seq_iff.mp hr
  obtain ⟨h₃, h₄, reply, rfl, he, hlast⟩ := returns_plain_seq_iff.mp hrest
  obtain rfl := returns_ask_iff.mp he
  have hshown := showing_returns hs
  obtain ⟨hsilent, rfl⟩ := digest_returns hlast
  -- The one exchange stands between two silences.
  refine ⟨?_, reply, ?_, rfl⟩
  · rw [draws_append, hshown.draws_eq]
    exact hsilent.draws_eq
  · rw [exchanges_append, hshown.exchanges_eq]
    exact congrArg (List.cons _) hsilent.exchanges_eq

end ProfileAdmin.Client
