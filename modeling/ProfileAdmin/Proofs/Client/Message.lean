import ProfileAdmin.Proofs.Call.Meaning
import ProfileAdmin.Proofs.Client.Errand
import ProfileAdmin.Proofs.Json.Unique

/-!
# Proofs.Client.Message — what is sent is what was asked for

1. **Records**: what the members say that are written for a record.
2. **Messages**: what the payload of an errand says, with texts as they were given.
3. **Errands** send their message once, or nothing.
-/

namespace ProfileAdmin

open Call
open Document (Value)
open Host (Effect Program)
open Json (Body IsDocument Member Says Slot Tree)
open Schema

/-! ## Records -/

namespace Schema

/-- What an entry says. -/
def Entry.pair? (e : Entry) : Option (String × Value) :=
  e.tree.value?.map fun v => (e.name, v)

/-- Every entry is a member under its name. -/
theorem members?_entries (es : List Entry) :
    Tree.members? ((es.map Entry.member).map Member.pair) = es.mapM Entry.pair? := by
  induction es with
  | nil => rfl
  | cons e es ih =>
      have hpair : e.member.pair = (Body.of e.name, e.tree) := rfl
      rw [List.map_cons, List.map_cons, hpair, Tree.members?, Json.text?_of, ih, List.mapM_cons,
        Entry.pair?]
      cases e.tree.value? with
      | none => rfl
      | some v => rfl

/-- What a record says, entry by entry. -/
theorem value?_entries (es : List Entry) :
    (Tree.object ((es.map Entry.member).map Member.pair)).value? =
      (es.mapM Entry.pair?).map .table := by
  rw [Tree.value?, members?_entries]

/-- A text is read as it was given. -/
theorem value?_text (s : String) : (Meaning.text.tree s).value? = some (.text s) := by
  have h : (Tree.text (Body.of s)).value? = some (.text s) := by
    rw [Tree.value?, Json.text?_of, Option.map_some]
  exact h

theorem value?_flag (b : Bool) : (Meaning.flag.tree b).value? = some (.flag b) := by
  have h : (Tree.flag b).value? = some (.flag b) := by
    rw [Tree.value?]
  exact h

end Schema

namespace Client

/-! ## Messages -/

/-- What the header of a request says. -/
def headerValue (header : RequestHeader) : Value :=
  .table [("functionRequesterIdentifier", .text header.requester),
    ("functionCallIdentifier", .text header.callId)]

/-- What an errand has to say behind the header. -/
def Errand.members : Errand → List (String × Value)
  | .query iccid => [("iccidList", .list [.table [("iccid", .text iccid)]])]
  | .recover iccid target => [("iccid", .text iccid), ("profileStatus", .text target)]
  | .cancel iccid target =>
    [("iccid", .text iccid), ("finalProfileStatusIndicator", .text target)]
  | .download iccid => [("iccid", .text iccid)]
  | .confirm iccid => [("iccid", .text iccid), ("releaseFlag", .flag true)]

/-- The message of an errand. -/
def Errand.message (header : RequestHeader) (e : Errand) : Value :=
  .table (("header", headerValue header) :: e.members)

/-- The header says who asks, and under which identifier. -/
theorem value?_header (header : RequestHeader) :
    (RequestHeader.meaning.tree header).value? = some (headerValue header) := by
  refine (value?_entries _).trans ?_
  simp [Meanings.required, Meanings.entries, required, Entry.pair?, value?_text, headerValue]

theorem value?_iccidList (iccid : String) :
    (iccidEntryMeaning.list.tree [iccid]).value? =
      some (.list [.table [("iccid", .text iccid)]]) := by
  have hentry : (iccidEntryMeaning.tree iccid).value? = some (.table [("iccid", .text iccid)]) := by
    refine (value?_entries _).trans ?_
    simp [Meanings.required, Meanings.entries, required, Entry.pair?, value?_text]
  have hlist : iccidEntryMeaning.list.tree [iccid] = .list [iccidEntryMeaning.tree iccid] := rfl
  rw [hlist, Tree.value?, Tree.values?, hentry]
  rfl

/-- Members without a value are left out, and all others say what they were given. -/
theorem Errand.value?_tree (header : RequestHeader) (e : Errand) :
    (e.op.requestMeaning.tree (e.request header)).value? = some (e.message header) := by
  cases e with
  | query iccid =>
      -- The entries of the request, one by one, with those left out that have no value.
      refine (value?_entries _).trans ?_
      simp [Meanings.required, Meanings.entries, required, Entry.pair?, value?_header,
        value?_iccidList, request, message, members]
  | recover iccid target | cancel iccid target =>
      refine (value?_entries _).trans ?_
      simp [Meanings.required, Meanings.entries, required, Entry.pair?, value?_header,
        value?_text, request, message, members]
  | download iccid =>
      refine (value?_entries _).trans ?_
      simp [Meanings.required, Meanings.possible, Meanings.entries, required, possible,
        Entry.pair?, value?_header, value?_text, request, message, members]
  | confirm iccid =>
      refine (value?_entries _).trans ?_
      simp [Meanings.required, Meanings.possible, Meanings.entries, required, possible,
        Entry.pair?, value?_header, value?_text, value?_flag, request, message, members]

/-! ## Errands -/

/-- The bytes that carry the request. -/
def Exchange.payload (x : Exchange) : List UInt8 :=
  x.op.payload x.request

/-- Whoever reads the payload of an errand reads its message. -/
theorem Errand.says_payload (header : RequestHeader) (e : Errand) :
    Says (e.op.payload (e.request header)) (e.message header) := by
  have hspells := e.op.requestMeaning.spells (e.request header)
  have hdocument : IsDocument (e.op.requestMeaning.tree (e.request header))
      (e.op.payload (e.request header)) :=
    ⟨.tight _ _, rfl, Slot.written_tight _ _, Slot.clear_tight _ _, hspells⟩
  exact hdocument.says (e.value?_tree header)

variable {σ : Type}

/-- What is drawn next in surroundings that are in a state. -/
def nextDraw (answer : (e : Effect) → σ → e.Answer × σ) (s : σ) : Except String Draw :=
  (answer .draw s).1

/-- An errand begins with a draw. -/
theorem Errand.history_eq (c : Client) (e : Errand) (answer : (e : Effect) → σ → e.Answer × σ)
    (s : σ) :
    ∃ h, Program.history answer (e.attempt c).run s = drawing (nextDraw answer s) :: h := by
  cases e <;> exact ⟨_, rfl⟩

/-- An errand sends exactly one request if there is an identifier for the call, and none
otherwise, whatever the reply is. However the payload is read, it says who asks, under which
identifier, and for what, and nothing else. -/
theorem errand_says (c : Client) (e : Errand) (answer : (e : Effect) → σ → e.Answer × σ)
    (s : σ) :
    match nextDraw answer s with
    | .error _ => conversation answer (e.attempt c) s = []
    | .ok d => ∃ x, conversation answer (e.attempt c) s = [x] ∧ x.op = e.op ∧
        Says x.payload (e.message ⟨c.requester, d.identifier⟩) := by
  -- The history begins with the draw, and the rest of it depends on what was drawn.
  obtain ⟨r, hgoes⟩ : ∃ r, e.Goes c (Program.history answer (e.attempt c).run s) r :=
    ⟨_, Errand.returns (Program.returns_history answer (e.attempt c).run s)⟩
  obtain ⟨h, hhistory⟩ := e.history_eq c answer s
  unfold conversation
  rw [hhistory] at hgoes ⊢
  rw [exchanges_drawing]
  generalize nextDraw answer s = drawn at hgoes
  rcases hgoes with reason | ⟨undrawn, said⟩
  · exact exchanges_nil
  · exact ⟨_, said, rfl, e.says_payload _⟩

end Client

end ProfileAdmin
