import ProfileAdmin.Proofs.Client.Steady
import ProfileAdmin.Proofs.Host.Journal
import ProfileAdmin.Proofs.Host.Unison

/-!
# Proofs.Client.Secrecy — what cannot be told from the outside

1. **Veils**: of a token no more is seen than whether there is one.
2. **Likeness**: requests up to the identifiers of their calls, the same entries in the log, and
   replies that are the same behind the veil.
3. **Attempts** that go alike, step by step.
4. **Calls and activations** go alike as long as no payloads are shown.
5. **The outside**: requests and the log.
-/

namespace ProfileAdmin

open Host (Correspondence Deed Effect Event Program)

/-! ## Veils -/

namespace Profile

/-- An entry of which nothing is seen of the token but whether there is one. -/
def Status.veiled (s : Status) : Status :=
  { s with token := if s.token.isEmpty then "" else "*" }

/-- An activation with a veil over the token. -/
def Activation.veiled (a : Activation) : Activation :=
  { a with status := a.status.veiled }

/-- Behind the veil two entries are the same if they differ at most in a token that both of them
have. -/
theorem Status.veiled_eq_iff {s t : Status} :
    s.veiled = t.veiled ↔ s.iccid = t.iccid ∧ s.eid = t.eid ∧ s.state = t.state ∧
      (s.token = "" ↔ t.token = "") ∧ s.locked = t.locked ∧ s.updatedAt = t.updatedAt := by
  have htoken : (if s.token.isEmpty then "" else "*") = (if t.token.isEmpty then "" else "*") ↔
      (s.token = "" ↔ t.token = "") := by
    by_cases hs : s.token = ""
    · by_cases ht : t.token = ""
      · simp [hs, ht]
      · simp [hs, ht]
    · by_cases ht : t.token = ""
      · simp [hs, ht]
      · simp [hs, ht]
  unfold Status.veiled
  rw [Status.mk.injEq, htoken]

theorem Status.state_eq_of_veiled {s t : Status} (h : s.veiled = t.veiled) : s.state = t.state :=
  (veiled_eq_iff.mp h).2.2.1

/-- Whether there is a token can be seen. -/
theorem Status.isActivated_eq_of_veiled {s t : Status} (h : s.veiled = t.veiled) :
    s.isActivated = t.isActivated := by
  have htoken := (veiled_eq_iff.mp h).2.2.2.1
  unfold Status.isActivated
  rw [Bool.not_inj_iff, Bool.eq_iff_iff, String.isEmpty_iff, String.isEmpty_iff]
  exact htoken

end Profile

namespace Call

/-- A response with a veil over the tokens. -/
def Operation.veiled : (op : Operation) → op.Response → op.Response
  | .getProfileStatus, r =>
    { (r : StatusResponse) with profiles := r.profiles.map Profile.Status.veiled }
  | .recoverProfile, r => r
  | .cancelOrder, r => r
  | .downloadOrder, r => r
  | .confirmOrder, r => r

/-- What a response declares is not behind the veil. -/
theorem execution_eq_of_veiled {op : Operation} {r r' : op.Response}
    (h : op.veiled r = op.veiled r') : op.execution r = op.execution r' := by
  have hexecution : ∀ r : op.Response, op.execution (op.veiled r) = op.execution r := by
    intro r
    cases op <;> rfl
  rw [← hexecution r, h, hexecution r']

end Call

namespace Client

open Call
open Host.Program
open Profile

variable {α β γ δ : Type} {c : Client} {iccid : String}

/-! ## Likeness -/

/-- Requests that differ in the identifiers of their calls, and the same entries in the log. -/
def veiledEffects : Effect → Effect → Prop
  | .draw, .draw => True
  | .exchange op r, .exchange op' r' => unnamed op r = unnamed op' r'
  | .note e, .note e' => e = e'
  | _, _ => False

/-- What a reply to an operation reads as, behind the veil. -/
def heard (op : Operation) (reply : Except String (List UInt8)) :
    (op : Operation) × Except Error op.Response :=
  ⟨op, (reading op reply).map op.veiled⟩

/-- All random bytes are alike. Replies that cannot be used are the same, and others are the same
behind the veil. -/
def veiledAnswers : (e e' : Effect) → e.Answer → e'.Answer → Prop
  | .draw, .draw, d, d' => drawn d = drawn d'
  | .exchange op _, .exchange op' _, reply, reply' => heard op reply = heard op' reply'
  | .note _, .note _, _, _ => True
  | _, _, _, _ => False

/-- Effects and answers up to the identifiers of calls and the contents of tokens. -/
def veil : Correspondence :=
  ⟨veiledEffects, veiledAnswers⟩

/-! ## Attempts -/

/-- Two attempts go alike, and end alike under a view. -/
def Likewise (f : α → γ) (x y : Attempt α) : Prop :=
  Corresponds veil (fun r r' => r.map f = r'.map f) x.run y.run

theorem likewise_pure {f : α → γ} {a b : α} (h : f a = f b) :
    Likewise f (pure a : Attempt α) (pure b) :=
  Corresponds.done (congrArg Except.ok h)

theorem likewise_throw (f : α → γ) (e : Error) : Likewise f (throw e : Attempt α) (throw e) :=
  Corresponds.done rfl

theorem likewise_note (e : Event) : Likewise id (plain (note e)) (plain (note e)) :=
  Corresponds.perform rfl fun _ _ _ => Corresponds.done rfl

/-- Attempts in a sequence: the second is not made if the first fails, and sees no more of the
first than the view lets it. -/
theorem likewise_seq {f : α → γ} {g : β → δ} {x y : Attempt α} {k k' : α → Attempt β}
    (hxy : Likewise f x y) (hk : ∀ a b, f a = f b → Likewise g (k a) (k' b)) :
    Likewise g (x >>= k) (y >>= k') := by
  unfold Likewise
  rw [ExceptT.run_bind, ExceptT.run_bind]
  refine corresponds_bind hxy ?_
  intro r r' hr
  -- Both fail alike, or both go on; that one of them fails is no possibility.
  rcases r with e | a
  · rcases r' with e' | b
    · cases hr
      exact Corresponds.done rfl
    · cases hr
  · rcases r' with e' | b
    · cases hr
    · exact hk a b (Except.ok.inj hr)

theorem likewise_note_seq {e : Event} {g : β → δ} {k k' : Unit → Attempt β}
    (hk : Likewise g (k ()) (k' ())) :
    Likewise g (plain (note e) >>= k) (plain (note e) >>= k') :=
  likewise_seq (likewise_note e) fun _ _ _ => hk

/-! ## Calls -/

/-- Two headers differ at most in the identifier of the call. -/
theorem newHeader_likewise (c : Client) :
    Likewise RequestHeader.requester c.newHeader c.newHeader := by
  refine Corresponds.perform trivial ?_
  intro d d' hd
  rcases d with reason | d
  · rcases d' with reason' | d'
    · cases hd
      exact Corresponds.done rfl
    · cases hd
  · rcases d' with reason' | d'
    · cases hd
    · have hrequester : RequestHeader.requester ⟨c.requester, d.identifier⟩ =
          RequestHeader.requester ⟨c.requester, d'.identifier⟩ := by
        dsimp only
      exact likewise_pure hrequester

/-- The declared status is not behind the veil. -/
theorem requireSuccess_likewise {op : Operation} {response response' : op.Response}
    (h : op.veiled response = op.veiled response') :
    Likewise op.veiled (requireSuccess op response) (requireSuccess op response') := by
  unfold requireSuccess
  dsimp only
  rw [execution_eq_of_veiled h]
  split
  · exact likewise_pure h
  · exact likewise_throw _ _

variable (hoff : c.debugging.payloads = false)

include hoff

/-- Without payloads to be shown, nothing is shown. -/
theorem showing_off (e : Event) : c.showing e = pure () := by
  unfold showing
  rw [hoff]
  rfl

/-- Where payloads are not shown, no more of a reply is used than what it reads as. -/
theorem digest_off (op : Operation) (reply : Except String (List UInt8)) :
    c.digest op reply =
      match reading op reply with
      | .error e => throw e
      | .ok response => do
        plain (note (.callCompleted op (op.execution response).status))
        return response := by
  rcases reply with reason | body
  · rfl
  · unfold digest reading
    dsimp only
    rw [showing_off hoff]
    rcases op.responseShape.decode body with f | response
    · rfl
    · rfl

/-- Two replies that are the same behind the veil are dealt with alike, and noted alike. -/
theorem digest_likewise {op : Operation} {reply reply' : Except String (List UInt8)}
    (h : heard op reply = heard op reply') :
    Likewise op.veiled (c.digest op reply) (c.digest op reply') := by
  have hread : (reading op reply).map op.veiled = (reading op reply').map op.veiled :=
    eq_of_heq (Sigma.mk.inj h).2
  rw [digest_off hoff, digest_off hoff]
  generalize reading op reply = x at hread ⊢
  generalize reading op reply' = y at hread ⊢
  rcases x with e | response
  · rcases y with e' | response'
    · cases hread
      exact likewise_throw _ e
    · cases hread
  · rcases y with e' | response'
    · cases hread
    · have hresponse : op.veiled response = op.veiled response' := Except.ok.inj hread
      dsimp only
      rw [execution_eq_of_veiled hresponse]
      exact likewise_note_seq (likewise_pure hresponse)

/-- Two calls that differ in their identifiers go alike. -/
theorem invoke_likewise {op : Operation} {r r' : op.Request}
    (hsame : unnamed op r = unnamed op r') :
    Likewise op.veiled (c.invoke op r) (c.invoke op r') := by
  rw [invoke_eq, invoke_eq, showing_off hoff, showing_off hoff]
  refine likewise_seq (f := id) (Corresponds.done rfl) fun _ _ _ => ?_
  refine Corresponds.perform hsame ?_
  intro reply reply' hreply
  exact digest_likewise hoff hreply

/-- An operation under a header of its own goes alike. -/
theorem operation_likewise {op : Operation} {request : RequestHeader → op.Request} {g : β → δ}
    {k : op.Response → Attempt β}
    (hsame : ∀ header header' : RequestHeader, header.requester = header'.requester →
      unnamed op (request header) = unnamed op (request header'))
    (hk : ∀ response response', op.veiled response = op.veiled response' →
      Likewise g (k response) (k response')) :
    Likewise g (c.newHeader >>= fun header => c.invoke op (request header) >>= k)
      (c.newHeader >>= fun header => c.invoke op (request header) >>= k) := by
  refine likewise_seq (newHeader_likewise c) fun header header' hheader => ?_
  exact likewise_seq (invoke_likewise hoff (hsame header header' hheader)) hk

/-- A query goes alike, whatever the token in the entry is. -/
theorem status?_likewise (iccid : String) :
    Likewise (Option.map Status.veiled) (c.status? iccid) (c.status? iccid) := by
  refine operation_likewise hoff (fun header header' h => ?_) fun response response' hresponse => ?_
  · simp [unnamed, Operation.anonymous, h]
  have hprofiles : (StatusResponse.profiles response).map Status.veiled =
      (StatusResponse.profiles response').map Status.veiled :=
    congrArg StatusResponse.profiles hresponse
  -- From here on only the entries matter.
  generalize StatusResponse.profiles response = statuses at hprofiles ⊢
  generalize StatusResponse.profiles response' = statuses' at hprofiles ⊢
  -- Behind the veil there are as many entries, and an entry is about the same profile.
  rcases statuses with _ | ⟨s, _ | ⟨t, others⟩⟩
  · cases List.map_eq_nil_iff.mp hprofiles.symm
    exact likewise_note_seq (likewise_pure rfl)
  · rcases statuses' with _ | ⟨s', _ | ⟨t', others'⟩⟩
    · cases hprofiles
    · have hs : s.veiled = s'.veiled := (List.cons.inj hprofiles).1
      have hiccid := (Status.veiled_eq_iff.mp hs).1
      dsimp only
      rw [hiccid]
      split
      · exact likewise_pure (congrArg some hs)
      · exact likewise_throw _ _
    · cases (List.cons.inj hprofiles).2
  · rcases statuses' with _ | ⟨s', _ | ⟨t', others'⟩⟩
    · cases hprofiles
    · cases (List.cons.inj hprofiles).2
    · have hlength := congrArg List.length hprofiles
      rw [List.length_map, List.length_map] at hlength
      dsimp only
      rw [hlength]
      exact likewise_throw _ _

/-! ## Activations -/

/-- So does a query for a profile that has to exist. -/
theorem status_likewise (iccid : String) :
    Likewise Status.veiled (c.status iccid) (c.status iccid) := by
  refine likewise_seq (status?_likewise hoff iccid) fun s s' hs => ?_
  rcases s with _ | s
  · rcases s' with _ | s'
    · exact likewise_throw _ _
    · cases hs
  · rcases s' with _ | s'
    · cases hs
    · exact likewise_pure (Option.some.inj hs)

/-- An order goes alike, and so does its refusal. -/
theorem order_likewise {op : Operation} {request : RequestHeader → op.Request}
    (hsame : ∀ header header' : RequestHeader, header.requester = header'.requester →
      unnamed op (request header) = unnamed op (request header')) :
    Likewise op.veiled
      (c.newHeader >>= fun header => c.invoke op (request header) >>= requireSuccess op)
      (c.newHeader >>= fun header => c.invoke op (request header) >>= requireSuccess op) :=
  operation_likewise hoff hsame fun _ _ hresponse => requireSuccess_likewise hresponse

/-- A step goes alike; its response is dropped. -/
theorem take_likewise (iccid : String) (step : Step) :
    Likewise id (c.take iccid step) (c.take iccid step) := by
  cases step with
  | download =>
      have hcall : Likewise (Operation.veiled .downloadOrder) (c.download iccid)
          (c.download iccid) :=
        order_likewise hoff fun _ _ h => by simp [unnamed, Operation.anonymous, h]
      exact likewise_seq hcall fun _ _ _ => likewise_pure rfl
  | confirm =>
      have hcall : Likewise (Operation.veiled .confirmOrder) (c.confirm iccid)
          (c.confirm iccid) :=
        order_likewise hoff fun _ _ h => by simp [unnamed, Operation.anonymous, h]
      exact likewise_seq hcall fun _ _ _ => likewise_pure rfl

/-- From the same status behind the veil, the same steps are taken. -/
theorem drive_likewise (iccid : String) (turns : Nat) (taken : List Step) {s s' : Status}
    (hs : s.veiled = s'.veiled) :
    Likewise id (c.drive iccid turns taken s) (c.drive iccid turns taken s') := by
  -- Each turn ends with a status of its own, which is alike only behind the veil.
  induction turns generalizing taken s s' with
  | zero =>
      unfold drive
      rw [Status.state_eq_of_veiled hs]
      exact likewise_pure rfl
  | succ turns ih =>
      unfold drive
      have hlifecycle : s.lifecycle? = s'.lifecycle? := by
        unfold Status.lifecycle?
        rw [Status.state_eq_of_veiled hs]
      rw [hlifecycle, Status.state_eq_of_veiled hs]
      split
      · exact likewise_note_seq (likewise_pure rfl)
      split
      · exact likewise_pure rfl
      split
      · exact likewise_note_seq (likewise_pure rfl)
      refine likewise_note_seq (likewise_seq (take_likewise hoff iccid _) fun _ _ _ => ?_)
      dsimp only
      split
      · exact likewise_pure rfl
      · exact likewise_seq (status_likewise hoff iccid) fun _ _ hstatus => ih _ hstatus

/-- Between the first query and the last, the token matters only in being there. -/
theorem between_likewise (iccid : String) {s s' : Status} (hs : s.veiled = s'.veiled) :
    Likewise id (c.between iccid s) (c.between iccid s') := by
  unfold between
  rw [Status.isActivated_eq_of_veiled hs, Status.state_eq_of_veiled hs]
  split
  · exact likewise_note_seq (likewise_pure rfl)
  · exact drive_likewise hoff iccid _ _ hs

/-- An activation goes alike, and ends alike but for the token. -/
theorem activate_likewise (iccid : String) :
    Likewise Activation.veiled (c.activate iccid) (c.activate iccid) := by
  rw [activate_eq]
  refine likewise_seq (status_likewise hoff iccid) fun first first' hfirst => ?_
  refine likewise_seq (between_likewise hoff iccid hfirst) ?_
  rintro x _ rfl
  refine likewise_seq (status_likewise hoff iccid) fun last last' hlast => ?_
  -- What is noted at the end shows the state, and whether there is a token.
  rw [Status.isActivated_eq_of_veiled hlast, Status.state_eq_of_veiled hlast]
  refine likewise_note_seq (likewise_pure ?_)
  show Activation.mk last.veiled x.2 x.1 = Activation.mk last'.veiled x.2 x.1
  rw [hlast]

omit hoff

/-! ## The outside -/

/-- Two histories that cannot be told apart by the log, nor by the requests up to the identifiers
of their calls. -/
structure Indistinct (h h' : List Deed) : Prop where
  events_eq : Host.events h = Host.events h'
  requests_eq : ((exchanges h).map fun x => unnamed x.op x.request) =
    (exchanges h').map fun x => unnamed x.op x.request

/-- Deeds that are alike show the same to the outside. -/
theorem indistinct_of_doneAlike {h h' : List Deed} (hdone : Host.DoneAlike veil h h') :
    Indistinct h h' := by
  induction hdone with
  | nil => exact ⟨rfl, rfl⟩
  | @cons d d' _ _ heffects _ ih =>
      rcases d with ⟨e, answer⟩
      rcases d' with ⟨e', answer'⟩
      have heffects : veiledEffects e e' := heffects
      cases e with
      | draw =>
          cases e' with
          | draw => exact ⟨ih.events_eq, ih.requests_eq⟩
          | exchange | note | print | fileBytes | clock => exact heffects.elim
      | exchange op r =>
          cases e' with
          | exchange op' r' => exact ⟨ih.events_eq, congrArg₂ List.cons heffects ih.requests_eq⟩
          | draw | note | print | fileBytes | clock => exact heffects.elim
      | note x =>
          cases e' with
          | note x' => exact ⟨congrArg₂ List.cons heffects ih.events_eq, ih.requests_eq⟩
          | draw | exchange | print | fileBytes | clock => exact heffects.elim
      | print | fileBytes | clock => exact heffects.elim

end Client

end ProfileAdmin
