import ProfileAdmin.Proofs.Client.Endpoint
import ProfileAdmin.Proofs.Client.Made
import ProfileAdmin.Proofs.Host.Correspondence

/-!
# Proofs.Client.Steady — what the identifiers of calls leave alone

1. **Likeness**: requests about one profile that differ in the identifiers of their calls.
2. **Steady programs**: they name one profile only, and whatever random bytes they are given,
   they go on alike.
3. **Operations** and activations are steady.
-/

namespace ProfileAdmin.Client

open Call
open Host (Correspondence Effect Event Program)
open Host.Program
open Profile

variable {α β : Type} {c : Client} {iccid : String}

/-! ## Likeness -/

/-- A request apart from the identifier of its call. -/
def unnamed (op : Operation) (r : op.Request) : (op : Operation) × op.Request :=
  ⟨op, op.anonymous r⟩

/-- What is asked for random bytes, of an endpoint about one profile, and of the log. -/
def aboutEffects (iccid : String) : Effect → Effect → Prop
  | .draw, .draw => True
  | .exchange op r, .exchange op' r' => op.iccids r = [iccid] ∧ unnamed op r = unnamed op' r'
  | .note _, .note _ => True
  | _, _ => False

/-- Whether there are random bytes, or why there are none. -/
def drawn : Except String Draw → Except String Unit :=
  Except.map fun _ => ()

/-- All random bytes are alike. Replies have to be the same. -/
def aboutAnswers : (e e' : Effect) → e.Answer → e'.Answer → Prop
  | .draw, .draw, d, d' => drawn d = drawn d'
  | .exchange _ _, .exchange _ _, reply, reply' => reply = reply'
  | .note _, .note _, _, _ => True
  | _, _, _, _ => False

/-- Effects about one profile, up to the identifiers of calls. -/
def about (iccid : String) : Correspondence :=
  ⟨aboutEffects iccid, aboutAnswers⟩

/-! ## Steady programs -/

/-- A program is like itself: it is about one profile, and goes on alike whatever identifiers
its calls are given. -/
def Steady (iccid : String) (p : Program α) : Prop :=
  Corresponds (about iccid) Eq p p

theorem steady_done (a : α) : Steady iccid (.done a) :=
  Corresponds.done rfl

theorem steady_note (e : Event) : Steady iccid (note e) :=
  Corresponds.perform trivial fun _ _ _ => Corresponds.done rfl

/-- Steady programs in a sequence are steady. -/
theorem steady_bind {p : Program α} {f : α → Program β} (h : Steady iccid p)
    (hf : ∀ a, Steady iccid (f a)) : Steady iccid (p >>= f) := by
  refine corresponds_bind h ?_
  rintro a _ rfl
  exact hf a

/-- Attempts in a sequence: the second is not made if the first fails. -/
theorem alike_seq {x y : Attempt α} {f g : α → Attempt β}
    (h : Corresponds (about iccid) Eq x.run y.run)
    (hfg : ∀ a, Corresponds (about iccid) Eq (f a).run (g a).run) :
    Corresponds (about iccid) Eq (x >>= f).run (y >>= g).run := by
  rw [ExceptT.run_bind, ExceptT.run_bind]
  refine corresponds_bind h ?_
  rintro r _ rfl
  cases r with
  | error e => exact Corresponds.done rfl
  | ok a => exact hfg a

/-- So are steady attempts. -/
theorem steady_seq {x : Attempt α} {f : α → Attempt β} (h : Steady iccid x.run)
    (hf : ∀ a, Steady iccid (f a).run) : Steady iccid (x >>= f).run :=
  alike_seq h hf

theorem steady_plain {p : Program α} (h : Steady iccid p) : Steady iccid (plain p).run :=
  steady_bind h fun _ => steady_done _

theorem steady_note_seq {e : Event} {f : Unit → Attempt β} (hf : Steady iccid (f ()).run) :
    Steady iccid (plain (note e) >>= f).run :=
  steady_seq (steady_plain (steady_note e)) fun _ => hf

/-! ## Operations -/

/-- Showing a payload is an entry in the log, whatever the payload is. -/
theorem showing_alike (c : Client) (iccid : String) (e e' : Event) :
    Corresponds (about iccid) Eq (plain (c.showing e)).run (plain (c.showing e')).run := by
  unfold showing
  split
  · exact Corresponds.perform trivial fun _ _ _ => Corresponds.done rfl
  · exact Corresponds.done rfl

/-- What is done with a reply depends on nothing but the reply. -/
theorem digest_steady (c : Client) (iccid : String) (op : Operation)
    (reply : Except String (List UInt8)) : Steady iccid (c.digest op reply).run := by
  cases reply with
  | error reason => exact steady_done _
  | ok body =>
      refine steady_seq (showing_alike c iccid _ _) fun _ => ?_
      split
      · exact steady_done _
      · exact steady_note_seq (steady_done _)

/-- Two calls that differ in their identifiers go alike. -/
theorem invoke_alike (c : Client) {op : Operation} {r r' : op.Request}
    (hnamed : op.iccids r = [iccid]) (hsame : unnamed op r = unnamed op r') :
    Corresponds (about iccid) Eq (c.invoke op r).run (c.invoke op r').run := by
  rw [invoke_eq, invoke_eq]
  refine alike_seq (showing_alike c iccid _ _) fun _ => ?_
  refine Corresponds.perform ⟨hnamed, hsame⟩ ?_
  rintro reply _ rfl
  exact digest_steady c iccid op reply

/-- An operation under a header of its own is steady, if only the header makes a difference to
its request. -/
theorem operation_steady {op : Operation} {request : RequestHeader → op.Request}
    {f : op.Response → Attempt β} (hnamed : ∀ header, op.iccids (request header) = [iccid])
    (hsame : ∀ header header' : RequestHeader, header.requester = header'.requester →
      unnamed op (request header) = unnamed op (request header'))
    (hf : ∀ response, Steady iccid (f response).run) :
    Steady iccid (c.newHeader >>= fun header => c.invoke op (request header) >>= f).run := by
  refine Corresponds.perform trivial ?_
  intro d d' hd
  -- Two draws work alike, or fail alike.
  cases d with
  | error reason =>
      cases d' with
      | error reason' =>
          cases hd
          exact Corresponds.done rfl
      | ok d' => cases hd
  | ok d =>
      cases d' with
      | error reason' => cases hd
      | ok d' => exact alike_seq (invoke_alike c (hnamed _) (hsame _ _ rfl)) hf

/-- A query names its profile, and only its header is drawn. -/
theorem status?_steady (c : Client) (iccid : String) : Steady iccid (c.status? iccid).run := by
  refine operation_steady (fun _ => rfl) (fun header header' h => ?_) fun response => ?_
  · simp [unnamed, Operation.anonymous, h]
  split
  · exact steady_note_seq (steady_done _)
  · split
    · exact steady_done _
    · exact steady_done _
  · exact steady_done _

theorem requireSuccess_steady (iccid : String) (op : Operation) (response : op.Response) :
    Steady iccid (requireSuccess op response).run := by
  unfold requireSuccess
  dsimp only
  split
  · exact steady_done _
  · exact steady_done _

/-- The errands of an activation are steady. -/
theorem errand_steady {e : Errand} (h : e.Activates iccid) : Steady iccid (e.attempt c).run := by
  cases h with
  | query => exact status?_steady c iccid
  | download =>
      refine operation_steady (fun _ => rfl) (fun header header' h => ?_) fun response =>
        requireSuccess_steady iccid _ response
      simp [unnamed, Operation.anonymous, h]
  | confirm =>
      refine operation_steady (fun _ => rfl) (fun header header' h => ?_) fun response =>
        requireSuccess_steady iccid _ response
      simp [unnamed, Operation.anonymous, h]

/-- What is made of steady errands is steady. -/
theorem Made.steady {x : Attempt α} (h : Made c (Errand.Activates iccid) x) :
    Steady iccid x.run := by
  induction h with
  | pure a => exact steady_done _
  | throw e => exact steady_done _
  | note e => exact steady_plain (steady_note e)
  | errand e hactivates => exact errand_steady hactivates
  | seq first others ihfirst ihothers => exact steady_seq ihfirst ihothers

/-- An activation is about its profile, and does not depend on the identifiers of its calls. -/
theorem activate_steady (c : Client) (iccid : String) : Steady iccid (c.activate iccid).run :=
  (activate_made c iccid).steady

end ProfileAdmin.Client
