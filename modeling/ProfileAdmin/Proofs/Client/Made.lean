import ProfileAdmin.Proofs.Client.Course

/-!
# Proofs.Client.Made — attempts that are made of errands

1. **Making**: errands in a sequence, with entries in the log between them.
2. **Activations**: what all calls for a profile have, and sequences keep, an activation of the
   profile has. So it is made of queries and steps for the profile.
3. **Service**: all that is said is said on an errand.
-/

namespace ProfileAdmin.Client

open Host (Deed Event Program)
open Host.Program
open Profile

variable {α : Type} {c : Client} {iccid : String} {allowed : Errand → Prop}

/-! ## Making -/

/-- Attempts that are made of errands. A failure ends them. -/
inductive Made (c : Client) (allowed : Errand → Prop) : {α : Type} → Attempt α → Prop where
  | pure {α : Type} (a : α) : Made c allowed (pure a : Attempt α)
  | throw {α : Type} (e : Error) : Made c allowed (throw e : Attempt α)
  | note (e : Event) : Made c allowed (plain (note e))
  | errand (e : Errand) (h : allowed e) : Made c allowed (e.attempt c)
  | seq {α β : Type} {x : Attempt α} {f : α → Attempt β} (first : Made c allowed x)
      (others : ∀ a, Made c allowed (f a)) : Made c allowed (x >>= f)

/-! ## Activations -/

/-- The errands of an activation. -/
inductive Errand.Activates (iccid : String) : Errand → Prop where
  | query : Activates iccid (.query iccid)
  | download : Activates iccid (.download iccid)
  | confirm : Activates iccid (.confirm iccid)

/-- A property that the calls for a profile have, and the failure for want of an entry, and that
sequences with entries in the log keep. -/
structure Inherited (c : Client) (iccid : String) (P : ∀ {α : Type}, Attempt α → Prop) :
    Prop where
  pure : ∀ {α : Type} (a : α), P (Pure.pure a : Attempt α)
  note : ∀ e : Event, P (plain (Program.note e))
  seq : ∀ {α β : Type} {x : Attempt α} {f : α → Attempt β}, P x → (∀ a, P (f a)) → P (x >>= f)
  query : P (c.status? iccid)
  unknown : P (throw (.unknownProfile iccid) : Attempt Status)
  download : P (c.download iccid)
  confirm : P (c.confirm iccid)

section

variable {P : ∀ {α : Type}, Attempt α → Prop} (hP : Inherited c iccid P)

include hP

/-- A query for a status, and a failure if there is none. -/
theorem Inherited.status : P (c.status iccid) := by
  refine hP.seq hP.query fun s => ?_
  cases s with
  | none => exact hP.unknown
  | some s => exact hP.pure s

/-- A step is an order whose response is dropped. -/
theorem Inherited.take (step : Step) : P (c.take iccid step) := by
  cases step with
  | download => exact hP.seq hP.download fun _ => hP.pure ()
  | confirm => exact hP.seq hP.confirm fun _ => hP.pure ()

/-- The loop is a sequence of notes, steps and queries, however many turns it has. -/
theorem Inherited.drive (turns : Nat) (taken : List Step) (status : Status) :
    P (c.drive iccid turns taken status) := by
  induction turns generalizing taken status with
  | zero => exact hP.pure _
  | succ turns ih =>
      unfold Client.drive
      split
      · exact hP.seq (hP.note _) fun _ => hP.pure _
      split
      · exact hP.pure _
      split
      · exact hP.seq (hP.note _) fun _ => hP.pure _
      refine hP.seq (hP.note _) fun _ => hP.seq (hP.take _) fun _ => ?_
      dsimp only
      split
      · exact hP.pure _
      · exact hP.seq hP.status fun status' => ih _ status'

/-- So an activation is one too. -/
theorem Inherited.activate : P (c.activate iccid) := by
  rw [activate_eq]
  refine hP.seq hP.status fun first => hP.seq ?_ fun x => ?_
  · unfold between
    split
    · exact hP.seq (hP.note _) fun _ => hP.pure _
    · exact hP.drive _ _ first
  · exact hP.seq hP.status fun last => hP.seq (hP.note _) fun _ => hP.pure _

end

/-- An activation is made of queries and orders for its profile. -/
theorem activate_made (c : Client) (iccid : String) :
    Made c (Errand.Activates iccid) (c.activate iccid) := by
  refine Inherited.activate (P := Made c (Errand.Activates iccid)) ?_
  constructor
  case pure => exact Made.pure
  case note => exact Made.note
  case seq => exact Made.seq
  case query => exact Made.errand (.query iccid) .query
  case unknown => exact Made.throw _
  case download => exact Made.errand (.download iccid) .download
  case confirm => exact Made.errand (.confirm iccid) .confirm

/-! ## Service -/

/-- The exchange of an errand. -/
def Exchange.Serves (c : Client) (e : Errand) (x : Exchange) : Prop :=
  ∃ callId reply, x = ⟨e.op, e.request ⟨c.requester, callId⟩, reply⟩

/-- An errand sends no request but its own. -/
theorem Errand.Goes.serves {e : Errand} {h : List Deed} {r : Except Error e.Result}
    (hgoes : e.Goes c h r) : ∀ x ∈ exchanges h, x.Serves c e := by
  rcases hgoes with reason | ⟨undrawn, said⟩
  · exact fun x hx => absurd hx List.not_mem_nil
  · rw [exchanges_drawing, said]
    intro x hx
    exact ⟨_, _, List.mem_singleton.mp hx⟩

/-- All that is said is said on an errand that is allowed. -/
theorem Made.serves {x : Attempt α} (hmade : Made c allowed x) {h : List Deed}
    {r : Except Error α} (hr : Program.Returns x.run h r) :
    ∀ y ∈ exchanges h, ∃ e, allowed e ∧ y.Serves c e := by
  -- The induction is on how the attempt is made; only errands say anything.
  induction hmade generalizing h with
  | pure a =>
      obtain ⟨rfl, -⟩ := returns_pure_iff.mp hr
      exact fun y hy => absurd hy List.not_mem_nil
  | throw e =>
      obtain ⟨rfl, -⟩ := returns_throw_iff.mp hr
      exact fun y hy => absurd hy List.not_mem_nil
  | note e =>
      obtain ⟨u, -, hn⟩ := returns_lift_iff.mp hr
      rw [(silent_note hn).exchanges_eq]
      exact fun y hy => absurd hy List.not_mem_nil
  | errand e hallowed => exact fun y hy => ⟨e, hallowed, (Errand.returns hr).serves y hy⟩
  | seq first others ihfirst ihothers =>
      rcases returns_seq_iff.mp hr with ⟨e, rfl, hx⟩ | ⟨h₁, h₂, a, rfl, hx, hf⟩
      · exact ihfirst hx
      · rw [exchanges_append]
        exact List.forall_mem_append.mpr ⟨ihfirst hx, ihothers a hf⟩

end ProfileAdmin.Client
